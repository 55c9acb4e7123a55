/-
**The constructors of new objects.**

Code that makes an object selects one of the constructors that the class offers to it: those that it may
call and whose descriptors can be read. Where none is offered, a constructor is assumed that takes the
arguments as they are. A class that declares no constructor is not told apart from one whose
constructors cannot be used.

* `Workspace.Constructs`: a class declares a constructor that code of another class can use;
* `Site.constructor_exact`: which constructor is meant;
* `Expr.new_invokes`: **a declared constructor is called exactly if there is one that can be used**;
* `Session.compile_undeclared`: a private constructor, in whose place one is called that is not there;
* `Session.compile_constructs`: what is known of the constructors that a fragment calls.
-/

import MethodPatch.Proofs.Composition.Repeats
import MethodPatch.Proofs.Patch.Invoked
import MethodPatch.Proofs.Typing.Selection

namespace MethodPatch

/-! ### Constructors on offer -/

namespace Workspace

/-- A class declares a constructor that code of another class can use: it may call it, and the
descriptor can be read. Of two constructors with one descriptor the first counts. -/
def Constructs (workspace : Workspace) (className owner : String) (method : MethodRef) : Prop :=
  ∃ entry declared, workspace.find? owner = some entry ∧
    entry.method? constructorName declared.descriptor = some declared ∧
    isAccessible className entry declared = true ∧ methodRef? owner entry declared = some method

variable {workspace : Workspace} {className owner : String} {method : MethodRef}

/-- A declaration is left if no other one with its descriptor is in front of it. -/
theorem mem_overriding_iff {declarations : List (ClassEntry × MethodEntry)}
    {declaration : ClassEntry × MethodEntry} :
    declaration ∈ overriding [] declarations ↔
      declarations.find? (fun (_, method) => method.descriptor = declaration.2.descriptor) =
        some declaration := by
  have first := filter_overriding declaration.2.descriptor [] declarations
  rw [if_neg List.not_mem_nil] at first
  rw [← Option.mem_toList, ← first, List.mem_filter]
  exact (and_iff_left (decide_eq_true rfl)).symm

/-- The constructors on offer are those that can be used. -/
theorem mem_methodsOf_constructor :
    method ∈ workspace.methodsOf className owner constructorName ↔
      workspace.Constructs className owner method := by
  have first : ∀ entry declared,
      (entry, declared) ∈ overriding [] (workspace.declarations owner constructorName) ↔
        workspace.find? owner = some entry ∧
          entry.method? constructorName declared.descriptor = some declared := by
    intro entry declared
    rw [mem_overriding_iff, declarations, if_pos rfl]
    cases workspace.find? owner with
    | none => simp
    | some found =>
      rw [Option.toList_some, List.flatMap_singleton, List.find?_map, List.find?_filter,
        Option.map_eq_some_iff]
      unfold ClassEntry.method?
      simp only [Function.comp_def, Bool.decide_and, Bool.decide_eq_true, Option.some.injEq,
        Prod.mk.injEq]
      constructor
      · rintro ⟨other, isFound, rfl, rfl⟩
        exact ⟨rfl, isFound⟩
      · rintro ⟨rfl, isFound⟩
        exact ⟨declared, isFound, rfl, rfl⟩
  unfold methodsOf Constructs
  rw [List.mem_filterMap]
  constructor
  · rintro ⟨⟨entry, declared⟩, isLeft, isRef⟩
    obtain ⟨isClass, isFirst⟩ := (first entry declared).mp isLeft
    dsimp only at isRef
    split at isRef
    · next accessible => exact ⟨entry, declared, isClass, isFirst, accessible, isRef⟩
    · cases isRef
  · rintro ⟨entry, declared, isClass, isFirst, accessible, isRef⟩
    refine ⟨(entry, declared), (first entry declared).mpr ⟨isClass, isFirst⟩, ?_⟩
    dsimp only
    rw [if_pos accessible, isRef]

theorem Constructs.named (constructs : workspace.Constructs className owner method) :
    method.name = constructorName ∧ method.owner = owner :=
  constructor_of_mem_methodsOf (mem_methodsOf_constructor.mpr constructs)

end Workspace

/-- The constructor that is assumed where none is offered. -/
def MethodRef.assumed (className : String) (arguments : List StaticType) : MethodRef :=
  ⟨className, constructorName, ⟨arguments.map Site.parameterFor, none⟩, false, false⟩

/-- **The constructor that is meant** is one that can be used, and that takes the arguments; or none can
be used, and it is the assumed one. -/
theorem Site.constructor_exact {site : Site} {workspace : Workspace}
    {className owner : String} {arguments : List StaticType} {position : Position}
    {method : MethodRef} (host : site.host = workspace.host className)
    (made : site.constructor owner arguments position = .ok method) :
    workspace.Constructs className owner method ∧ method.Applicable site.host false arguments ∨
      (∀ other, ¬ workspace.Constructs className owner other) ∧
        method = .assumed owner arguments := by
  have offered : ∀ other, other ∈ site.host.methods owner constructorName ↔
      workspace.Constructs className owner other := by
    rw [host]
    exact fun other => Workspace.mem_methodsOf_constructor
  unfold constructor at made
  split at made
  · next none =>
    cases made
    refine .inr ⟨fun other constructs => ?_, rfl⟩
    have isIn := (offered other).mpr constructs
    rw [none] at isIn
    cases isIn
  · obtain ⟨strict, phase⟩ :=
      Host.exists_phase site.host (site.host.methods owner constructorName) arguments
    obtain ⟨isCandidate, applicable⟩ := phase.of_select made
    refine .inl ⟨(offered method).mp isCandidate, ?_⟩
    cases strict with
    | true => exact applicable.lenient
    | false => exact applicable

/-- A constructor that is called can be used, or its class has none that can be used, or it is one by
which strings are joined. -/
theorem Site.Calls.constructs {site : Site} {workspace : Workspace} {className : String}
    {dispatch : Dispatch} {method : MethodRef} (calls : site.Calls dispatch method)
    (host : site.host = workspace.host className) (isConstructor : method.name = constructorName) :
    JoinsStrings dispatch method ∨ workspace.Constructs className method.owner method ∨
      ∀ other, ¬ workspace.Constructs className method.owner other := by
  cases calls with
  | @call owner name receiver arguments position _ called =>
    have isIn := mem_of_calledMethod called
    rw [host] at isIn
    obtain ⟨entry, declared, isDeclaration, _, isRef⟩ := Workspace.of_mem_methodsOf isIn
    obtain ⟨_, _, rfl⟩ := Workspace.methodRef?_eq_some_iff.mp isRef
    obtain rfl : name = constructorName :=
      (Workspace.mem_declarations_iff.mp isDeclaration).2.2.symm.trans isConstructor
    have constructs := Workspace.mem_methodsOf_constructor.mp isIn
    rw [constructs.named.2]
    exact .inr (.inl constructs)
  | @new owner arguments position _ isClass made =>
    rcases Site.constructor_exact host made with ⟨constructs, _⟩ | ⟨none, rfl⟩
    · rw [constructs.named.2]
      exact .inr (.inl constructs)
    · exact .inr (.inr none)
  | join joins => exact .inl joins

/-! ### Code for new objects -/

/-- A call ends with its instruction, whose constant names the method. -/
theorem Emit.invokes {dispatch : Dispatch} {method : MethodRef} {before after : Generator}
    {done : Unit} (fits : before.body.pool.Fits)
    (yields : Yields (Emit.invoke dispatch method) before done after) :
    ∃ index argumentSlots resultSlots,
      after.instrs.getLast? = some (.invoke dispatch index argumentSlots resultSlots) ∧
        Pool.IsMember dispatch.constant method.owner method.name method.signature.descriptor
          after.body.pool index := by
  simp only [Emit.invoke, yields_bind, Emit.yields_constant, Emit.yields_instr, yields_ite,
    Emit.yields_fail] at yields
  obtain ⟨index, _, ⟨pool, added, rfl⟩, ⟨_, _, _, failed, _⟩ | ⟨_, rfl⟩⟩ := yields
  · cases failed
  · have isMember := dispatch.leaves_constant _ _ _ _ _ _ _ fits added (.refl _)
    have isLast (instr : Instr) : ((before.withPool pool).push instr).instrs.getLast? = some instr := by
      rw [Generator.instrs_push, List.getLast?_concat]
    exact ⟨index, _, _, isLast _, isMember⟩

/-- **A declared constructor is called exactly if there is one that can be used.** The code for a new
object ends with a call whose constant names a constructor of its class. That constructor is declared by
the class, code of the class under edit may call it and it takes the arguments, exactly if the class
declares any constructor that can be used; otherwise it is the assumed one. -/
theorem Expr.new_invokes {workspace : Workspace} {className : String} {site : Site} {scope : Scope}
    {type : TypeRef} {arguments : List Expr} {position : Position} {before after : Generator}
    {answer : StaticType} (host : site.host = workspace.host className)
    (fits : before.body.pool.Fits)
    (yields : Yields ((Expr.new type arguments position).lower site scope).value before answer
      after) :
    ∃ owner types method index argumentSlots resultSlots,
      site.instantiated type position = .ok owner ∧ argumentTypes site scope arguments = .ok types ∧
      answer = .value (.object owner) ∧ method.owner = owner ∧ method.name = constructorName ∧
      after.instrs.getLast? =
        some (.invoke (site.host.dispatch method) index argumentSlots resultSlots) ∧
      Pool.IsMember (site.host.dispatch method).constant owner constructorName
        method.signature.descriptor after.body.pool index ∧
      (workspace.Constructs className owner method ∧ method.Applicable site.host false types ↔
        ∃ other, workspace.Constructs className owner other) ∧
      ((∀ other, ¬ workspace.Constructs className owner other) → method = .assumed owner types) := by
  rw [Expr.lower, Lowered.ofValue] at yields
  simp only [yields_bind, yields_liftExcept, yields_pure] at yields
  obtain ⟨owner, _, ⟨isClass, rfl⟩, types, _, ⟨typed, rfl⟩, method, _, ⟨made, rfl⟩, _, middle, allocated,
    _, _, passed, _, _, called, rfl, rfl⟩ := yields
  have meant : ∀ type ∈ writtenAll arguments, type.Means (fun _ => True) site.host :=
    fun _ _ _ _ => trivial
  have code : Emit.Composed (fun _ => True) (fun _ _ => True) site
      (Emit.newObject owner >>= fun _ =>
        lowerArguments site scope arguments method.signature.parameters) fun _ => True :=
    (Emit.composed_newObject owner).seq
      (arguments_composed site.speaks_all (covers_all scope) arguments meant _)
  have grows := code.grows (yields_bind.mpr ⟨_, _, allocated, passed⟩)
  obtain ⟨index, argumentSlots, resultSlots, isLast, isMember⟩ :=
    Emit.invokes (grows.pool.fits fits) called
  rcases Site.constructor_exact host made with ⟨constructs, applicable⟩ | ⟨none, rfl⟩
  · obtain ⟨named, owned⟩ := constructs.named
    rw [named, owned] at isMember
    exact ⟨owner, types, method, index, argumentSlots, resultSlots, isClass, typed, rfl, owned, named,
      isLast, isMember, iff_of_true ⟨constructs, applicable⟩ ⟨method, constructs⟩,
      fun none => absurd constructs (none method)⟩
  · exact ⟨owner, types, _, index, argumentSlots, resultSlots, isClass, typed, rfl, rfl, rfl, isLast,
      isMember, iff_of_false (fun both => none _ both.1) (not_exists.mpr none), fun _ => rfl⟩

/-! ### Fragments -/

/-- A class with a method that is edited, a class whose only constructor is private, and one with a
private and a public constructor. -/
def vaultTarget : Target where
  workspace :=
    { primary :=
        { name := "app"
          classes :=
            [Platform.classOf "Main" [Platform.staticMethod "run" "()V"],
              Platform.classOf "Vault" [{ Platform.constructor "" with isPrivate := true }],
              Platform.classOf "Safe"
                [{ Platform.constructor "I" with isPrivate := true }, Platform.constructor "J"]] }
      libraries := [] }
  reading := 0
  className := "Main"
  methodName := "run"
  descriptor := "()V"

/-- The site of the method that is edited. -/
def vaultSite : Site :=
  ⟨⟨"Main", "run", ⟨[], none⟩, true⟩, vaultTarget.workspace.host "Main"⟩

/-- `new Safe(5)`. -/
def newSafe : Expr :=
  .new ⟨.named "Safe", 0, none⟩ [.literal (.int 5) ⟨1, 10, 9⟩] ⟨1, 1, 0⟩

/-- The public constructor of `Safe`. -/
def safeConstructor : MethodRef := ⟨"Safe", constructorName, ⟨[.long], none⟩, false, false⟩

/-- What new objects of `Vault` and `Safe` compile to, and the constructor of `Safe`, all evaluated
together. -/
theorem vault_passes : ∃ opened, Session.start vaultTarget doorRecord true = .ok opened ∧
    (opened.after []).compilesTo "new Vault(5);" (fun fragment body =>
      decide (.invoke .special 6 1 0 ∈ body.instrs ∧ fragment.pool =
        ⟨1, #[.utf8 "Vault", .classRef 1, .utf8 "<init>", .utf8 "(I)V", .nameAndType 3 4,
          .method 2 5]⟩)) = true ∧
    ((newSafe.lower vaultSite (.root [])).value.run.run
      (.ofPool vaultSite.method (.ofReserved 1))).1.toOption.isSome = true ∧
    ((vaultTarget.workspace.find? "Safe").bind fun entry =>
      Workspace.methodRef? "Safe" entry (Platform.constructor "J")) = some safeConstructor :=
  Session.opens_of_decide (by decide +kernel)

theorem constructs_safe : vaultTarget.workspace.Constructs "Main" "Safe" safeConstructor := by
  obtain ⟨_, _, _, _, found⟩ := vault_passes
  exact ⟨_, Platform.constructor "J", rfl, by decide, by decide, found⟩

/-- An `int` is given to the constructor that takes a `long`, since the other one is private. -/
theorem Expr.new_invokes_safe :
    vaultSite.host = vaultTarget.workspace.host "Main" ∧ (Pool.ofReserved 1).Fits ∧
      ∃ answer after method index argumentSlots resultSlots,
        Yields (newSafe.lower vaultSite (.root [])).value (.ofPool vaultSite.method (.ofReserved 1))
            answer after ∧
          after.instrs.getLast? =
            some (.invoke (vaultSite.host.dispatch method) index argumentSlots resultSlots) ∧
          Pool.IsMember (vaultSite.host.dispatch method).constant "Safe" constructorName
            method.signature.descriptor after.body.pool index ∧
          vaultTarget.workspace.Constructs "Main" "Safe" method ∧
          method.Applicable vaultSite.host false [.value .int] := by
  refine ⟨rfl, Pool.fits_ofReserved 1, ?_⟩
  obtain ⟨_, _, _, runs, _⟩ := vault_passes
  rcases ran : (newSafe.lower vaultSite (.root [])).value.run.run
    (.ofPool vaultSite.method (.ofReserved 1)) with ⟨_ | answer, after⟩
  · rw [ran] at runs
    cases runs
  · obtain ⟨owner, types, method, index, argumentSlots, resultSlots, isClass, typed, _, _, _, isLast,
      isMember, exact_, _⟩ := Expr.new_invokes rfl (Pool.fits_ofReserved 1) ran
    have isSafe : (vaultSite.instantiated ⟨.named "Safe", 0, none⟩ ⟨1, 1, 0⟩).toOption =
      some "Safe" := rfl
    rw [isClass] at isSafe
    cases isSafe
    cases typed
    obtain ⟨constructs, applicable⟩ := exact_.mpr ⟨_, constructs_safe⟩
    exact ⟨answer, after, method, index, argumentSlots, resultSlots, ran, isLast, isMember, constructs,
      applicable⟩

namespace Session

variable {target : Target} {record : MethodRecord} {strict : Bool} {opened later : Session}
  {source : String} {fragment : Fragment}

/-- **The constructors that a fragment calls** are declared by their classes and can be used, unless
their class has none that can be used. Strings are joined by constructors that are not looked for. -/
theorem compile_constructs (opens : start target record strict = .ok opened) (sources : List String)
    (compiled : (opened.after sources).compile source = (.ok fragment, later)) :
    ∃ body, later.body? = some body ∧ body.Makes fragment ∧
      ∀ dispatch index argumentSlots resultSlots,
        .invoke dispatch index argumentSlots resultSlots ∈ body.instrs →
          ∃ method : MethodRef,
            Pool.IsMember dispatch.constant method.owner method.name method.signature.descriptor
              fragment.pool index ∧
            (method.name = constructorName → JoinsStrings dispatch method ∨
              target.workspace.Constructs target.className method.owner method ∨
              ∀ other, ¬ target.workspace.Constructs target.className method.owner other) := by
  obtain ⟨site, body, isSite, isBody, makes, stands⟩ := compile_stands opens sources compiled
  obtain ⟨_, _, _, host⟩ := Target.site_eq isSite
  refine ⟨body, isBody, makes, fun dispatch index argumentSlots resultSlots isIn => ?_⟩
  obtain ⟨method, calls, isMember, _⟩ := stands _ isIn
  exact ⟨method, isMember, calls.constructs host⟩

/-- The only constructor of `Vault` is private and has no parameters, but one that takes an `int` is
called. -/
theorem compile_undeclared : ∃ opened fragment later body,
    start vaultTarget doorRecord true = .ok opened ∧
      (opened.after []).compile "new Vault(5);" = (.ok fragment, later) ∧
      later.body? = some body ∧ .invoke .special 6 1 0 ∈ body.instrs ∧
      Pool.IsMember .method "Vault" constructorName "(I)V" fragment.pool 6 ∧
      ∃ entry, vaultTarget.workspace.find? "Vault" = some entry ∧
        (∃ declared ∈ entry.methods, declared.name = constructorName) ∧
        ∀ declared ∈ entry.methods, declared.descriptor ≠ "(I)V" ∧
          Workspace.isAccessible vaultTarget.className entry declared = false := by
  obtain ⟨opened, opens, passes, _⟩ := vault_passes
  obtain ⟨fragment, later, body, compiled, isBody, holds⟩ := exists_of_compilesTo passes
  obtain ⟨calls, isPool⟩ := of_decide_eq_true holds
  refine ⟨opened, fragment, later, body, opens, compiled, isBody, calls, ?_, _, rfl, by decide, by decide⟩
  rw [isPool]
  exact isMember_one "Vault" constructorName "(I)V"

end Session

end MethodPatch
