/-
**The methods that code can call.**

A method may be declared in a class and again in classes that it is derived from. Of the declarations
with one descriptor the nearest one counts, and only then is it asked whether code may call it. So a
private declaration takes the place of one behind it that code might call.

* `Workspace.inherited`, `Workspace.nearest?`: declarations, and the nearest one that code may call;
* `Workspace.Conceals`: a private declaration is in front of that one;
* `Workspace.methodsOf_exact_iff`: **the nearest ones are offered, unless they are concealed**;
* `Workspace.methodsOf_concealed`: a method of an interface that a private one conceals;
* `Workspace.of_mem_methodsOf`, `Workspace.private_of_mem_methodsOf`: what is known of a method that is
  offered.
-/

import MethodPatch.Proofs.Types.Grammar
import MethodPatch.Proofs.Workspace.Hierarchy
import MethodPatch.Workspace.Host

namespace MethodPatch.Workspace

/-! ### Declarations -/

/-- The declarations of a method in a class and in the classes that it is derived from, nearest
first. -/
def inherited (workspace : Workspace) (owner name : String) : List (ClassEntry × MethodEntry) :=
  (workspace.hierarchy owner).flatMap fun entry =>
    (entry.methods.filter fun method => method.name = name).map fun method => (entry, method)

/-- The nearest declaration with a descriptor that code of a class may call. -/
def nearest? (workspace : Workspace) (className owner name descriptor : String) :
    Option (ClassEntry × MethodEntry) :=
  (workspace.inherited owner name).find? fun (entry, method) =>
    method.descriptor = descriptor ∧ isAccessible className entry method

/-- The nearest declaration with a descriptor is none that code of a class may call, but one behind it
is. -/
def Conceals (workspace : Workspace) (className owner name descriptor : String) : Prop :=
  (workspace.nearest? className owner name descriptor).isSome = true ∧
    ∃ entry method, (workspace.inherited owner name).find? (fun (_, method) =>
        method.descriptor = descriptor) = some (entry, method) ∧
      isAccessible className entry method = false

variable {workspace : Workspace} {className owner name descriptor : String} {entry : ClassEntry}
  {declared : MethodEntry} {method : MethodRef} {signature : Signature}

theorem declarations_of_ne (isMethod : name ≠ constructorName) :
    workspace.declarations owner name = workspace.inherited owner name := by
  unfold declarations inherited
  rw [if_neg isMethod]

/-- Of the declarations with one descriptor the first one is left. -/
theorem filter_overriding (descriptor : String) (seen : List String)
    (declarations : List (ClassEntry × MethodEntry)) :
    (overriding seen declarations).filter (fun (_, method) => method.descriptor = descriptor) =
      if descriptor ∈ seen then []
      else (declarations.find? fun (_, method) => method.descriptor = descriptor).toList := by
  induction declarations generalizing seen with
  | nil => simp [overriding]
  | cons first rest ih =>
    obtain ⟨entry, method⟩ := first
    unfold overriding
    by_cases known : method.descriptor ∈ seen
    · rw [if_pos known, ih]
      by_cases same : method.descriptor = descriptor
      · rw [if_pos (same ▸ known), if_pos (same ▸ known)]
      · rw [List.find?_cons_of_neg (by simpa using same)]
    · rw [if_neg known]
      by_cases same : method.descriptor = descriptor
      · rw [List.filter_cons_of_pos (by simpa using same), ih, if_pos (by simp [same]),
          if_neg (same ▸ known), List.find?_cons_of_pos (by simpa using same)]
        rfl
      · rw [List.filter_cons_of_neg (by simpa using same), ih,
          List.find?_cons_of_neg (by simpa using same)]
        simp only [List.mem_cons, Ne.symm same, false_or]

/-- A declaration as code refers to it. -/
theorem methodRef?_eq_some_iff : methodRef? owner entry declared = some method ↔
    ∃ signature, Signature.ofDescriptor? declared.descriptor = .ok signature ∧
      method = ⟨if declared.isStatic then entry.name else owner, declared.name, signature,
        declared.isStatic, declared.isPrivate⟩ := by
  unfold methodRef?
  split
  · next signature read =>
    rw [Option.some.injEq, eq_comm]
    constructor
    · rintro rfl
      exact ⟨signature, read, rfl⟩
    · rintro ⟨other, isOther, rfl⟩
      cases read.symm.trans isOther
      rfl
  · next unread =>
    refine iff_of_false nofun ?_
    rintro ⟨signature, read, _⟩
    cases unread.symm.trans read

/-- **What is known of a method that is offered**: it is declared, and code may call it. -/
theorem of_mem_methodsOf (isIn : method ∈ workspace.methodsOf className owner name) :
    ∃ entry declared, (entry, declared) ∈ workspace.declarations owner name ∧
      isAccessible className entry declared = true ∧ methodRef? owner entry declared = some method := by
  have within : ∀ (seen : List String) declarations,
      overriding seen declarations ⊆ declarations := by
    intro seen declarations
    induction declarations generalizing seen with
    | nil => exact List.Subset.refl _
    | cons first rest ih =>
      unfold overriding
      split
      · exact List.subset_cons_of_subset _ (ih seen)
      · exact List.cons_subset_cons _ (ih _)
  obtain ⟨⟨entry, declared⟩, isLeft, isRef⟩ := List.mem_filterMap.mp isIn
  dsimp only at isRef
  split at isRef
  · next accessible => exact ⟨entry, declared, within _ _ isLeft, accessible, isRef⟩
  · cases isRef

/-- A method is declared in a class where methods of its name are looked for. -/
theorem mem_declarations_iff : (entry, declared) ∈ workspace.declarations owner name ↔
    entry ∈ (if name = constructorName then (workspace.find? owner).toList
      else workspace.hierarchy owner) ∧ declared ∈ entry.methods ∧ declared.name = name := by
  unfold declarations
  simp only [List.mem_flatMap, List.mem_map, List.mem_filter, decide_eq_true_eq, Prod.mk.injEq]
  constructor
  · rintro ⟨found, isClass, other, ⟨isDeclared, named⟩, rfl, rfl⟩
    exact ⟨isClass, isDeclared, named⟩
  · rintro ⟨isClass, isDeclared, named⟩
    exact ⟨entry, isClass, declared, ⟨isDeclared, named⟩, rfl, rfl⟩

/-- A class declares an instance method for itself alone. -/
def DeclaresPrivate (workspace : Workspace) (className : String) (method : MethodRef) : Prop :=
  ∃ entry declared, workspace.find? className = some entry ∧ declared ∈ entry.methods ∧
    declared.name = method.name ∧ Signature.ofDescriptor? declared.descriptor = .ok method.signature ∧
    declared.isPrivate = true ∧ declared.isStatic = false

/-- A private instance method on offer is one of the class where the code is. The class that it is
called on is derived from that class, and it is the owner of the reference. -/
theorem private_of_mem_methodsOf (isMethod : name ≠ constructorName)
    (isIn : method ∈ workspace.methodsOf className owner name) (isPrivate : method.isPrivate = true)
    (isInstance : method.isStatic = false) :
    workspace.DeclaresPrivate className method ∧ workspace.IsDerived method.owner className := by
  obtain ⟨entry, declared, isDeclaration, accessible, isRef⟩ := of_mem_methodsOf isIn
  obtain ⟨signature, read, rfl⟩ := methodRef?_eq_some_iff.mp isRef
  dsimp only at isPrivate isInstance ⊢
  have here : entry.name = className := by
    unfold isAccessible at accessible
    rw [isPrivate] at accessible
    simpa using accessible
  obtain ⟨isClass, isDeclared, named⟩ := mem_declarations_iff.mp isDeclaration
  rw [if_neg isMethod, mem_hierarchy, here] at isClass
  obtain ⟨found, derived⟩ := isClass
  refine ⟨⟨entry, declared, found, isDeclared, rfl, read, isPrivate, isInstance⟩, ?_⟩
  rw [isInstance, if_neg Bool.false_ne_true]
  exact .inr derived.symm

/-- Constructors are those of the class itself. -/
theorem constructor_of_mem_methodsOf
    (isIn : method ∈ workspace.methodsOf className owner constructorName) :
    method.name = constructorName ∧ method.owner = owner := by
  obtain ⟨entry, declared, isDeclaration, _, isRef⟩ := of_mem_methodsOf isIn
  obtain ⟨signature, _, rfl⟩ := methodRef?_eq_some_iff.mp isRef
  obtain ⟨isClass, _, named⟩ := mem_declarations_iff.mp isDeclaration
  rw [if_pos rfl, Option.mem_toList] at isClass
  refine ⟨named, ?_⟩
  dsimp only
  rw [name_of_first isClass, ite_self]

/-! ### The methods on offer -/

/-- Of one signature, the methods on offer come from the nearest declaration, if code may call it. -/
theorem filter_methodsOf (isMethod : name ≠ constructorName)
    (read : Signature.ofDescriptor? descriptor = .ok signature) :
    (workspace.methodsOf className owner name).filter (fun method => method.signature = signature) =
      (((workspace.inherited owner name).find? fun (_, method) =>
        method.descriptor = descriptor).bind fun (entry, method) =>
          if isAccessible className entry method then methodRef? owner entry method
          else none).toList := by
  have refers : ∀ declaration : ClassEntry × MethodEntry,
      (if isAccessible className declaration.1 declaration.2 then
        methodRef? owner declaration.1 declaration.2 else none).filter
          (fun method => method.signature = signature) =
      if declaration.2.descriptor = descriptor then
        if isAccessible className declaration.1 declaration.2 then
          methodRef? owner declaration.1 declaration.2 else none
      else none := by
    rintro ⟨entry, declared⟩
    dsimp only
    split
    · cases isRef : methodRef? owner entry declared with
      | none => simp
      | some method =>
        obtain ⟨found, isFound, rfl⟩ := methodRef?_eq_some_iff.mp isRef
        -- A signature is read from one text alone.
        have same : found = signature ↔ declared.descriptor = descriptor := by
          rw [(Signature.ofDescriptor?_eq_ok_iff.mp read).1]
          constructor
          · rintro rfl
            exact (Signature.ofDescriptor?_eq_ok_iff.mp isFound).1
          · intro sameText
            rw [sameText, ← (Signature.ofDescriptor?_eq_ok_iff.mp read).1, read] at isFound
            exact (Except.ok.inj isFound).symm
        simp [Option.filter, same]
    · simp
  unfold methodsOf
  rw [List.filter_filterMap, declarations_of_ne isMethod]
  calc
    _ = ((overriding [] (workspace.inherited owner name)).filter
          fun (_, method) => method.descriptor = descriptor).filterMap
            fun (entry, method) =>
              if isAccessible className entry method then methodRef? owner entry method
              else none := by
        rw [List.filterMap_filter]
        congr 1
        funext declaration
        rw [refers]
        simp
    _ = _ := by
        rw [filter_overriding, if_neg List.not_mem_nil]
        cases (workspace.inherited owner name).find? fun (_, method) =>
          method.descriptor = descriptor <;> rfl

/-- A first declaration that code may call is the nearest one that it may call. -/
theorem nearest?_of_accessible
    (first : (workspace.inherited owner name).find? (fun (_, method) =>
      method.descriptor = descriptor) = some (entry, declared))
    (accessible : isAccessible className entry declared = true) :
    workspace.nearest? className owner name descriptor = some (entry, declared) := by
  obtain ⟨same, front, behind, split, others⟩ := List.find?_eq_some_iff_append.mp first
  refine List.find?_eq_some_iff_append.mpr ⟨?_, front, behind, split, fun other isFront => ?_⟩
  · exact decide_eq_true ⟨of_decide_eq_true same, accessible⟩
  · have differs := others other isFront
    simp only [Bool.not_eq_true', decide_eq_false_iff_not] at differs ⊢
    exact fun both => differs both.1

theorem nearest?_of_undeclared
    (none_ : (workspace.inherited owner name).find? (fun (_, method) =>
      method.descriptor = descriptor) = none) :
    workspace.nearest? className owner name descriptor = none := by
  refine List.find?_eq_none.mpr fun declaration isIn both => ?_
  refine List.find?_eq_none.mp none_ declaration isIn (decide_eq_true ?_)
  exact (of_decide_eq_true both).1

/-- What is concealed is not offered, and no other method of its signature is. -/
theorem filter_of_conceals (isMethod : name ≠ constructorName)
    (read : Signature.ofDescriptor? descriptor = .ok signature)
    (conceals : workspace.Conceals className owner name descriptor) :
    (workspace.methodsOf className owner name).filter (fun method =>
      method.signature = signature) = [] := by
  obtain ⟨_, entry, declared, first, inaccessible⟩ := conceals
  rw [filter_methodsOf isMethod read, first, Option.bind_some]
  dsimp only
  rw [inaccessible]
  rfl

/-- What is not concealed is offered. -/
theorem filter_of_not_conceals (isMethod : name ≠ constructorName)
    (read : Signature.ofDescriptor? descriptor = .ok signature)
    (open_ : ¬ workspace.Conceals className owner name descriptor) :
    (workspace.methodsOf className owner name).filter (fun method => method.signature = signature) =
      ((workspace.nearest? className owner name descriptor).bind fun (entry, declared) =>
        methodRef? owner entry declared).toList := by
  rw [filter_methodsOf isMethod read]
  cases first : (workspace.inherited owner name).find? fun (_, method) =>
      method.descriptor = descriptor with
  | none => rw [nearest?_of_undeclared first, Option.bind_none, Option.bind_none]
  | some declaration =>
    obtain ⟨entry, declared⟩ := declaration
    rw [Option.bind_some]
    dsimp only
    cases accessible : isAccessible className entry declared with
    | true =>
      rw [nearest?_of_accessible first accessible]
      rfl
    | false =>
      have isNone : workspace.nearest? className owner name descriptor = none :=
        Option.not_isSome_iff_eq_none.mp fun isSome =>
          open_ ⟨isSome, entry, declared, first, accessible⟩
      rw [isNone]
      rfl

/-- **The nearest declarations that code may call are offered, unless they are concealed.** Nothing else
is offered. Of a descriptor that makes sense, what is offered is the nearest declaration that code of the
class may call, exactly if no private declaration of another class is in front of it; if there is one,
nothing is offered. -/
theorem methodsOf_exact_iff (workspace : Workspace) (className owner : String)
    (isMethod : name ≠ constructorName) :
    (∀ method ∈ workspace.methodsOf className owner name, ∃ descriptor entry declared,
      Signature.ofDescriptor? descriptor = .ok method.signature ∧
        workspace.nearest? className owner name descriptor = some (entry, declared) ∧
        methodRef? owner entry declared = some method) ∧
    ∀ descriptor signature, Signature.ofDescriptor? descriptor = .ok signature →
      ((workspace.methodsOf className owner name).filter (fun method => method.signature = signature) =
          ((workspace.nearest? className owner name descriptor).bind fun (entry, declared) =>
            methodRef? owner entry declared).toList ↔
        ¬ workspace.Conceals className owner name descriptor) ∧
      (workspace.Conceals className owner name descriptor →
        (workspace.methodsOf className owner name).filter (fun method =>
          method.signature = signature) = []) := by
  refine ⟨fun method isIn => ?_, fun descriptor signature read =>
    ⟨⟨fun offered conceals => ?_, filter_of_not_conceals isMethod read⟩,
      filter_of_conceals isMethod read⟩⟩
  · obtain ⟨entry, declared, _, _, isRef⟩ := of_mem_methodsOf isIn
    obtain ⟨signature, read, rfl⟩ := methodRef?_eq_some_iff.mp isRef
    have isOffered : _ ∈ (workspace.methodsOf className owner name).filter (fun method =>
        method.signature = signature) := List.mem_filter.mpr ⟨isIn, decide_eq_true rfl⟩
    have open_ : ¬ workspace.Conceals className owner name declared.descriptor := fun conceals => by
      rw [filter_of_conceals isMethod read conceals] at isOffered
      cases isOffered
    rw [filter_of_not_conceals isMethod read open_, Option.mem_toList] at isOffered
    obtain ⟨⟨nearest, found⟩, isNearest, same⟩ := Option.bind_eq_some_iff.mp isOffered
    exact ⟨declared.descriptor, nearest, found, read, isNearest, same⟩
  · obtain ⟨⟨nearest, found⟩, isNearest⟩ := Option.isSome_iff_exists.mp conceals.1
    have isChosen := List.find?_some isNearest
    have same : found.descriptor = descriptor := (of_decide_eq_true isChosen).1
    have isRef : methodRef? owner nearest found = some _ :=
      methodRef?_eq_some_iff.mpr ⟨signature, same ▸ read, rfl⟩
    rw [filter_of_conceals isMethod read conceals, isNearest, Option.bind_some] at offered
    dsimp only at offered
    rw [isRef] at offered
    cases offered

/-! ### A concealed method -/

/-- A class that extends a class with a private method and implements an interface that declares the
same method. -/
def concealing : Workspace where
  primary :=
    { name := "app"
      classes :=
        [Platform.classOf "Main" [Platform.method "run" "()V"],
          Platform.classOf "Base" [{ Platform.method "close" "()V" with isPrivate := true }],
          { Platform.classOf "Closeable" [Platform.method "close" "()V"] with isInterface := true },
          { Platform.classOf "File" [Platform.method "open" "()V"] with
            parent := some "Base", interfaces := ["Closeable"] }] }
  libraries := []

/-- In the class that declares the private method, this is the one that is offered. -/
theorem methodsOf_exact_iff_private : "close" ≠ constructorName ∧
    (concealing.methodsOf "Base" "File" "close").filter (fun method =>
        method.signature = ⟨[], none⟩) =
      ((concealing.nearest? "Base" "File" "close" "()V").bind fun (entry, declared) =>
        methodRef? "File" entry declared).toList ∧
    concealing.nearest? "Base" "File" "close" "()V" =
      some (Platform.classOf "Base" [{ Platform.method "close" "()V" with isPrivate := true }],
        { Platform.method "close" "()V" with isPrivate := true }) := by
  have isMethod : "close" ≠ constructorName := by decide
  have read : Signature.ofDescriptor? "()V" = .ok ⟨[], none⟩ := by decide +kernel
  have isNearest : concealing.nearest? "Base" "File" "close" "()V" =
      some (Platform.classOf "Base" [{ Platform.method "close" "()V" with isPrivate := true }],
        { Platform.method "close" "()V" with isPrivate := true }) := by decide +kernel
  refine ⟨isMethod, ?_, isNearest⟩
  refine (((methodsOf_exact_iff concealing "Base" "File" isMethod).2 _ _ read).1).mpr ?_
  rintro ⟨_, entry, declared, first, inaccessible⟩
  have isFirst : (concealing.inherited "File" "close").find? (fun (_, method) =>
      method.descriptor = "()V") = concealing.nearest? "Base" "File" "close" "()V" := by decide +kernel
  rw [isFirst, isNearest] at first
  cases first
  revert inaccessible
  decide

/-- Elsewhere the private method conceals the one of the interface, which code may call. -/
theorem methodsOf_concealed :
    (concealing.methodsOf "Main" "File" "close").filter (fun method =>
        method.signature = ⟨[], none⟩) = [] ∧
      ((concealing.nearest? "Main" "File" "close" "()V").bind fun (entry, declared) =>
        methodRef? "File" entry declared) = some ⟨"File", "close", ⟨[], none⟩, false, false⟩ := by
  decide +kernel

end MethodPatch.Workspace
