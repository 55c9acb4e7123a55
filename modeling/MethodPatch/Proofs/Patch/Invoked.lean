/-
**The methods that fragments call.**

A call is made in a way that depends on the method, and this way decides about the kind of the constant
that names the method. A private method is called on the class of the object, which may be derived
from the class that declares it; and only a call that goes through an interface has a constant of an
interface, although interfaces have static and private methods as well.

* `Host.dispatch_eq_interface_iff`: which methods are called through an interface;
* `Site.Calls.special`, `Site.Calls.interface`: what is known of a method by the way it is called;
* `Session.compile_stands`: the operands of a fragment;
* `Session.compile_special`: **what is called as special: constructors, and private methods of the
  class, on classes derived from it**;
* `Session.compile_interface`: **which calls have constants of interfaces.**
-/

import MethodPatch.Proofs.Patch.References

namespace MethodPatch

/-! ### Ways of calling -/

/-- Methods are called through an interface if their owner is one and nothing else decides. -/
theorem Host.dispatch_eq_interface_iff (host : Host) (method : MethodRef) :
    host.dispatch method = .interface ↔ host.isInterface method.owner = true ∧
      host.dispatch method ≠ .static ∧ host.dispatch method ≠ .special := by
  unfold dispatch
  split
  · exact iff_of_false nofun fun both => both.2.1 rfl
  · split
    · exact iff_of_false nofun fun both => both.2.2 rfl
    · split
      · next isInterface => exact iff_of_true rfl ⟨isInterface, nofun, nofun⟩
      · next isClass => exact iff_of_false nofun fun both => isClass both.1

theorem Host.special_of_dispatch {host : Host} {method : MethodRef}
    (special : host.dispatch method = .special) :
    method.isStatic = false ∧ (method.name = constructorName ∨ method.isPrivate = true) := by
  unfold dispatch at special
  split at special
  · cases special
  · next isInstance =>
    refine ⟨Bool.eq_false_iff.mpr isInstance, ?_⟩
    split at special
    · next either => simpa using either
    · split at special <;> cases special

namespace Site.Calls

variable {site : Site} {workspace : Workspace} {className : String} {dispatch : Dispatch}
  {method : MethodRef}

/-- **What is called as special** is a constructor, or a private method of the class where the code is.
The latter is called on a class derived from that class. -/
theorem special (calls : site.Calls .special method) (host : site.host = workspace.host className) :
    method.name = constructorName ∨
      workspace.DeclaresPrivate className method ∧ workspace.IsDerived method.owner className := by
  generalize same : Dispatch.special = dispatch at calls
  cases calls with
  | @call owner name receiver arguments position _ called =>
    obtain ⟨isInstance, isConstructor | isPrivate⟩ := Host.special_of_dispatch same.symm
    · exact .inl isConstructor
    · have isIn := mem_of_calledMethod called
      rw [host] at isIn
      by_cases isMethod : name = constructorName
      · subst isMethod
        exact .inl (Workspace.constructor_of_mem_methodsOf isIn).1
      · exact .inr (Workspace.private_of_mem_methodsOf isMethod isIn isPrivate isInstance)
  | @new owner arguments position _ isClass made =>
    unfold Site.constructor at made
    split at made
    · cases made
      exact .inl rfl
    · have isIn := (Host.select_eq made).1
      rw [host] at isIn
      exact .inl (Workspace.constructor_of_mem_methodsOf isIn).1
  | join joins =>
    subst same
    cases joins <;> exact .inl rfl

/-- **What is called through an interface** has an interface as its owner, and what has one is called
in this way unless it is static or called as special. Only a call that joins strings can be virtual on an
interface, in a workspace where the class that builds strings is one. -/
theorem interface (calls : site.Calls dispatch method) :
    (dispatch = .interface ↔ site.host.isInterface method.owner = true ∧ dispatch ≠ .static ∧
      dispatch ≠ .special) ∨
    dispatch = .virtual ∧ JoinsStrings .virtual method ∧ site.host.isInterface method.owner = true := by
  cases calls with
  | call called => exact .inl (site.host.dispatch_eq_interface_iff method)
  | new isClass made => exact .inl (site.host.dispatch_eq_interface_iff method)
  | join joins =>
    cases isInterface : site.host.isInterface method.owner with
    | false => exact .inl (iff_of_false (by rintro rfl; cases joins) nofun)
    | true =>
      cases joins with
      | empty | ofString => exact .inl (iff_of_false nofun fun both => both.2.2 rfl)
      | valueOf => exact .inl (iff_of_false nofun fun both => both.2.1 rfl)
      | append parameter => exact .inr ⟨rfl, .append parameter, rfl⟩
      | built => exact .inr ⟨rfl, .built, rfl⟩

end Site.Calls

/-- The constant at an index is one of an interface if the call goes through an interface. -/
theorem Dispatch.interfaceMethod_iff {dispatch : Dispatch} {pool : Pool} {index : PoolIndex}
    {owner name descriptor : String}
    (isMember : Pool.IsMember dispatch.constant owner name descriptor pool index) :
    (∃ class_ member, pool.get? index.toNat = some (.interfaceMethod class_ member)) ↔
      dispatch = .interface := by
  obtain ⟨class_, _, member, _, found⟩ := isMember
  rw [found, constant]
  by_cases isInterface : dispatch = .interface
  · rw [if_pos isInterface]
    exact iff_of_true ⟨class_, member, rfl⟩ isInterface
  · rw [if_neg isInterface]
    refine iff_of_false ?_ isInterface
    rintro ⟨_, _, ⟨⟩⟩

/-! ### Fragments -/

/-- A class `Door` with a private method and a method that is edited, a class that is derived from it,
and an interface with a static method. -/
def doorTarget : Target where
  workspace :=
    { primary :=
        { name := "app"
          classes :=
            [Platform.classOf "Door" [Platform.staticMethod "run" "()V",
                { Platform.method "lock" "()V" with isPrivate := true }],
              { Platform.classOf "Gate" [] with parent := some "Door" },
              { Platform.classOf "Alarm"
                  [Platform.staticMethod "test" "()V", Platform.method "ring" "()V"] with
                isInterface := true }] }
      libraries := [] }
  reading := 0
  className := "Door"
  methodName := "run"
  descriptor := "()V"

/-- No locals. -/
def doorRecord : MethodRecord := ⟨0, []⟩

/-- The constants that one call adds to a class that has none name the method. -/
theorem isMember_one (owner name descriptor : String) :
    Pool.IsMember .method owner name descriptor
      ⟨1, #[.utf8 owner, .classRef 1, .utf8 name, .utf8 descriptor, .nameAndType 3 4, .method 2 5]⟩
      6 := by
  generalize isPool : Pool.mk 1 #[.utf8 owner, .classRef 1, .utf8 name, .utf8 descriptor,
    .nameAndType 3 4, .method 2 5] = pool
  have entries : pool.entries = [(1, .utf8 owner), (2, .classRef 1), (3, .utf8 name),
      (4, .utf8 descriptor), (5, .nameAndType 3 4), (6, .method 2 5)] := by
    subst isPool
    rfl
  have found : ∀ entry ∈ pool.entries, pool.get? entry.1 = some entry.2 :=
    fun entry isEntry => Pool.get?_eq_some_iff.mpr isEntry
  simp only [entries, List.forall_mem_cons] at found
  obtain ⟨isOwner, isClass, isName, isDescriptor, isBoth, isMethod, _⟩ := found
  exact ⟨2, ⟨1, isOwner, isClass⟩, 5, ⟨3, isName, 4, isDescriptor, isBoth⟩, isMethod⟩

/-- The constants that one call adds to a class that has none, for a method without parameters and
without a result. -/
def callPool (owner name : String) : Pool :=
  ⟨1, #[.utf8 owner, .classRef 1, .utf8 name, .utf8 "()V", .nameAndType 3 4, .method 2 5]⟩

theorem isMember_callPool (owner name : String) :
    Pool.IsMember .method owner name "()V" (callPool owner name) 6 :=
  isMember_one owner name "()V"

namespace Session

variable {target : Target} {record : MethodRecord} {strict : Bool} {opened later : Session}
  {source : String} {fragment : Fragment}

/-- What calls in the door compile to, all evaluated together. -/
theorem door_passes : ∃ opened, start doorTarget doorRecord true = .ok opened ∧
    (opened.after []).compilesTo "Door door = new Door(); door.lock();" (fun _ body =>
      decide (([.invoke .special 6 0 0, .invoke .special 9 0 0] : List Instr) ⊆ body.instrs)) = true ∧
    (opened.after []).compilesTo "Gate gate = null; gate.lock();" (fun fragment body =>
      decide (.invoke .special 6 0 0 ∈ body.instrs ∧ fragment.pool = callPool "Gate" "lock")) = true ∧
    (opened.after []).compilesTo "Alarm alarm = null; alarm.ring();" (fun _ body =>
      decide (.invoke .interface 6 0 0 ∈ body.instrs)) = true ∧
    (opened.after []).compilesTo "Alarm.test();" (fun fragment body =>
      decide (.invoke .static 6 0 0 ∈ body.instrs ∧ fragment.pool = callPool "Alarm" "test")) = true :=
  opens_of_decide (by decide +kernel)

/-- The operands of a fragment stand for what they should, at the method of the session. -/
theorem compile_stands (opens : start target record strict = .ok opened) (sources : List String)
    (compiled : (opened.after sources).compile source = (.ok fragment, later)) :
    ∃ site body, target.site = .ok site ∧ later.body? = some body ∧ body.Makes fragment ∧
      ∀ instr ∈ body.instrs, instr.Stands (fun _ => True) (fun _ _ => True) site fragment.pool := by
  obtain ⟨_, hasTarget, _⟩ := start_sound opens
  obtain ⟨_, added, sound⟩ := start_adds opens sources
  have alive := (compile_generated sound compiled).1
  have tidy := after_of_step (fun tidy compiled => Tidy.compile tidy compiled) (start_tidy opens)
    sources alive
  obtain ⟨_, generation, statements, pass, generated⟩ := compile_generated tidy.sound compiled
  obtain ⟨stands, _⟩ := generated.stands_all tidy
  have isSite := generated.isSite
  rw [added.target, hasTarget] at isSite
  have atSite : pass.generation.site = generation.site := (generated.runs (.refl _)).site
  refine ⟨generation.site, _, isSite, generated.body?, generated.makes, fun instr isIn => ?_⟩
  rw [generated.makes.pool, ← atSite]
  exact (stands.code.instrs instr isIn).mono (fun _ _ _ => trivial) (.refl _)

/-- **What is called as special**: constructors, and private methods that the class under edit declares.
The constant of a private method names the class that the method is called on, which may be derived
from the class under edit. Where no other class is derived from that class, it is the one that the
constant names. -/
theorem compile_special (opens : start target record strict = .ok opened) (sources : List String)
    (compiled : (opened.after sources).compile source = (.ok fragment, later)) :
    ∃ body, later.body? = some body ∧ body.Makes fragment ∧
      ∀ index argumentSlots resultSlots, .invoke .special index argumentSlots resultSlots ∈ body.instrs →
        ∃ method : MethodRef,
          Pool.IsMember .method method.owner method.name method.signature.descriptor fragment.pool
            index ∧
          (method.name = constructorName ∨
            target.workspace.DeclaresPrivate target.className method ∧
              target.workspace.IsDerived method.owner target.className) ∧
          ((∀ other, target.workspace.IsDerived other target.className → other = target.className) →
            method.name = constructorName ∨ method.owner = target.className) := by
  obtain ⟨site, body, isSite, isBody, makes, stands⟩ := compile_stands opens sources compiled
  obtain ⟨_, _, _, host⟩ := Target.site_eq isSite
  refine ⟨body, isBody, makes, fun index argumentSlots resultSlots isIn => ?_⟩
  obtain ⟨method, calls, isMember, _⟩ := stands _ isIn
  have special := calls.special host
  exact ⟨method, isMember, special, fun alone => special.imp_right fun both => alone _ both.2⟩

/-- The constructor and the private method of a new object are called as special, and their constants
name the class itself. -/
theorem compile_special_own : ∃ opened fragment later body,
    start doorTarget doorRecord true = .ok opened ∧
      (opened.after []).compile "Door door = new Door(); door.lock();" = (.ok fragment, later) ∧
      later.body? = some body ∧
      ([.invoke .special 6 0 0, .invoke .special 9 0 0] : List Instr) ⊆ body.instrs ∧
      ∀ index ∈ ([6, 9] : List PoolIndex), ∃ method : MethodRef,
        Pool.IsMember .method method.owner method.name method.signature.descriptor fragment.pool
          index ∧
        (method.name = constructorName ∨
          doorTarget.workspace.DeclaresPrivate "Door" method ∧
            doorTarget.workspace.IsDerived method.owner "Door") := by
  obtain ⟨opened, opens, passes, _⟩ := door_passes
  obtain ⟨fragment, later, body, compiled, isBody, calls⟩ := exists_of_compilesTo passes
  obtain ⟨other, isOther, _, specials⟩ := compile_special opens [] compiled
  cases isBody.symm.trans isOther
  have isCalled := of_decide_eq_true calls
  refine ⟨opened, fragment, later, body, opens, compiled, isBody, isCalled, fun index isIndex => ?_⟩
  have isIn : .invoke .special index 0 0 ∈ body.instrs := by
    refine isCalled ?_
    simp only [List.mem_cons, List.not_mem_nil, or_false] at isIndex
    rcases isIndex with rfl | rfl
    · exact List.mem_cons_self
    · exact List.mem_cons_of_mem _ List.mem_cons_self
  obtain ⟨method, isMember, special, _⟩ := specials index 0 0 isIn
  exact ⟨method, isMember, special⟩

/-- On an object of a derived class, a private method of the class under edit is called as special,
and its constant names the derived class. -/
theorem compile_special_derived : ∃ opened fragment later body,
    start doorTarget doorRecord true = .ok opened ∧
      (opened.after []).compile "Gate gate = null; gate.lock();" = (.ok fragment, later) ∧
      later.body? = some body ∧ .invoke .special 6 0 0 ∈ body.instrs ∧
      Pool.IsMember .method "Gate" "lock" "()V" fragment.pool 6 ∧ "lock" ≠ constructorName ∧
      "Gate" ≠ doorTarget.className := by
  obtain ⟨opened, opens, _, passes, _⟩ := door_passes
  obtain ⟨fragment, later, body, compiled, isBody, holds⟩ := exists_of_compilesTo passes
  obtain ⟨calls, isPool⟩ := of_decide_eq_true holds
  refine ⟨opened, fragment, later, body, opens, compiled, isBody, calls, ?_, by decide, by decide⟩
  rw [isPool]
  exact isMember_callPool ..

/-- **Which calls have constants of interfaces**: those of methods whose owner is an interface, except
for static methods and for those that are called as special. A call that joins strings, which is
virtual, may have an interface as its owner as well, if the class that builds strings is one in the
workspace; a call of source text is never virtual on an interface. -/
theorem compile_interface (opens : start target record strict = .ok opened) (sources : List String)
    (compiled : (opened.after sources).compile source = (.ok fragment, later)) :
    ∃ body, later.body? = some body ∧ body.Makes fragment ∧
      ∀ dispatch index argumentSlots resultSlots,
        .invoke dispatch index argumentSlots resultSlots ∈ body.instrs →
          ∃ method : MethodRef,
            Pool.IsMember dispatch.constant method.owner method.name method.signature.descriptor
              fragment.pool index ∧
            (((∃ owner member, fragment.pool.get? index.toNat = some (.interfaceMethod owner member)) ↔
              (target.workspace.host target.className).isInterface method.owner = true ∧
                dispatch ≠ .static ∧ dispatch ≠ .special) ∨
            dispatch = .virtual ∧ JoinsStrings .virtual method ∧
              (target.workspace.host target.className).isInterface method.owner = true) := by
  obtain ⟨site, body, isSite, isBody, makes, stands⟩ := compile_stands opens sources compiled
  obtain ⟨_, _, _, host⟩ := Target.site_eq isSite
  refine ⟨body, isBody, makes, fun dispatch index argumentSlots resultSlots isIn => ?_⟩
  obtain ⟨method, calls, isMember, _⟩ := stands _ isIn
  refine ⟨method, isMember, ?_⟩
  rw [Dispatch.interfaceMethod_iff isMember, ← host]
  exact calls.interface

/-- An instance method of an interface has a constant of an interface. -/
theorem compile_interface_instance : ∃ opened fragment later body,
    start doorTarget doorRecord true = .ok opened ∧
      (opened.after []).compile "Alarm alarm = null; alarm.ring();" = (.ok fragment, later) ∧
      later.body? = some body ∧ .invoke .interface 6 0 0 ∈ body.instrs ∧
      ∃ method : MethodRef,
        Pool.IsMember .interfaceMethod method.owner method.name method.signature.descriptor
          fragment.pool 6 ∧
        (doorTarget.workspace.host "Door").isInterface method.owner = true := by
  obtain ⟨opened, opens, _, _, passes, _⟩ := door_passes
  obtain ⟨fragment, later, body, compiled, isBody, calls⟩ := exists_of_compilesTo passes
  have isIn := of_decide_eq_true calls
  obtain ⟨other, isOther, _, interfaces⟩ := compile_interface opens [] compiled
  cases isBody.symm.trans isOther
  obtain ⟨method, isMember, exact_ | ⟨isVirtual, _⟩⟩ := interfaces .interface 6 0 0 isIn
  · have isInterface := exact_.mp ((Dispatch.interfaceMethod_iff isMember).mpr rfl)
    exact ⟨opened, fragment, later, body, opens, compiled, isBody, isIn, method, isMember,
      isInterface.1⟩
  · cases isVirtual

/-- A static method of an interface has a constant of a class. -/
theorem compile_interface_static : ∃ opened fragment later body,
    start doorTarget doorRecord true = .ok opened ∧
      (opened.after []).compile "Alarm.test();" = (.ok fragment, later) ∧
      later.body? = some body ∧ .invoke .static 6 0 0 ∈ body.instrs ∧
      Pool.IsMember .method "Alarm" "test" "()V" fragment.pool 6 ∧
      (doorTarget.workspace.host "Door").isInterface "Alarm" = true := by
  obtain ⟨opened, opens, _, _, _, passes⟩ := door_passes
  obtain ⟨fragment, later, body, compiled, isBody, holds⟩ := exists_of_compilesTo passes
  obtain ⟨calls, isPool⟩ := of_decide_eq_true holds
  refine ⟨opened, fragment, later, body, opens, compiled, isBody, calls, ?_, by decide⟩
  rw [isPool]
  exact isMember_callPool ..

end Session

end MethodPatch
