/-
**Slots of the surrounding scope.**

A pass registers the variables of the scope around it that its allocator does not know, and only
then gives out slots. It looks at the innermost variable of a name alone, and takes over nothing of a
name that is known, while a look-up skips variables that are not bound.

* `mem_nearest_iff`, `Scope.innermost?`: which variable of a name counts;
* `adopt_registers`: what is registered in front of the first statement;
* `Hook.compile_excludes`: **exactly which bindings of the surrounding scope a pass leaves alone**;
* `Hook.compile_includes`: a binding behind an unbound variable is declared anew, and overwritten.
-/

import MethodPatch.Proofs.Locals.Scope
import MethodPatch.Proofs.Locals.Seeded
import MethodPatch.Proofs.Patch.Pass
import MethodPatch.Proofs.Typing.Converts

namespace MethodPatch

/-! ### The innermost variable of a name -/

section Nearest

variable {seen : List String} {symbols : List Symbol} {symbol : Symbol}

/-- The variables that count are the first ones of their names. -/
theorem mem_nearest_iff : symbol ∈ nearest seen symbols ↔
    symbol.name ∉ seen ∧ symbols.find? (fun other => other.name = symbol.name) = some symbol := by
  induction symbols generalizing seen with
  | nil => simp [nearest]
  | cons first rest ih =>
    rw [nearest]
    by_cases same : first.name = symbol.name
    · rw [List.find?_cons_of_pos (by simpa using same), Option.some.injEq]
      split
      · next isSeen =>
        rw [ih, ← same]
        simp [isSeen]
      · next notSeen =>
        rw [List.mem_cons, ih, ← same]
        simp [notSeen, eq_comm]
    · rw [List.find?_cons_of_neg (by simpa using same)]
      have other : symbol ≠ first := fun equal => same (congrArg Symbol.name equal.symm)
      split
      · exact ih
      · rw [List.mem_cons, ih, List.mem_cons]
        simp [other, Ne.symm same]

theorem nodup_nearest (seen : List String) (symbols : List Symbol) :
    ((nearest seen symbols).map Symbol.name).Nodup := by
  induction symbols generalizing seen with
  | nil => exact .nil
  | cons first rest ih =>
    rw [nearest]
    split
    · exact ih seen
    · rw [List.map_cons, List.nodup_cons]
      refine ⟨fun isBehind => ?_, ih _⟩
      obtain ⟨symbol, isNear, same⟩ := List.mem_map.mp isBehind
      exact (mem_nearest_iff.mp isNear).1 (same ▸ List.mem_cons_self)

end Nearest

theorem Symbol.name_of_local? {symbol : Symbol} {entry : Local}
    (isLocal : symbol.local? = some entry) : entry.name = symbol.name := by
  obtain ⟨_, _, rfl⟩ := Option.map_eq_some_iff.mp isLocal
  rfl

namespace Scope

variable {scope : Scope} {name : String} {entry : Local}

/-- The local of the innermost variable of a name, if that is bound. -/
def innermost? (scope : Scope) (name : String) : Option Local :=
  (scope.find? name).bind Symbol.local?

theorem find?_flatten (scope : Scope) (name : String) :
    scope.tables.flatten.find? (fun symbol => symbol.name = name) = scope.find? name :=
  List.find?_flatten

theorem name_of_innermost? (isInnermost : scope.innermost? name = some entry) :
    entry.name = name := by
  obtain ⟨symbol, found, isLocal⟩ := Option.bind_eq_some_iff.mp isInnermost
  rw [← find?_flatten] at found
  rw [Symbol.name_of_local? isLocal]
  simpa using List.find?_some found

/-- A name stands for its innermost variable if that is bound. -/
theorem eq_of_innermost? {bound : Local} (isInnermost : scope.innermost? bound.name = some entry)
    (isBound : scope.binding? bound.name = some (bound.slot, bound.type)) : entry = bound := by
  obtain ⟨symbol, found, isLocal⟩ := Option.bind_eq_some_iff.mp isInnermost
  have named := name_of_innermost? isInnermost
  obtain ⟨⟨slot, type⟩, binds, rfl⟩ := Option.map_eq_some_iff.mp isLocal
  rw [binding?, bound?_of_find? found (by rw [binds]; rfl), Option.bind_some, binds] at isBound
  obtain ⟨name, _, _⟩ := bound
  cases isBound
  cases named
  rfl

/-- A variable of the surrounding scope is taken over if it is the innermost of its name. -/
theorem mem_nearest_local_iff :
    entry ∈ (nearest [] scope.tables.flatten).filterMap Symbol.local? ↔
      scope.innermost? entry.name = some entry := by
  rw [List.mem_filterMap, innermost?, Option.bind_eq_some_iff]
  refine exists_congr fun symbol => and_congr_left fun isLocal => ?_
  rw [mem_nearest_iff, Symbol.name_of_local? isLocal, find?_flatten]
  exact and_iff_right (List.not_mem_nil)

theorem nodup_nearest_local (scope : Scope) :
    (((nearest [] scope.tables.flatten).filterMap Symbol.local?).map Local.name).Nodup := by
  have sublist : List.Sublist
      (((nearest [] scope.tables.flatten).filterMap Symbol.local?).map Local.name)
      ((nearest [] scope.tables.flatten).map Symbol.name) := by
    induction nearest [] scope.tables.flatten with
    | nil => exact .slnil
    | cons first rest ih =>
      cases isLocal : first.local? with
      | none =>
        rw [List.filterMap_cons_none isLocal, List.map_cons]
        exact ih.cons _
      | some entry =>
        rw [List.filterMap_cons_some isLocal, List.map_cons, List.map_cons,
          Symbol.name_of_local? isLocal]
        exact ih.cons_cons _
  exact sublist.nodup (nodup_nearest [] scope.tables.flatten)

end Scope

/-! ### Adopted variables -/

section Adopt

variable {roots : Scope} {before after : Allocator} {entries : List Local} {name : String}

/-- Of locals with different names those are registered that are not known. -/
theorem registerUnknown_registers (distinct : (entries.map Local.name).Nodup)
    (done : registerUnknown before entries = (.ok (), after)) :
    before.registerAll (entries.filter fun entry => (before.find? entry.name).isNone) =
      .ok after := by
  induction entries generalizing before with
  | nil =>
    cases done
    rfl
  | cons first rest ih =>
    obtain ⟨different, distinct⟩ := List.nodup_cons.mp distinct
    rw [registerUnknown] at done
    split at done
    · next known =>
      rw [List.filter_cons_of_neg (by simp [Option.isSome_iff_ne_none.mp known])]
      exact ih distinct done
    · next unknown =>
      have isNone : before.find? first.name = none := by simpa using unknown
      cases registered : before.register first with
      | error error =>
        rw [registered] at done
        cases done
      | ok middle =>
        rw [registered] at done
        -- Registering a local changes nothing about the names behind it.
        have same : (rest.filter fun entry => (before.find? entry.name).isNone) =
            rest.filter fun entry => (middle.find? entry.name).isNone := by
          refine List.filter_congr fun entry isRest => ?_
          have other : first.name ≠ entry.name := fun equal =>
            different (equal ▸ List.mem_map_of_mem isRest)
          rw [Allocator.find?_register registered, if_neg fun both => other both.1]
        rw [List.filter_cons_of_pos (by simp [isNone]), same, Allocator.registerAll,
          List.foldlM_cons, registered]
        exact ih distinct done

/-- **In front of the first statement** the innermost variables are registered that are bound and
not known. -/
theorem adopt_registers (done : adopt roots before = (.ok (), after)) :
    ∃ adopted, before.registerAll adopted = .ok after ∧
      ∀ entry, entry ∈ adopted ↔
        roots.innermost? entry.name = some entry ∧ before.find? entry.name = none := by
  refine ⟨_, registerUnknown_registers roots.nodup_nearest_local done, fun entry => ?_⟩
  rw [List.mem_filter, Scope.mem_nearest_local_iff, Option.isNone_iff_eq_none]

theorem isSome_find?_adopt (done : adopt roots before = (.ok (), after)) (name : String) :
    (after.find? name).isSome ↔ (before.find? name).isSome ∨ (roots.innermost? name).isSome := by
  obtain ⟨adopted, registered, isAdopted⟩ := adopt_registers done
  rw [Allocator.isSome_find?_registerAll registered]
  constructor
  · rintro (known | ⟨entry, isIn, rfl⟩)
    · exact .inl known
    · rw [((isAdopted entry).mp isIn).1]
      exact .inr rfl
  · rintro (known | innermost)
    · exact .inl known
    · obtain ⟨entry, isInnermost⟩ := Option.isSome_iff_exists.mp innermost
      obtain rfl := Scope.name_of_innermost? isInnermost
      cases found : before.find? entry.name with
      | some known => exact .inl rfl
      | none => exact .inr ⟨entry, (isAdopted entry).mpr ⟨isInnermost, found⟩, rfl⟩

/-- Adoption moves the first free slot behind the variables that it registers, and no further. -/
theorem le_next_adopt_iff (done : adopt roots before = (.ok (), after)) (slot : Nat) :
    slot ≤ after.next ↔ slot ≤ before.next ∨ ∃ entry, roots.innermost? entry.name = some entry ∧
      before.find? entry.name = none ∧ slot ≤ entry.finish := by
  obtain ⟨adopted, registered, isAdopted⟩ := adopt_registers done
  rw [(Allocator.Seeds.registerAll registered).le_next_iff]
  simp only [isAdopted, and_assoc]

end Adopt

/-! ### What a pass leaves alone -/

namespace Hook

variable {hook later : Hook} {strict : Bool} {roots : Scope} {allocator after : Allocator}
  {source : String} {fragment : Fragment}

/-- What a pass introduces was added behind the adopted variables, for the variables of its text. -/
theorem compile_introduced
    (compiled : hook.compile strict roots allocator source = (.ok fragment, after, later)) :
    ∃ statements adopting, (Stmt.parse source).1 = .ok statements ∧
      adopt roots allocator = (.ok (), adopting) ∧ adopting.Extends fragment.introduced after ∧
      ∃ host entries, GivesAll strict host adopting (Stmt.declaredAll statements) entries
        fragment.introduced after := by
  rcases compile_cases compiled with ⟨_, failed, _⟩ | ⟨generation, following, _, passed, _⟩
  · cases failed
  cases Generation.compiles passed with
  | @finished statements adopting pass _ parsed adopted succeeded extracted =>
    obtain ⟨extended, _, ⟨entries, gives⟩, introduces⟩ := Generation.opening_run succeeded
    rw [introduces fragment extracted]
    exact ⟨statements, adopting, parsed, adopted, extended, generation.site.host, entries, gives⟩

/-- **Exactly which bindings of the surrounding scope a pass leaves alone.** A name that is bound
there is not introduced if and only if it is not declared, or the allocator knows it, or its
innermost variable is bound. A slot of a binding is not given out if and only if nothing is, or the
binding lies in front of what the allocator has used and adopted, or behind everything new. So all
is well with a binding of an innermost variable that the allocator does not know, or that it has
used the slots of. -/
theorem compile_excludes
    (compiled : hook.compile strict roots allocator source = (.ok fragment, after, later)) :
    ∃ statements first, (Stmt.parse source).1 = .ok statements ∧
      (∀ slot, slot ≤ first ↔ slot ≤ allocator.next ∨
        ∃ entry, roots.innermost? entry.name = some entry ∧ allocator.find? entry.name = none ∧
          slot ≤ entry.finish) ∧
      ∀ bound : Local, roots.binding? bound.name = some (bound.slot, bound.type) →
        (bound.name ∉ fragment.introduced.map Local.name ↔
          bound.name ∉ (Stmt.declaredAll statements).map Declarator.name ∨
            (allocator.find? bound.name).isSome ∨ (roots.innermost? bound.name).isSome) ∧
        ((∀ entry ∈ fragment.introduced, entry.overlaps bound = false) ↔
          fragment.introduced = [] ∨ bound.finish ≤ first ∨ after.next ≤ bound.slot.toNat) ∧
        ((roots.innermost? bound.name).isSome →
          allocator.find? bound.name = none ∨ bound.finish ≤ allocator.next →
            bound.name ∉ fragment.introduced.map Local.name ∧
              ∀ entry ∈ fragment.introduced, entry.overlaps bound = false) := by
  obtain ⟨statements, adopting, parsed, adopted, extended, _, _, gives⟩ :=
    compile_introduced compiled
  have nextIff := le_next_adopt_iff adopted
  refine ⟨statements, adopting.next, parsed, nextIff, fun bound isBound => ?_⟩
  have named : bound.name ∉ fragment.introduced.map Local.name ↔
      bound.name ∉ (Stmt.declaredAll statements).map Declarator.name ∨
        (allocator.find? bound.name).isSome ∨ (roots.innermost? bound.name).isSome := by
    rw [gives.names, List.mem_eraseDups, List.mem_filter, not_and_or,
      ← isSome_find?_adopt adopted]
    simp [Option.isNone_iff_eq_none, Option.isSome_iff_ne_none]
  have apart := extended.laid.apart_iff bound
  rw [← extended.next] at apart
  refine ⟨named, apart, fun isSome suits =>
    ⟨named.mpr (.inr (.inr isSome)), apart.mpr (.inr (.inl ((nextIff _).mpr ?_)))⟩⟩
  obtain ⟨entry, isInnermost⟩ := Option.isSome_iff_exists.mp isSome
  obtain rfl := Scope.eq_of_innermost? isInnermost isBound
  exact suits.symm.imp_right fun unknown => ⟨entry, isInnermost, unknown, Nat.le_refl _⟩

/-- A hook with a generation that has not begun, which resolves no names of a workspace. -/
def detached : Hook := replace counterTarget (.ofSite .detached .empty)

/-- A pass that adopts nothing and leaves an allocator introduces what that knows at its end. -/
theorem introduced_of_known {known : List Local}
    (noneNew : adopt roots allocator = (.ok (), allocator))
    (leaves : ((hook.compile strict roots allocator source).1.isOk &&
      decide ((hook.compile strict roots allocator source).2.1.known = allocator.known ++ known)) =
        true) :
    ∃ fragment after later,
      hook.compile strict roots allocator source = (.ok fragment, after, later) ∧
        fragment.introduced = known := by
  obtain ⟨succeeds, same⟩ := Bool.and_eq_true_iff.mp leaves
  obtain ⟨fragment, compiled⟩ := eq_ok_of_isOk succeeds
  obtain ⟨_, adopting, _, adopted, extended, _⟩ := compile_introduced compiled
  cases noneNew.symm.trans adopted
  exact ⟨fragment, _, _, compiled,
    List.append_cancel_left (extended.known.symm.trans (of_decide_eq_true same))⟩

/-- A `long` in the slots 3 and 4, bound in the second of two tables. -/
def boundScope : Scope := ⟨[], [[.bound "y" 3 .long]]⟩

/-- The `long` is not introduced, though it is declared, and a new variable stays away from it. -/
theorem compile_excludes_bound : ∃ fragment after later,
    detached.compile true boundScope (.startingAt 4) "long y = 2; int x = 1;" =
      (.ok fragment, after, later) ∧ after.find? "x" = some ⟨"x", 5, .int⟩ ∧
      "y" ∉ fragment.introduced.map Local.name ∧
      ∀ entry ∈ fragment.introduced, entry.overlaps ⟨"y", 3, .long⟩ = false := by
  have succeeds : (detached.compile true boundScope (.startingAt 4) "long y = 2; int x = 1;").1.isOk =
      true := by
    decide +kernel
  have found : (detached.compile true boundScope (.startingAt 4) "long y = 2; int x = 1;").2.1.find?
      "x" = some ⟨"x", 5, .int⟩ := by
    decide +kernel
  obtain ⟨fragment, compiled⟩ := eq_ok_of_isOk succeeds
  obtain ⟨_, _, _, _, excludes⟩ := compile_excludes compiled
  obtain ⟨_, _, leaves⟩ := excludes ⟨"y", 3, .long⟩ (by decide)
  exact ⟨fragment, _, _, compiled, found, leaves (by decide) (.inl rfl)⟩

/-- A variable in slot 0, bound behind one of its name that is not bound. -/
def hiddenScope : Scope := ⟨[⟨"y", none, some .int, none⟩], [[.bound "y" 0 .int]]⟩

/-- **A binding behind a variable that is not bound is introduced anew**, although the text reads it
first, and its slot is given to another variable. Where the allocator knows the name in another slot,
the slot that the text reads is given out as well. -/
theorem compile_includes :
    (hiddenScope.binding? "y" = some (0, .int) ∧ ∃ fragment after later,
      detached.compile true hiddenScope (.startingAt 0) "int x = y; int y = 1;" =
        (.ok fragment, after, later) ∧
      fragment.introduced = [⟨"x", 0, .int⟩, ⟨"y", 1, .int⟩]) ∧
    (Scope.root [.bound "y" 1 .int]).binding? "y" = some (1, .int) ∧ ∃ fragment after later,
      detached.compile true (.root [.bound "y" 1 .int]) ⟨1, [⟨"y", 0, .int⟩], []⟩
        "int x = 5; int z = y;" = (.ok fragment, after, later) ∧
      fragment.introduced = [⟨"x", 1, .int⟩, ⟨"z", 2, .int⟩] :=
  ⟨⟨by decide, introduced_of_known (by decide) (by decide +kernel)⟩, by decide,
    introduced_of_known (by decide) (by decide +kernel)⟩

end Hook

end MethodPatch
