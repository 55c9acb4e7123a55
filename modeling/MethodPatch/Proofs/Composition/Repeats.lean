/-
**Generating the same code again.**

Code that has been generated is generated in the same way over constants that have grown since: every
constant is found where it was added before, so all indices are the same, and with them the forms
and the sizes of all instructions. Neither the slots in use nor the names that are pending matter.

* `Generator.raised`: a generator over other constants with more slots in use;
* `Emit.Composed.again`: composed code yields the same over grown constants;
* `EmitScoped.Composed.again`: **and so do statements, in every scope that differs in pending names
  alone.**
-/

import MethodPatch.Proofs.Composition.Operands

namespace MethodPatch

/-- The generator over other constants, with slots up to a count in use. -/
def Generator.raised (generator : Generator) (pool : Pool) (count : UInt16) : Generator :=
  (generator.withPool pool).reserveLocals count

variable {types : FieldType → Prop} {slots : Storage → Slot → Prop} {constants : Pool} {count : UInt16}

namespace Generator

variable {generator : Generator}

theorem raised_land (branches : List Nat) (target : Nat) :
    (generator.land branches target).raised constants count =
      (generator.raised constants count).land branches target := by
  induction branches generalizing generator with
  | nil => rfl
  | cons branch branches ih =>
    rw [land_cons, ih]
    rfl

/-- Slots may be reserved in any order. -/
theorem raised_reserveLocals (more : UInt16) :
    (generator.reserveLocals more).raised constants count =
      (generator.raised constants count).reserveLocals more := by
  have same : max (max generator.maxLocals more) count =
      max (max generator.maxLocals count) more := by
    rw [← UInt16.toNat_inj]
    simp only [UInt16.toNat_max]
    exact Nat.max_right_comm ..
  exact congrArg (Generator.mk _ · _) same

/-- Slots that are reserved with more of them need not be reserved before. -/
theorem reserveLocals_of_le {less more : UInt16} (within : less ≤ more) :
    (generator.reserveLocals less).reserveLocals more = generator.reserveLocals more := by
  have same : max (max generator.maxLocals less) more = max generator.maxLocals more := by
    rw [UInt16.le_iff_toNat_le] at within
    rw [← UInt16.toNat_inj]
    simp only [UInt16.toNat_max]
    omega
  exact congrArg (Generator.mk _ · _) same

theorem raised_reserveLocals_of_le {less : UInt16} (within : less ≤ count) :
    (generator.reserveLocals less).raised constants count = generator.raised constants count := by
  show ((generator.withPool constants).reserveLocals less).reserveLocals count = _
  exact reserveLocals_of_le within

end Generator

/-- **Composed code yields the same over constants that have grown since.** -/
theorem Emit.Composed.again {α : Type} {action : Emit α} {answers : α → Prop}
    {before after : Generator} {answer : α} (composed : Composed types slots site action answers)
    (yields : Yields action before answer after) (grows : after.body.pool.Grows constants)
    (count : UInt16) :
    Yields action (before.raised constants count) answer (after.raised constants count) := by
  induction composed generalizing before after with
  | pure holds =>
    obtain ⟨rfl, rfl⟩ := yields_pure.mp yields
    exact yields_pure.mpr ⟨rfl, rfl⟩
  | bind first behind ihFirst ihNext =>
    obtain ⟨found, middle, yieldsFirst, yieldsNext⟩ := yields_bind.mp yields
    have isFirst := (first.carried carries_grows yieldsFirst).1
    have grown := ((behind found isFirst).grows yieldsNext).pool
    exact yields_bind.mpr ⟨found, _, ihFirst yieldsFirst (grown.trans grows),
      ihNext found isFirst yieldsNext grows⟩
  | throw error => exact absurd yields yields_throw
  | fail fault => exact absurd yields yields_fail
  | instr accesses =>
    cases yields_instr.mp yields
    exact yields_instr.mpr rfl
  | this isInstance =>
    cases yields_instr.mp yields
    exact yields_instr.mpr rfl
  | here =>
    obtain ⟨rfl, rfl⟩ := yields_here.mp yields
    exact yields_here.mpr ⟨rfl, rfl⟩
  | depth =>
    obtain ⟨rfl, rfl⟩ := yields_depth.mp yields
    exact yields_depth.mpr ⟨rfl, rfl⟩
  | setDepth depth =>
    cases yields_setDepth.mp yields
    exact yields_setDepth.mpr rfl
  | land branches target =>
    cases yields_land.mp yields
    exact yields_land.mpr (Generator.raised_land ..)
  | refer reference =>
    simp only [yields_bind, yields_constant, yields_instr] at yields ⊢
    obtain ⟨index, _, ⟨middle, added, rfl⟩, rfl⟩ := yields
    exact ⟨index, _, ⟨constants, reference.alike.again added grows, rfl⟩, rfl⟩
  | leave alike =>
    simp only [yields_bind, yields_constant, yields_pure] at yields ⊢
    obtain ⟨index, _, ⟨middle, added, rfl⟩, _, rfl⟩ := yields
    exact ⟨index, _, ⟨constants, alike.again added grows, rfl⟩, trivial, rfl⟩

/-! ### Statements -/

/-- A variable that is bound in two scopes is not pending any more. -/
theorem Scope.AgreeBut.bind {pending : String → Prop} {scope other : Scope} {name : String} {slot : Slot}
    {type : FieldType} (agree : scope.AgreeBut pending other) :
    (scope.bind name slot type).AgreeBut (fun other => pending other ∧ other ≠ name)
      (other.bind name slot type) := by
  intro found isSettled
  rw [Scope.binding?_bind, Scope.binding?_bind]
  by_cases same : name = found
  · rw [if_pos same, if_pos same]
  · rw [if_neg same, if_neg same]
    exact agree found fun isPending => isSettled ⟨isPending, Ne.symm same⟩

variable {declares : Slot → FieldType → Prop} {site : Site}

/-- A site of all types, and scopes of all locals. -/
theorem covers_all (scope : Scope) : Covers (fun _ => True) (fun _ _ => True) site scope :=
  ⟨fun _ => ⟨trivial, trivial⟩⟩

/-- Statements add constants to those that are there. -/
theorem EmitScoped.Composed.grows {α : Type} {pending behind : String → Prop} {action : EmitScoped α}
    {start finish : Generator × Scope} {answer : α}
    (composed : EmitScoped.Composed (fun _ => True) declares site pending action behind)
    (yields : Yields action start answer finish) :
    start.1.body.pool.Grows finish.1.body.pool := by
  induction composed generalizing start finish with
  | pure =>
    obtain ⟨rfl, rfl⟩ := yields_pure.mp yields
    exact .refl _
  | bind _ _ ihFirst ihNext =>
    obtain ⟨found, middle, yieldsFirst, yieldsNext⟩ := yields_bind.mp yields
    exact (ihFirst yieldsFirst).trans (ihNext found yieldsNext)
  | throw error => exact absurd yields yields_throw
  | within emits =>
    obtain ⟨generator, emitted, rfl⟩ := yields_within.mp yields
    exact ((emits.composed _ start.2 (covers_all _) trivial).grows emitted).pool
  | statement position _ ih =>
    have grown := ih (yields_statement.mp yields)
    exact grown
  | declare isType isDeclared fits emits =>
    simp only [yields_bind, yields_plain, yields_modify, yields_within, yields_bindName] at yields
    obtain ⟨_, _, ⟨_, rfl, rfl⟩, _, _, ⟨generator, emitted, rfl⟩, rfl⟩ := yields
    exact ((emits.composed _ start.2 (covers_all _) trivial).grows emitted).pool

/-- **Statements yield the same over constants that have grown since**, in every scope that differs
in pending names alone. Behind them it differs in those names that are still pending. -/
theorem EmitScoped.Composed.again {α : Type} {pending behind : String → Prop} {action : EmitScoped α}
    {start finish : Generator × Scope} {answer : α} {other : Scope}
    (composed : EmitScoped.Composed (fun _ => True) declares site pending action behind)
    (yields : Yields action start answer finish) (grows : finish.1.body.pool.Grows constants)
    (count : UInt16) (agree : start.2.AgreeBut pending other) :
    ∃ otherBehind, finish.2.AgreeBut behind otherBehind ∧
      Yields action (start.1.raised constants count, other) answer
        (finish.1.raised constants count, otherBehind) := by
  induction composed generalizing start finish other with
  | pure =>
    obtain ⟨rfl, rfl⟩ := yields_pure.mp yields
    exact ⟨other, agree, yields_pure.mpr ⟨rfl, rfl⟩⟩
  | bind _ next ihFirst ihNext =>
    obtain ⟨found, middle, yieldsFirst, yieldsNext⟩ := yields_bind.mp yields
    have grown := (next found).grows yieldsNext
    obtain ⟨scope, agreeFirst, again⟩ := ihFirst yieldsFirst (grown.trans grows) agree
    obtain ⟨scopeBehind, agreeNext, againNext⟩ := ihNext found yieldsNext grows agreeFirst
    exact ⟨scopeBehind, agreeNext, yields_bind.mpr ⟨found, _, again, againNext⟩⟩
  | throw error => exact absurd yields yields_throw
  | within emits =>
    obtain ⟨generator, emitted, rfl⟩ := yields_within.mp yields
    have again := (emits.composed _ start.2 (covers_all _) trivial).again emitted grows count
    rw [emits.same start.2 other agree] at again
    exact ⟨other, agree, yields_within.mpr ⟨_, again, rfl⟩⟩
  | statement position inner ih =>
    rw [yields_statement] at yields
    obtain ⟨scope, agreeBehind, again⟩ := ih yields grows agree
    exact ⟨scope, agreeBehind, yields_statement.mpr again⟩
  | @declare pending name slot type initialise isType isDeclared fits emits =>
    simp only [yields_bind, yields_plain, yields_modify, yields_within, yields_bindName] at yields ⊢
    obtain ⟨_, _, ⟨_, rfl, rfl⟩, _, _, ⟨generator, emitted, rfl⟩, rfl⟩ := yields
    have again := (emits.composed _ start.2 (covers_all _) trivial).again emitted grows count
    rw [emits.same start.2 other agree, Generator.raised_reserveLocals] at again
    exact ⟨other.bind name slot type, agree.bind, (), _, ⟨_, rfl, rfl⟩, (), _, ⟨_, again, rfl⟩, rfl⟩

end MethodPatch
