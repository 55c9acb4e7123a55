/-
**Local variables and the slots they take.**

A local has a name, a first slot and a type; the type decides whether it takes one slot or two.

* `Local.overlaps_comm`: sharing a slot goes both ways;
* `Local.overlaps_iff`: two locals overlap when there is a slot that belongs to both.
-/

import MethodPatch.Scope

namespace MethodPatch

/-- A variable and the first of its slots. -/
structure Local where
  name : String
  slot : Slot
  type : FieldType
  deriving DecidableEq, Inhabited

namespace Local

/-- The number of slots of a local. -/
def width (entry : Local) : Nat := entry.type.width

/-- The slot behind the last one of a local. -/
def finish (entry : Local) : Nat := entry.slot.toNat + entry.width

/-- Two locals that share a slot. -/
def overlaps (first second : Local) : Bool :=
  decide (first.slot.toNat < second.finish ∧ second.slot.toNat < first.finish)

/-- The symbol of a local, bound to its slot and its type. -/
def symbol (entry : Local) : Symbol := .bound entry.name entry.slot entry.type

theorem overlaps_comm (first second : Local) : first.overlaps second = second.overlaps first := by
  simp [overlaps, and_comm]

theorem overlaps_iff (first second : Local) :
    first.overlaps second = true ↔
      ∃ slot, (first.slot.toNat ≤ slot ∧ slot < first.finish) ∧
        second.slot.toNat ≤ slot ∧ slot < second.finish := by
  have firstWidth := first.type.width_pos
  have secondWidth := second.type.width_pos
  rw [overlaps, decide_eq_true_eq]
  simp only [finish, width]
  constructor
  · intro shared
    exact ⟨max first.slot.toNat second.slot.toNat, by omega⟩
  · rintro ⟨slot, ⟨_, _⟩, _, _⟩
    omega

end Local

end MethodPatch
