/-
**Variables in slots.**

A frame gives each variable a slot and a type. The local variables of the machine hold a store if the
slot of each variable that has a value holds the word of that value. Slots of different variables do
not overlap, so that storing in one leaves the others alone.

* `Frame.Holds`: the local variables hold the values of a store;
* `Frame.Keeps`: slots that belong to no variable stay as they are;
* `Holds.set`, `keeps_store`: a value is stored in the slot of its variable.
-/

import MethodPatch.Proofs.Machine.Block
import MethodPatch.Proofs.Meaning.Typed

namespace MethodPatch

/-! ### Slots -/

namespace Locals

variable {locals others : Locals} {slot other : Nat} {word : Word} {type : Integral}

theorem load_congr
    (same : ∀ index, slot ≤ index → index < slot + type.width → locals index = others index) :
    locals.load slot type = others.load slot type := by
  cases type with
  | int =>
    have first := same slot (Nat.le_refl _) (Nat.lt_succ_self _)
    simp only [load, first, true_or, and_true]
  | long =>
    have first := same slot (Nat.le_refl _) (by simp only [Integral.width]; omega)
    have second := same (slot + 1) (Nat.le_succ _) (by simp only [Integral.width]; omega)
    simp only [load, first, second]

theorem load_store : (locals.store slot word).load slot word.type = some word := by
  cases word <;> simp [load, store, Word.type]

theorem store_apart (apart : other < slot ∨ slot + word.type.width ≤ other) :
    locals.store slot word other = locals other := by
  unfold store
  have notFirst : other ≠ slot := by
    cases word <;> simp only [Word.type, Integral.width] at apart <;> omega
  have notSecond : ¬(word.type = .long ∧ other = slot + 1) := by
    rintro ⟨isLong, rfl⟩
    rw [isLong] at apart
    simp only [Integral.width] at apart
    omega
  rw [if_neg notFirst, if_neg notSecond]

theorem load_store_apart (apart : other + type.width ≤ slot ∨ slot + word.type.width ≤ other) :
    (locals.store slot word).load other type = locals.load other type :=
  load_congr fun _ above below => store_apart (by omega)

end Locals

/-! ### Frames -/

/-- The slots and the types of variables by their names. -/
abbrev Frame := String → Option (Slot × FieldType)

namespace Frame

/-- The types of the variables. -/
def types (frame : Frame) : Types := fun name => (frame name).map Prod.snd

/-- Variables of truth values and whole numbers that have slots of their own. -/
structure Separate (frame : Frame) : Prop where
  scalars : ∀ name slot type, frame name = some (slot, type) → type.isScalar = true
  disjoint : ∀ first second slot type otherSlot otherType, first ≠ second →
    frame first = some (slot, type) → frame second = some (otherSlot, otherType) →
      slot.toNat + type.width ≤ otherSlot.toNat ∨ otherSlot.toNat + otherType.width ≤ slot.toNat

/-- The local variables hold the values of a store. -/
structure Holds (frame : Frame) (store : Store) (locals : Locals) : Prop where
  agrees : store.Agrees frame.types
  loads : ∀ name slot type value, frame name = some (slot, type) → store name = some value →
    locals.load slot.toNat type.kept = some value.word

/-- Slots that belong to no variable are the same. -/
def Keeps (frame : Frame) (locals after : Locals) : Prop :=
  ∀ index, (∀ name slot type, frame name = some (slot, type) →
    index < slot.toNat ∨ slot.toNat + type.width ≤ index) → after index = locals index

variable {frame : Frame} {locals middle after : Locals}

theorem Separate.isScalar {name : String} {type : FieldType} (separate : frame.Separate)
    (typed : frame.types name = some type) : type.isScalar = true := by
  obtain ⟨⟨slot, _⟩, isVariable, rfl⟩ := Option.map_eq_some_iff.mp typed
  exact separate.scalars name slot _ isVariable

theorem types_eq {name : String} {slot : Slot} {type : FieldType}
    (isVariable : frame name = some (slot, type)) : frame.types name = some type := by
  rw [types, isVariable]
  rfl

theorem width_kept {type : FieldType} (isScalar : type.isScalar = true) :
    type.width = type.kept.width := by
  cases type <;> first | rfl | simp [FieldType.isScalar, FieldType.isIntegral] at isScalar

theorem Keeps.refl (locals : Locals) : frame.Keeps locals locals := fun _ _ => rfl

theorem Keeps.trans (first : frame.Keeps locals middle) (second : frame.Keeps middle after) :
    frame.Keeps locals after := fun index outside =>
  (second index outside).trans (first index outside)

section Variable

variable {name : String} {slot : Slot} {type : FieldType} {value : Scalar} {store : Store}

/-- A value is stored in the slot of its variable. -/
theorem Holds.set (holds : frame.Holds store locals) (separate : frame.Separate)
    (isVariable : frame name = some (slot, type)) (typed : value.type = type) :
    frame.Holds (store.set name value) (locals.store slot.toNat value.word) where
  agrees := holds.agrees.set (by rw [types_eq isVariable, typed])
  loads := by
    intro other otherSlot otherType found isOther isFound
    by_cases same : other = name
    · subst same
      rw [isVariable] at isOther
      cases isOther
      rw [Store.set_self] at isFound
      cases isFound
      have loaded : (locals.store slot.toNat value.word).load slot.toNat value.word.type =
          some value.word := Locals.load_store
      rwa [Scalar.type_word, typed] at loaded
    · rw [Store.set_other same] at isFound
      rw [Locals.load_store_apart, holds.loads other otherSlot otherType found isOther isFound]
      rw [Scalar.type_word, typed, ← width_kept (separate.scalars _ _ _ isVariable),
        ← width_kept (separate.scalars _ _ _ isOther)]
      exact separate.disjoint _ _ _ _ _ _ same isOther isVariable

theorem keeps_store (separate : frame.Separate) (isVariable : frame name = some (slot, type))
    (typed : value.type = type) : frame.Keeps locals (locals.store slot.toNat value.word) := by
  intro index outside
  refine Locals.store_apart ?_
  rw [Scalar.type_word, typed, ← width_kept (separate.scalars _ _ _ isVariable)]
  exact outside name slot type isVariable

end Variable

end Frame

end MethodPatch
