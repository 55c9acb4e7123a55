/-
**Totals.**

The sum of the weights of a list's members: slots of constants and parameters, bytes of instructions
and characters.
-/

namespace MethodPatch

/-- The sum of the members' weights. -/
def total {α : Type} (weight : α → Nat) (members : List α) : Nat :=
  members.foldr (fun member sum => weight member + sum) 0

@[simp] theorem total_nil {α : Type} (weight : α → Nat) : total weight [] = 0 := rfl

@[simp] theorem total_cons {α : Type} (weight : α → Nat) (first : α) (rest : List α) :
    total weight (first :: rest) = weight first + total weight rest := rfl

@[simp] theorem total_append {α : Type} (weight : α → Nat) (first second : List α) :
    total weight (first ++ second) = total weight first + total weight second := by
  induction first with
  | nil => simp
  | cons member rest ih => simp [ih, Nat.add_assoc]

theorem total_replicate {α : Type} (weight : α → Nat) (count : Nat) (member : α) :
    total weight (List.replicate count member) = count * weight member := by
  induction count with
  | zero => simp
  | succ count ih => rw [List.replicate_succ, total_cons, ih, Nat.succ_mul, Nat.add_comm]

theorem length_flatMap_eq_total {α β : Type} (parts : α → List β) (members : List α) :
    (members.flatMap parts).length = total (fun member => (parts member).length) members := by
  induction members with
  | nil => rfl
  | cons member rest ih => simp [ih]

end MethodPatch
