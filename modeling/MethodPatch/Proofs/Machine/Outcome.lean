/-
**How executions end.**

Statements pass on to what follows them, or leave the loop around them. An execution may also find
something that it has no rule for, or be given up because a loop has gone through too many rounds.
Source statements and the code that they are lowered to end in the same ways, so that the same
combinators say what both do:

* `Outcome.andThen`: what follows is executed if it is reached;
* `Outcome.rounds`: a loop, given up after a number of rounds;
* `Outcome.More`: an execution that ends does so with any larger number of rounds.
-/

import MethodPatch.Proofs.Layout.Chunk

namespace MethodPatch

/-- How an execution ends, and the state behind it. -/
inductive Outcome (σ : Type) where
  | stuck
  | unfinished
  | passed (state : σ)
  | left (way : Way) (state : σ)

namespace Outcome

variable {σ : Type}

/-- The outcome of a computation that may have no rule. -/
def ofOption : Option σ → Outcome σ
  | none => stuck
  | some state => passed state

/-- What follows is executed if it is reached. -/
def andThen (outcome : Outcome σ) (next : σ → Outcome σ) : Outcome σ :=
  match outcome with
  | passed state => next state
  | other => other

/-- The body of a loop is left for what stands behind it. -/
def caught : Outcome σ → Outcome σ
  | left .next state => passed state
  | other => other

/-- There is no loop around. -/
def unlooped : Outcome σ → Outcome σ
  | left _ _ => stuck
  | other => other

/-- What stands behind is the next round of a loop. -/
def turn : Outcome σ → Outcome σ
  | passed state => left .next state
  | other => other

/-- Rounds of a loop, which ends when a round leaves it. It is given up after a number of rounds. -/
def rounds (round : σ → Outcome σ) : Nat → σ → Outcome σ
  | 0, _ => unfinished
  | count + 1, state =>
    match round state with
    | passed state | left .next state => rounds round count state
    | left .out state => passed state
    | stuck => stuck
    | unfinished => unfinished

theorem turn_andThen (outcome : Outcome σ) (next : σ → Outcome σ) :
    (outcome.andThen next).turn = outcome.andThen fun state => (next state).turn := by
  cases outcome <;> rfl

/-- A loop of which every round leads to another one does not end. -/
theorem rounds_endless {round : σ → Outcome σ} (invariant : σ → Prop)
    (turns : ∀ state, invariant state → ∃ next, round state = passed next ∧ invariant next)
    (count : Nat) (state : σ) (holds : invariant state) :
    rounds round count state = unfinished := by
  induction count generalizing state with
  | zero => rfl
  | succ count ih =>
    obtain ⟨next, turned, holds⟩ := turns state holds
    unfold rounds
    rw [turned]
    exact ih next holds

/-! ### More rounds -/

/-- The second outcome is the first one, unless that was given up. -/
def More (first second : Outcome σ) : Prop := first = unfinished ∨ first = second

variable {first second : Outcome σ}

theorem More.refl (outcome : Outcome σ) : outcome.More outcome := .inr rfl

theorem More.eq {state : σ} (more : first.More second) (ended : first = passed state) :
    second = passed state := by
  rcases more with unfinished | same
  · rw [ended] at unfinished
    cases unfinished
  · rw [← same, ended]

theorem More.andThen {next other : σ → Outcome σ} (more : first.More second)
    (behind : ∀ state, (next state).More (other state)) :
    (first.andThen next).More (second.andThen other) := by
  rcases more with rfl | rfl
  · exact .inl rfl
  · cases first with
    | passed state => exact behind state
    | _ => exact .refl _

theorem More.caught (more : first.More second) : first.caught.More second.caught := by
  rcases more with rfl | rfl
  · exact .inl rfl
  · exact .refl _

theorem More.unlooped (more : first.More second) : first.unlooped.More second.unlooped := by
  rcases more with rfl | rfl
  · exact .inl rfl
  · exact .refl _

theorem More.rounds {round other : σ → Outcome σ} (more : ∀ state, (round state).More (other state))
    {count limit : Nat} (atMost : count ≤ limit) (state : σ) :
    (Outcome.rounds round count state).More (Outcome.rounds other limit state) := by
  induction count generalizing limit state with
  | zero => exact .inl rfl
  | succ count ih =>
    obtain ⟨limit, rfl⟩ := Nat.exists_eq_add_of_le' (Nat.le_trans (Nat.le_add_left 1 count) atMost)
    have again := fun state => ih (Nat.le_of_succ_le_succ atMost) state
    unfold Outcome.rounds
    rcases more state with unfinished | same
    · rw [unfinished]
      exact .inl rfl
    · rw [← same]
      cases round state with
      | passed state => exact again state
      | left way state =>
        cases way with
        | out => exact .refl _
        | next => exact again state
      | _ => exact .refl _

end Outcome

end MethodPatch
