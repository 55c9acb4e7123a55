/-
**What types foretell of generated code.**

The type of an expression is found before any code is generated for it. `Emit.Foretold` says that an
action comes out as it was known to: with the known answer or the known error. There are errors that
types do not foretell. Generating stops where a limit of the class file is reached, and at an operand
of joined strings that has no value at all.

* `SourceError.Unforeseen`: the errors that types do not foretell;
* `Emit.Proceeds`: actions that go on unless a limit is reached;
* `Emit.Foretold`: actions whose outcome is known, and how they are put together.
-/

import MethodPatch.Proofs.Constants.Again
import MethodPatch.Proofs.Emission.Yields

namespace MethodPatch

/-- Faults of code that is too large for a class file. -/
def InternalFault.isLimit : InternalFault → Bool
  | .pool _ | .tooManyArguments => true
  | _ => false

/-- Errors that types do not foretell: a limit is reached, or one of the given operands of joined
strings has no value. -/
inductive SourceError.Unforeseen (voids : List Position) : SourceError → Prop
  | limit {fault : InternalFault} (isLimit : fault.isLimit = true) (position : Option Position) :
    Unforeseen voids (notGenerated fault position)
  | void {position : Position} (isVoid : position ∈ voids) :
    Unforeseen voids (mistyped .voidOperand (some position))

theorem SourceError.Unforeseen.mono {voids more : List Position} {error : SourceError}
    (unforeseen : error.Unforeseen voids) (sub : voids ⊆ more) : error.Unforeseen more := by
  cases unforeseen with
  | limit isLimit position => exact .limit isLimit position
  | void isVoid => exact .void (sub isVoid)

theorem SourceError.Unforeseen.limit_or_void {voids : List Position} {error : SourceError}
    (unforeseen : error.Unforeseen voids) :
    (∃ fault place, InternalFault.isLimit fault = true ∧ error = notGenerated fault place) ∨
      ∃ place ∈ voids, error = mistyped .voidOperand (some place) := by
  cases unforeseen with
  | limit isLimit place => exact .inl ⟨_, place, isLimit, rfl⟩
  | void isVoid => exact .inr ⟨_, isVoid, rfl⟩

/-- The result of an action. -/
def Emit.result {α : Type} (action : Emit α) (before : Generator) : Except SourceError α :=
  (action.run.run before).1

namespace Emit

variable {α β γ δ : Type} {view : α → β} {look : γ → δ} {voids more : List Position}

/-- An action comes out as known, if its answers are looked at in some way, but for errors that types
do not foretell. When it answers, none of the given operands is without a value. -/
def ForetoldBy (view : α → β) (voids : List Position) (action : Emit α)
    (known : Except SourceError β) : Prop :=
  ∀ before, ((action.result before).map view = known ∧ (known.isOk = true → voids = [])) ∨
    ∃ error, action.result before = .error error ∧ error.Unforeseen voids

/-- An action comes out as known, but for errors that types do not foretell. -/
abbrev Foretold (voids : List Position) (action : Emit α) (known : Except SourceError α) : Prop :=
  ForetoldBy id voids action known

/-- An action answers, whatever it answers, unless a limit is reached. -/
abbrev Proceeds (action : Emit α) : Prop := ForetoldBy (fun _ => ()) [] action (.ok ())

/-- An action that is known to fail with an error that counts as unforeseen has any outcome. -/
theorem ForetoldBy.excused {action : Emit α} {error : SourceError} {known : Except SourceError δ}
    {look : α → δ} (foretold : ForetoldBy view voids action (.error error)) (sub : voids ⊆ more)
    (unforeseen : error.Unforeseen more) : ForetoldBy look more action known := by
  intro before
  rcases foretold before with ⟨isKnown, -⟩ | ⟨other, failed, otherUnforeseen⟩
  · cases result : action.result before with
    | ok answer =>
      rw [result] at isKnown
      cases isKnown
    | error found =>
      rw [result] at isKnown
      cases isKnown
      exact .inr ⟨error, rfl, unforeseen⟩
  · exact .inr ⟨other, failed, otherUnforeseen.mono sub⟩

/-! ### Actions in order -/

theorem result_bind (action : Emit α) (next : α → Emit γ) (before : Generator) :
    (∃ error, action.result before = .error error ∧
      (action >>= next).result before = .error error) ∨
    ∃ answer middle, action.result before = .ok answer ∧
      (action >>= next).result before = (next answer).result middle := by
  unfold result
  rw [run_bind]
  rcases action.run.run before with ⟨error | answer, middle⟩
  · exact .inl ⟨error, rfl, rfl⟩
  · exact .inr ⟨answer, middle, rfl, rfl⟩

theorem ForetoldBy.pure (answer : α) :
    ForetoldBy view [] (Pure.pure answer) (.ok (view answer)) :=
  fun _ => .inl ⟨rfl, fun _ => rfl⟩

theorem ForetoldBy.throw (error : SourceError) :
    ForetoldBy view voids (MonadExcept.throw error) (.error error) :=
  fun _ => .inl ⟨rfl, nofun⟩

/-- **The outcome of two actions in order** is known if each of the outcomes is. -/
theorem ForetoldBy.bind {action : Emit α} {next : α → Emit γ} {known : Except SourceError β}
    {rest : β → Except SourceError δ} (here : ForetoldBy view voids action known)
    (behind : ∀ answer, known = .ok (view answer) →
      ForetoldBy look more (next answer) (rest (view answer))) :
    ForetoldBy look (voids ++ more) (action >>= next) (known >>= rest) := by
  intro before
  rcases result_bind action next before with
    ⟨error, stopped, whole⟩ | ⟨answer, middle, answered, whole⟩
  all_goals rcases here before with ⟨isKnown, none⟩ | ⟨other, failed, unforeseen⟩
  · rw [stopped] at isKnown
    rw [whole, ← isKnown]
    exact .inl ⟨rfl, nofun⟩
  · rw [stopped] at failed
    cases failed
    exact .inr ⟨error, whole, unforeseen.mono (List.subset_append_left _ _)⟩
  · rw [answered] at isKnown
    subst isKnown
    rw [whole, none rfl]
    exact behind answer rfl middle
  · rw [answered] at failed
    cases failed

/-- The last steps of an action are about no operand. -/
theorem ForetoldBy.last {action : Emit α} {next : α → Emit γ} {known : Except SourceError β}
    {rest : β → Except SourceError δ} (here : ForetoldBy view voids action known)
    (behind : ∀ answer, known = .ok (view answer) →
      ForetoldBy look [] (next answer) (rest (view answer))) :
    ForetoldBy look voids (action >>= next) (known >>= rest) :=
  List.append_nil voids ▸ here.bind behind

/-- Behind an action with a known answer the outcome is the one that is known of the rest. -/
theorem ForetoldBy.next {action : Emit α} {next : α → Emit γ} {found : β}
    {known : Except SourceError δ} (here : ForetoldBy view voids action (.ok found))
    (behind : ∀ answer, ForetoldBy look more (next answer) known) :
    ForetoldBy look (voids ++ more) (action >>= next) known :=
  show ForetoldBy look (voids ++ more) (action >>= next)
    ((Except.ok found : Except SourceError β) >>= fun _ => known) from
  here.bind fun answer _ => behind answer

/-- The same, if the rest is about no operand. -/
theorem ForetoldBy.finish {action : Emit α} {next : α → Emit γ} {found : β}
    {known : Except SourceError δ} (here : ForetoldBy view voids action (.ok found))
    (behind : ∀ answer, ForetoldBy look [] (next answer) known) :
    ForetoldBy look voids (action >>= next) known :=
  List.append_nil voids ▸ here.next behind

/-- What goes on behind an action leaves its outcome as it is. -/
theorem ForetoldBy.followed {action : Emit α} {next : α → Emit Unit} {known : Except SourceError Unit}
    (here : ForetoldBy (fun _ => ()) voids action known) (behind : ∀ answer, Proceeds (next answer)) :
    Foretold voids (action >>= next) known := by
  have whole : Foretold voids (action >>= next) (known >>= fun _ => .ok ()) :=
    here.last fun answer _ => behind answer
  cases known <;> exact whole

/-- The last steps of an action only make something of an answer. -/
theorem ForetoldBy.made {action : Emit α} {next : α → Emit γ} {known : Except SourceError β}
    {make : β → δ} (here : ForetoldBy view voids action known)
    (behind : ∀ answer, known = .ok (view answer) →
      ForetoldBy look [] (next answer) (.ok (make (view answer)))) :
    ForetoldBy look voids (action >>= next) (known.map make) := by
  have whole : ForetoldBy look voids (action >>= next) (known >>= fun answer => .ok (make answer)) :=
    here.last behind
  cases known <;> exact whole

theorem ForetoldBy.lift (known : Except SourceError α) : Foretold [] (liftExcept known) known := by
  cases known with
  | error error => exact .throw error
  | ok answer => exact .pure answer

/-- A check comes out as it does. -/
theorem ForetoldBy.check {known : Except SourceError α} {next : α → Emit γ}
    {rest : α → Except SourceError δ}
    (behind : ∀ answer, known = .ok answer → ForetoldBy look voids (next answer) (rest answer)) :
    ForetoldBy look voids (liftExcept known >>= next) (known >>= rest) := by
  cases known with
  | error error => exact .throw error
  | ok answer => exact behind answer rfl

/-- The same, if the rest only says what is made of the answer. -/
theorem ForetoldBy.checked {known : Except SourceError α} {next : α → Emit γ} {made : α → δ}
    (behind : ∀ answer, known = .ok answer →
      ForetoldBy look voids (next answer) (.ok (made answer))) :
    ForetoldBy look voids (liftExcept known >>= next) (known.map made) := by
  cases known with
  | error error => exact .throw error
  | ok answer => exact behind answer rfl

/-- Behind an action that goes on the outcome is the one that is known of the rest. -/
theorem ForetoldBy.after {action : Emit α} {next : α → Emit γ} {known : Except SourceError δ}
    (here : Proceeds action) (behind : ∀ answer, ForetoldBy look voids (next answer) known) :
    ForetoldBy look voids (action >>= next) known :=
  here.next behind

/-- The same, if the action is taken in some cases only. -/
theorem ForetoldBy.maybe {condition : Prop} [Decidable condition] {action : Emit α} {next : Emit γ}
    {known : Except SourceError δ} (here : Proceeds action)
    (behind : ForetoldBy look voids next known) :
    ForetoldBy look voids (if condition then action >>= fun _ => next else next) known := by
  split
  · exact .after here fun _ => behind
  · exact behind

/-! ### Actions that go on -/

theorem ForetoldBy.instr (instr : Instr) : Proceeds (Emit.instr instr) :=
  fun _ => .inl ⟨rfl, fun _ => rfl⟩

theorem ForetoldBy.setDepth (depth : Nat) : Proceeds (Emit.setDepth depth) :=
  fun _ => .inl ⟨rfl, fun _ => rfl⟩

theorem ForetoldBy.here : Proceeds Emit.here := fun _ => .inl ⟨rfl, fun _ => rfl⟩

theorem ForetoldBy.depth : Proceeds Emit.depth := fun _ => .inl ⟨rfl, fun _ => rfl⟩

theorem ForetoldBy.land (branches : List Nat) (target : Nat) : Proceeds (Emit.land branches target) :=
  fun _ => .inl ⟨rfl, fun _ => rfl⟩

theorem ForetoldBy.fail {fault : InternalFault} (isLimit : fault.isLimit = true) :
    Proceeds (Emit.fail fault : Emit α) :=
  fun before => .inr ⟨_, rfl, .limit isLimit before.position⟩

/-- A constant is added unless the pool is full or a text is too long. -/
theorem ForetoldBy.constant (add : Pool.Adding PoolIndex) : Proceeds (Emit.constant add) := by
  intro before
  unfold result
  rw [run_constant]
  rcases add.run.run before.body.pool with ⟨error | index, pool⟩
  · exact .inr ⟨_, rfl, .limit rfl _⟩
  · exact .inl ⟨rfl, fun _ => rfl⟩

theorem ForetoldBy.instrs (instrs : List Instr) : Proceeds (Emit.instrs instrs) := by
  induction instrs with
  | nil => exact .pure ()
  | cons first rest ih => exact .after (.instr first) fun _ => ih

theorem ForetoldBy.branch (test : Test) : Proceeds (Emit.branch test) :=
  .after .here fun index => .after (.instr _) fun _ => .pure index

theorem ForetoldBy.landHere (branches : List Nat) : Proceeds (Emit.landHere branches) :=
  .after .here fun _ => .land branches _

end Emit

end MethodPatch
