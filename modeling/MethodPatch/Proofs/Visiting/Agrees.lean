/-
**Probing beside generating.**

A visit does one of two things. While the visitor generates, it is an action of the generator, and
leaves the rest of the visitor alone. While the visitor probes, it gives an answer that is known
beforehand, whatever the visitor holds, and changes nothing. `Visit.Agrees` says both, and is closed
under the ways in which visits are put together.

* `Visit.Generates`, `Visit.Probes`: the two halves;
* `Visit.Agrees`: both of them;
* `Agrees.probe`, `Agrees.early`: probes on the way, and visits that end early while probing.
-/

import MethodPatch.Visit.Member
import MethodPatch.Proofs.Constants.Again

namespace MethodPatch

/-- An action of the generator, as a visitor takes it. -/
def Emit.visited {α : Type} (action : Emit α) (visitor : Visitor) :
    Except SourceError α × Visitor :=
  ((action.run.run visitor.generator).1,
    { visitor with generator := (action.run.run visitor.generator).2 })

namespace Visit

variable {α β γ δ : Type} {view : α → β} {look : γ → δ}

/-- A visit that generates is an action of the generator. -/
def Generates (visit : Visit α) (action : Emit α) : Prop :=
  ∀ visitor : Visitor, visitor.probing = false → visit.run.run visitor = action.visited visitor

/-- A visit that probes answers as known, if its answers are looked at in some way, and leaves the
visitor as it is. -/
def Probes (view : α → β) (visit : Visit α) (known : Except SourceError β) : Prop :=
  ∀ visitor : Visitor, visitor.probing = true →
    ∃ result, visit.run.run visitor = (result, visitor) ∧ result.map view = known

/-- A visit is an action of the generator, or it probes and answers as known. -/
structure Agrees (view : α → β) (visit : Visit α) (action : Emit α) (known : Except SourceError β) :
    Prop where
  generates : Generates visit action
  probes : Probes view visit known

/-- A step that does nothing while probing. -/
abbrev Inert (visit : Visit α) (action : Emit α) : Prop :=
  Agrees (fun _ => ()) visit action (.ok ())

/-- A probe is run by a visitor that probes, and what it was set to is set again behind it. -/
theorem run_probe (visit : Visit α) (visitor : Visitor) :
    (Visit.probe visit).run.run visitor =
      ((visit.run.run { visitor with probing := true }).1,
        { (visit.run.run { visitor with probing := true }).2 with probing := visitor.probing }) :=
  rfl

/-! ### Visits that generate -/

theorem Generates.pure (answer : α) : Generates (Pure.pure answer) (Pure.pure answer) :=
  fun _ _ => rfl

theorem Generates.bind {visit : Visit α} {action : Emit α} {next : α → Visit γ} {rest : α → Emit γ}
    (here : Generates visit action) (behind : ∀ answer, Generates (next answer) (rest answer)) :
    Generates (visit >>= next) (action >>= rest) := by
  intro visitor generating
  unfold Emit.visited
  rw [run_bind, run_bind, here visitor generating]
  unfold Emit.visited
  rcases action.run.run visitor.generator with ⟨error | answer, generator⟩
  · rfl
  · exact behind answer { visitor with generator } generating

theorem Generates.lift (known : Except SourceError α) :
    Generates (liftExcept known) (liftExcept known) := by
  cases known <;> exact fun _ _ => rfl

/-- A probe on the way gives what is known, and the visitor generates on. -/
theorem Generates.probe {visit : Visit α} {known : Except SourceError α}
    (probes : Probes id visit known) : Generates (Visit.probe visit) (liftExcept known) := by
  intro visitor generating
  obtain ⟨result, answered, isKnown⟩ := probes { visitor with probing := true } rfl
  rw [run_probe, answered]
  cases result <;> cases isKnown <;> rfl

/-- A visit that ends early only while probing goes on. -/
theorem Generates.early {visit : Visit α} {action : Emit α} (generates : Generates visit action)
    (stop : α) : Generates (do if ← isProbing then return stop else visit) action := by
  intro visitor generating
  show (if visitor.probing = true then Pure.pure stop else visit : Visit α).run.run visitor = _
  rw [generating]
  exact generates visitor generating

/-! ### Visits that probe -/

theorem Probes.pure (answer : α) : Probes view (Pure.pure answer) (.ok (view answer)) :=
  fun _ _ => ⟨_, rfl, rfl⟩

theorem Probes.throw (error : SourceError) :
    Probes view (MonadExcept.throw error) (.error error) :=
  fun _ _ => ⟨_, rfl, rfl⟩

theorem Probes.bind {visit : Visit α} {next : α → Visit γ} {known : Except SourceError β}
    {rest : β → Except SourceError δ} (here : Probes view visit known)
    (behind : ∀ answer, Probes look (next answer) (rest (view answer))) :
    Probes look (visit >>= next) (known >>= rest) := by
  intro visitor probing
  obtain ⟨result, answered, rfl⟩ := here visitor probing
  rw [run_bind, answered]
  cases result with
  | error error => exact ⟨_, rfl, rfl⟩
  | ok answer => exact behind answer visitor probing

theorem Probes.probe {visit : Visit α} {known : Except SourceError β}
    (probes : Probes view visit known) : Probes view (Visit.probe visit) known := by
  intro visitor probing
  obtain ⟨result, answered, isKnown⟩ := probes { visitor with probing := true } rfl
  refine ⟨result, ?_, isKnown⟩
  rw [run_probe, answered]

/-- A visit that ends early while probing answers as it does there. -/
theorem Probes.early (visit : Visit α) (stop : α) :
    Probes view (do if ← isProbing then return stop else visit) (.ok (view stop)) := by
  intro visitor probing
  refine ⟨.ok stop, ?_, rfl⟩
  show (if visitor.probing = true then Pure.pure stop else visit : Visit α).run.run visitor = _
  rw [probing]
  rfl

/-! ### Both -/

namespace Agrees

variable {visit : Visit α} {action : Emit α} {next : α → Visit γ} {rest : α → Emit γ}
  {known : Except SourceError β}

theorem pure (answer : α) : Agrees view (Pure.pure answer) (Pure.pure answer) (.ok (view answer)) :=
  ⟨.pure answer, .pure answer⟩

theorem throw (error : SourceError) : Agrees view (MonadExcept.throw error)
    (MonadExcept.throw error) (.error error) :=
  ⟨fun _ _ => rfl, .throw error⟩

theorem bind {following : β → Except SourceError δ} (here : Agrees view visit action known)
    (behind : ∀ answer, Agrees look (next answer) (rest answer) (following (view answer))) :
    Agrees look (visit >>= next) (action >>= rest) (known >>= following) :=
  ⟨here.generates.bind fun answer => (behind answer).generates,
    here.probes.bind fun answer => (behind answer).probes⟩

/-- A step that does nothing while probing leaves the answer as it is. -/
theorem followed {next : α → Visit Unit} {rest : α → Emit Unit} {known : Except SourceError Unit}
    (here : Agrees (fun _ => ()) visit action known)
    (behind : ∀ answer, Inert (next answer) (rest answer)) :
    Agrees id (visit >>= next) (action >>= rest) known := by
  have whole : Agrees id (visit >>= next) (action >>= rest) (known >>= fun _ => .ok ()) :=
    here.bind behind
  cases known <;> exact whole

/-- The last steps of a visit only make something of an answer. -/
theorem made {make : β → δ} (here : Agrees view visit action known)
    (behind : ∀ answer, Agrees look (next answer) (rest answer) (.ok (make (view answer)))) :
    Agrees look (visit >>= next) (action >>= rest) (known.map make) := by
  have whole : Agrees look (visit >>= next) (action >>= rest)
      (known >>= fun answer => .ok (make answer)) := here.bind behind
  cases known <;> exact whole

/-- The last steps of a visit give an answer of their own. -/
theorem giving {found : δ} (here : Agrees view visit action known)
    (behind : ∀ answer, Agrees look (next answer) (rest answer) (.ok found)) :
    Agrees look (visit >>= next) (action >>= rest) (known.map fun _ => found) :=
  here.made behind

theorem lift (known : Except SourceError α) :
    Agrees id (liftExcept known) (liftExcept known) known := by
  cases known with
  | error error => exact .throw error
  | ok answer => exact .pure answer

/-- A check comes out as it does. -/
theorem check {known : Except SourceError α} {following : α → Except SourceError δ}
    (behind : ∀ answer, known = .ok answer →
      Agrees look (next answer) (rest answer) (following answer)) :
    Agrees look (liftExcept known >>= next) (liftExcept known >>= rest) (known >>= following) := by
  cases known with
  | error error => exact .throw error
  | ok answer => exact behind answer rfl

/-- The same, if the rest only says what is made of the answer. -/
theorem checked {known : Except SourceError α} {made : α → δ}
    (behind : ∀ answer, Agrees look (next answer) (rest answer) (.ok (made answer))) :
    Agrees look (liftExcept known >>= next) (liftExcept known >>= rest) (known.map made) :=
  (lift known).made behind

/-- Behind a step that does nothing while probing the answer is the one of the rest. -/
theorem after {known : Except SourceError δ} (here : Inert visit action)
    (behind : ∀ answer, Agrees look (next answer) (rest answer) known) :
    Agrees look (visit >>= next) (action >>= rest) known :=
  show Agrees look (visit >>= next) (action >>= rest)
    ((Except.ok () : Except SourceError Unit) >>= fun _ => known) from here.bind behind

/-- The same, if the step is taken in some cases only. -/
theorem maybe {condition : Prop} [Decidable condition] {known : Except SourceError δ}
    {next : Visit γ} {rest : Emit γ} (here : Inert visit action)
    (behind : Agrees look next rest known) :
    Agrees look (if condition then visit >>= fun _ => next else next)
      (if condition then action >>= fun _ => rest else rest) known := by
  split
  · exact after here fun _ => behind
  · exact behind

/-- A probe gives what is known, whatever it is on the way of. -/
theorem probe {visit : Visit α} {known : Except SourceError α}
    {following : α → Except SourceError δ} (probes : Probes id visit known)
    (behind : ∀ answer, known = .ok answer →
      Agrees look (next answer) (rest answer) (following answer)) :
    Agrees look (Visit.probe visit >>= next) (liftExcept known >>= rest) (known >>= following) := by
  constructor
  · intro visitor generating
    unfold Emit.visited
    rw [run_bind, run_bind, Generates.probe probes visitor generating]
    cases known with
    | error error => rfl
    | ok answer => exact (behind answer rfl).generates visitor generating
  · intro visitor probing
    obtain ⟨result, answered, isKnown⟩ := probes.probe visitor probing
    rw [run_bind, answered]
    cases result with
    | error error =>
      cases isKnown
      exact ⟨_, rfl, rfl⟩
    | ok answer =>
      cases isKnown
      exact (behind answer rfl).probes visitor probing

/-- A visit that ends early while probing. -/
theorem early (generates : Generates visit action) (stop : α) :
    Agrees view (do if ← isProbing then return stop else visit) action (.ok (view stop)) :=
  ⟨generates.early stop, .early visit stop⟩

/-! ### Steps -/

theorem unlessProbing (inert : α) (step : Emit α) : Inert (Visit.unlessProbing inert step) step := by
  constructor
  · intro visitor generating
    exact if_neg (ne_true_of_eq_false generating)
  · intro visitor probing
    exact ⟨.ok inert, if_pos probing, rfl⟩

theorem instr (instr : Instr) : Inert (Visit.instr instr) (Emit.instr instr) := unlessProbing _ _

theorem constant (add : Pool.Adding PoolIndex) :
    Inert (Visit.constant add) (Emit.constant add) := unlessProbing _ _

theorem setDepth (depth : Nat) : Inert (Visit.setDepth depth) (Emit.setDepth depth) :=
  unlessProbing _ _

theorem land (branches : List Nat) (target : Nat) :
    Inert (Visit.land branches target) (Emit.land branches target) := unlessProbing _ _

theorem here : Inert Visit.here Emit.here := ⟨fun _ _ => rfl, fun _ _ => ⟨_, rfl, rfl⟩⟩

theorem depth : Inert Visit.depth Emit.depth := ⟨fun _ _ => rfl, fun _ _ => ⟨_, rfl, rfl⟩⟩

theorem instrs (instrs : List Instr) : Inert (Visit.instrs instrs) (Emit.instrs instrs) := by
  induction instrs with
  | nil => exact .pure ()
  | cons first rest ih => exact .after (.instr first) fun _ => ih

theorem branch (test : Test) : Inert (Visit.branch test) (Emit.branch test) :=
  here.bind fun index => .after (.instr _) fun _ => .pure index

theorem landHere (branches : List Nat) : Inert (Visit.landHere branches) (Emit.landHere branches) :=
  here.bind fun _ => .land branches _

end Agrees

/-- A visit that generates goes on generating. -/
theorem Generates.after {visit : Visit α} {action : Emit α} {next : α → Visit γ}
    {rest : α → Emit γ} {known : Except SourceError β} (here : Agrees view visit action known)
    (behind : ∀ answer, Generates (next answer) (rest answer)) :
    Generates (visit >>= next) (action >>= rest) :=
  here.generates.bind behind

/-- The same, if the step is taken in some cases only. -/
theorem Generates.maybe {condition : Prop} [Decidable condition] {visit : Visit α}
    {action : Emit α} {next : Visit γ} {rest : Emit γ} {known : Except SourceError β}
    (here : Agrees view visit action known) (behind : Generates next rest) :
    Generates (if condition then visit >>= fun _ => next else next)
      (if condition then action >>= fun _ => rest else rest) := by
  split
  · exact .after here fun _ => behind
  · exact behind

end Visit

end MethodPatch
