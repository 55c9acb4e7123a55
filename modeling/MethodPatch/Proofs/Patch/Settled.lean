/-
**Statements whose variables have been placed.**

Placing the variables of a statement takes them one by one from an allocator that changes. Since
locals are only ever added, the result can be told from any later allocator: each variable has the
local that is known by its name.

* `Allocator.settle`: a declared variable with the local of its name;
* `Stmt.settles`: **placing settles every variable by any later allocator**;
* `Pass.step_emits`, `Pass.run_emits`: what is generated by statements that succeed.
-/

import MethodPatch.Proofs.Composition.Parts
import MethodPatch.Proofs.Emission.Stmt
import MethodPatch.Proofs.Patch.Pass

namespace MethodPatch

/-- An allocator comes behind another one: locals may have been added. -/
def Allocator.Leads (before after : Allocator) : Prop := ∃ fresh, before.Extends fresh after

theorem Allocator.Leads.refl (allocator : Allocator) : allocator.Leads allocator := ⟨[], .refl _⟩

theorem Allocator.Leads.trans {first second third : Allocator} (here : first.Leads second)
    (behind : second.Leads third) : first.Leads third := by
  obtain ⟨fresh, added⟩ := here
  obtain ⟨more, addedMore⟩ := behind
  exact ⟨fresh ++ more, added.trans addedMore⟩

theorem Allocator.Leads.find? {before after : Allocator} {name : String} {entry : Local}
    (leads : before.Leads after) (found : before.find? name = some entry) :
    after.find? name = some entry := by
  obtain ⟨fresh, added⟩ := leads
  exact added.find?_of_known found

theorem Allocator.Leads.fits {before after : Allocator} (leads : before.Leads after)
    (fits : before.Fits) : after.Fits := by
  obtain ⟨fresh, added⟩ := leads
  exact added.fits fits

theorem Allocator.Leads.count_le {before after : Allocator} (leads : before.Leads after)
    (fits : after.Fits) : before.count ≤ after.count := by
  obtain ⟨fresh, added⟩ := leads
  have reached := added.le_next
  rw [UInt16.le_iff_toNat_le, fits.toNat_count, Fits.toNat_count (Nat.le_trans reached fits)]
  exact reached

/-- The declared variable with the local that is known by its name, if one is. -/
def Allocator.settle (allocator : Allocator) (declarator : Declarator) : Declarator :=
  match allocator.find? declarator.name with
  | some entry => declarator.settle entry
  | none => declarator

theorem Allocator.settle_of_known {allocator : Allocator} {declarator : Declarator} {entry : Local}
    (known : allocator.find? declarator.name = some entry) :
    allocator.settle declarator = declarator.settle entry := by
  rw [settle, known]

variable {strict : Bool} {host : Host} {final : Allocator} {α β : Type}

/-! ### Placing settles -/

/-- An action that only adds locals. What it answers with can be told from an allocator behind it. -/
structure SettledBy (final : Allocator) (action : Placing α) (value : α) : Prop where
  answer : ∀ {before after : Allocator × List Local} {result : α},
    action.run.run before = (.ok result, after) → after.1.Leads final →
      before.1.Leads final ∧ result = value

theorem SettledBy.pure (value : α) : SettledBy final (Pure.pure value) value := by
  refine ⟨?_⟩
  rintro before after result ⟨⟩ leads
  exact ⟨leads, rfl⟩

theorem SettledBy.bind {action : Placing α} {value : α} {next : α → Placing β} {answer : α → β}
    (here : SettledBy final action value) (behind : ∀ found, SettledBy final (next found) (answer found)) :
    SettledBy final (action >>= next) (answer value) := by
  refine ⟨fun {before after result} ran leads => ?_⟩
  rw [Placing.run_bind] at ran
  rcases first : action.run.run before with ⟨_ | found, middle⟩
  · rw [first] at ran
    cases ran
  · rw [first] at ran
    obtain ⟨middleLeads, rfl⟩ := (behind found).answer ran leads
    obtain ⟨beforeLeads, rfl⟩ := here.answer first middleLeads
    exact ⟨beforeLeads, rfl⟩

theorem placeDeclarator_settles (declarator : Declarator) :
    SettledBy final (placeDeclarator strict host declarator) (final.settle declarator) := by
  refine ⟨fun {before after result} ran leads => ?_⟩
  rcases placeDeclarator_run ran with ⟨_, failed, _⟩ | ⟨entry, more, allocator, placed, rfl, gives⟩
  · cases failed
  · cases placed
    exact ⟨.trans ⟨more, gives.adds⟩ leads,
      (Allocator.settle_of_known (leads.find? gives.knows)).symm⟩

theorem placeDeclarators_settle (declarators : List Declarator) :
    SettledBy final (declarators.mapM (placeDeclarator strict host)) (declarators.map final.settle) := by
  induction declarators with
  | nil => exact .pure []
  | cons first rest ih =>
    rw [List.mapM_cons]
    exact (placeDeclarator_settles first).bind fun found => ih.bind fun others =>
      .pure (found :: others)

namespace Stmt

mutual

/-- **Placing settles every variable of a statement** by any later allocator. -/
theorem settles : (statement : Stmt) →
    SettledBy final (statement.mapDeclared (placeDeclarator strict host))
      (statement.mapParts final.settle)
  | .declare isFinal declarators position => by
    have mapped : (Stmt.declare isFinal declarators position).mapParts final.settle =
        .declare isFinal (declarators.map final.settle) position := by
      simp [mapParts, mapDeclared]
    rw [mapped]
    exact ((placeDeclarators_settle declarators).bind fun placed =>
      .pure (Stmt.declare isFinal placed position) :)
  | .branch test first none position =>
    ((settles first).bind fun placed => .pure (branch test placed none position) :)
  | .branch test first (some second) position =>
    ((settles first).bind fun placed => (settles second).bind fun other =>
      .pure (branch test placed (some other) position) :)
  | .whileLoop test body position =>
    ((settles body).bind fun placed => .pure (whileLoop test placed position) :)
  | .doLoop body test position =>
    ((settles body).bind fun placed => .pure (doLoop placed test position) :)
  | .forLoop start test updates body position =>
    ((settlesAll start).bind fun started => (settles body).bind fun placed =>
      .pure (forLoop started test updates placed position) :)
  | .block body position =>
    ((settlesAll body).bind fun placed => .pure (Stmt.block placed position) :)
  | .expression _ _ | .ret _ _ | .breakLoop _ | .continueLoop _ | .throwing _ _ | .empty _ =>
    .pure _

theorem settlesAll : (statements : List Stmt) →
    SettledBy final (mapDeclaredAll (placeDeclarator strict host) statements)
      (mapPartsAll final.settle statements)
  | [] => .pure []
  | first :: rest =>
    ((settles first).bind fun placed => (settlesAll rest).bind fun others =>
      .pure (placed :: others) :)

end

end Stmt

/-! ### What statements that succeed have generated -/

namespace Pass

/-- A statement of a pass has succeeded: its variables are known, and its code, with the variables as
the final allocator settles them, goes from one generator and scope to the other. -/
structure Emits (final : Allocator) (pass : Pass) (statement : Stmt) (later : Pass) : Prop where
  leads : pass.allocator.Leads later.allocator
  knows : ∀ declarator ∈ statement.declared,
    ∃ entry, later.allocator.find? declarator.name = some entry
  site : later.generation.site = pass.generation.site
  emitting : later.generation.progress = .emitting
  yields : ∃ exits, Yields
    ((statement.mapParts final.settle).lower pass.generation.site false)
    (pass.generation.generator.reserveLocals later.allocator.count, pass.scope) exits
    (later.generation.generator, later.scope)

/-- Statements of a pass have succeeded one after the other. -/
inductive Runs (final : Allocator) : Pass → List Stmt → Pass → Prop
  | nil (pass : Pass) : Runs final pass [] pass
  | cons {pass middle later : Pass} {first : Stmt} {rest : List Stmt}
    (emits : pass.Emits final first middle) (goesOn : Runs final middle rest later) :
    Runs final pass (first :: rest) later

variable {pass later : Pass} {statement : Stmt} {statements : List Stmt}

theorem place_settles {placed : Stmt} (placing : pass.place strict statement = (.ok placed, later))
    (leads : later.allocator.Leads final) : placed = statement.mapParts final.settle := by
  obtain ⟨allocator, generation, scope, fresh⟩ := pass
  unfold place at placing
  dsimp only at placing
  rcases ran : (statement.mapDeclared (placeDeclarator strict generation.site.host)).run.run
    (allocator, fresh) with ⟨outcome, after, others⟩
  rw [ran] at placing
  cases placing
  exact ((statement.settles).answer ran leads).2

/-- A statement whose variables are placed is generated, behind the slots of those. -/
theorem attempt_of_placed {placed : Stmt} (emitting : later.generation.progress = .emitting)
    (placing : pass.place strict statement = (.ok placed, later)) :
    pass.attempt strict statement =
      match (placed.lower later.generation.site false).run.run
        (later.generation.generator.reserveLocals later.allocator.count, later.scope) with
      | (.ok _, generator, scope) =>
        (.ok (), ⟨later.allocator, ⟨later.generation.site, generator, .emitting,
          later.generation.emitted + 1⟩, scope, later.fresh⟩)
      | (.error error, generator, scope) =>
        (.error (.notCompiled (error.orAt (some placed.position))), ⟨later.allocator,
          ⟨later.generation.site, generator, .failed, later.generation.emitted⟩, scope,
          later.fresh⟩) := by
  unfold attempt
  rw [placing]
  obtain ⟨allocator, ⟨site, generator, _, emitted⟩, scope, fresh⟩ := later
  cases emitting
  have inPass : ∀ count, ((⟨site, generator, .emitting, emitted⟩ : Generation).reserveLocals
      count).inPass = ⟨site, generator.reserveLocals count, .emitting, emitted⟩ := fun _ => rfl
  dsimp only
  unfold Generation.emit Generator.emit
  rw [inPass]
  dsimp only
  rcases (placed.lower site false).run.run (generator.reserveLocals allocator.count, scope) with
    ⟨_ | _, _, _⟩ <;> rfl

/-- A statement that succeeds has been placed and generated. -/
theorem attempt_ok (emitting : pass.generation.progress = .emitting)
    (attempted : pass.attempt strict statement = (.ok (), later)) :
    ∃ placed middle exits, pass.place strict statement = (.ok placed, middle) ∧
      middle.allocator = later.allocator ∧
      later.generation.site = pass.generation.site ∧ later.generation.progress = .emitting ∧
      Yields (placed.lower pass.generation.site false)
        (pass.generation.generator.reserveLocals later.allocator.count, pass.scope) exits
        (later.generation.generator, later.scope) := by
  rcases placing : pass.place strict statement with ⟨error | placed, middle⟩
  · unfold attempt at attempted
    rw [placing] at attempted
    cases attempted
  · obtain ⟨_, _, same, _⟩ := place_run placing
    have generation : middle.generation = pass.generation := by rw [same]
    have scope : middle.scope = pass.scope := by rw [same]
    rw [attempt_of_placed (generation ▸ emitting) placing, generation, scope] at attempted
    rcases ran : (placed.lower pass.generation.site false).run.run
      (pass.generation.generator.reserveLocals middle.allocator.count, pass.scope) with
      ⟨_ | exits, generator, behind⟩
    all_goals
      rw [ran] at attempted
      cases attempted
    exact ⟨placed, middle, exits, rfl, rfl, rfl, rfl, ran⟩

theorem step_emits (emitting : pass.generation.progress = .emitting)
    (ran : pass.step strict statement = (.ok (), later)) (leads : later.allocator.Leads final) :
    pass.Emits final statement later := by
  have attempted := step_ok ran
  obtain ⟨fresh, added, given⟩ := attempt_adds attempted
  obtain ⟨entries, gives⟩ := given rfl
  obtain ⟨placed, middle, exits, placing, same, site, goesOn, yields⟩ := attempt_ok emitting attempted
  refine ⟨⟨fresh, added.allocator⟩, fun declarator isDeclared => ?_, site, goesOn, ?_⟩
  · obtain ⟨entry, found, _⟩ := gives.settled_of_mem declarator isDeclared
    exact ⟨entry, found⟩
  · rw [← place_settles placing (same ▸ leads)]
    exact ⟨exits, yields⟩

/-- **Statements that succeed have been generated one after the other.** -/
theorem run_emits (emitting : pass.generation.progress = .emitting)
    (ran : pass.run strict statements = (.ok (), later)) (leads : later.allocator.Leads final) :
    Runs final pass statements later := by
  induction statements generalizing pass with
  | nil =>
    cases ran
    exact .nil _
  | cons first rest ih =>
    rw [run] at ran
    rcases stepped : pass.step strict first with ⟨_ | _, middle⟩ <;> rw [stepped] at ran
    · cases ran
    · obtain ⟨more, added, _⟩ := run_adds ran
      have emits := step_emits emitting stepped (.trans ⟨more, added.allocator⟩ leads)
      exact .cons emits (ih emits.emitting ran)

theorem Runs.leads (runs : Runs final pass statements later) :
    pass.allocator.Leads later.allocator := by
  induction runs with
  | nil => exact .refl _
  | cons emits _ ih => exact emits.leads.trans ih

theorem Runs.site (runs : Runs final pass statements later) :
    later.generation.site = pass.generation.site := by
  induction runs with
  | nil => rfl
  | cons emits _ ih => exact ih.trans emits.site

end Pass

end MethodPatch
