/-
**The code behind a pass that succeeded.**

A pass that succeeds begins with an empty body over the constants of the session, runs through the
statements of its text, and encodes what it has generated. `Session.Generated` has everything that
was involved, so that properties of fragments come from properties of runs.

* `Session.body?`: the body that a session has generated last;
* `Session.compilesTo`: a pass that can be evaluated, with what its fragment and its body satisfy;
* `Body.Makes`: the fragment of a body;
* `Session.compile_generated`: **what a pass that succeeds has run through**;
* `Allocator.fine_settle`: variables that were placed are settled.
-/

import MethodPatch.Proofs.Composition.Stmt
import MethodPatch.Proofs.Patch.Session
import MethodPatch.Proofs.Patch.Settled

namespace MethodPatch

/-- A fragment holds the code of a body, its constants, its lines and the depth of its stack. -/
structure Body.Makes (body : Body) (fragment : Fragment) : Prop where
  code : body.encode = .ok fragment.code
  pool : fragment.pool = body.pool
  maxStack : fragment.maxStack = body.maxStack
  lines : fragment.lines = body.lineTable

namespace Session

/-- The body that a session has generated last. -/
def body? (session : Session) : Option Body :=
  session.hook.installed.map fun installed => installed.generation.generator.body

/-- A pass over the text succeeds, and its fragment and its body satisfy this. -/
def compilesTo (session : Session) (source : String) (holds : Fragment → Body → Bool) : Bool :=
  let passed := session.compile source
  passed.1.toOption.any fun fragment => passed.2.body?.any (holds fragment)

/-- What a pass that succeeds satisfies can be read off from the pass. -/
theorem exists_of_compilesTo {session : Session} {source : String} {holds : Fragment → Body → Bool}
    (passes : session.compilesTo source holds = true) :
    ∃ fragment later body, session.compile source = (.ok fragment, later) ∧
      later.body? = some body ∧ holds fragment body = true := by
  unfold compilesTo at passes
  rcases compiled : session.compile source with ⟨_ | fragment, later⟩ <;>
    rw [compiled] at passes
  · cases passes
  · cases isBody : later.body? with
    | none =>
      simp only [Except.toOption, Option.any_some, isBody, Option.any_none] at passes
      cases passes
    | some body =>
      simp only [Except.toOption, Option.any_some, isBody] at passes
      exact ⟨fragment, later, body, rfl, isBody, passes⟩

/-- A pass over a text has succeeded: the statements of the text have run one after the other from
the opening of a generation, and the fragment was made of what was generated. -/
structure Generated (session : Session) (source : String) (fragment : Fragment) (later : Session)
    (generation : Generation) (statements : List Stmt) (pass : Pass) : Prop where
  installed : session.hook.installed = some ⟨session.target, generation⟩
  isSite : session.target.site = .ok generation.site
  parsed : (Stmt.parse source).1 = .ok statements
  ran : (generation.opening (.root session.roots) session.allocator (Stmt.parse source).2).run
    session.strict statements = (.ok (), pass)
  allocator : later.allocator = pass.allocator
  hook : later.hook = ⟨some ⟨session.target, pass.generation.finish⟩⟩
  complete : pass.generation.finish.progress = .complete
  makes : pass.generation.generator.body.Makes fragment
  maxLocals : fragment.maxLocals = max pass.allocator.count pass.generation.generator.maxLocals

end Session

namespace Generation

variable {generation : Generation}

theorem extract_complete (complete : generation.progress = .complete) {code : List UInt8} :
    generation.extract = .ok code ↔ generation.generator.body.encode = .ok code := by
  unfold extract
  rw [complete]
  dsimp only
  cases generation.generator.body.encode <;> simp [Except.mapError]

@[simp] theorem generator_finish (generation : Generation) :
    generation.finish.generator = generation.generator := by
  unfold finish
  split <;> rfl

theorem complete_finish (emitting : generation.progress = .emitting) :
    generation.finish.progress = .complete := by
  rw [finish, if_pos emitting]

end Generation

namespace Pass

variable {pass : Pass} {fragment : Fragment}

/-- The fragment of a pass that has come to its end. -/
theorem fragment_ok (complete : pass.generation.progress = .complete) :
    pass.fragment = .ok fragment ↔
      pass.generation.generator.body.Makes fragment ∧
        fragment.introduced = Local.snapshot pass.fresh ∧
        fragment.maxLocals = max pass.allocator.count pass.generation.generator.maxLocals := by
  unfold Pass.fragment
  constructor
  · intro extracted
    cases coded : pass.generation.extract with
    | error error =>
      rw [coded] at extracted
      cases extracted
    | ok code =>
      rw [coded] at extracted
      cases extracted
      exact ⟨⟨(Generation.extract_complete complete).mp coded, rfl, rfl, rfl⟩, rfl, rfl⟩
  · obtain ⟨code, introduced, maxLocals, maxStack, pool, lines⟩ := fragment
    rintro ⟨⟨coded, rfl, rfl, rfl⟩, rfl, rfl⟩
    rw [(Generation.extract_complete complete).mpr coded]
    rfl

/-- Behind statements that succeed a pass is still going on. -/
theorem Runs.emitting {final : Allocator} {later : Pass} {statements : List Stmt}
    (runs : Runs final pass statements later) (emitting : pass.generation.progress = .emitting) :
    later.generation.progress = .emitting := by
  induction runs with
  | nil => exact emitting
  | cons emits _ ih => exact ih emits.emitting

end Pass

namespace Session

variable {session later : Session} {source : String} {fragment : Fragment}

/-- A session begins with a generation over the constants of the class. -/
theorem start_installed {target : Target} {record : MethodRecord} {strict : Bool} {opened : Session}
    (opens : start target record strict = .ok opened) : ∃ site pool,
      opened.hook.installed = some ⟨target, .ofSite site pool⟩ ∧ target.site = .ok site ∧
        target.pool = .ok pool := by
  simp only [start, bind_eq_ok, pure_eq_ok] at opens
  obtain ⟨_, _, _, _, hook, done, rfl⟩ := opens
  have begun : Hook.empty.install target =
      (Hook.generationFor target).map (Hook.replace target) := rfl
  rw [begun] at done
  cases made : Hook.generationFor target with
  | error error =>
    rw [made] at done
    cases done
  | ok generation =>
    rw [made] at done
    cases done
    simp only [Hook.generationFor, bind_eq_ok, pure_eq_ok] at made
    obtain ⟨site, isSite, pool, isPool, rfl⟩ := made
    exact ⟨site, pool, rfl, isSite, isPool⟩

/-- **What a pass that succeeds has run through.** -/
theorem compile_generated (sound : session.Sound)
    (compiled : session.compile source = (.ok fragment, later)) :
    session.failed = false ∧ ∃ generation statements pass,
      session.Generated source fragment later generation statements pass := by
  unfold compile at compiled
  by_cases failed : session.failed = true
  · rw [if_pos failed] at compiled
    cases compiled
  · rw [if_neg failed] at compiled
    obtain ⟨generation, installed, isSite⟩ := sound.installed
    rcases passed : generation.compile session.strict (.root session.roots) session.allocator source
      with ⟨outcome, allocator, following⟩
    rw [Hook.compile_of_installed installed passed] at compiled
    cases outcome with
    | error error => cases compiled
    | ok made =>
      cases compiled
      have noneNew := adopt_of_known sound.inScope
      cases Generation.compiles passed with
      | @finished statements adopting pass _ parsed adopted ran extracted =>
        cases noneNew.symm.trans adopted
        have emitting := (Pass.run_emits rfl ran (.refl _)).emitting rfl
        have complete := Generation.complete_finish emitting
        let finished : Pass := { pass with generation := pass.generation.finish }
        have isComplete : finished.generation.progress = .complete := complete
        obtain ⟨makes, _, maxLocals⟩ := (Pass.fragment_ok isComplete).mp extracted
        dsimp only [finished] at makes maxLocals
        rw [Generation.generator_finish] at makes maxLocals
        exact ⟨Bool.eq_false_iff.mpr failed, generation, statements, pass, installed, isSite, parsed,
          ran, rfl, rfl, complete, makes, maxLocals⟩

namespace Generated

variable {generation : Generation} {statements : List Stmt} {pass : Pass}

theorem body? (generated : session.Generated source fragment later generation statements pass) :
    later.body? = some pass.generation.generator.body := by
  rw [Session.body?, generated.hook, Option.map_some, Generation.generator_finish]

/-- The statements have run one after the other, settled by any later allocator. -/
theorem runs (generated : session.Generated source fragment later generation statements pass)
    {final : Allocator} (leads : later.allocator.Leads final) :
    Pass.Runs final
      (generation.opening (.root session.roots) session.allocator (Stmt.parse source).2) statements
      pass :=
  Pass.run_emits rfl generated.ran (generated.allocator ▸ leads)

theorem fits (generated : session.Generated source fragment later generation statements pass)
    (sound : session.Sound) : later.allocator.Fits :=
  generated.allocator ▸ (generated.runs (.refl _)).leads.fits sound.fits

end Generated

end Session

/-! ### Settled variables -/

/-- No name is pending. -/
theorem clear_none (parts : List Part) : Clear (fun _ => False) parts := by
  have same : ∀ part : Part, part.behind (fun _ => False) = fun _ => False := by
    intro part
    cases part with
    | evaluate expression => rfl
    | declare declarator => exact funext fun name => propext (and_iff_left_of_imp nofun)
  induction parts with
  | nil => trivial
  | cons first rest ih =>
    refine ⟨fun _ _ _ _ => id, ?_⟩
    rw [same]
    exact ih

/-- **Variables that were placed are settled.** The locals that an allocator knows are from a set, as
are the types of expressions. -/
theorem Allocator.fine_settle {final : Allocator} {statement : Stmt} {types : FieldType → Prop}
    {declares : Slot → FieldType → Prop} {host : Host}
    (means : ∀ part ∈ statement.parts, ∀ expression ∈ part.expressions, expression.Means types host)
    (knows : ∀ declarator ∈ statement.declared, ∃ entry, final.find? declarator.name = some entry)
    (suits : ∀ name entry, final.find? name = some entry →
      ∀ type, FieldType.ofSourceName? entry.type.sourceName = some type →
        types type ∧ declares entry.slot type) :
    ∀ part ∈ (statement.mapParts final.settle).parts, part.Fine types declares host := by
  intro part isPart
  rw [Stmt.parts_mapParts] at isPart
  obtain ⟨original, isOriginal, rfl⟩ := List.mem_map.mp isPart
  have meant := means original isOriginal
  cases original with
  | evaluate expression => exact ⟨meant, nofun⟩
  | declare declarator =>
    have isDeclared : declarator ∈ statement.declared := by
      rw [Stmt.declared_eq]
      exact List.mem_filterMap.mpr ⟨_, isOriginal, rfl⟩
    obtain ⟨entry, known⟩ := knows declarator isDeclared
    have settled := Allocator.settle_of_known known
    refine ⟨?_, ?_⟩
    · rw [Part.map, settled]
      exact meant
    · rintro other same
      rw [Part.map, settled] at same
      cases same
      refine ⟨entry.slot, rfl, fun type isType => suits _ entry known type ?_⟩
      unfold Declarator.fieldType Declarator.settle at isType
      dsimp only at isType
      split at isType <;> cases isType
      assumption

/-- The code of a statement whose variables are known is composed, with its variables settled. -/
theorem Stmt.composed_settled {final : Allocator} {statement : Stmt} {pending : String → Prop}
    (site : Site)
    (knows : ∀ declarator ∈ statement.declared, ∃ entry, final.find? declarator.name = some entry)
    (clear : Clear pending statement.parts) :
    EmitScoped.Composed (fun _ => True) (fun _ _ => True) site pending
      ((statement.mapParts final.settle).lower site false)
      (pendingBehind pending statement.parts) := by
  have named : ∀ declarator, (final.settle declarator).name = declarator.name := by
    intro declarator
    unfold Allocator.settle
    split <;> rfl
  have initial : ∀ declarator, (final.settle declarator).initial = declarator.initial := by
    intro declarator
    unfold Allocator.settle
    split <;> rfl
  have fine : ∀ part ∈ (statement.mapParts final.settle).parts,
      part.Fine (fun _ => True) (fun _ _ => True) site.host :=
    Allocator.fine_settle (fun _ _ _ _ _ _ _ _ => trivial) knows fun _ _ _ _ _ => ⟨trivial, trivial⟩
  have settled := statement.parts_mapParts final.settle
  have stillClear : Clear pending (statement.mapParts final.settle).parts :=
    settled ▸ (clear_map named initial).mpr clear
  rw [← pendingBehind_map named, ← settled]
  exact (statement.mapParts final.settle).composed site.speaks_all fine stillClear

end MethodPatch
