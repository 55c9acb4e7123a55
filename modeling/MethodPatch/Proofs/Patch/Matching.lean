/-
**Sessions that cannot be told apart.**

Two sessions for one method match if they know the same locals and bind the same names to them. What
one of them makes of a text the other one makes too, but for the constants that were there before,
and behind a text that both accept they match again.

* `Session.Ready`, `Session.Matches`: sessions that go on, and two that go on alike;
* `Session.Matches.outcomes`: **what matching sessions make of a text**;
* `Session.Matches.later`: they match behind a text that both accept;
* `Session.Matches.outcomes_after`: what they make of a text behind any others.
-/

import MethodPatch.Proofs.Patch.Operands
import MethodPatch.Proofs.Patch.Parallel
import MethodPatch.Proofs.Patch.Repeats
import MethodPatch.Proofs.Patch.Slots

namespace MethodPatch

/-- A malformed text fails before anything is generated. -/
theorem Generation.compile_of_malformed {generation : Generation} {strict : Bool} {roots : Scope}
    {allocator : Allocator} {source : String} {error : SourceError}
    (malformed : (Stmt.parse source).1 = .error error) :
    generation.compile strict roots allocator source =
      (.error (.malformed error), allocator, generation) := by
  rcases parsed : Stmt.parse source with ⟨outcome, declared⟩
  rw [parsed] at malformed
  cases malformed
  unfold Generation.compile
  rw [parsed]

namespace Session

variable {one other session : Session} {generation following : Generation}

/-- A session can go on: no pass has failed, it binds what it knows, and a class file can hold the
texts among its constants. -/
structure Ready (session : Session) : Prop where
  alive : session.failed = false
  sound : session.Sound
  inStep : session.InStep
  legal : ∀ {generation : Generation},
    session.hook.installed = some ⟨session.target, generation⟩ →
      generation.generator.body.pool.Legal

/-- Sessions for the same method that know the same locals in the same order. -/
structure Matches (one other : Session) : Prop where
  ready : one.Ready
  otherReady : other.Ready
  target : one.target = other.target
  strict : one.strict = other.strict
  allocator : one.allocator.Same other.allocator

/-- The result of a pass is that of the installed generation. -/
theorem Ready.result (ready : session.Ready)
    (installed : session.hook.installed = some ⟨session.target, generation⟩) (source : String) :
    (session.compile source).1 =
      (generation.compile session.strict (.root session.roots) session.allocator source).1 := by
  unfold Session.compile
  rcases passed : generation.compile session.strict (.root session.roots) session.allocator source
    with ⟨result, allocator, behind⟩
  rw [ready.alive, if_neg Bool.false_ne_true, Hook.compile_of_installed installed passed]
  cases result <;> rfl

/-- Sessions that match bind the same names to the same locals. -/
theorem Matches.roots (same : one.Matches other) (name : String) :
    (Scope.root one.roots).binding? name = (Scope.root other.roots).binding? name := by
  rw [Scope.binding?_root, Scope.binding?_root, same.ready.inStep name, same.otherReady.inStep name,
    same.allocator.find?]

/-- In front of the first statement matching sessions are alike. -/
theorem Matches.opening (same : one.Matches other)
    (installed : one.hook.installed = some ⟨one.target, generation⟩)
    (installedThere : other.hook.installed = some ⟨other.target, following⟩)
    (isSite : one.target.site = .ok generation.site)
    (isSiteThere : other.target.site = .ok following.site) (declared : Array Declaration) :
    (generation.opening (.root one.roots) one.allocator declared).Alike
      (following.opening (.root other.roots) other.allocator declared) := by
  have sameSite : generation.site = following.site := by
    rw [same.target, isSiteThere] at isSite
    exact (Except.ok.inj isSite).symm
  have twins : (Generator.ofPool generation.site.method generation.generator.body.pool).Twins
      (.ofPool following.site.method following.generator.body.pool) :=
    ⟨sameSite ▸ rfl, same.ready.legal installed, same.otherReady.legal installedThere⟩
  refine ⟨same.allocator, rfl, sameSite, rfl, rfl, ?_, fun name _ => ?_⟩
  · have reserved := twins.reserveLocals one.allocator.count
    nth_rw 2 [same.allocator.count] at reserved
    exact reserved
  · unfold Generation.opening
    dsimp only
    rw [Scope.binding?_declareAll, Scope.binding?_declareAll, same.roots]

/-- **What matching sessions make of a text.** Both accept it, with the same new locals and the same
number of slots, or both refuse it for the same reason, unless a class file cannot hold what one of
them makes. -/
theorem Matches.outcomes (same : one.Matches other) (source : String) :
    Outcomes PatchError.IsLimit Fragment.Alike (one.compile source).1 (other.compile source).1 := by
  obtain ⟨generation, installed, isSite⟩ := same.ready.sound.installed
  obtain ⟨following, installedThere, isSiteThere⟩ := same.otherReady.sound.installed
  rw [same.ready.result installed, same.otherReady.result installedThere]
  cases parsed : (Stmt.parse source).1 with
  | error error =>
    rw [Generation.compile_of_malformed parsed, Generation.compile_of_malformed parsed]
    exact .error _
  | ok statements =>
    have noneNew := adopt_of_known same.ready.sound.inScope
    have noneNewThere := adopt_of_known same.otherReady.sound.inScope
    have parallel := (same.opening installed installedThere isSite isSiteThere
      (Stmt.parse source).2).run one.strict statements
    rcases ran : (generation.opening (.root one.roots) one.allocator (Stmt.parse source).2).run
      one.strict statements with ⟨result, pass⟩
    rcases ranThere : (following.opening (.root other.roots) other.allocator
      (Stmt.parse source).2).run one.strict statements with ⟨resultThere, passThere⟩
    rw [ran, ranThere] at parallel
    rw [same.strict] at ran ranThere
    rw [same.strict]
    cases result with
    | error error =>
      rw [Generation.compile_of_run_error parsed noneNew ran]
      cases parallel with
      | error =>
        rw [Generation.compile_of_run_error parsed noneNewThere ranThere]
        exact .error error
      | first limit => exact .first limit _
      | second limit =>
        rw [Generation.compile_of_run_error parsed noneNewThere ranThere]
        exact .second limit _
    | ok done =>
      cases parallel with
      | ok _ alike =>
        rw [Generation.compile_of_run parsed noneNew ran,
          Generation.compile_of_run parsed noneNewThere ranThere]
        exact alike.fragment
      | second limit =>
        rw [Generation.compile_of_run_error parsed noneNewThere ranThere]
        exact .second limit _

/-- A session can go on behind a text that it accepts. -/
theorem Ready.later {source : String} {fragment : Fragment} {later : Session}
    {statements : List Stmt} {pass : Pass} (ready : session.Ready)
    (compiled : session.compile source = (.ok fragment, later))
    (generated : session.Generated source fragment later generation statements pass)
    (legal : pass.generation.generator.body.pool.Legal) : later.Ready := by
  obtain ⟨_, added, sound, _⟩ := compile_adds ready.sound compiled
  refine ⟨(congrArg Session.failed (compile_ok compiled)).trans ready.alive, sound,
    compile_inStep ready.sound ready.inStep compiled, fun {behind} installed => ?_⟩
  rw [generated.hook, added.target] at installed
  cases installed
  rw [Generation.generator_finish]
  exact legal

/-- Sessions match behind a text that both accept. -/
theorem Matches.later {source : String} {fragment counterpart : Fragment}
    {later laterThere : Session} (same : one.Matches other)
    (compiled : one.compile source = (.ok fragment, later))
    (compiledThere : other.compile source = (.ok counterpart, laterThere)) :
    later.Matches laterThere := by
  obtain ⟨_, generation, statements, pass, generated⟩ :=
    compile_generated same.ready.sound compiled
  obtain ⟨_, following, _, passThere, generatedThere⟩ :=
    compile_generated same.otherReady.sound compiledThere
  cases generated.parsed.symm.trans generatedThere.parsed
  obtain ⟨_, added, _⟩ := compile_adds same.ready.sound compiled
  obtain ⟨_, addedThere, _⟩ := compile_adds same.otherReady.sound compiledThere
  have parallel := (same.opening generated.installed generatedThere.installed generated.isSite
    generatedThere.isSite (Stmt.parse source).2).run one.strict statements
  have ranThere := generatedThere.ran
  rw [← same.strict] at ranThere
  rw [generated.ran, ranThere] at parallel
  cases parallel with
  | ok _ alike =>
    refine ⟨same.ready.later compiled generated alike.generator.legal,
      same.otherReady.later compiledThere generatedThere alike.generator.otherLegal, ?_, ?_, ?_⟩
    · rw [added.target, addedThere.target, same.target]
    · rw [added.strict, addedThere.strict, same.strict]
    · rw [generated.allocator, generatedThere.allocator]
      exact alike.allocator

/-- A class file cannot hold what a session makes of a text. -/
def Exceeds (session : Session) (source : String) : Prop :=
  ∃ error : PatchError, (session.compile source).1 = .error error ∧ error.IsLimit

/-- **What matching sessions make of a text behind any others**, unless a class file cannot hold what
one of them has made of an earlier text. -/
theorem Matches.outcomes_after (same : one.Matches other) (sources : List String) (source : String) :
    (∃ earlier text, earlier ++ [text] <+: sources ∧
        ((one.after earlier).Exceeds text ∨ (other.after earlier).Exceeds text)) ∨
      Outcomes PatchError.IsLimit Fragment.Alike ((one.after sources).compile source).1
        ((other.after sources).compile source).1 := by
  induction sources generalizing one other with
  | nil => exact .inr (same.outcomes source)
  | cons text rest ih =>
    have outcomes := same.outcomes text
    rcases compiled : one.compile text with ⟨result, later⟩
    rcases compiledThere : other.compile text with ⟨resultThere, laterThere⟩
    rw [compiled, compiledThere] at outcomes
    rw [after_cons compiled, after_cons compiledThere]
    cases outcomes with
    | ok =>
      refine (ih (same.later compiled compiledThere)).imp_left ?_
      rintro ⟨earlier, last, isEarlier, exceeds⟩
      refine ⟨text :: earlier, last, List.cons_prefix_cons.mpr ⟨rfl, isEarlier⟩, ?_⟩
      rwa [after_cons compiled, after_cons compiledThere]
    | error error =>
      -- Behind a text that both refuse they refuse every other one.
      have failed : later.failed = true := by rw [compile_error compiled]
      have failedThere : laterThere.failed = true := by rw [compile_error compiledThere]
      rw [(after_of_failed failed rest).1, (after_of_failed failedThere rest).1,
        compile_of_failed failed, compile_of_failed failedThere]
      exact .inr (.error _)
    | @first error limit =>
      have exceeds : (one.after []).Exceeds text := ⟨error, congrArg Prod.fst compiled, limit⟩
      exact .inl ⟨[], text, List.prefix_append [text] rest, .inl exceeds⟩
    | @second error limit =>
      have exceeds : (other.after []).Exceeds text := ⟨error, congrArg Prod.fst compiledThere, limit⟩
      exact .inl ⟨[], text, List.prefix_append [text] rest, .inr exceeds⟩

end Session

end MethodPatch
