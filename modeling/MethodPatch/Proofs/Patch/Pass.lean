/-
**What a pass does to the allocator.**

A statement that succeeds adds the locals of its new variables; one that fails gives them back. So a
pass only adds locals, and one that succeeds has given a local to every variable of its text.

* `Pass.step_error`: a statement that fails leaves the allocator as it was;
* `Pass.run_adds`, `Pass.run_error`: the locals of statements in order, and the one that fails;
* `Generation.compiles`: how a pass over a text can end;
* `Generation.compile_adds`: the locals of a text whose surrounding scope the allocator knows;
* `Hook.compile_cases`: a hook compiles with the generation that it has.
-/

import MethodPatch.Patch.Session
import MethodPatch.Proofs.Patch.Placing

namespace MethodPatch

/-! ### The site of a generation -/

namespace Generation

variable (generation : Generation)

@[simp] theorem site_begin : generation.begin.site = generation.site := rfl

@[simp] theorem site_fail : generation.fail.site = generation.site := rfl

@[simp] theorem site_reserveLocals (count : UInt16) :
    (generation.reserveLocals count).site = generation.site := rfl

@[simp] theorem site_inPass : generation.inPass.site = generation.site := by
  unfold inPass
  split <;> rfl

@[simp] theorem site_finish : generation.finish.site = generation.site := by
  unfold finish
  split <;> rfl

@[simp] theorem site_emit (scope : Scope) (statement : Stmt) :
    (generation.emit scope statement).2.1.site = generation.site := by
  rw [← site_inPass generation]
  unfold emit
  dsimp only
  split <;> rfl

end Generation

namespace Pass

variable {strict : Bool} {pass later : Pass} {statement : Stmt} {statements : List Stmt}
  {result : Except PatchError Unit} {error : PatchError}

/-! ### One statement -/

/-- What a pass has added: new locals behind the old ones, at the same site. -/
structure Adds (pass : Pass) (fresh : List Local) (later : Pass) : Prop where
  allocator : pass.allocator.Extends fresh later.allocator
  fresh : later.fresh = pass.fresh ++ fresh
  site : later.generation.site = pass.generation.site

theorem Adds.refl (pass : Pass) : pass.Adds [] pass := ⟨.refl _, (List.append_nil _).symm, rfl⟩

theorem Adds.trans {middle : Pass} {fresh more : List Local} (first : pass.Adds fresh middle)
    (second : middle.Adds more later) : pass.Adds (fresh ++ more) later where
  allocator := first.allocator.trans second.allocator
  fresh := by rw [second.fresh, first.fresh, List.append_assoc]
  site := second.site.trans first.site

/-- What a pass has given to declared variables, with the locals that it has added for them. -/
def GivesAll (strict : Bool) (pass : Pass) (declared : List Declarator) (fresh : List Local)
    (later : Pass) : Prop :=
  ∃ entries, MethodPatch.GivesAll strict pass.generation.site.host pass.allocator declared entries
    fresh later.allocator

theorem attempt_adds (ran : pass.attempt strict statement = (result, later)) :
    ∃ fresh, pass.Adds fresh later ∧
      (result = .ok () → pass.GivesAll strict statement.declared fresh later) := by
  unfold attempt at ran
  rcases placing : pass.place strict statement with ⟨_ | placed, middle⟩ <;> rw [placing] at ran
  all_goals obtain ⟨fresh, extended, same, placedAll⟩ := place_run placing
  · cases ran
    refine ⟨fresh, ⟨extended, by rw [same], by rw [same]⟩, ?_⟩
    rintro ⟨⟩
  · dsimp only at ran
    cases ran
    obtain ⟨entries, gives, _⟩ := placedAll placed rfl
    refine ⟨fresh, ⟨extended, by rw [same], ?_⟩, fun _ => ⟨entries, gives⟩⟩
    rw [Generation.site_emit, Generation.site_reserveLocals, same]

theorem step_ok (ran : pass.step strict statement = (.ok (), later)) :
    pass.attempt strict statement = (.ok (), later) := by
  unfold step at ran
  dsimp only at ran
  split at ran
  · next attempted =>
    cases ran
    exact attempted
  · cases ran

/-- What is left behind a statement that fails: the pass in front of it, given up. -/
structure GivenUp (pass later : Pass) : Prop where
  allocator : later.allocator = pass.allocator
  fresh : later.fresh = pass.fresh
  site : later.generation.site = pass.generation.site
  progress : later.generation.progress = .failed

/-- **A statement that fails leaves the allocator as it was.** -/
theorem step_error (ran : pass.step strict statement = (.error error, later)) :
    (pass.attempt strict statement).1 = .error error ∧ pass.GivenUp later := by
  unfold step at ran
  dsimp only at ran
  split at ran
  · cases ran
  · next attempted =>
    cases ran
    obtain ⟨fresh, added, _⟩ := attempt_adds attempted
    exact ⟨by rw [attempted], added.allocator.rollback, rfl, added.site, rfl⟩

theorem step_of_attempt_error (failed : (pass.attempt strict statement).1 = .error error) :
    (pass.step strict statement).1 = .error error := by
  unfold step
  rcases attempted : pass.attempt strict statement with ⟨_ | _, middle⟩
  · rw [attempted] at failed
    cases failed
    rfl
  · rw [attempted] at failed
    cases failed

/-! ### Statements in order -/

theorem run_adds (ran : pass.run strict statements = (result, later)) :
    ∃ fresh, pass.Adds fresh later ∧
      (result = .ok () → pass.GivesAll strict (Stmt.declaredAll statements) fresh later) := by
  induction statements generalizing pass with
  | nil =>
    cases ran
    exact ⟨[], .refl _, fun _ => ⟨[], .nil _⟩⟩
  | cons first rest ih =>
    rw [run] at ran
    rcases stepped : pass.step strict first with ⟨_ | _, middle⟩ <;> rw [stepped] at ran
    · cases ran
      obtain ⟨_, allocator, fresh, site, _⟩ := step_error stepped
      refine ⟨[], ⟨allocator ▸ .refl _, by rw [fresh, List.append_nil], site⟩, ?_⟩
      rintro ⟨⟩
    · obtain ⟨fresh, added, given⟩ := attempt_adds (step_ok stepped)
      obtain ⟨more, addedMore, givenMore⟩ := ih ran
      refine ⟨fresh ++ more, added.trans addedMore, fun succeeded => ?_⟩
      obtain ⟨entries, gives⟩ := given rfl
      obtain ⟨entriesMore, givesMore⟩ := givenMore succeeded
      rw [added.site] at givesMore
      exact ⟨entries ++ entriesMore, gives.append givesMore⟩

/-- Behind statements that succeed the others go on. -/
theorem run_append {middle : Pass} {done : List Stmt}
    (ran : pass.run strict done = (.ok (), middle)) (rest : List Stmt) :
    pass.run strict (done ++ rest) = middle.run strict rest := by
  induction done generalizing pass with
  | nil =>
    cases ran
    rfl
  | cons first others ih =>
    rw [List.cons_append, run]
    rw [run] at ran
    rcases stepped : pass.step strict first with ⟨_ | _, next⟩ <;> rw [stepped] at ran
    · cases ran
    · exact ih ran

/-- **Statements fail at one of them**: those in front of it succeed, and what they leave stays. -/
theorem run_error (ran : pass.run strict statements = (.error error, later)) :
    ∃ done statement rest middle, statements = done ++ statement :: rest ∧
      pass.run strict done = (.ok (), middle) ∧
      (middle.attempt strict statement).1 = .error error ∧ middle.GivenUp later := by
  induction statements generalizing pass with
  | nil => cases ran
  | cons first rest ih =>
    rw [run] at ran
    rcases stepped : pass.step strict first with ⟨_ | _, next⟩ <;> rw [stepped] at ran
    · cases ran
      exact ⟨[], first, rest, pass, rfl, rfl, step_error stepped⟩
    · obtain ⟨done, statement, others, middle, rfl, succeeded, failed⟩ := ih ran
      refine ⟨first :: done, statement, others, middle, rfl, ?_, failed⟩
      rw [run, stepped]
      exact succeeded

/-- A statement that fails behind others which succeed ends the pass. -/
theorem run_of_attempt_error {middle : Pass} {done : List Stmt}
    (ran : pass.run strict done = (.ok (), middle))
    (failed : (middle.attempt strict statement).1 = .error error) (rest : List Stmt) :
    ∃ later, pass.run strict (done ++ statement :: rest) = (.error error, later) ∧
      middle.GivenUp later := by
  have stepFailed := step_of_attempt_error failed
  rcases stepped : middle.step strict statement with ⟨_ | _, later⟩
  · rw [stepped] at stepFailed
    cases stepFailed
    refine ⟨later, ?_, (step_error stepped).2⟩
    rw [run_append ran, run, stepped]
  · rw [stepped] at stepFailed
    cases stepFailed

theorem introduced_of_fragment {fragment : Fragment} (extracted : pass.fragment = .ok fragment) :
    fragment.introduced = Local.snapshot pass.fresh := by
  unfold Pass.fragment at extracted
  cases coded : pass.generation.extract with
  | error error =>
    rw [coded] at extracted
    cases extracted
  | ok code =>
    rw [coded] at extracted
    cases extracted
    rfl

end Pass

/-! ### Variables of the surrounding scope -/

theorem mem_of_mem_nearest {seen : List String} {symbols : List Symbol} {symbol : Symbol}
    (isIn : symbol ∈ nearest seen symbols) : symbol ∈ symbols := by
  induction symbols generalizing seen with
  | nil => exact isIn
  | cons first rest ih =>
    rw [nearest] at isIn
    split at isIn
    · exact List.mem_cons_of_mem _ (ih isIn)
    · rcases List.mem_cons.mp isIn with rfl | isIn
      · exact List.mem_cons_self
      · exact List.mem_cons_of_mem _ (ih isIn)

theorem registerUnknown_of_known {allocator : Allocator} {entries : List Local}
    (known : ∀ entry ∈ entries, (allocator.find? entry.name).isSome) :
    registerUnknown allocator entries = (.ok (), allocator) := by
  induction entries with
  | nil => rfl
  | cons first rest ih =>
    rw [registerUnknown, if_pos (known first List.mem_cons_self)]
    exact ih fun entry isIn => known entry (List.mem_cons_of_mem _ isIn)

/-- Nothing is registered for a scope whose variables are known. -/
theorem adopt_of_known {roots : Scope} {allocator : Allocator}
    (known : ∀ symbol ∈ roots.tables.flatten, (allocator.find? symbol.name).isSome) :
    adopt roots allocator = (.ok (), allocator) := by
  refine registerUnknown_of_known fun entry isIn => ?_
  obtain ⟨symbol, isNear, bound⟩ := List.mem_filterMap.mp isIn
  obtain ⟨binding, _, rfl⟩ := Option.map_eq_some_iff.mp bound
  exact known symbol (mem_of_mem_nearest isNear)

/-! ### A whole pass -/

namespace Generation

variable {generation later : Generation} {strict : Bool} {roots : Scope} {before after : Allocator}
  {source : String} {result : Except PatchError Fragment}

/-- A pass in front of its first statement. -/
def opening (generation : Generation) (roots : Scope) (allocator : Allocator)
    (declared : Array Declaration) : Pass where
  allocator := allocator
  generation := generation.begin.reserveLocals allocator.count
  scope := roots.inside.declareAll declared
  fresh := []

theorem maxLocals_opening (generation : Generation) (roots : Scope) (allocator : Allocator)
    (declared : Array Declaration) :
    (generation.opening roots allocator declared).generation.generator.maxLocals =
      max generation.site.method.firstFreeSlot allocator.count := rfl

/-- **How a pass over a text ends.** The text is malformed, a variable of the surrounding scope does
not fit into the slots, a statement fails, or all of them succeed. -/
inductive Compiles (generation : Generation) (strict : Bool) (roots : Scope) (before : Allocator)
    (source : String) : Except PatchError Fragment → Allocator → Generation → Prop
  | malformed {cause : SourceError} (parsed : (Stmt.parse source).1 = .error cause) :
    Compiles generation strict roots before source (.error (.malformed cause)) before generation
  | unadopted {statements : List Stmt} {error : PatchError} {after : Allocator}
    (parsed : (Stmt.parse source).1 = .ok statements)
    (adopted : adopt roots before = (.error error, after)) :
    Compiles generation strict roots before source (.error error) after generation
  | failed {statements : List Stmt} {adopting : Allocator} {error : PatchError} {pass : Pass}
    (parsed : (Stmt.parse source).1 = .ok statements)
    (adopted : adopt roots before = (.ok (), adopting))
    (ran : (generation.opening roots adopting (Stmt.parse source).2).run strict statements =
      (.error error, pass)) :
    Compiles generation strict roots before source (.error error) pass.allocator pass.generation
  | finished {statements : List Stmt} {adopting : Allocator} {pass : Pass}
    {result : Except PatchError Fragment} (parsed : (Stmt.parse source).1 = .ok statements)
    (adopted : adopt roots before = (.ok (), adopting))
    (ran : (generation.opening roots adopting (Stmt.parse source).2).run strict statements =
      (.ok (), pass))
    (extracted : { pass with generation := pass.generation.finish }.fragment = result) :
    Compiles generation strict roots before source result pass.allocator pass.generation.finish

theorem compiles (ran : generation.compile strict roots before source = (result, after, later)) :
    generation.Compiles strict roots before source result after later := by
  unfold Generation.compile at ran
  rcases parsed : Stmt.parse source with ⟨_ | statements, declared⟩ <;> rw [parsed] at ran
  · cases ran
    exact .malformed (by rw [parsed])
  · have isParsed : (Stmt.parse source).1 = .ok statements := by rw [parsed]
    have isDeclared : (Stmt.parse source).2 = declared := by rw [parsed]
    dsimp only at ran
    rcases adopted : adopt roots before with ⟨_ | _, adopting⟩ <;> rw [adopted] at ran
    · cases ran
      exact .unadopted isParsed adopted
    · dsimp only at ran
      split at ran
      · next failed =>
        cases ran
        exact .failed isParsed adopted (isDeclared ▸ failed)
      · next succeeded =>
        cases ran
        exact .finished isParsed adopted (isDeclared ▸ succeeded) rfl

/-- A statement that fails ends the pass over its text. -/
theorem compile_of_run_error {statements : List Stmt} {adopting : Allocator} {error : PatchError}
    {pass : Pass} (parsed : (Stmt.parse source).1 = .ok statements)
    (adopted : adopt roots before = (.ok (), adopting))
    (ran : (generation.opening roots adopting (Stmt.parse source).2).run strict statements =
      (.error error, pass)) :
    generation.compile strict roots before source =
      (.error error, pass.allocator, pass.generation) := by
  rcases isParsed : Stmt.parse source with ⟨outcome, declared⟩
  rw [isParsed] at parsed ran
  cases parsed
  unfold opening at ran
  unfold Generation.compile
  rw [isParsed, adopted]
  dsimp only
  rw [ran]

/-- Statements that all succeed introduce exactly the locals that were added for their variables. -/
theorem opening_run {allocator : Allocator} {declared : Array Declaration} {statements : List Stmt}
    {pass : Pass}
    (ran : (generation.opening roots allocator declared).run strict statements = (.ok (), pass)) :
    allocator.Extends pass.fresh pass.allocator ∧ pass.generation.site = generation.site ∧
      (∃ entries, GivesAll strict generation.site.host allocator (Stmt.declaredAll statements)
        entries pass.fresh pass.allocator) ∧
      ∀ fragment, { pass with generation := pass.generation.finish }.fragment = .ok fragment →
        fragment.introduced = pass.fresh := by
  obtain ⟨fresh, added, given⟩ := Pass.run_adds ran
  obtain rfl : pass.fresh = fresh := added.fresh
  refine ⟨added.allocator, added.site, given rfl, fun fragment extracted => ?_⟩
  rw [Pass.introduced_of_fragment extracted]
  exact added.allocator.laid.snapshot_eq

/-- **A pass only adds locals**, and one that succeeds introduces exactly the locals that it has
added for the variables of its text. -/
theorem compile_adds (known : ∀ symbol ∈ roots.tables.flatten, (before.find? symbol.name).isSome)
    (ran : generation.compile strict roots before source = (result, after, later)) :
    ∃ fresh, before.Extends fresh after ∧ later.site = generation.site ∧
      ∀ fragment, result = .ok fragment → fragment.introduced = fresh ∧
        ∃ statements, (Stmt.parse source).1 = .ok statements ∧ ∃ entries,
          GivesAll strict generation.site.host before (Stmt.declaredAll statements) entries fresh
            after := by
  have noneNew := adopt_of_known known
  cases compiles ran with
  | malformed parsed =>
    refine ⟨[], .refl _, rfl, ?_⟩
    rintro _ ⟨⟩
  | unadopted parsed adopted =>
    rw [noneNew] at adopted
    cases adopted
  | failed parsed adopted failed =>
    cases noneNew.symm.trans adopted
    obtain ⟨fresh, added, _⟩ := Pass.run_adds failed
    refine ⟨fresh, added.allocator, added.site, ?_⟩
    rintro _ ⟨⟩
  | @finished statements adopting pass _ parsed adopted succeeded extracted =>
    cases noneNew.symm.trans adopted
    obtain ⟨extended, site, gives, introduces⟩ := opening_run succeeded
    exact ⟨pass.fresh, extended, (site_finish _).trans site, fun fragment isFragment =>
      ⟨introduces fragment (extracted.trans isFragment), statements, parsed, gives⟩⟩

end Generation

/-- A hook without a generation compiles nothing; another one compiles with what it has. -/
theorem Hook.compile_cases {hook later : Hook} {strict : Bool} {roots : Scope}
    {before after : Allocator} {source : String} {result : Except PatchError Fragment}
    (ran : hook.compile strict roots before source = (result, after, later)) :
    (hook.installed = none ∧ result = .error (.noTarget .nothingInstalled) ∧ after = before ∧
        later = hook) ∨
      ∃ generation following, hook.generation = .ok generation ∧
        generation.compile strict roots before source = (result, after, following) ∧
        later = hook.withGeneration following := by
  unfold Hook.compile Hook.generation at *
  cases installed : hook.installed with
  | none =>
    rw [installed] at ran
    cases ran
    exact .inl ⟨rfl, rfl, rfl, rfl⟩
  | some found =>
    rw [installed] at ran
    cases ran
    exact .inr ⟨found.generation, _, rfl, rfl, rfl⟩

/-! ### A class to edit -/

/-- A class with a static method `run`, which has a parameter of type `int`. -/
def counterClass : ClassEntry :=
  ⟨"Counter", some "java/lang/Object", [], false, [], [⟨"run", "(I)V", true, false, none, []⟩], 1⟩

/-- The method of the class. -/
def counterTarget : Target := ⟨⟨⟨"app", [counterClass]⟩, []⟩, 0, "Counter", "run", "(I)V"⟩

end MethodPatch
