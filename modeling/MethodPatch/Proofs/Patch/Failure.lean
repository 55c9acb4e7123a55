/-
**What a pass leaves that fails.**

A text that is malformed is refused before anything happens. A statement that fails, for whatever
reason, gives back what it took, so that the locals of the statements in front of it are left, and no
code can be taken out of the generation.

* `Pass.attempt_error`: why a statement fails;
* `Generation.FailsAt`: the place of a pass at which it fails;
* `Hook.compile_restores`: **a pass that fails leaves exactly the locals of the statements in front**.
-/

import MethodPatch.Proofs.Patch.Adoption

namespace MethodPatch

/-! ### Errors by their stage -/

variable {strict : Bool} {roots : Scope} {allocator : Allocator} {source : String} {error : PatchError}

theorem Refuses.ne_malformed {host : Host} {declarator : Declarator} (cause : SourceError)
    (refuses : Refuses strict host declarator allocator error) : error ≠ .malformed cause := by
  cases refuses <;> nofun

/-- A statement fails because one of its variables gets no local, or because it has no code. -/
theorem Pass.attempt_error {pass : Pass} {statement : Stmt}
    (failed : (pass.attempt strict statement).1 = .error error) :
    (∃ declarator ∈ statement.declared, ∃ middle,
      Refuses strict pass.generation.site.host declarator middle error) ∨
    ∃ cause, error = .notCompiled cause := by
  unfold attempt at failed
  rcases placing : pass.place strict statement with ⟨_ | placed, middle⟩ <;> rw [placing] at failed
  · cases failed
    exact .inl (place_error placing)
  · right
    dsimp only at failed
    generalize ((middle.generation.reserveLocals middle.allocator.count).emit middle.scope placed).1 =
      outcome at failed
    cases outcome with
    | error cause =>
      cases failed
      exact ⟨_, rfl⟩
    | ok done => cases failed

theorem registerUnknown_error {entries : List Local}
    (failed : (registerUnknown allocator entries).1 = .error error) : ∃ name, error = noSlot name := by
  induction entries generalizing allocator with
  | nil => cases failed
  | cons first rest ih =>
    rw [registerUnknown] at failed
    split at failed
    · exact ih failed
    · cases registered : allocator.register first with
      | ok later =>
        rw [registered] at failed
        exact ih failed
      | error cause =>
        rw [registered] at failed
        cases failed
        unfold Allocator.register at registered
        split at registered
        · cases registered
          exact ⟨_, rfl⟩
        · dsimp only at registered
          split at registered
          · split at registered <;> cases registered
          · cases registered

/-- Statements that all succeed can only fail to be encoded. -/
theorem Pass.fragment_error {pass : Pass} (failed : pass.fragment = .error error) :
    ∃ fault, error = .notExtracted fault := by
  unfold fragment at failed
  cases extracted : pass.generation.extract with
  | ok code =>
    rw [extracted] at failed
    cases failed
  | error cause =>
    rw [extracted] at failed
    cases failed
    unfold Generation.extract at extracted
    split at extracted
    · cases extracted
    · cases encoded : pass.generation.generator.body.encode with
      | ok code =>
        rw [encoded] at extracted
        cases extracted
      | error cause =>
        rw [encoded] at extracted
        cases extracted
        exact ⟨_, rfl⟩
    · cases extracted
      exact ⟨_, rfl⟩

/-! ### The statement that fails -/

namespace Generation

variable {generation : Generation}

/-- A pass over a text fails at a statement: `done` are the statements in front of it, which have
succeeded, and `before` is the pass behind them. -/
structure FailsAt (generation : Generation) (strict : Bool) (roots : Scope) (allocator : Allocator)
    (source : String) (adopting : Allocator) (done : List Stmt) (statement : Stmt) (before : Pass)
    (error : PatchError) : Prop where
  parsed : ∃ rest, (Stmt.parse source).1 = .ok (done ++ statement :: rest)
  adopted : adopt roots allocator = (.ok (), adopting)
  succeeded : (generation.opening roots adopting (Stmt.parse source).2).run strict done =
    (.ok (), before)
  failed : (before.attempt strict statement).1 = .error error

/-- A pass over a text that is well-formed fails while it adopts variables, at a statement, or when
its code is taken out. -/
theorem compile_error {after : Allocator} {later : Generation}
    (ran : generation.compile strict roots allocator source = (.error error, after, later)) :
    ((∃ cause, error = .malformed cause) ∧ after = allocator ∧ later = generation) ∨
      (∀ cause, error ≠ .malformed cause) ∧
        ((adopt roots allocator).1 = .error error ∨ (∃ fault, error = .notExtracted fault) ∨
          ∃ adopting done statement before,
            generation.FailsAt strict roots allocator source adopting done statement before error) := by
  cases compiles ran with
  | malformed parsed => exact .inl ⟨⟨_, rfl⟩, rfl, rfl⟩
  | unadopted parsed adopted =>
    have isError : (adopt roots allocator).1 = .error error := by rw [adopted]
    obtain ⟨name, rfl⟩ := registerUnknown_error isError
    exact .inr ⟨nofun, .inl isError⟩
  | @failed statements adopting _ pass parsed adopted stopped =>
    obtain ⟨done, statement, rest, before, rfl, succeeded, failed, _⟩ := Pass.run_error stopped
    have noneMalformed : ∀ cause, error ≠ .malformed cause := by
      intro cause
      rcases Pass.attempt_error failed with ⟨declarator, _, middle, refuses⟩ | ⟨other, rfl⟩
      · exact refuses.ne_malformed cause
      · nofun
    exact .inr ⟨noneMalformed, .inr (.inr ⟨adopting, done, statement, before, ⟨rest, parsed⟩, adopted,
      succeeded, failed⟩)⟩
  | finished parsed adopted succeeded extracted =>
    obtain ⟨fault, rfl⟩ := Pass.fragment_error extracted
    exact .inr ⟨nofun, .inr (.inl ⟨fault, rfl⟩)⟩

namespace FailsAt

variable {adopting : Allocator} {done : List Stmt} {statement : Stmt} {before : Pass}

/-- The statement takes nothing with it, and the generation has failed. -/
theorem compile_eq
    (fails : generation.FailsAt strict roots allocator source adopting done statement before error) :
    ∃ following, generation.compile strict roots allocator source =
      (.error error, before.allocator, following) ∧ following.progress = .failed := by
  obtain ⟨⟨rest, parsed⟩, adopted, succeeded, failed⟩ := fails
  obtain ⟨last, ran, givenUp⟩ := Pass.run_of_attempt_error succeeded failed rest
  refine ⟨last.generation, ?_, givenUp.progress⟩
  rw [compile_of_run_error parsed adopted ran, givenUp.allocator]

/-- In front of the statement the variables of the others have been placed. -/
theorem gives
    (fails : generation.FailsAt strict roots allocator source adopting done statement before error) :
    ∃ entries fresh, adopting.Extends fresh before.allocator ∧
      GivesAll strict generation.site.host adopting (Stmt.declaredAll done) entries fresh
        before.allocator := by
  obtain ⟨extended, _, ⟨entries, gives⟩, _⟩ := opening_run fails.succeeded
  exact ⟨entries, before.fresh, extended, gives⟩

end FailsAt

end Generation

/-! ### What is left -/

namespace Hook

variable {hook : Hook} {generation : Generation}

theorem compile_of_generation {after : Allocator} {following : Generation}
    {result : Except PatchError Fragment} (installed : hook.generation = .ok generation)
    (passed : generation.compile strict roots allocator source = (result, after, following)) :
    hook.compile strict roots allocator source = (result, after, hook.withGeneration following) := by
  rw [compile, installed]
  dsimp only
  rw [passed]

theorem extract_withGeneration (installed : hook.generation = .ok generation)
    (following : Generation) : (hook.withGeneration following).extract = following.extract := by
  unfold Hook.generation at installed
  unfold withGeneration extract
  cases found : hook.installed with
  | none =>
    rw [found] at installed
    cases installed
  | some _ => rfl

theorem withGeneration_self (installed : hook.generation = .ok generation) :
    hook.withGeneration generation = hook := by
  obtain ⟨_ | found⟩ := hook
  · cases installed
  · cases installed
    rfl

/-- **A pass that fails leaves exactly the locals of the statements in front.** If the text is
malformed, neither the allocator nor the generation changes. If a statement fails, the allocator is
the one in front of it: the one behind adoption, with the locals of the variables of the statements
that succeeded. No code can be taken out then. A well-formed text fails only while variables are
adopted, at a statement, or when the code of all statements is taken out. -/
theorem compile_restores (hook : Hook) (strict : Bool) (roots : Scope) (allocator : Allocator)
    (source : String) :
    (∀ cause after later, hook.compile strict roots allocator source =
      (.error (.malformed cause), after, later) → after = allocator ∧ later = hook) ∧
    (∀ generation adopting done statement before error, hook.generation = .ok generation →
      generation.FailsAt strict roots allocator source adopting done statement before error →
        ∃ entries fresh following,
          hook.compile strict roots allocator source =
            (.error error, before.allocator, hook.withGeneration following) ∧
          adopting.Extends fresh before.allocator ∧
          GivesAll strict generation.site.host adopting (Stmt.declaredAll done) entries fresh
            before.allocator ∧
          following.progress = .failed ∧
          (hook.withGeneration following).extract = .error (.notExtracted (.incomplete .failed))) ∧
    ∀ generation error, hook.generation = .ok generation →
      (hook.compile strict roots allocator source).1 = .error error →
        (∃ cause, error = .malformed cause) ∨ (adopt roots allocator).1 = .error error ∨
          (∃ fault, error = .notExtracted fault) ∨
          ∃ adopting done statement before,
            generation.FailsAt strict roots allocator source adopting done statement before error := by
  refine ⟨fun cause after later ran => ?malformed, ?statement, fun generation error installed ran => ?_⟩
  case malformed =>
    rcases compile_cases ran with ⟨_, failed, _⟩ | ⟨generation, following, installed, passed, rfl⟩
    · cases failed
    · rcases Generation.compile_error passed with ⟨_, rfl, rfl⟩ | ⟨wellFormed, _⟩
      · exact ⟨rfl, withGeneration_self installed⟩
      · exact absurd rfl (wellFormed cause)
  case statement =>
    intro generation adopting done statement before error installed fails
    obtain ⟨following, passed, progress⟩ := fails.compile_eq
    obtain ⟨entries, fresh, extended, gives⟩ := fails.gives
    refine ⟨entries, fresh, following, compile_of_generation installed passed, extended, gives,
      progress, ?_⟩
    rw [extract_withGeneration installed, Generation.extract, progress]
  · rcases passed : generation.compile strict roots allocator source with ⟨result, after, following⟩
    rw [compile_of_generation installed passed] at ran
    cases ran
    rcases Generation.compile_error passed with ⟨malformed, _⟩ | ⟨_, wellFormed⟩
    · exact .inl malformed
    · exact .inr wellFormed

/-- A text whose third statement declares a variable before it is refused another one. -/
def midwaySource : String := "int a = 1; long b = 2; { int c = 3; long a = 4; }"

/-- The local of the third statement is given back, and those of the others stay. -/
theorem compile_restores_midway : ∃ generation adopting done statement before error later,
    detached.generation = .ok generation ∧
    generation.FailsAt true (.root []) (.startingAt 0) midwaySource adopting done statement before
      error ∧
    detached.compile true (.root []) (.startingAt 0) midwaySource =
      (.error error, ⟨3, [⟨"a", 0, .int⟩, ⟨"b", 1, .long⟩], ["a", "b"]⟩, later) ∧
    later.extract = .error (.notExtracted (.incomplete .failed)) := by
  obtain ⟨_, restores, located⟩ :=
    compile_restores detached true (.root []) (.startingAt 0) midwaySource
  have isError : (detached.compile true (.root []) (.startingAt 0) midwaySource).1 =
      .error (.storageChanged "a" 0 .int .long (some ⟨1, 42, 41⟩)) := by
    decide +kernel
  have left : (detached.compile true (.root []) (.startingAt 0) midwaySource).2.1 =
      ⟨3, [⟨"a", 0, .int⟩, ⟨"b", 1, .long⟩], ["a", "b"]⟩ := by
    decide +kernel
  rcases located _ _ rfl isError with ⟨_, malformed⟩ | adopting | ⟨_, extracting⟩ |
    ⟨adopting, done, statement, before, fails⟩
  · cases malformed
  · have noError : (adopt (.root []) (.startingAt 0)).1.isOk = true := by decide
    rw [adopting] at noError
    cases noError
  · cases extracting
  · obtain ⟨_, _, following, compiled, _, _, _, extracted⟩ := restores _ _ _ _ _ _ rfl fails
    rw [compiled] at left
    exact ⟨_, adopting, done, statement, before, _, _, rfl, fails, left ▸ compiled, extracted⟩

end Hook

end MethodPatch
