/-
**Where refused statements are in the text.**

A pass that fails at a statement says where: at the variable that has no type or is stored in
another way, at the part that cannot be generated, or at the statement. Only a variable that finds
no slot is refused without a place, by its name alone.

* `RunsOut`: of the variables of a statement one finds no slot;
* `Pass.attempt_position`: a statement is refused without a place exactly when it runs out of slots;
* `Session.refused_position`: **the same for every pass of a session, whatever fails in it**.
-/

import MethodPatch.Proofs.Patch.Failure
import MethodPatch.Proofs.Patch.Slots

namespace MethodPatch

/-- Whether an error refuses a statement: it cannot be compiled, or a known name is stored in
another way. -/
def PatchError.refusesStatement : PatchError → Bool
  | .notCompiled _ | .storageChanged _ _ _ _ _ => true
  | _ => false

/-- Whether a result is an error of a kind. -/
def failsAs {α : Type} (result : Except PatchError α) (kind : PatchError → Bool) : Bool :=
  match result with
  | .ok _ => false
  | .error error => kind error

theorem exists_of_failsAs {α : Type} {result : Except PatchError α} {kind : PatchError → Bool}
    (fails : failsAs result kind = true) : ∃ error, result = .error error ∧ kind error = true := by
  cases result with
  | ok _ => cases fails
  | error error => exact ⟨error, rfl, fails⟩

/-- An error that is put at a place, unless it has one, has a place. -/
theorem SourceError.position_orAt_ne_none (error : SourceError) (position : Position) :
    (error.orAt (some position)).position ≠ none := by
  rcases error with ⟨cause, _ | known⟩ <;> nofun

variable {strict : Bool} {host : Host} {allocator before middle after : Allocator}
  {declared : List Declarator} {declarator : Declarator} {entry : Local} {fresh more : List Local}
  {name : String} {error : PatchError}

/-! ### One variable -/

/-- A variable finds no slot: its name is not known, and its type reaches over the last slot. -/
structure FindsNoSlot (host : Host) (allocator : Allocator) (declarator : Declarator) : Prop where
  unknown : allocator.find? declarator.name = none
  full : ∃ type, host.typeOf declarator.type = .ok type ∧ slotLimit < allocator.next + type.width

/-- A variable that finds no slot is refused one, in a strict pass or not. -/
theorem FindsNoSlot.run (findsNone : FindsNoSlot host allocator declarator) (fresh : List Local) :
    (placeDeclarator strict host declarator).run.run (allocator, fresh) =
      (.error (noSlot declarator.name), (allocator, fresh)) := by
  obtain ⟨unknown, type, resolved, behind⟩ := findsNone
  have refused : allocator.allocate declarator.name type = .error (noSlot declarator.name) := by
    rw [Allocator.allocate, unknown]
    exact if_pos behind
  have got : (get : Placing (Allocator × List Local)).run.run (allocator, fresh) =
      (.ok (allocator, fresh), (allocator, fresh)) := rfl
  rw [placeDeclarator, resolved]
  dsimp only
  rw [placeLocal, Placing.run_bind, Placing.run_bind, got]
  dsimp only
  rw [unknown, refused]
  rfl

/-- A variable that gets a local is placed. -/
theorem Gives.run (gives : Gives strict host declarator before entry more after)
    (fresh : List Local) :
    (placeDeclarator strict host declarator).run.run (before, fresh) =
      (.ok (declarator.settle entry), (after, fresh ++ more)) := by
  have got : (get : Placing (Allocator × List Local)).run.run (before, fresh) =
      (.ok (before, fresh), (before, fresh)) := rfl
  cases gives with
  | known resolved found accepted =>
    rw [placeDeclarator, resolved]
    dsimp only
    rw [placeLocal, Placing.run_bind, Placing.run_bind, got]
    dsimp only
    rw [found]
    dsimp only
    rw [if_neg fun different => different.2 (accepted different.1), List.append_nil]
    rfl
  | new resolved allocated =>
    rw [placeDeclarator, resolved]
    dsimp only
    rw [placeLocal, Placing.run_bind, Placing.run_bind, got]
    dsimp only
    rw [(Allocator.Extends.allocate allocated).2.2.1, allocated]
    rfl

/-- Only a variable that finds no slot is refused without a place. -/
theorem Refuses.findsNoSlot (refuses : Refuses strict host declarator allocator error)
    (unplaced : error.position? = none) :
    FindsNoSlot host allocator declarator ∧ error = noSlot declarator.name := by
  cases refuses with
  | untyped unresolved => exact absurd unplaced (SourceError.position_orAt_ne_none _ _)
  | stored resolved found different => cases unplaced
  | full resolved unknown behind => exact ⟨⟨unknown, _, resolved, behind⟩, rfl⟩

/-- A variable is refused like a statement. -/
theorem Refuses.refusesStatement (refuses : Refuses strict host declarator allocator error) :
    error.refusesStatement = true := by
  cases refuses <;> rfl

/-! ### Variables in order -/

/-- Of variables in order one finds no slot, behind others that get locals. -/
inductive RunsOut (strict : Bool) (host : Host) : Allocator → List Declarator → String → Prop
  | here {allocator : Allocator} {first : Declarator} {rest : List Declarator}
    (findsNone : FindsNoSlot host allocator first) :
    RunsOut strict host allocator (first :: rest) first.name
  | later {before middle : Allocator} {first : Declarator} {rest : List Declarator} {entry : Local}
    {fresh : List Local} {name : String} (gives : Gives strict host first before entry fresh middle)
    (runsOut : RunsOut strict host middle rest name) :
    RunsOut strict host before (first :: rest) name

/-- Variables that run out of slots are refused by the name of the one that finds none. -/
theorem RunsOut.run (runsOut : RunsOut strict host allocator declared name) (fresh : List Local) :
    ((declared.mapM (placeDeclarator strict host)).run.run (allocator, fresh)).1 =
      .error (noSlot name) := by
  induction runsOut generalizing fresh with
  | here findsNone => rw [List.mapM_cons, Placing.run_bind, findsNone.run]
  | @later before middle first rest entry more name gives runsOut ih =>
    have failed := ih (fresh ++ more)
    rw [List.mapM_cons, Placing.run_bind, gives.run]
    dsimp only
    rw [Placing.run_bind]
    rcases others : (rest.mapM (placeDeclarator strict host)).run.run (middle, fresh ++ more) with
      ⟨_ | _, last⟩
    all_goals rw [others] at failed
    · exact failed
    · cases failed

/-- Variables that are refused without a place run out of slots. -/
theorem runsOut_of_unplaced {state : Allocator × List Local}
    (ran : (declared.mapM (placeDeclarator strict host)).run.run (allocator, fresh) =
      (.error error, state)) (unplaced : error.position? = none) :
    ∃ name, RunsOut strict host allocator declared name := by
  induction declared generalizing allocator fresh with
  | nil => cases ran
  | cons first rest ih =>
    rcases one : (placeDeclarator strict host first).run.run (allocator, fresh) with
      ⟨outcome, middle⟩
    rw [List.mapM_cons, Placing.run_bind, one] at ran
    rcases placeDeclarator_run one with ⟨refusal, rfl, rfl, refuses⟩ |
      ⟨entry, more, after, rfl, rfl, gives⟩
    · cases ran
      exact ⟨_, .here (refuses.findsNoSlot unplaced).1⟩
    · dsimp only at ran
      rw [Placing.run_bind] at ran
      rcases others : (rest.mapM (placeDeclarator strict host)).run.run (after, fresh ++ more) with
        ⟨_ | _, last⟩
      all_goals
        rw [others] at ran
        cases ran
      obtain ⟨name, runsOut⟩ := ih others
      exact ⟨name, .later gives runsOut⟩

/-! ### One statement -/

namespace Pass

variable {pass : Pass} {statement : Stmt}

/-- **A statement is refused without a place exactly when it runs out of slots.** The error names the
variable that finds none. -/
theorem attempt_position (failed : (pass.attempt strict statement).1 = .error error) :
    error.refusesStatement = true ∧
      (error.position? = none ↔
        ∃ name, RunsOut strict pass.generation.site.host pass.allocator statement.declared name) ∧
      ∀ name, RunsOut strict pass.generation.site.host pass.allocator statement.declared name →
        error = noSlot name := by
  unfold attempt at failed
  rcases placing : pass.place strict statement with ⟨_ | placed, middle⟩ <;> rw [placing] at failed
  all_goals have ran := (place_declared placing).1
  · cases failed
    have named : ∀ name, RunsOut strict pass.generation.site.host pass.allocator
        statement.declared name → error = noSlot name := by
      intro name runsOut
      have refused := runsOut.run pass.fresh
      rw [ran] at refused
      exact Except.error.inj refused
    obtain ⟨declarator, _, _, refuses⟩ := place_error placing
    refine ⟨refuses.refusesStatement, ⟨runsOut_of_unplaced ran, ?_⟩, named⟩
    rintro ⟨name, runsOut⟩
    rw [named name runsOut]
    rfl
  · -- All variables of a statement that is generated have got locals.
    have placedAll : ∀ name, ¬ RunsOut strict pass.generation.site.host pass.allocator
        statement.declared name := by
      intro name runsOut
      have refused := runsOut.run pass.fresh
      rw [ran] at refused
      cases refused
    dsimp only at failed
    generalize ((middle.generation.reserveLocals middle.allocator.count).emit middle.scope placed).1 =
      outcome at failed
    cases outcome with
    | ok done => cases failed
    | error cause =>
      cases failed
      refine ⟨rfl, iff_of_false (SourceError.position_orAt_ne_none _ _) ?_, ?_⟩
      · exact fun ⟨name, runsOut⟩ => placedAll name runsOut
      · exact fun name runsOut => absurd runsOut (placedAll name)

end Pass

/-! ### Passes -/

/-- When the variables of its scope are known, a pass fails at a statement with every error that
refuses one. -/
theorem Generation.exists_failsAt {generation : Generation} {roots : Scope} {source : String}
    (known : ∀ symbol ∈ roots.tables.flatten, (allocator.find? symbol.name).isSome)
    (refuses : error.refusesStatement = true)
    (failed : (generation.compile strict roots allocator source).1 = .error error) :
    ∃ done statement before,
      generation.FailsAt strict roots allocator source allocator done statement before error := by
  have noneNew := adopt_of_known known
  rcases ran : generation.compile strict roots allocator source with ⟨result, after, later⟩
  rw [ran] at failed
  obtain rfl : result = .error error := failed
  rcases compile_error ran with ⟨⟨cause, rfl⟩, _⟩ | ⟨_, adopting | ⟨fault, rfl⟩ | failsAt⟩
  · cases refuses
  · rw [noneNew] at adopting
    cases adopting
  · cases refuses
  · obtain ⟨adopting, done, statement, before, fails⟩ := failsAt
    cases noneNew.symm.trans fails.adopted
    exact ⟨done, statement, before, fails⟩

namespace Session

variable {target : Target} {record : MethodRecord} {opened : Session} {source : String}

/-- An error of a session that refuses a statement comes from a statement of the text. -/
theorem Sound.failsAt {session : Session} (sound : session.Sound)
    (refused : (session.compile source).1 = .error error) (refuses : error.refusesStatement = true) :
    ∃ (generation : Generation) (done : List Stmt) (statement : Stmt) (before : Pass),
      session.hook.generation = .ok generation ∧ session.target.site = .ok generation.site ∧
      generation.FailsAt session.strict (.root session.roots) session.allocator source
        session.allocator done statement before error := by
  obtain ⟨generation, installed, isSite⟩ := sound.installed
  unfold compile at refused
  split at refused
  · cases refused
    cases refuses
  · have failed : (generation.compile session.strict (.root session.roots) session.allocator
        source).1 = .error error := by
      rcases passed : generation.compile session.strict (.root session.roots) session.allocator
        source with ⟨_ | _, allocator, following⟩
      all_goals
        rw [Hook.compile_of_installed installed passed] at refused
        cases refused
      rfl
    obtain ⟨done, statement, before, fails⟩ := Generation.exists_failsAt sound.inScope refuses failed
    refine ⟨generation, done, statement, before, ?_, isSite, fails⟩
    rw [Hook.generation, installed]

/-- **Which refused statements have no place in the text.** Over any passes of a session, an error
that refuses a statement comes from the first one of the text that fails. It has a place unless that
statement declares a variable that finds no slot behind the variables in front of it; then it is the
name of that variable alone. -/
theorem refused_position (opens : start target record strict = .ok opened) (sources : List String)
    (refused : ((opened.after sources).compile source).1 = .error error)
    (refuses : error.refusesStatement = true) :
    ∃ (generation : Generation) (done : List Stmt) (statement : Stmt) (before : Pass),
      let session := opened.after sources
      session.hook.generation = .ok generation ∧ target.site = .ok generation.site ∧
      generation.FailsAt strict (.root session.roots) session.allocator source session.allocator done
        statement before error ∧
      (error.position? = none ↔
        ∃ name, RunsOut strict generation.site.host before.allocator statement.declared name) ∧
      ∀ name, RunsOut strict generation.site.host before.allocator statement.declared name →
        error = noSlot name := by
  obtain ⟨_, hasTarget, isStrict, _⟩ := start_sound opens
  obtain ⟨_, added, sound⟩ := start_adds opens sources
  rw [← hasTarget, ← isStrict, ← added.target, ← added.strict]
  obtain ⟨generation, done, statement, before, installed, isSite, fails⟩ :=
    sound.failsAt refused refuses
  obtain ⟨_, sameSite, _⟩ := Generation.opening_run fails.succeeded
  have located := (Pass.attempt_position fails.failed).2
  rw [sameSite] at located
  exact ⟨generation, done, statement, before, installed, isSite, fails, located⟩

/-- A patch whose second statement is refused at the value of its second variable. -/
def mistypedSource : String := "x = 2; int y = x, z = true;"

/-- The variables of a statement that is refused for the types in it do not run out of slots. -/
theorem refused_position_mistyped : ∃ (opened : Session) (error : PatchError)
    (generation : Generation) (statement : Stmt) (before : Pass),
    start counterTarget counterRecord true = .ok opened ∧
      ((opened.after ["int x = count;"]).compile mistypedSource).1 = .error error ∧
      error.position? = some ⟨1, 23, 22⟩ ∧
      (before.attempt true statement).1 = .error error ∧
      ∀ name, ¬ RunsOut true generation.site.host before.allocator statement.declared name := by
  have opening : ∃ opened, start counterTarget counterRecord true = .ok opened ∧
      failsAs ((opened.after ["int x = count;"]).compile mistypedSource).1 (fun error =>
        error.refusesStatement && decide (error.position? = some ⟨1, 23, 22⟩)) = true :=
    opens_of_any (by decide +kernel)
  obtain ⟨opened, opens, fails⟩ := opening
  obtain ⟨error, refused, holds⟩ := exists_of_failsAs fails
  obtain ⟨refuses, isAt⟩ := Bool.and_eq_true_iff.mp holds
  have isPlace := of_decide_eq_true isAt
  obtain ⟨generation, _, statement, before, _, _, fails, unplaced, _⟩ :=
    refused_position opens ["int x = count;"] refused refuses
  refine ⟨opened, error, generation, statement, before, opens, refused, isPlace, fails.failed,
    fun name runsOut => ?_⟩
  rw [unplaced.mpr ⟨name, runsOut⟩] at isPlace
  cases isPlace

/-- A record that counts all slots of a method. -/
def fullRecord : MethodRecord := ⟨65535, []⟩

/-- **A statement that runs out of slots is refused without a place.** -/
theorem refused_unplaced : ∃ (opened : Session) (generation : Generation) (done : List Stmt)
    (statement : Stmt) (before : Pass),
    start counterTarget fullRecord true = .ok opened ∧
      (opened.compile "int x = 1;").1 = .error (noSlot "x") ∧
      opened.hook.generation = .ok generation ∧
      generation.FailsAt true (.root opened.roots) opened.allocator "int x = 1;" opened.allocator done
        statement before (noSlot "x") ∧
      (noSlot "x").refusesStatement = true ∧ (noSlot "x").position? = none := by
  have opening : ∃ opened, start counterTarget fullRecord true = .ok opened ∧
      failsAs (opened.compile "int x = 1;").1 (fun error => decide (error = noSlot "x")) = true :=
    opens_of_any (by decide +kernel)
  obtain ⟨opened, opens, fails⟩ := opening
  obtain ⟨error, refused, holds⟩ := exists_of_failsAs fails
  obtain rfl := of_decide_eq_true holds
  obtain ⟨sound, _, isStrict, _⟩ := start_sound opens
  obtain ⟨generation, done, statement, before, installed, _, fails⟩ := sound.failsAt refused rfl
  rw [isStrict] at fails
  exact ⟨opened, generation, done, statement, before, opens, refused, installed, fails, rfl, rfl⟩

end Session

end MethodPatch
