/-
**What a session has committed.**

A session commits the locals of passes that succeed. Locals of a pass that fails stay in its
allocator, but reach neither its record nor a session that is opened from it. A ledger says which
record a session began with and which passes have succeeded since; it looks at what the actions of a
run return, and not at the state of the session.

* `Action`, `Session.perform`, `Session.run`: what can be done with a session, and several of it;
* `Ledger`, `Session.ledger`: the passes that have succeeded;
* `Session.Follows`, `Session.perform_follows`: a session says what its ledger says, over one action;
* `Session.run_of_failed`: a session that has failed does not change any more;
* `Session.run_committed`: **nothing of a failed pass is ever committed**.
-/

import MethodPatch.Proofs.Patch.Slots

namespace MethodPatch

/-! ### Recorded locals -/

theorem LocalRecord.name_of_resolve {recorded : LocalRecord} {entry : Local}
    (resolved : recorded.resolve = .ok entry) : entry.name = recorded.name := by
  unfold resolve at resolved
  split at resolved <;> cases resolved
  rfl

namespace MethodRecord

variable {record : MethodRecord} {allocator : Allocator} {entries : List Local}

theorem names_of_resolve (resolved : record.resolve = .ok entries) :
    entries.map Local.name = record.locals.map LocalRecord.name := by
  unfold resolve at resolved
  generalize record.locals = records at resolved ⊢
  induction records generalizing entries with
  | nil =>
    cases resolved
    rfl
  | cons first rest ih =>
    rw [List.mapM_cons] at resolved
    simp only [bind_eq_ok, pure_eq_ok] at resolved
    obtain ⟨entry, one, others, all, rfl⟩ := resolved
    rw [List.map_cons, List.map_cons, ih all, LocalRecord.name_of_resolve one]

/-- The allocator of a record knows the names that are recorded. -/
theorem find?_recorded (made : record.allocator = .ok allocator) :
    ∀ recorded ∈ record.locals, (allocator.find? recorded.name).isSome := by
  intro recorded isIn
  obtain ⟨entries, resolved, registered⟩ := allocator_registers made
  have isNamed : recorded.name ∈ entries.map Local.name := by
    rw [names_of_resolve resolved]
    exact List.mem_map_of_mem isIn
  obtain ⟨entry, isEntry, same⟩ := List.mem_map.mp isNamed
  exact (Allocator.isSome_find?_registerAll registered).mpr (.inr ⟨entry, isEntry, same⟩)

/-- Locals whose names are not recorded are appended. -/
theorem merge_of_unrecorded {introduced : List Local}
    (unrecorded : ∀ entry ∈ introduced, ∀ recorded ∈ record.locals, recorded.name ≠ entry.name)
    (distinct : (introduced.map Local.name).Nodup) (count : UInt16) :
    record.merge introduced count =
      ⟨max record.maxLocals count, record.locals ++ introduced.map .ofLocal⟩ := by
  unfold merge
  congr 1
  generalize record.locals = records at unrecorded
  induction introduced generalizing records with
  | nil => exact (List.append_nil records).symm
  | cons first rest ih =>
    obtain ⟨different, distinct⟩ := List.nodup_cons.mp distinct
    obtain ⟨here, behind⟩ := List.forall_mem_cons.mp unrecorded
    have appended : append records first = records ++ [LocalRecord.ofLocal first] := by
      unfold append
      rw [List.filter_eq_self.mpr fun recorded isIn => by simpa using here recorded isIn]
    rw [List.foldl_cons, appended, ih distinct, List.map_cons, List.append_assoc]
    · rfl
    · intro entry isRest recorded isIn
      rcases List.mem_append.mp isIn with isOld | isFirst
      · exact behind entry isRest recorded isOld
      · obtain rfl := List.mem_singleton.mp isFirst
        exact fun same => different (List.mem_map.mpr ⟨entry, isRest, same.symm⟩)

end MethodRecord

/-! ### Runs -/

/-- What can be done with a session. -/
inductive Action where
  | compile (source : String)
  | commit
  | reopen

/-- The record that a session began with, and the fragments of the passes that have succeeded. -/
structure Ledger where
  seed : MethodRecord
  fragments : List Fragment
  deriving DecidableEq

/-- The record with the locals of all fragments at its end, in order, and with as many slots as any
of them needs. -/
def Ledger.record (ledger : Ledger) : MethodRecord where
  maxLocals := (ledger.fragments.map Fragment.maxLocals).foldl max ledger.seed.maxLocals
  locals := ledger.seed.locals ++ (ledger.fragments.flatMap Fragment.introduced).map .ofLocal

/-- The ledger behind a pass. Only one that succeeds is entered. -/
def Ledger.enter (ledger : Ledger) : Except PatchError Fragment → Ledger
  | .ok fragment => { ledger with fragments := ledger.fragments ++ [fragment] }
  | .error _ => ledger

theorem Ledger.record_enter (ledger : Ledger) (fragment : Fragment) :
    (ledger.enter (.ok fragment)).record =
      ⟨max ledger.record.maxLocals fragment.maxLocals,
        ledger.record.locals ++ fragment.introduced.map .ofLocal⟩ := by
  simp [record, enter]

theorem Ledger.seed_enter (ledger : Ledger) (result : Except PatchError Fragment) :
    (ledger.enter result).seed = ledger.seed := by
  cases result <;> rfl

namespace Session

/-- The session behind an action. One that is refused leaves the session. -/
def perform (session : Session) : Action → Session
  | .compile source => (session.compile source).2
  | .commit => session.commit.toOption.getD session
  | .reopen => session.reopen.toOption.getD session

/-- The session behind several actions. -/
def run (session : Session) (actions : List Action) : Session := actions.foldl perform session

/-- The ledger behind an action of a session. -/
def entered (session : Session) (ledger : Ledger) : Action → Ledger
  | .compile source => ledger.enter (session.compile source).1
  | .commit => if session.commit.isOk then ⟨ledger.record, []⟩ else ledger
  | .reopen => if session.reopen.isOk then ⟨ledger.seed, []⟩ else ledger

/-- The ledger behind several actions of a session. -/
def ledger (session : Session) (entries : Ledger) : List Action → Ledger
  | [] => entries
  | action :: rest => (session.perform action).ledger (session.entered entries action) rest

variable {session opened later : Session} {target : Target} {record : MethodRecord} {strict : Bool}
  {ledger : Ledger} {source : String} {actions : List Action}

/-- A session for a target has committed what its ledger says, and could be opened anew. -/
structure Follows (target : Target) (strict : Bool) (ledger : Ledger) (session : Session) :
    Prop where
  sound : session.Sound
  opens : ∃ reopened, start target ledger.seed strict = .ok reopened
  target : session.target = target
  strict : session.strict = strict
  seed : session.seed = ledger.seed
  committed : session.committed = ledger.record
  /-- The allocator knows the names that are committed, so that no pass introduces one again. -/
  known : ∀ recorded ∈ session.committed.locals, (session.allocator.find? recorded.name).isSome

theorem start_follows (opens : start target record strict = .ok opened) :
    Follows target strict ⟨record, []⟩ opened := by
  obtain ⟨sound, hasTarget, isStrict, made⟩ := start_sound opens
  have isSeed : opened.seed = record ∧ opened.committed = record := by
    simp only [start, bind_eq_ok, pure_eq_ok] at opens
    obtain ⟨_, _, _, _, _, _, rfl⟩ := opens
    exact ⟨rfl, rfl⟩
  refine ⟨sound, ⟨opened, opens⟩, hasTarget, isStrict, isSeed.1, ?_, ?_⟩
  · simp [isSeed.2, Ledger.record]
  · rw [isSeed.2]
    exact MethodRecord.find?_recorded made

/-! ### One action -/

/-- A pass that succeeds is entered into the ledger; one that fails leaves the ledger. -/
theorem compile_follows {result : Except PatchError Fragment}
    (follows : Follows target strict ledger session)
    (compiled : session.compile source = (result, later)) :
    Follows target strict (ledger.enter result) later := by
  obtain ⟨fresh, added, soundLater, introduces⟩ := compile_adds follows.sound compiled
  have stays : ∀ recorded ∈ session.committed.locals,
      (later.allocator.find? recorded.name).isSome := by
    intro recorded isIn
    obtain ⟨entry, found⟩ := Option.isSome_iff_exists.mp (follows.known recorded isIn)
    rw [added.allocator.find?_of_known found]
    rfl
  have hasTarget := added.target.trans follows.target
  have isStrict := added.strict.trans follows.strict
  cases result with
  | error error =>
    have isLater := compile_error compiled
    have isSeed : later.seed = session.seed := by rw [isLater]
    have isCommitted : later.committed = session.committed := by rw [isLater]
    exact ⟨soundLater, follows.opens, hasTarget, isStrict, isSeed.trans follows.seed,
      isCommitted.trans follows.committed, isCommitted ▸ stays⟩
  | ok fragment =>
    obtain ⟨rfl, _⟩ := introduces
    have isLater := compile_ok compiled
    have isSeed : later.seed = session.seed := by rw [isLater]; rfl
    -- What is introduced was unknown, and so it is not recorded.
    have merged : later.committed = ⟨max session.committed.maxLocals fragment.maxLocals,
        session.committed.locals ++ fragment.introduced.map .ofLocal⟩ := by
      refine (congrArg committed isLater).trans
        (MethodRecord.merge_of_unrecorded (fun entry isNew recorded isIn same => ?_)
          added.allocator.distinct fragment.maxLocals)
      have isKnown := follows.known recorded isIn
      rw [same, added.allocator.unknown entry isNew] at isKnown
      cases isKnown
    refine ⟨soundLater, follows.opens, hasTarget, isStrict, isSeed.trans follows.seed, ?_, ?_⟩
    · rw [merged, Ledger.record_enter, follows.committed]
    · rw [merged]
      intro recorded isIn
      rcases List.mem_append.mp isIn with isOld | isNew
      · exact stays recorded isOld
      · obtain ⟨entry, isEntry, rfl⟩ := List.mem_map.mp isNew
        exact Option.isSome_iff_exists.mpr ⟨entry, added.allocator.find?_of_fresh isEntry⟩

/-- A session is opened anew from the record that its ledger began with. -/
theorem Follows.reopen_eq (follows : Follows target strict ledger session) :
    session.reopen = start target ledger.seed strict := by
  rw [reopen, follows.target, follows.seed, follows.strict]

/-- A new session begins with the record of the ledger. -/
theorem Follows.commit_eq (follows : Follows target strict ledger session)
    (passed : session.failed = false) : session.commit = start target ledger.record strict := by
  rw [commit, passed, follows.target, follows.committed, follows.strict]
  rfl

theorem commit_of_failed (failed : session.failed = true) : session.commit = .error .unusable := by
  rw [commit, if_pos failed]

/-- **What one action does to a session** is what it does to the ledger. -/
theorem perform_follows (follows : Follows target strict ledger session) (action : Action) :
    Follows target strict (session.entered ledger action) (session.perform action) := by
  cases action with
  | compile source => exact compile_follows follows rfl
  | commit =>
    rw [perform, entered]
    cases committed : session.commit with
    | error error => exact follows
    | ok later =>
      have passed : session.failed = false := by
        refine Bool.eq_false_iff.mpr fun failed => ?_
        rw [commit_of_failed failed] at committed
        cases committed
      rw [follows.commit_eq passed] at committed
      exact start_follows committed
  | reopen =>
    rw [perform, entered]
    cases reopened : session.reopen with
    | error error => exact follows
    | ok later =>
      rw [follows.reopen_eq] at reopened
      exact start_follows reopened

/-! ### Actions in order -/

theorem run_follows (follows : Follows target strict ledger session) (actions : List Action) :
    Follows target strict (session.ledger ledger actions) (session.run actions) := by
  induction actions generalizing session ledger with
  | nil => exact follows
  | cons action rest ih => exact ih (perform_follows follows action)

/-- The record that a session began with is kept until it is committed. -/
theorem seed_ledger (noCommit : .commit ∉ actions) :
    (session.ledger ledger actions).seed = ledger.seed := by
  induction actions generalizing session ledger with
  | nil => rfl
  | cons action rest ih =>
    obtain ⟨different, noneBehind⟩ := not_or.mp (List.mem_cons.not.mp noCommit)
    rw [Session.ledger, ih noneBehind]
    cases action with
    | compile source => exact Ledger.seed_enter ..
    | commit => exact absurd rfl different
    | reopen =>
      rw [entered]
      split <;> rfl

/-- A session that has failed does not change any more, unless it is opened anew. -/
theorem run_of_failed (failed : session.failed = true) (noReopen : .reopen ∉ actions) :
    session.run actions = session := by
  induction actions with
  | nil => rfl
  | cons action rest ih =>
    obtain ⟨different, noneBehind⟩ := not_or.mp (List.mem_cons.not.mp noReopen)
    have stays : session.perform action = session := by
      cases action with
      | compile source => rw [perform, compile_of_failed failed]
      | commit =>
        rw [perform, commit_of_failed failed]
        rfl
      | reopen => exact absurd rfl different
    rw [run, List.foldl_cons, stays]
    exact ih noneBehind

/-- **Nothing of a failed pass is ever committed.** Over any actions, a session has committed the
record that it began with and the locals of exactly the passes that succeeded since, in order, with
as many slots as any of them needs. It can always be opened anew from the record that it began with,
as if nothing had been compiled. A pass that fails commits nothing, and behind it every pass and
every commit is refused and changes nothing. -/
theorem run_committed (opens : start target record strict = .ok opened) (actions : List Action) :
    let session := opened.run actions
    let ledger := opened.ledger ⟨record, []⟩ actions
    session.committed = ledger.record ∧
    (∃ reopened, start target ledger.seed strict = .ok reopened ∧ session.reopen = .ok reopened) ∧
    (.commit ∉ actions → session.reopen = .ok opened) ∧
    ∀ source error failing, session.compile source = (.error error, failing) →
      failing.committed = session.committed ∧ failing.reopen = session.reopen ∧
      ∀ more, .reopen ∉ more → failing.run more = failing ∧
        (∀ source, (failing.run more).compile source = (.error .unusable, failing)) ∧
        (failing.run more).commit = .error .unusable := by
  have follows := run_follows (start_follows opens) actions
  obtain ⟨reopened, starts⟩ := follows.opens
  refine ⟨follows.committed, ⟨reopened, starts, follows.reopen_eq.trans starts⟩,
    fun noCommit => ?unchanged, ?refused⟩
  case unchanged => rw [follows.reopen_eq, seed_ledger noCommit, opens]
  case refused =>
    intro source error failing compiled
    have isFailing := compile_error compiled
    have failed : failing.failed = true := by rw [isFailing]
    refine ⟨by rw [isFailing], by rw [isFailing]; rfl, fun more noReopen => ?_⟩
    rw [run_of_failed failed noReopen]
    exact ⟨rfl, compile_of_failed failed, commit_of_failed failed⟩

/-- A pass that is committed, one that succeeds behind it, and one that is refused at its second
statement. -/
def failingActions : List Action :=
  [.compile "int x = 5;", .commit, .compile "long y = x;", .compile "int z = 1; boolean y = true;"]

/-- The allocator knows the local of the failed pass, but it is not committed, and a session that is
opened anew knows only the local that was committed first. -/
theorem run_committed_failing : ∃ opened reopened,
    start counterTarget ⟨1, []⟩ true = .ok opened ∧
    ((opened.run failingActions).allocator.find? "z").isSome ∧
    (opened.run failingActions).committed = ⟨4, [⟨"x", 1, "I"⟩, ⟨"y", 2, "J"⟩]⟩ ∧
    (opened.run failingActions).reopen = .ok reopened ∧
    start counterTarget ⟨2, [⟨"x", 1, "I"⟩]⟩ true = .ok reopened := by
  have opening : ∃ opened, start counterTarget ⟨1, []⟩ true = .ok opened ∧
      ((opened.run failingActions).allocator.find? "z").isSome = true ∧
        (opened.ledger ⟨⟨1, []⟩, []⟩ failingActions).record =
          ⟨4, [⟨"x", 1, "I"⟩, ⟨"y", 2, "J"⟩]⟩ ∧
        (opened.ledger ⟨⟨1, []⟩, []⟩ failingActions).seed = ⟨2, [⟨"x", 1, "I"⟩]⟩ :=
    opens_of_decide (by decide +kernel)
  obtain ⟨opened, opens, isKnown, isRecord, isSeed⟩ := opening
  obtain ⟨committed, ⟨reopened, starts, reopens⟩, _⟩ := run_committed opens failingActions
  rw [isRecord] at committed
  rw [isSeed] at starts
  exact ⟨opened, reopened, opens, isKnown, committed, reopens, starts⟩

end Session

end MethodPatch
