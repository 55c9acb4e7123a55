/-
**A commit changes nothing.**

A commit opens a new session from the record of the old one: its locals are read back from their
descriptors and registered again, and the first free slot comes from the number of slots that the
fragments asked for. Where all types can be read back the new session matches the old one.

* `Allocator.registerAll_raise`, `MethodRecord.allocator_append`: a record with more locals;
* `Session.Keeps`: what a session has committed gives its allocator again;
* `Session.commit_neutral`: **the session behind a commit matches the one in front of it.**
-/

import MethodPatch.Proofs.Patch.Commits
import MethodPatch.Proofs.Patch.Matching

namespace MethodPatch

/-! ### Recorded locals again -/

namespace Allocator

variable {allocator : Allocator} {entry : Local} {entries : List Local}

/-- The allocator with a first free slot that is behind a count. -/
def raise (allocator : Allocator) (count : Nat) : Allocator :=
  { allocator with next := max allocator.next count }

theorem register_raise (allocator : Allocator) (entry : Local) (count : Nat) :
    (allocator.raise count).register entry = (allocator.register entry).map (·.raise count) := by
  have later : max (max allocator.next count) entry.finish =
      max (max allocator.next entry.finish) count := Nat.max_right_comm ..
  unfold register raise
  dsimp only [find?]
  rw [later]
  split
  · rfl
  · split
    · split <;> rfl
    · rfl

/-- Slots that are not given out may be counted before the locals are registered or behind that. -/
theorem registerAll_raise (allocator : Allocator) (entries : List Local) (count : Nat) :
    (allocator.raise count).registerAll entries =
      (allocator.registerAll entries).map (·.raise count) := by
  unfold registerAll
  induction entries generalizing allocator with
  | nil => rfl
  | cons first rest ih =>
    rw [List.foldlM_cons, List.foldlM_cons, register_raise]
    cases allocator.register first with
    | error error => rfl
    | ok middle => exact ih middle

theorem registerAll_append (allocator : Allocator) (entries more : List Local) :
    allocator.registerAll (entries ++ more) =
      (allocator.registerAll entries).bind (·.registerAll more) :=
  List.foldlM_append

/-- A local whose name is not known is added behind the known ones. -/
theorem register_new (unknown : allocator.find? entry.name = none)
    (fits : entry.finish ≤ slotLimit) (reached : entry.finish ≤ allocator.next) :
    allocator.register entry = .ok { allocator with known := allocator.known ++ [entry] } := by
  unfold register
  rw [if_neg (Nat.not_lt.mpr fits), unknown, Nat.max_eq_left reached]
  dsimp only
  rw [put_of_unknown unknown]

/-- Locals whose names are not known are added behind the known ones. -/
theorem registerAll_new (unknown : ∀ entry ∈ entries, allocator.find? entry.name = none)
    (distinct : (entries.map Local.name).Nodup) (fits : ∀ entry ∈ entries, entry.finish ≤ slotLimit)
    (reached : ∀ entry ∈ entries, entry.finish ≤ allocator.next) :
    allocator.registerAll entries = .ok { allocator with known := allocator.known ++ entries } := by
  unfold registerAll
  induction entries generalizing allocator with
  | nil => rw [List.append_nil]; rfl
  | cons first rest ih =>
    obtain ⟨different, distinct⟩ := List.nodup_cons.mp distinct
    obtain ⟨unknownFirst, unknownRest⟩ := List.forall_mem_cons.mp unknown
    obtain ⟨fitsFirst, fitsRest⟩ := List.forall_mem_cons.mp fits
    obtain ⟨reachedFirst, reachedRest⟩ := List.forall_mem_cons.mp reached
    rw [List.foldlM_cons, register_new unknownFirst fitsFirst reachedFirst]
    have stillUnknown : ∀ entry ∈ rest,
        find? { allocator with known := allocator.known ++ [first] } entry.name = none := by
      intro entry isRest
      have other : first.name ≠ entry.name := fun same =>
        different (same ▸ List.mem_map_of_mem isRest)
      have stays := unknownRest entry isRest
      unfold find? at stays ⊢
      rw [List.find?_append, stays, List.find?_cons_of_neg (by simpa using other)]
      rfl
    have goesOn := ih stillUnknown distinct fitsRest reachedRest
    rw [List.append_assoc] at goesOn
    exact goesOn

/-- A new local has its slots among those of a method. -/
theorem finish_allocate {name : String} {type : FieldType} {after : Allocator}
    (done : allocator.allocate name type = .ok (entry, after)) : entry.finish ≤ slotLimit := by
  unfold allocate at done
  split at done
  · cases done
  · dsimp only at done
    split at done
    · cases done
    · next fits =>
      cases done
      have widthPos := type.width_pos
      have isSlot : (UInt16.ofNat allocator.next).toNat = allocator.next :=
        UInt16.toNat_ofNat_of_lt' (by
          simp only [slotLimit, Local.width] at fits
          rw [UInt16.size]
          omega)
      rw [Local.finish, isSlot]
      exact Nat.not_lt.mp fits

end Allocator

namespace MethodRecord

variable {record : MethodRecord} {allocator : Allocator} {entries : List Local}

/-- The locals of an allocator with more slots are registered as they are read back. -/
theorem allocator_append (made : record.allocator = .ok allocator)
    (legible : ∀ entry ∈ entries, entry.type.Legible) (count : UInt16) :
    MethodRecord.allocator ⟨max record.maxLocals count, record.locals ++ entries.map .ofLocal⟩ =
      (allocator.raise count.toNat).registerAll entries := by
  obtain ⟨recorded, resolved, registered⟩ := allocator_registers made
  have readBack : (entries.map LocalRecord.ofLocal).mapM LocalRecord.resolve = .ok entries := by
    induction entries with
    | nil => rfl
    | cons first rest ih =>
      obtain ⟨legibleFirst, legibleRest⟩ := List.forall_mem_cons.mp legible
      have resolvedFirst : (LocalRecord.ofLocal first).resolve = .ok first := by
        unfold LocalRecord.resolve LocalRecord.ofLocal
        rw [legibleFirst.descriptor]
      rw [List.map_cons, List.mapM_cons, resolvedFirst, ih legibleRest]
      rfl
  have all : resolve ⟨max record.maxLocals count, record.locals ++ entries.map .ofLocal⟩ =
      .ok (recorded ++ entries) := by
    unfold resolve at resolved ⊢
    rw [List.mapM_append, resolved, readBack]
    rfl
  unfold MethodRecord.allocator
  rw [all, UInt16.toNat_max]
  show ((Allocator.startingAt record.maxLocals.toNat).raise count.toNat).registerAll
    (recorded ++ entries) = _
  rw [Allocator.registerAll_append, Allocator.registerAll_raise, registered]
  rfl

end MethodRecord

/-- A local that is given out has its slots among those of a method. -/
theorem GivesAll.fits {strict : Bool} {host : Host} {before after : Allocator}
    {declared : List Declarator} {entries fresh : List Local}
    (gives : GivesAll strict host before declared entries fresh after) :
    ∀ entry ∈ fresh, entry.finish ≤ slotLimit := by
  induction gives with
  | nil => exact List.forall_mem_nil _
  | cons gives _ ih =>
    refine List.forall_mem_append.mpr ⟨?_, ih⟩
    cases gives with
    | known => exact List.forall_mem_nil _
    | new resolved allocated =>
      intro entry isNew
      obtain rfl := List.mem_singleton.mp isNew
      exact Allocator.finish_allocate allocated

/-! ### What a session has committed -/

namespace Session

variable {session later opened new : Session} {target : Target} {record : MethodRecord}
  {strict : Bool} {source : String} {fragment : Fragment} {generation : Generation}
  {statements : List Stmt} {pass : Pass}

/-- A session can be told from what it has committed: the locals that are recorded give an allocator
that knows the same, if their types can be read back. -/
structure Keeps (session : Session) : Prop where
  same : session.Matches session
  tidy : session.Tidy
  reached : session.target.Reached session.allocator.next
  recorded : session.Legible → ∃ allocator, session.committed.allocator = .ok allocator ∧
    allocator.Same session.allocator

theorem start_ready (opens : start target record strict = .ok opened) : opened.Ready := by
  obtain ⟨sound, hasTarget, _, _⟩ := start_sound opens
  obtain ⟨site, pool, isInstalled, _, isPool⟩ := start_installed opens
  have alive : opened.failed = false := by
    simp only [start, bind_eq_ok, pure_eq_ok] at opens
    obtain ⟨_, _, _, _, _, _, rfl⟩ := opens
    rfl
  refine ⟨alive, sound, start_inStep opens, fun {generation} installed => ?_⟩
  rw [isInstalled] at installed
  cases installed
  obtain ⟨entry, _, rfl⟩ := Target.entry_of_pool isPool
  exact Pool.legal_ofReserved _

theorem start_keeps (opens : start target record strict = .ok opened)
    (reached : target.Reached opened.allocator.next) : opened.Keeps := by
  obtain ⟨_, hasTarget, _, made⟩ := start_sound opens
  have ready := start_ready opens
  have isCommitted : opened.committed = record := by
    simp only [start, bind_eq_ok, pure_eq_ok] at opens
    obtain ⟨_, _, _, _, _, _, rfl⟩ := opens
    rfl
  exact ⟨⟨ready, ready, rfl, rfl, .refl _⟩, start_tidy opens, hasTarget ▸ reached,
    fun _ => ⟨opened.allocator, isCommitted ▸ made, .refl _⟩⟩

/-- A pass that succeeds records what it adds, behind what is recorded. -/
theorem Keeps.compile (keeps : session.Keeps)
    (compiled : session.compile source = (.ok fragment, later)) : later.Keeps := by
  obtain ⟨_, generation, statements, pass, generated⟩ := compile_generated keeps.tidy.sound compiled
  obtain ⟨_, added, _, rfl, site, _, entries, _, _, gives⟩ := compile_adds keeps.tidy.sound compiled
  have extended := added.allocator
  refine ⟨keeps.same.later compiled compiled, keeps.tidy.compile compiled, ?reached, ?recorded⟩
  case reached =>
    intro site isSite
    rw [added.target] at isSite
    exact Nat.le_trans (keeps.reached site isSite) extended.le_next
  case recorded =>
    intro legible
    have legibleParts := legible
    unfold Legible at legibleParts
    rw [extended.known] at legibleParts
    obtain ⟨legibleBefore, legibleNew⟩ := List.forall_mem_append.mp legibleParts
    obtain ⟨allocator, made, same⟩ := keeps.recorded legibleBefore
    have unrecorded : ∀ entry ∈ fragment.introduced, ∀ recorded ∈ session.committed.locals,
        recorded.name ≠ entry.name := by
      intro entry isNew recorded isRecorded sameName
      have known := MethodRecord.find?_recorded made recorded isRecorded
      rw [sameName, same.find?, extended.unknown entry isNew] at known
      cases known
    have isCommitted : later.committed = _ := congrArg Session.committed (compile_ok compiled)
    have count : fragment.maxLocals.toNat = later.allocator.next :=
      generated.maxLocals_eq keeps.tidy keeps.reached compiled legible
    have raised : (allocator.raise fragment.maxLocals.toNat).next = later.allocator.next := by
      have behind := extended.le_next
      unfold Allocator.raise
      dsimp only
      rw [count, same.next]
      exact Nat.max_eq_right behind
    refine ⟨{ allocator.raise fragment.maxLocals.toNat with
      known := allocator.known ++ fragment.introduced }, ?_, ?_⟩
    · rw [isCommitted]
      show (session.committed.merge fragment.introduced fragment.maxLocals).allocator = _
      rw [MethodRecord.merge_of_unrecorded unrecorded extended.distinct,
        MethodRecord.allocator_append made legibleNew]
      refine Allocator.registerAll_new (fun entry isNew => ?_) extended.distinct gives.fits
        fun entry isNew => ?_
      · exact (same.find? entry.name).trans (extended.unknown entry isNew)
      · rw [raised, extended.next]
        exact (extended.laid.bounds isNew).2
    · exact ⟨by rw [extended.known, same.known], raised⟩

/-- A session opens for a target with a site and a pool, on a record of locals. -/
theorem start_of_allocator {allocator : Allocator} {site : Site} {pool : Pool}
    (made : record.allocator = .ok allocator) (isSite : target.site = .ok site)
    (isPool : target.pool = .ok pool) (strict : Bool) :
    ∃ opened, start target record strict = .ok opened ∧ opened.allocator = allocator := by
  have rooted : record.roots = .ok (allocator.bySlot.map Local.symbol) := by
    rw [MethodRecord.roots, made]
    rfl
  have installed : Hook.empty.install target = .ok (.replace target (.ofSite site pool)) := by
    show (Hook.generationFor target).map (Hook.replace target) = _
    unfold Hook.generationFor
    rw [isSite, isPool]
    rfl
  unfold start
  rw [made, rooted, installed]
  exact ⟨_, rfl, rfl⟩

/-- **The session behind a commit matches the one in front of it.** -/
theorem Keeps.commit (keeps : session.Keeps) (legible : session.Legible) {site : Site} {pool : Pool}
    (isSite : session.target.site = .ok site) (isPool : session.target.pool = .ok pool) :
    ∃ new, session.commit = .ok new ∧ session.Matches new := by
  obtain ⟨allocator, made, same⟩ := keeps.recorded legible
  obtain ⟨new, opens, rfl⟩ := start_of_allocator made isSite isPool session.strict
  obtain ⟨_, hasTarget, isStrict, _⟩ := start_sound opens
  refine ⟨new, ?_, keeps.same.ready, start_ready opens, hasTarget.symm, isStrict.symm,
    same.known.symm, same.next.symm⟩
  unfold Session.commit
  rw [keeps.same.ready.alive, if_neg Bool.false_ne_true, opens]

/-- **A commit is neutral for slots.** The record of the workspace reaches as far as the parameters.
Where a record does, and no pass has failed and all types can be read back, a commit succeeds. The
new session knows the same locals, has the same first free slot and binds the same variables, and
whatever comes behind, both make the same of it: they accept it with the same new locals and the same
number of slots, or both refuse it. Only a class file that cannot hold what one of them makes, of a
text or of an earlier one, tells them apart. -/
theorem commit_neutral (opens : start target record strict = .ok opened) (sources : List String) :
    (target.record = .ok record → target.Reached opened.allocator.next) ∧
    let session := opened.after sources
    (session.failed = false → target.Reached opened.allocator.next → session.Legible →
      ∃ new, session.commit = .ok new ∧
        (∀ name, new.allocator.find? name = session.allocator.find? name) ∧
        new.allocator.next = session.allocator.next ∧
        (∀ name, (Scope.root new.roots).binding? name = (Scope.root session.roots).binding? name) ∧
        ∀ more source,
          (∃ earlier text, earlier ++ [text] <+: more ∧
            ((session.after earlier).Exceeds text ∨ (new.after earlier).Exceeds text)) ∨
          Outcomes PatchError.IsLimit Fragment.Alike ((session.after more).compile source).1
            ((new.after more).compile source).1) := by
  obtain ⟨_, hasTarget, _, made⟩ := start_sound opens
  refine ⟨fun recorded site isSite => ?_, fun alive reached legible => ?_⟩
  · obtain ⟨_, _, seeds⟩ := MethodRecord.allocator_seeds made
    exact (seeds.le_next_iff _).mpr
      (.inl (UInt16.le_iff_toNat_le.mp (Target.firstFreeSlot_le isSite recorded)))
  · have keeps := after_of_step (fun keeps compiled => Keeps.compile keeps compiled)
      (start_keeps opens reached) sources alive
    obtain ⟨_, added, _⟩ := start_adds opens sources
    obtain ⟨site, pool, _, isSite, isPool⟩ := start_installed opens
    rw [← hasTarget, ← added.target] at isSite isPool
    obtain ⟨new, committed, same⟩ := keeps.commit legible isSite isPool
    exact ⟨new, committed, fun name => (same.allocator.find? name).symm, same.allocator.next.symm,
      fun name => (same.roots name).symm, same.outcomes_after⟩

/-- Behind a commit the variable `x` has its slot, and a `long` goes behind it as it would have gone
without the commit. -/
theorem commit_neutral_counter : ∃ opened fragment new,
    start counterTarget counterRecord true = .ok opened ∧
      ((opened.after ["int x = count;"]).compile "long y = x;").1 = .ok fragment ∧
      fragment.maxLocals = 4 ∧ (opened.after ["int x = count;"]).commit = .ok new ∧
      new.allocator.next = 2 ∧ new.allocator.find? "x" = some ⟨"x", 1, .int⟩ ∧
      Outcomes PatchError.IsLimit Fragment.Alike (.ok fragment) (new.compile "long y = x;").1 := by
  have opening : ∃ opened, start counterTarget counterRecord true = .ok opened ∧
      (decide ((opened.after ["int x = count;"]).failed = false ∧ opened.allocator.next = 1 ∧
          (opened.after ["int x = count;"]).allocator =
            ⟨2, [⟨"count", 0, .int⟩, ⟨"x", 1, .int⟩], ["x"]⟩) &&
        ((opened.after ["int x = count;"]).compile "long y = x;").1.toOption.any
          fun fragment => fragment.maxLocals = 4) = true :=
    opens_of_any (by decide +kernel)
  obtain ⟨opened, opens, holds⟩ := opening
  obtain ⟨before, few⟩ := Bool.and_eq_true_iff.mp holds
  obtain ⟨alive, first, isAllocator⟩ := of_decide_eq_true before
  have reached : counterTarget.Reached opened.allocator.next := fun site isSite =>
    Nat.le_of_eq ((congrArg UInt16.toNat (firstFreeSlot_counter isSite)).trans first.symm)
  have legible : (opened.after ["int x = count;"]).Legible := by
    unfold Legible
    rw [isAllocator]
    have isInt : FieldType.Legible .int := ⟨by decide, by decide⟩
    intro entry isIn
    simp only [List.mem_cons, List.not_mem_nil, or_false] at isIn
    rcases isIn with rfl | rfl <;> exact isInt
  obtain ⟨new, committed, finds, next, _, outcomes⟩ :=
    (commit_neutral opens ["int x = count;"]).2 alive reached legible
  rw [isAllocator] at finds next
  rcases outcomes [] "long y = x;" with ⟨earlier, _, isEarlier, _⟩ | outcome
  · cases (List.append_eq_nil_iff.mp (List.prefix_nil.mp isEarlier)).2
  · change Outcomes _ _ ((opened.after ["int x = count;"]).compile "long y = x;").1
      (new.compile "long y = x;").1 at outcome
    rcases compiled : ((opened.after ["int x = count;"]).compile "long y = x;").1 with _ | fragment <;>
      rw [compiled] at few outcome
    · cases few
    · exact ⟨opened, fragment, new, opens, compiled, of_decide_eq_true few, committed, next,
        finds "x", outcome⟩

end Session

end MethodPatch
