/-
**The constants of an edit.**

An edit is a run of passes and commits. A session numbers its constants behind those of the class, and
all its passes go on from one another; a session that is opened by a commit knows the locals of the
edit, but it begins with the constants of the class again.

* `Pool.Compatible`, `Pool.compatible_iff`: constants of which no index has two;
* `Session.fragments`: the fragments of an edit, each with the number of its session;
* `Session.Building`, `Session.fragments_build`: the constants of the fragments of a run;
* `Session.fragments_agree_iff`: **which fragments give an index one meaning**.
-/

import MethodPatch.Proofs.Constants.Calls
import MethodPatch.Proofs.Patch.Commits
import MethodPatch.Proofs.Patch.Repeats

namespace MethodPatch

/-! ### Compatible constants -/

namespace Pool

/-- No index has two constants. -/
def Compatible (first second : List (Nat × Constant)) : Prop :=
  ∀ index constant other, (index, constant) ∈ first → (index, other) ∈ second → constant = other

theorem Compatible.symm {first second : List (Nat × Constant)} (compatible : Compatible first second) :
    Compatible second first :=
  fun index constant other isSecond isFirst => (compatible index other constant isFirst isSecond).symm

/-- Entries in order are compatible with all of them that are in front. -/
theorem compatible_of_goesOn {first second : List (Nat × Constant)}
    (sorted : second.Pairwise fun entry later => entry.1 < later.1) (goesOn : first <+: second) :
    Compatible first second := by
  intro index constant other isFirst isSecond
  have found := (search_eq_some_iff sorted).mpr (goesOn.subset isFirst)
  rw [(search_eq_some_iff sorted).mpr isSecond] at found
  exact (Option.some.inj found).symm

theorem prefix_of_compatible {base : Nat} {constants others : List Constant}
    (compatible : Compatible (layout base constants) (layout base others)) :
    layout base constants <+: layout base others ∨ layout base others <+: layout base constants := by
  induction constants generalizing base others with
  | nil => exact .inl List.nil_prefix
  | cons head rest ih =>
    cases others with
    | nil => exact .inr List.nil_prefix
    | cons other behind =>
      obtain rfl : head = other :=
        compatible base head other List.mem_cons_self List.mem_cons_self
      have compatibleBehind :
          Compatible (layout (base + head.slots) rest) (layout (base + head.slots) behind) :=
        fun index constant other isFirst isSecond => compatible index constant other
          (List.mem_cons_of_mem _ isFirst) (List.mem_cons_of_mem _ isSecond)
      exact (ih compatibleBehind).imp (List.cons_prefix_cons.mpr ⟨rfl, ·⟩)
        (List.cons_prefix_cons.mpr ⟨rfl, ·⟩)

/-- **Pools that begin at one index are compatible** if and only if the entries of one begin with those
of the other. -/
theorem compatible_iff {first second : Pool} (begins : first.reserved = second.reserved) :
    Compatible first.entries second.entries ↔
      first.entries <+: second.entries ∨ second.entries <+: first.entries := by
  constructor
  · rw [entries, entries, begins]
    exact prefix_of_compatible
  · rintro (goesOn | goesOn)
    · exact compatible_of_goesOn (sorted_layout ..) goesOn
    · exact (compatible_of_goesOn (sorted_layout ..) goesOn).symm

theorem Grows.compatible {before after : Pool} (grows : before.Grows after) :
    Compatible before.entries after.entries :=
  compatible_of_goesOn (sorted_layout ..) (entries_of_grows grows)

end Pool

theorem Fragment.newConstants_eq (fragment : Fragment) :
    fragment.newConstants = fragment.pool.entries :=
  fragment.pool.entriesFrom_reserved

/-! ### Fragments -/

namespace Session

/-- The fragment that an action of a session gives. -/
def gives (session : Session) : Action → Option Fragment
  | .compile source => (session.compile source).1.toOption
  | .commit | .reopen => none

/-- Whether an action opens another session. -/
def opensAnother (session : Session) : Action → Bool
  | .compile _ => false
  | .commit => session.commit.isOk
  | .reopen => session.reopen.isOk

/-- The fragments of a run, in order, each with the number of its session. -/
def fragments (session : Session) (number : Nat) : List Action → List (Nat × Fragment)
  | [] => []
  | action :: rest =>
    (session.gives action).toList.map (number, ·) ++
      (session.perform action).fragments (number + (session.opensAnother action).toNat) rest

variable {session opened later : Session} {target : Target} {record : MethodRecord} {strict : Bool}
  {source : String} {fragment : Fragment} {base pool : Pool}

/-- A pass that succeeds goes on from the constants of its session. -/
theorem Sound.grows_compile (sound : session.Sound)
    (compiled : session.compile source = (.ok fragment, later)) :
    ∃ before body, session.body? = some before ∧ later.body? = some body ∧
      body.pool = fragment.pool ∧ before.pool.Grows fragment.pool := by
  obtain ⟨_, generation, statements, pass, generated⟩ := compile_generated sound compiled
  have isPool := generated.makes.pool
  have grows := (generated.runs (.refl _)).grows (generated.allocator ▸ .refl _)
  refine ⟨generation.generator.body, _, ?_, generated.body?, isPool.symm, isPool ▸ grows⟩
  rw [body?, generated.installed, Option.map_some]

/-- A session for a target that can be used has all constants of a pool. -/
structure Building (target : Target) (pool : Pool) (session : Session) : Prop where
  target : session.target = target
  usable : session.failed = false →
    session.Sound ∧ ∃ body, session.body? = some body ∧ pool.Grows body.pool

/-- A session begins with the constants of the class. -/
theorem start_building (isPool : target.pool = .ok base)
    (opens : start target record strict = .ok opened) : Building target base opened := by
  obtain ⟨sound, hasTarget, _, _⟩ := start_sound opens
  obtain ⟨site, pool, installed, _, isBase⟩ := start_installed opens
  obtain rfl := Except.ok.inj (isPool.symm.trans isBase)
  have isBody : opened.body? = some (Generation.ofSite site base).generator.body := by
    rw [body?, installed, Option.map_some]
  exact ⟨hasTarget, fun _ => ⟨sound, _, isBody, .refl base⟩⟩

/-- An attempt to open a session gives it, or it is refused and the session at hand stays. -/
theorem attempted (attempt : Except PatchError Session) (session : Session) :
    attempt.isOk = true ∧ attempt = .ok (attempt.toOption.getD session) ∨
      attempt.isOk = false ∧ attempt.toOption.getD session = session := by
  cases attempt with
  | error error => exact .inr ⟨rfl, rfl⟩
  | ok opened => exact .inl ⟨rfl, rfl⟩

/-- A session that an action opens begins with the constants of the class. -/
theorem Building.another (building : session.Building target pool) (isPool : target.pool = .ok base)
    {action : Action} (opens : session.opensAnother action = true) :
    (session.perform action).Building target base := by
  have starts : ∃ record strict, start target record strict = .ok (session.perform action) := by
    rw [← building.target]
    cases action with
    | compile source => cases opens
    | commit =>
      obtain ⟨_, committed⟩ | ⟨refused, _⟩ := attempted session.commit session
      · have usable : session.failed = false := by
          refine Bool.eq_false_iff.mpr fun failed => ?_
          rw [commit_of_failed failed] at committed
          cases committed
        have starts : session.commit = start session.target session.committed session.strict := by
          rw [commit, usable, if_neg Bool.false_ne_true]
        exact ⟨session.committed, session.strict, starts.symm.trans committed⟩
      · cases refused.symm.trans opens
    | reopen =>
      obtain ⟨_, reopened⟩ | ⟨refused, _⟩ := attempted session.reopen session
      · exact ⟨session.seed, session.strict, reopened⟩
      · cases refused.symm.trans opens
  obtain ⟨record, strict, started⟩ := starts
  exact start_building isPool started

/-- A session that has failed keeps its target. -/
theorem Building.fail (building : session.Building target pool) {error : PatchError}
    (compiled : session.compile source = (.error error, later)) : later.Building target pool where
  target := by
    rw [compile_error compiled]
    exact building.target
  usable := by
    rw [compile_error compiled]
    nofun

/-- **A pass goes on from the constants of its session**, and the session from those of the pass. -/
theorem Building.pass (building : session.Building target pool)
    (compiled : session.compile source = (.ok fragment, later)) :
    pool.Grows fragment.pool ∧ later.Building target fragment.pool := by
  have usable : session.failed = false := by
    refine Bool.eq_false_iff.mpr fun failed => ?_
    rw [compile_of_failed failed] at compiled
    cases compiled
  obtain ⟨sound, before, isBefore, grown⟩ := building.usable usable
  obtain ⟨_, body, isSame, isBody, isPool, grows⟩ := sound.grows_compile compiled
  cases isBefore.symm.trans isSame
  obtain ⟨_, added, soundLater, _⟩ := compile_adds sound compiled
  refine ⟨grown.trans grows, added.target.trans building.target, fun _ => ⟨soundLater, body, isBody, ?_⟩⟩
  exact isPool ▸ .refl _

/-- An action that opens no other session and gives no fragment leaves the constants of its session. -/
theorem Building.stay (building : session.Building target pool) {action : Action}
    (givesNone : session.gives action = none) (stays : session.opensAnother action = false) :
    (session.perform action).Building target pool := by
  cases action with
  | compile source =>
    rcases compiled : session.compile source with ⟨error | fragment, later⟩
    · rw [perform, compiled]
      exact building.fail compiled
    · rw [gives, compiled] at givesNone
      cases givesNone
  | commit =>
    obtain ⟨committed, _⟩ | ⟨_, same⟩ := attempted session.commit session
    · cases committed.symm.trans stays
    · rw [perform, same]
      exact building
  | reopen =>
    obtain ⟨reopened, _⟩ | ⟨_, same⟩ := attempted session.reopen session
    · cases reopened.symm.trans stays
    · rw [perform, same]
      exact building

/-! ### Runs -/

/-- **What the constants of the fragments of a run are.** A fragment of the first session has all
constants that the run begins with, one of another session begins with those of the class, and later
fragments of one session have all constants of earlier ones. -/
theorem fragments_build (isPool : target.pool = .ok base) (building : session.Building target pool)
    (begins : pool.reserved = base.reserved) (number : Nat) (actions : List Action) :
    (∀ made ∈ session.fragments number actions, number ≤ made.1 ∧
      made.2.pool.reserved = base.reserved ∧ (made.1 = number → pool.Grows made.2.pool)) ∧
    (session.fragments number actions).Pairwise fun earlier later =>
      earlier.1 = later.1 → earlier.2.pool.Grows later.2.pool := by
  induction actions generalizing session pool number with
  | nil => exact ⟨nofun, .nil⟩
  | cons action rest ih =>
    rw [fragments]
    cases opens : session.opensAnother action with
    | true =>
      have givesNone : session.gives action = none := by
        cases action with
        | compile source => cases opens
        | commit | reopen => rfl
      obtain ⟨each, pairs⟩ := ih (building.another isPool opens) rfl (number + 1)
      rw [givesNone]
      refine ⟨fun made isMade => ?_, pairs⟩
      obtain ⟨isLater, reserved, _⟩ := each made isMade
      exact ⟨by omega, reserved, fun same => by omega⟩
    | false =>
      cases given : session.gives action with
      | none => exact ih (building.stay given opens) begins number
      | some fragment =>
        obtain ⟨source, rfl⟩ : ∃ source, action = .compile source := by
          cases action with
          | compile source => exact ⟨source, rfl⟩
          | commit | reopen => cases given
        rcases compiled : session.compile source with ⟨error | made, later⟩
        · rw [gives, compiled] at given
          cases given
        · rw [gives, compiled] at given
          obtain rfl : made = fragment := Option.some.inj given
          obtain ⟨grows, goesOn⟩ := building.pass compiled
          obtain ⟨each, pairs⟩ := ih goesOn (grows.reserved.trans begins) number
          have isLater : session.perform (.compile source) = later := by rw [perform, compiled]
          rw [isLater]
          refine ⟨List.forall_mem_cons.mpr ⟨?_, fun other isOther => ?_⟩,
            List.pairwise_cons.mpr ⟨fun other isOther same => ?_, pairs⟩⟩
          · exact ⟨Nat.le_refl _, grows.reserved.trans begins, fun _ => grows⟩
          · obtain ⟨le, reserved, further⟩ := each other isOther
            exact ⟨le, reserved, fun same => grows.trans (further same)⟩
          · exact (each other isOther).2.2 same.symm

/-- **Which fragments give an index one meaning.** All fragments of an edit number their constants
from the count of the class. Two fragments of one session never give one index two constants. Two
fragments of the edit do so exactly if neither's new constants begin with those of the other. -/
theorem fragments_agree_iff (opens : start target record strict = .ok opened)
    (actions : List Action) : ∃ entry, target.entry = .ok entry ∧
      ∀ first ∈ opened.fragments 0 actions, ∀ second ∈ opened.fragments 0 actions,
        first.2.pool.reserved = max entry.poolCount.toNat 1 ∧
        (first.1 = second.1 → Pool.Compatible first.2.newConstants second.2.newConstants) ∧
        (Pool.Compatible first.2.newConstants second.2.newConstants ↔
          first.2.newConstants <+: second.2.newConstants ∨
            second.2.newConstants <+: first.2.newConstants) := by
  obtain ⟨site, base, _, _, isPool⟩ := start_installed opens
  obtain ⟨entry, isEntry, rfl⟩ := Target.entry_of_pool isPool
  obtain ⟨each, pairs⟩ := fragments_build isPool (start_building isPool opens) rfl 0 actions
  refine ⟨entry, isEntry, fun first isFirst second isSecond => ⟨(each first isFirst).2.1, ?_, ?_⟩⟩
  · rw [Fragment.newConstants_eq, Fragment.newConstants_eq]
    refine List.Pairwise.forall_of_forall_of_flip
      (R := fun (first second : Nat × Fragment) => first.1 = second.1 →
        Pool.Compatible first.2.pool.entries second.2.pool.entries)
      (fun made _ _ => (Pool.Grows.refl _).compatible) (pairs.imp fun grows same => ?_)
      (pairs.imp fun grows same => ?_) isFirst isSecond
    · exact (grows same).compatible
    · exact (grows same.symm).compatible.symm
  · rw [Fragment.newConstants_eq, Fragment.newConstants_eq]
    exact Pool.compatible_iff ((each first isFirst).2.1.trans (each second isSecond).2.1.symm)

/-- The constants of fragments, each with the number of its session. -/
def numbered (made : List (Nat × Fragment)) : List (Nat × List (Nat × Constant)) :=
  made.map fun entry => (entry.1, entry.2.newConstants)

theorem of_numbered_cons {made : List (Nat × Fragment)} {number : Nat}
    {constants : List (Nat × Constant)} {rest : List (Nat × List (Nat × Constant))}
    (isNumbered : numbered made = (number, constants) :: rest) :
    ∃ fragment others, made = (number, fragment) :: others ∧ fragment.newConstants = constants ∧
      numbered others = rest := by
  obtain ⟨⟨_, fragment⟩, others, rfl, same, behind⟩ := List.map_eq_cons_iff.mp isNumbered
  obtain ⟨rfl, rfl⟩ := Prod.mk.inj same
  exact ⟨fragment, others, rfl, rfl, behind⟩

/-- Two passes over one constant each, a commit, and a pass over the first constant again. -/
def sharingActions : List Action :=
  [.compile "int x = 100000;", .compile "x = 200000;", .commit, .compile "x = 100000;"]

/-- The second fragment has the constant of the first, which is also that of the third. -/
theorem fragments_agree_sharing : ∃ opened first second third,
    start counterTarget ⟨1, []⟩ true = .ok opened ∧
      opened.fragments 0 sharingActions = [(0, first), (0, second), (1, third)] ∧
      second.newConstants = [(1, .integer 100000), (2, .integer 200000)] ∧
      third.newConstants = [(1, .integer 100000)] ∧
      Pool.Compatible first.newConstants second.newConstants ∧
      Pool.Compatible second.newConstants third.newConstants := by
  have opening : ∃ opened, start counterTarget ⟨1, []⟩ true = .ok opened ∧
      numbered (opened.fragments 0 sharingActions) = [(0, [(1, .integer 100000)]),
        (0, [(1, .integer 100000), (2, .integer 200000)]), (1, [(1, .integer 100000)])] :=
    opens_of_decide (by decide +kernel)
  obtain ⟨opened, opens, isNumbered⟩ := opening
  obtain ⟨_, _, agree⟩ := fragments_agree_iff opens sharingActions
  generalize made : opened.fragments 0 sharingActions = fragments at isNumbered agree
  obtain ⟨first, _, rfl, isFirst, others⟩ := of_numbered_cons isNumbered
  obtain ⟨second, _, rfl, isSecond, last⟩ := of_numbered_cons others
  obtain ⟨third, _, rfl, isThird, none⟩ := of_numbered_cons last
  obtain rfl := List.map_eq_nil_iff.mp none
  obtain ⟨_, oneSession, _⟩ := agree (0, first) (by simp) (0, second) (by simp)
  obtain ⟨_, _, exactly⟩ := agree (0, second) (by simp) (1, third) (by simp)
  refine ⟨opened, first, second, third, opens, made, isSecond, isThird, oneSession rfl,
    exactly.mpr (.inr ?_)⟩
  rw [isSecond, isThird]
  exact List.prefix_append _ [(2, Constant.integer 200000)]

/-- A pass over a constant, a commit, and a pass over another constant. -/
def renumberingActions : List Action :=
  [.compile "int x = 100000;", .commit, .compile "x = 200000;"]

/-- Behind a commit an index of the edit is given to another constant. -/
theorem commit_renumbers : ∃ opened first second,
    start counterTarget ⟨1, []⟩ true = .ok opened ∧
      opened.fragments 0 renumberingActions = [(0, first), (1, second)] ∧
      (1, .integer 100000) ∈ first.newConstants ∧ (1, .integer 200000) ∈ second.newConstants ∧
      ¬Pool.Compatible first.newConstants second.newConstants := by
  have opening : ∃ opened, start counterTarget ⟨1, []⟩ true = .ok opened ∧
      numbered (opened.fragments 0 renumberingActions) =
        [(0, [(1, .integer 100000)]), (1, [(1, .integer 200000)])] :=
    opens_of_decide (by decide +kernel)
  obtain ⟨opened, opens, isNumbered⟩ := opening
  generalize made : opened.fragments 0 renumberingActions = fragments at isNumbered
  obtain ⟨first, _, rfl, isFirst, last⟩ := of_numbered_cons isNumbered
  obtain ⟨second, _, rfl, isSecond, none⟩ := of_numbered_cons last
  obtain rfl := List.map_eq_nil_iff.mp none
  have inFirst : (1, .integer 100000) ∈ first.newConstants := isFirst ▸ List.mem_cons_self
  have inSecond : (1, .integer 200000) ∈ second.newConstants := isSecond ▸ List.mem_cons_self
  refine ⟨opened, first, second, opens, made, inFirst, inSecond, fun compatible => ?_⟩
  exact absurd (compatible 1 _ _ inFirst inSecond) (by decide)

end Session

end MethodPatch
