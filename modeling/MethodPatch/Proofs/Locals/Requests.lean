/-
**When an allocator gives no slot out twice.**

An allocator is asked for locals, is told of others, and goes back to marks that were taken of it
before, in any order. Going back sets the first free slot to that of the mark, whatever stays known.

* `Book`: an allocator with the marks that were taken of it, and what it is asked for;
* `Covers`: every known local is in front of the first free slot;
* `Book.covers_iff`: **only going back can leave a local behind the first free slot**, and exactly
  where a local stays that ends behind the mark. Where only locals that were allocated since the mark
  are known besides, going back leaves what there was.
-/

import Mathlib.Data.List.Infix
import MethodPatch.Proofs.Locals.Seeded

namespace MethodPatch

namespace Allocator

variable {before middle after allocator : Allocator} {name : String} {type : FieldType}
  {entry : Local}

/-! ### The first free slot -/

/-- Every local that is found by its name ends in front of the first free slot. -/
def Covers (allocator : Allocator) : Prop :=
  ∀ name entry, allocator.find? name = some entry → entry.finish ≤ allocator.next

/-- A local that is given out shares no slot with one that is known. -/
def GivesApart (allocator : Allocator) : Prop :=
  ∀ name type entry later, allocator.allocate name type = .ok (entry, later) →
    ∀ other known, allocator.find? other = some known → entry.overlaps known = false

theorem Covers.startingAt (next : Nat) : (startingAt next).Covers := by
  rintro name entry ⟨⟩

theorem Covers.givesApart (covers : allocator.Covers) : allocator.GivesApart := by
  intro name type entry later allocated other known found
  have extended := (Extends.allocate allocated).2.2.2
  rw [Local.overlaps_comm]
  refine Local.overlaps_of_finish_le ?_
  rw [extended.laid.1]
  exact covers other known found

theorem Covers.allocate (covers : before.Covers)
    (allocated : before.allocate name type = .ok (entry, after)) : after.Covers := by
  have extended := (Extends.allocate allocated).2.2.2
  intro other known found
  rw [find?_allocate allocated] at found
  split at found
  · obtain rfl := Option.some.inj found
    rw [extended.next]
    exact (extended.laid.bounds (List.mem_singleton_self _)).2
  · exact Nat.le_trans (covers other known found) extended.le_next

theorem Covers.register (covers : before.Covers) (registered : before.register entry = .ok after) :
    after.Covers := by
  have seeds := Seeds.register registered
  intro other known found
  rw [find?_register registered] at found
  split at found
  · obtain rfl := Option.some.inj found
    exact seeds.finish_le (List.mem_singleton_self _)
  · exact (seeds.le_next_iff _).mpr (.inl (covers other known found))

/-! ### Going back -/

/-- The names that are given back when an allocator goes back to a mark. -/
def givenBack (allocator : Allocator) (mark : Mark) : List String :=
  allocator.allocated.drop mark.allocated

/-- What stays known when an allocator goes back to a mark ends in front of the mark, unless there is
nothing to give back. -/
def Frees (allocator : Allocator) (mark : Mark) : Prop :=
  allocator.givenBack mark ≠ [] →
    ∀ name entry, name ∉ allocator.givenBack mark → allocator.find? name = some entry →
      entry.finish ≤ mark.next

theorem rollback_of_givenBack {mark : Mark} (givesBack : allocator.givenBack mark ≠ []) :
    (allocator.rollback mark).next = mark.next ∧
      ∀ name, (allocator.rollback mark).find? name =
        if name ∈ allocator.givenBack mark then none else allocator.find? name := by
  unfold givenBack at givesBack ⊢
  have more : ¬ allocator.allocated.length ≤ mark.allocated := by
    rwa [Ne, List.drop_eq_nil_iff] at givesBack
  rw [rollback, if_neg more]
  refine ⟨rfl, fun name => ?_⟩
  unfold find?
  dsimp only
  rw [List.find?_filter]
  split
  · next isGivenBack =>
    refine List.find?_eq_none.mpr fun entry _ => ?_
    simp only [decide_eq_true_eq, not_and]
    rintro stays rfl
    exact stays isGivenBack
  · next stays =>
    refine congrArg (List.find? · _) (funext fun entry => ?_)
    by_cases same : entry.name = name
    · simp [same, stays]
    · simp [same]

theorem rollback_of_givenBack_eq_nil {mark : Mark} (givesBack : allocator.givenBack mark = []) :
    allocator.rollback mark = allocator := by
  rw [givenBack, List.drop_eq_nil_iff] at givesBack
  rw [rollback, if_pos givesBack]

/-- **Exactly when an allocator can go back.** -/
theorem Covers.rollback_iff (covers : allocator.Covers) (mark : Mark) :
    (allocator.rollback mark).Covers ↔ allocator.Frees mark := by
  by_cases givesBack : allocator.givenBack mark = []
  · rw [rollback_of_givenBack_eq_nil givesBack]
    exact iff_of_true covers fun some => absurd givesBack some
  · obtain ⟨next, find⟩ := rollback_of_givenBack givesBack
    unfold Covers
    rw [next]
    constructor
    · intro covered _ name entry stays found
      exact covered name entry (by rw [find, if_neg stays, found])
    · intro frees name entry found
      rw [find] at found
      split at found
      · cases found
      · next stays => exact frees givesBack name entry stays found

/-- No slot is given out twice: known locals are in front of the first free slot, and a local that is
given out shares no slot with them. -/
structure Safe (allocator : Allocator) : Prop where
  covers : allocator.Covers
  givesApart : allocator.GivesApart

theorem Covers.safe (covers : allocator.Covers) : allocator.Safe := ⟨covers, covers.givesApart⟩

end Allocator

/-! ### Requests in order -/

/-- What an allocator is asked for. A mark to go back to is given by its number. -/
inductive Request where
  | allocate (name : String) (type : FieldType)
  | register (entry : Local)
  | mark
  | rollback (number : Nat)
  deriving DecidableEq

/-- An allocator and the marks that were taken of it, in order. -/
structure Book where
  allocator : Allocator
  marks : List Mark

namespace Book

variable {book : Book} {request : Request} {requests : List Request}

/-- The book of an allocator without locals. -/
def startingAt (next : Nat) : Book := ⟨.startingAt next, []⟩

/-- The book behind a request. One that is refused changes nothing. -/
def serve (book : Book) : Request → Book
  | .allocate name type =>
    match book.allocator.allocate name type with
    | .ok (_, allocator) => { book with allocator }
    | .error _ => book
  | .register entry =>
    match book.allocator.register entry with
    | .ok allocator => { book with allocator }
    | .error _ => book
  | .mark => { book with marks := book.marks ++ [book.allocator.mark] }
  | .rollback number =>
    match book.marks[number]? with
    | some mark => { book with allocator := book.allocator.rollback mark }
    | none => book

/-- The book behind requests in order. -/
def after (book : Book) (requests : List Request) : Book := requests.foldl serve book

/-- What stays known when the allocator goes back to one of its marks ends in front of that mark. -/
def Frees (book : Book) (number : Nat) : Prop :=
  ∀ mark, book.marks[number]? = some mark → book.allocator.Frees mark

/-- **One request keeps the known locals in front of the first free slot**, unless it goes back to a
mark behind which another one ends. -/
theorem covers_serve_iff (covers : book.allocator.Covers) (request : Request) :
    (book.serve request).allocator.Covers ↔
      ∀ number, request = .rollback number → book.Frees number := by
  cases request with
  | allocate name type =>
    refine iff_of_true ?_ nofun
    unfold serve
    dsimp only
    split
    · next allocated => exact covers.allocate allocated
    · exact covers
  | register entry =>
    refine iff_of_true ?_ nofun
    unfold serve
    dsimp only
    split
    · next registered => exact covers.register registered
    · exact covers
  | mark => exact iff_of_true covers nofun
  | rollback number =>
    simp only [Request.rollback.injEq, forall_eq', serve, Frees]
    split
    · next mark found =>
      rw [covers.rollback_iff]
      exact ⟨fun frees other same => Option.some.inj (found.symm.trans same) ▸ frees,
        fun frees => frees mark found⟩
    · next notTaken =>
      refine iff_of_true covers fun mark found => ?_
      rw [notTaken] at found
      cases found

theorem after_concat (book : Book) (done : List Request) (request : Request) :
    book.after (done ++ [request]) = (book.after done).serve request := by
  rw [after, List.foldl_append]
  rfl

/-- **Requests in order** keep the known locals in front of the first free slot exactly when each one
that goes back finds all that stays in front of its mark. -/
theorem covers_iff (covers : book.allocator.Covers) (requests : List Request) :
    (∀ done, done <+: requests → (book.after done).allocator.Covers) ↔
      ∀ done number, done ++ [.rollback number] <+: requests → (book.after done).Frees number := by
  constructor
  · intro covered done number isPrefix
    have isDone := covered done ((List.prefix_append done _).trans isPrefix)
    have isBehind := covered _ isPrefix
    rw [after_concat, covers_serve_iff isDone] at isBehind
    exact isBehind number rfl
  · intro frees done
    induction done using List.reverseRecOn with
    | nil => exact fun _ => covers
    | append_singleton done request ih =>
      intro isPrefix
      rw [after_concat, covers_serve_iff (ih ((List.prefix_append done _).trans isPrefix))]
      rintro number rfl
      exact frees done number isPrefix

/-! ### Marks that stand -/

/-- Whether requests go back only to marks that stand: to one of those that were taken, with what was
taken behind it given up, and to none from in front of a local that was registered. -/
def keepsOrder (standing : List Nat) (taken : Nat) : List Request → Bool
  | [] => true
  | .allocate _ _ :: rest => keepsOrder standing taken rest
  | .register _ :: rest => keepsOrder [] taken rest
  | .mark :: rest => keepsOrder (taken :: standing) (taken + 1) rest
  | .rollback number :: rest =>
    decide (number ∈ standing) && keepsOrder (standing.dropWhile (· ≠ number)) taken rest

/-- Locals were allocated, and nothing else has changed. -/
def Grown (later earlier : Allocator) : Prop := ∃ fresh, earlier.Extends fresh later

/-- The marks that stand, the latest first, with the states in which they were taken: each state has
grown out of those behind it. -/
structure Stands (book : Book) (standing : List (Nat × Allocator)) : Prop where
  taken : ∀ number state, (number, state) ∈ standing → book.marks[number]? = some state.mark
  grown : (book.allocator :: standing.map Prod.snd).Pairwise Grown
  covers : ∀ state ∈ book.allocator :: standing.map Prod.snd, state.Covers

namespace Stands

variable {standing : List (Nat × Allocator)}

/-- Allocating another local lets every mark stand. -/
theorem allocate {name : String} {type : FieldType} {entry : Local} {later : Allocator}
    (stands : book.Stands standing)
    (allocated : book.allocator.allocate name type = .ok (entry, later)) :
    Stands { book with allocator := later } standing where
  taken := stands.taken
  grown := by
    obtain ⟨here, behind⟩ := List.pairwise_cons.mp stands.grown
    refine .cons (fun state isMarked => ?_) behind
    obtain ⟨fresh, extended⟩ := here state isMarked
    exact ⟨fresh ++ [entry], extended.trans (Allocator.Extends.allocate allocated).2.2.2⟩
  covers := by
    obtain ⟨here, behind⟩ := List.forall_mem_cons.mp stands.covers
    exact List.forall_mem_cons.mpr ⟨here.allocate allocated, behind⟩

/-- A new mark stands. -/
theorem mark (stands : book.Stands standing) :
    (book.serve .mark).Stands ((book.marks.length, book.allocator) :: standing) where
  taken := by
    intro number state isMarked
    show (book.marks ++ [book.allocator.mark])[number]? = some state.mark
    rcases List.mem_cons.mp isMarked with isNew | isOld
    · cases isNew
      exact List.getElem?_concat_length ..
    · have found := stands.taken number state isOld
      rw [List.getElem?_append_left (List.getElem?_eq_some_iff.mp found).1, found]
  grown := by
    obtain ⟨here, _⟩ := List.pairwise_cons.mp stands.grown
    refine .cons (fun state isMarked => ?_) stands.grown
    rcases List.mem_cons.mp isMarked with rfl | isOld
    · exact ⟨[], .refl _⟩
    · exact here state isOld
  covers := by
    obtain ⟨here, _⟩ := List.forall_mem_cons.mp stands.covers
    exact List.forall_mem_cons.mpr ⟨here, stands.covers⟩

/-- **Going back to a mark that stands leaves what there was**, and the marks in front of it stand. -/
theorem rollback {number : Nat} {state : Allocator} {front back : List (Nat × Allocator)}
    (stands : book.Stands (front ++ (number, state) :: back)) :
    (book.serve (.rollback number)).allocator = state ∧
      (book.serve (.rollback number)).Stands ((number, state) :: back) := by
  obtain ⟨taken, grown, covers⟩ := stands
  rw [List.map_append, List.map_cons] at grown covers
  obtain ⟨here, behind⟩ := List.pairwise_cons.mp grown
  obtain ⟨fresh, extended⟩ := here state (List.mem_append_right _ List.mem_cons_self)
  have restored : book.serve (.rollback number) = { book with allocator := state } := by
    have found := taken number state (List.mem_append_right _ List.mem_cons_self)
    simp only [Book.serve, found, extended.rollback]
  have inFront : (state :: back.map Prod.snd).Pairwise Grown :=
    behind.sublist (List.sublist_append_right _ _)
  rw [restored]
  refine ⟨rfl, fun other earlier isMarked => taken other earlier (List.mem_append_right _ isMarked),
    .cons (fun earlier isMarked => ?_) inFront, fun earlier isMarked => covers earlier ?_⟩
  · rcases List.mem_cons.mp isMarked with rfl | isOlder
    · exact ⟨[], .refl _⟩
    · exact (List.pairwise_cons.mp inFront).1 earlier isOlder
  · refine List.mem_cons_of_mem _ (List.mem_append_right _ ?_)
    rcases List.mem_cons.mp isMarked with rfl | isOlder
    · exact List.mem_cons_self
    · exact isOlder

/-- A mark that stands has a state, and those in front of it are the ones that are not given up. -/
theorem exists_state {number : Nat} (isStanding : number ∈ standing.map Prod.fst) :
    ∃ front state back, standing = front ++ (number, state) :: back ∧
      (standing.map Prod.fst).dropWhile (· ≠ number) = number :: back.map Prod.fst := by
  induction standing with
  | nil => cases isStanding
  | cons first rest ih =>
    obtain ⟨found, state⟩ := first
    by_cases same : found = number
    · subst same
      exact ⟨[], state, rest, rfl, by simp⟩
    · have isBehind := (List.mem_cons.mp isStanding).resolve_left (Ne.symm same)
      obtain ⟨front, other, back, rfl, dropped⟩ := ih isBehind
      refine ⟨(found, state) :: front, other, back, rfl, ?_⟩
      rw [List.map_cons, List.dropWhile_cons_of_pos (by simpa using same), dropped]

/-- Behind a request that keeps the order the marks stand that go on. -/
theorem serve (stands : book.Stands standing)
    (keeps : keepsOrder (standing.map Prod.fst) book.marks.length (request :: requests) = true) :
    ∃ later, (book.serve request).Stands later ∧
      keepsOrder (later.map Prod.fst) (book.serve request).marks.length requests = true := by
  cases request with
  | allocate name type =>
    unfold Book.serve
    dsimp only
    split
    · next allocated => exact ⟨standing, stands.allocate allocated, keeps⟩
    · exact ⟨standing, stands, keeps⟩
  | register entry =>
    have covers := stands.covers book.allocator List.mem_cons_self
    have noMarks : (book.serve (.register entry)).Stands [] := by
      refine ⟨nofun, List.pairwise_singleton _ _, fun state isHere => ?_⟩
      obtain rfl := List.mem_singleton.mp isHere
      exact (covers_serve_iff covers _).mpr nofun
    refine ⟨[], noMarks, ?_⟩
    unfold Book.serve
    dsimp only
    split <;> exact keeps
  | mark =>
    refine ⟨_, stands.mark, ?_⟩
    show keepsOrder _ (book.marks ++ [_]).length requests = true
    rw [List.length_append]
    exact keeps
  | rollback number =>
    obtain ⟨isStanding, keeps⟩ := Bool.and_eq_true_iff.mp keeps
    obtain ⟨front, state, back, rfl, dropped⟩ := exists_state (of_decide_eq_true isStanding)
    rw [dropped] at keeps
    refine ⟨_, stands.rollback.2, ?_⟩
    unfold Book.serve
    dsimp only
    split <;> exact keeps

/-- Requests that keep the order leave the known locals in front of the first free slot. -/
theorem covers_after (stands : book.Stands standing)
    (keeps : keepsOrder (standing.map Prod.fst) book.marks.length requests = true) :
    ∀ done, done <+: requests → (book.after done).allocator.Covers := by
  induction requests generalizing book standing with
  | nil =>
    intro done isPrefix
    obtain rfl := List.prefix_nil.mp isPrefix
    exact stands.covers book.allocator List.mem_cons_self
  | cons request rest ih =>
    obtain ⟨later, standsLater, keepsLater⟩ := stands.serve keeps
    intro done isPrefix
    rcases List.prefix_cons_iff.mp isPrefix with rfl | ⟨behind, rfl, isBehind⟩
    · exact stands.covers book.allocator List.mem_cons_self
    · exact ih standsLater keepsLater behind isBehind

end Stands

/-- **When an allocator is safe.** Over any requests to an allocator without locals, no slot is ever
given out twice if and only if each request that goes back finds all that stays known in front of its
mark. Requests that go back only to marks that stand do. -/
theorem safe_iff (next : Nat) (requests : List Request) :
    ((∀ done, done <+: requests → ((startingAt next).after done).allocator.Safe) ↔
      ∀ done number, done ++ [.rollback number] <+: requests →
        ((startingAt next).after done).Frees number) ∧
    (keepsOrder [] 0 requests = true →
      ∀ done, done <+: requests → ((startingAt next).after done).allocator.Safe) := by
  have covers : (startingAt next).allocator.Covers := .startingAt next
  constructor
  · rw [← covers_iff covers requests]
    exact forall₂_congr fun done _ => ⟨Allocator.Safe.covers, Allocator.Covers.safe⟩
  · intro keeps done isPrefix
    have stands : (startingAt next).Stands [] := by
      refine ⟨nofun, List.pairwise_singleton _ _, fun state isHere => ?_⟩
      obtain rfl := List.mem_singleton.mp isHere
      exact covers
    exact (stands.covers_after keeps done isPrefix).safe

/-- Statements with a statement in them that fails, behind a local that the method has: the slot of
`d` is given back and given out again. -/
def nestedRequests : List Request :=
  [.register ⟨"this", 0, .int⟩, .mark, .allocate "a" .long, .mark, .allocate "d" .double, .rollback 1,
    .allocate "e" .int]

/-- Going back to marks that stand is safe. -/
theorem safe_iff_nested :
    ((startingAt 0).after nestedRequests).allocator.find? "e" = some ⟨"e", 3, .int⟩ ∧
      ((startingAt 0).after nestedRequests).allocator.Safe ∧
      ((startingAt 0).after (nestedRequests.take 5)).Frees 1 := by
  have safe := (safe_iff 0 nestedRequests).2 (by decide)
  have frees := (safe_iff 0 nestedRequests).1.mp safe
  exact ⟨by decide, safe nestedRequests (List.prefix_refl _), frees (nestedRequests.take 5) 1 (by decide)⟩

/-- Requests that go back to a mark in front of a local that was registered. -/
def behindRegistered : List Request :=
  [.mark, .allocate "a" .int, .register ⟨"b", 1, .int⟩, .rollback 0]

/-- Requests that go back to a mark behind one that they have gone back to before. -/
def behindGivenUp : List Request :=
  [.mark, .allocate "a" .int, .mark, .rollback 0, .allocate "d" .double, .allocate "e" .int,
    .rollback 1]

/-- **Going back to any mark is not safe.** A local that was registered, or that was
allocated where the mark was given up, stays known behind the first free slot, and its slot is given
out again. -/
theorem rollback_unsafe :
    (∃ entry later, let allocator := ((startingAt 0).after behindRegistered).allocator
      allocator.find? "b" = some ⟨"b", 1, .int⟩ ∧ allocator.next = 0 ∧
        allocator.allocate "c" .long = .ok (entry, later) ∧
        entry.overlaps ⟨"b", 1, .int⟩ = true ∧ ¬ allocator.Safe) ∧
    ∃ entry later, let allocator := ((startingAt 0).after behindGivenUp).allocator
      allocator.find? "d" = some ⟨"d", 0, .double⟩ ∧ allocator.next = 1 ∧
        allocator.allocate "f" .int = .ok (entry, later) ∧
        entry.overlaps ⟨"d", 0, .double⟩ = true ∧ ¬ allocator.Safe := by
  constructor
  · refine ⟨⟨"c", 0, .long⟩, _, by decide, by decide, rfl, by decide, fun safe => ?_⟩
    exact absurd (safe.covers "b" ⟨"b", 1, .int⟩ (by decide)) (by decide)
  · refine ⟨⟨"f", 1, .int⟩, _, by decide, by decide, rfl, by decide, fun safe => ?_⟩
    exact absurd (safe.covers "d" ⟨"d", 0, .double⟩ (by decide)) (by decide)

end Book

end MethodPatch
