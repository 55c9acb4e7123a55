/-
**Growth of constant pools.**

Adding constants changes a pool at its end alone, whether it succeeds or not, and it does not go
beyond the indices of a class file. `Pool.Grows` is this relation, and `Pool.Growing` says it of an
action; every way of adding a constant is composed of `Pool.insert`, which has it.

* `Pool.get?_eq_some_iff`: halving finds the constant at an index, for the indices are in order;
* `Pool.get?_of_insert`: the index that is given for a constant is the one it is found at, however
  the pool grows.
-/

import MethodPatch.Class.Pool

namespace MethodPatch.Pool

/-- The constants have indices of a class file, as in every pool that constants are added to by
`insert`. -/
def Fits (pool : Pool) : Prop := pool.next ≤ maxCount

theorem fits_ofReserved (count : UInt16) : (ofReserved count).Fits := by
  have := count.toNat_lt
  simp only [Fits, next, ofReserved, totalSlots, total, List.foldr_nil, maxCount]
  omega

/-- Constants are appended to those that are there, as long as there is room. -/
structure Grows (before after : Pool) : Prop where
  reserved : after.reserved = before.reserved
  constants : before.constants.toList <+: after.constants.toList
  fits : before.Fits → after.Fits

theorem Grows.refl (pool : Pool) : pool.Grows pool := ⟨rfl, List.prefix_refl _, id⟩

theorem Grows.trans {first second third : Pool} (before : first.Grows second)
    (behind : second.Grows third) : first.Grows third :=
  ⟨behind.reserved.trans before.reserved, before.constants.trans behind.constants,
    behind.fits ∘ before.fits⟩

/-- A pool that grows into one that fits has fitted before. -/
theorem Grows.fits_front {before after : Pool} (grows : before.Grows after) (fits : after.Fits) :
    before.Fits := by
  obtain ⟨more, constants⟩ := grows.constants
  unfold Fits next at fits ⊢
  rw [grows.reserved, ← constants, totalSlots_append] at fits
  omega

theorem grows_push {pool : Pool} {constant : Constant}
    (room : pool.next + constant.slots ≤ maxCount) : pool.Grows (pool.push constant) :=
  ⟨rfl, by simp [push], fun _ => by rwa [Fits, next_push]⟩

/-- An action that appends constants and does nothing else to the pool. -/
def Growing {α : Type} (add : Adding α) : Prop := ∀ pool : Pool, pool.Grows (add.run.run pool).2

theorem growing_insert (constant : Constant) : Growing (insert constant) := by
  intro pool
  show pool.Grows (insert constant pool).2
  unfold insert
  split
  · exact .refl pool
  · split
    · exact .refl pool
    · split
      · exact .refl pool
      · next room => exact grows_push (Nat.le_of_not_lt room)

theorem Growing.bind {α β : Type} {add : Adding α} {next : α → Adding β} (first : Growing add)
    (second : ∀ answer, Growing (next answer)) : Growing (add >>= next) := by
  intro pool
  have grown := first pool
  show pool.Grows (StateT.bind add.run (ExceptT.bindCont next) pool).2
  simp only [StateT.bind]
  show pool.Grows (match add.run pool with
    | (answer, middle) => ExceptT.bindCont next answer middle).2
  revert grown
  show pool.Grows (add.run pool).2 → _
  rcases add.run pool with ⟨error | answer, middle⟩
  · exact fun grown => grown
  · exact fun grown => grown.trans (second answer middle)

theorem growing_addClass (name : String) : Growing (addClass name) :=
  (growing_insert _).bind fun _ => growing_insert _

theorem growing_addString (text : String) : Growing (addString text) :=
  (growing_insert _).bind fun _ => growing_insert _

theorem growing_addNameAndType (name descriptor : String) :
    Growing (addNameAndType name descriptor) :=
  (growing_insert _).bind fun _ => (growing_insert _).bind fun _ => growing_insert _

theorem growing_addMember (member : PoolIndex → PoolIndex → Constant)
    (owner name descriptor : String) : Growing (addMember member owner name descriptor) :=
  (growing_addClass owner).bind fun _ =>
    (growing_addNameAndType name descriptor).bind fun _ => growing_insert _

/-! ### Looking up what was added -/

theorem le_of_mem_layout {base index : Nat} {constant : Constant} {constants : List Constant}
    (isEntry : (index, constant) ∈ layout base constants) :
    base ≤ index ∧ index < base + totalSlots constants := by
  induction constants generalizing base with
  | nil => cases isEntry
  | cons first rest ih =>
    have := first.slots_pos
    simp only [totalSlots, total_cons]
    rcases List.mem_cons.mp isEntry with same | inRest
    · cases same
      omega
    · have := ih inRest
      simp only [totalSlots] at this
      omega

/-- All constants have indices behind the reserved ones. -/
theorem entriesFrom_reserved (pool : Pool) : pool.entriesFrom pool.reserved = pool.entries := by
  refine List.filter_eq_self.mpr ?_
  rintro ⟨index, constant⟩ isEntry
  exact decide_eq_true (le_of_mem_layout isEntry).1

/-- Constants are in the order of their indices, which all differ. -/
theorem sorted_layout (base : Nat) (constants : List Constant) :
    (layout base constants).Pairwise fun entry later => entry.1 < later.1 := by
  induction constants generalizing base with
  | nil => exact .nil
  | cons first rest ih =>
    refine List.pairwise_cons.mpr ⟨fun entry isRest => ?_, ih _⟩
    exact Nat.lt_of_lt_of_le (Nat.lt_add_of_pos_right first.slots_pos) (le_of_mem_layout isRest).1

/-- Entries in order are those below an entry, the entry, and those above it. -/
structure Halved (entries below : List (Nat × Constant)) (middle : Nat × Constant)
    (above : List (Nat × Constant)) : Prop where
  mem_iff : ∀ entry, entry ∈ entries ↔ entry ∈ below ∨ entry = middle ∨ entry ∈ above
  smaller : ∀ entry ∈ below, entry.1 < middle.1
  larger : ∀ entry ∈ above, middle.1 < entry.1
  sortedBelow : below.Pairwise fun entry later => entry.1 < later.1
  sortedAbove : above.Pairwise fun entry later => entry.1 < later.1

theorem halved_of_sorted {entries above : List (Nat × Constant)} {middle : Nat × Constant} {half : Nat}
    (sorted : entries.Pairwise fun entry later => entry.1 < later.1)
    (upper : entries.drop half = middle :: above) :
    Halved entries (entries.take half) middle above := by
  have halves : entries = entries.take half ++ middle :: above := by
    rw [← upper, List.take_append_drop]
  have inOrder := sorted
  rw [halves] at inOrder
  obtain ⟨sortedBelow, sortedUpper, apart⟩ := List.pairwise_append.mp inOrder
  obtain ⟨larger, sortedAbove⟩ := List.pairwise_cons.mp sortedUpper
  refine ⟨fun entry => ?_, fun entry isBelow => ?_, larger, sortedBelow, sortedAbove⟩
  · calc entry ∈ entries
      _ ↔ entry ∈ entries.take half ++ middle :: above := by rw [← halves]
      _ ↔ _ := by rw [List.mem_append, List.mem_cons]
  · exact apart entry isBelow middle List.mem_cons_self

/-- Halving finds what is there, since the indices are in order. -/
theorem search_eq_some_iff {index : Nat} {constant : Constant} {entries : List (Nat × Constant)}
    (sorted : entries.Pairwise fun entry later => entry.1 < later.1) :
    search index entries = some constant ↔ (index, constant) ∈ entries := by
  fun_induction search index entries with
  | case1 entries noUpper =>
    have few : entries.length ≤ entries.length / 2 := List.drop_eq_nil_iff.mp noUpper
    have isEmpty : entries = [] := List.length_eq_zero_iff.mp (by omega)
    simp [isEmpty]
  | case2 entries found above upper =>
    have halved := halved_of_sorted sorted upper
    rw [halved.mem_iff, Option.some_inj]
    constructor
    · rintro rfl
      exact .inr (.inl rfl)
    · rintro (isBelow | same | isAbove)
      · exact absurd (halved.smaller _ isBelow) (Nat.lt_irrefl _)
      · exact (congrArg Prod.snd same).symm
      · exact absurd (halved.larger _ isAbove) (Nat.lt_irrefl _)
  | case3 entries middle found above upper other less ih =>
    have halved := halved_of_sorted sorted upper
    rw [halved.mem_iff, ih halved.sortedBelow]
    refine ⟨.inl, ?_⟩
    rintro (isBelow | same | isAbove)
    · exact isBelow
    · exact absurd (congrArg Prod.fst same) other
    · exact absurd (halved.larger _ isAbove) (Nat.lt_asymm less)
  | case4 entries middle found above upper other notLess ih =>
    have halved := halved_of_sorted sorted upper
    rw [halved.mem_iff, ih halved.sortedAbove]
    refine ⟨fun isAbove => .inr (.inr isAbove), ?_⟩
    rintro (isBelow | same | isAbove)
    · exact absurd (halved.smaller _ isBelow) notLess
    · exact absurd (congrArg Prod.fst same) other
    · exact isAbove

/-- An index has the constant that was appended with it, and no other index has one. -/
theorem get?_eq_some_iff {pool : Pool} {index : Nat} {constant : Constant} :
    pool.get? index = some constant ↔ (index, constant) ∈ pool.entries :=
  search_eq_some_iff (sorted_layout ..)

theorem get?_of_grows {before after : Pool} {index : Nat} {constant : Constant}
    (isEntry : (index, constant) ∈ before.entries) (grows : before.Grows after) :
    after.get? index = some constant := by
  obtain ⟨more, constants⟩ := grows.constants
  have there : (index, constant) ∈ after.entries := by
    rw [entries, grows.reserved, ← constants, layout_append]
    exact List.mem_append_left _ isEntry
  exact get?_eq_some_iff.mpr there

/-- A constant keeps its index when a pool grows. -/
theorem Grows.get? {before after : Pool} {index : Nat} {constant : Constant}
    (grows : before.Grows after) (found : before.get? index = some constant) :
    after.get? index = some constant :=
  get?_of_grows (get?_eq_some_iff.mp found) grows

theorem index_lt_of_fits {pool : Pool} {index : Nat} {constant : Constant} (fits : pool.Fits)
    (isEntry : (index, constant) ∈ pool.entries) : (UInt16.ofNat index).toNat = index := by
  have := (le_of_mem_layout isEntry).2
  unfold Fits next maxCount at fits
  rw [UInt16.toNat_ofNat']
  omega

theorem mem_of_indexOf? {pool : Pool} {index : Nat} {constant : Constant}
    (known : pool.indexOf? constant = some index) : (index, constant) ∈ pool.entries := by
  obtain ⟨entry, found, rfl⟩ := Option.map_eq_some_iff.mp known
  have same : entry.2 = constant := by simpa using List.find?_some found
  rw [← same]
  exact List.mem_of_find?_eq_some found

/-- The index that is given for a constant is the one that it is found at. -/
theorem get?_of_insert {before after final : Pool} {index : PoolIndex} {constant : Constant}
    (inserted : insert constant before = (.ok index, after)) (fits : before.Fits)
    (grows : after.Grows final) : final.get? index.toNat = some constant := by
  unfold insert at inserted
  split at inserted
  · next index known =>
    cases inserted
    have isEntry := mem_of_indexOf? known
    rw [index_lt_of_fits fits isEntry]
    exact get?_of_grows isEntry grows
  · split at inserted
    · cases inserted
    · split at inserted
      · cases inserted
      · next room =>
        cases inserted
        have isEntry : (before.next, constant) ∈ (before.push constant).entries := by
          rw [entries_push]
          exact List.mem_append_right _ (List.mem_singleton.mpr rfl)
        rw [index_lt_of_fits ((grows_push (Nat.le_of_not_lt room)).fits fits) isEntry]
        exact get?_of_grows isEntry grows

end MethodPatch.Pool
