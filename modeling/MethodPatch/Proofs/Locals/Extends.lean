/-
**What allocation adds.**

New locals stand one behind the other from the first free slot on, and everything that was known
stays as it was. `Allocator.Extends` says this of two states of an allocator, over any number of
allocations.

* `Extends.allocate`, `Extends.trans`: one allocation, and allocations behind others;
* `Extends.find?_of_known`, `Extends.find?_of_fresh`: which locals are known afterwards;
* `Extends.rollback`: what was added since a mark is given back without a trace;
* `Extends.bounded`, `Extends.apart`: below the first free slot no slot is given out again.
-/

import Mathlib.Data.List.Pairwise
import MethodPatch.Locals.Allocator
import MethodPatch.Patch.Pass
import MethodPatch.Total

namespace MethodPatch

/-! ### Locals in a row -/

/-- Locals stand one behind the other from a slot on. -/
def LaidFrom (start : Nat) : List Local → Prop
  | [] => True
  | first :: rest => first.slot.toNat = start ∧ LaidFrom (start + first.width) rest

theorem Local.overlaps_of_finish_le {first second : Local}
    (behind : first.finish ≤ second.slot.toNat) : first.overlaps second = false := by
  simp only [overlaps, decide_eq_false_iff_not, not_and]
  omega

namespace LaidFrom

variable {start : Nat} {entries : List Local}

theorem append {first second : List Local} (here : LaidFrom start first)
    (behind : LaidFrom (start + total Local.width first) second) :
    LaidFrom start (first ++ second) := by
  induction first generalizing start with
  | nil => exact behind
  | cons entry rest ih =>
    obtain ⟨slot, laid⟩ := here
    rw [total_cons, ← Nat.add_assoc] at behind
    exact ⟨slot, ih laid behind⟩

theorem bounds (laid : LaidFrom start entries) {entry : Local} (isIn : entry ∈ entries) :
    start ≤ entry.slot.toNat ∧ entry.finish ≤ start + total Local.width entries := by
  induction entries generalizing start with
  | nil => cases isIn
  | cons first rest ih =>
    obtain ⟨slot, laid⟩ := laid
    rw [total_cons]
    rcases List.mem_cons.mp isIn with rfl | isIn
    · rw [Local.finish, slot]
      omega
    · have := ih laid isIn
      omega

theorem pairwise (laid : LaidFrom start entries) :
    entries.Pairwise fun first second => first.finish ≤ second.slot.toNat := by
  induction entries generalizing start with
  | nil => exact .nil
  | cons first rest ih =>
    obtain ⟨slot, laid⟩ := laid
    refine .cons (fun entry isIn => ?_) (ih laid)
    rw [Local.finish, slot]
    exact (laid.bounds isIn).1

/-- Locals in a row do not share a slot. -/
theorem apart (laid : LaidFrom start entries) {first second : Local} (isFirst : first ∈ entries)
    (isSecond : second ∈ entries) (different : first ≠ second) : first.overlaps second = false := by
  have symmetric : Std.Symm fun first second : Local => first.overlaps second = false :=
    ⟨fun first second apart => (Local.overlaps_comm second first).trans apart⟩
  exact (laid.pairwise.imp Local.overlaps_of_finish_le).forall isFirst isSecond different

/-- Locals in a row fill their slots: what shares none of them ends in front or begins behind. -/
theorem apart_iff (laid : LaidFrom start entries) (other : Local) :
    (∀ entry ∈ entries, entry.overlaps other = false) ↔
      entries = [] ∨ other.finish ≤ start ∨ start + total Local.width entries ≤ other.slot.toNat := by
  have widthPos := other.type.width_pos
  induction entries generalizing start with
  | nil => simp
  | cons first rest ih =>
    obtain ⟨slot, laid⟩ := laid
    have here : first.overlaps other = false ↔
        other.finish ≤ start ∨ start + first.width ≤ other.slot.toNat := by
      simp only [Local.overlaps, decide_eq_false_iff_not, Local.finish, slot]
      omega
    rw [List.forall_mem_cons, total_cons, ← Nat.add_assoc]
    refine (and_congr here (ih laid)).trans ?_
    simp only [reduceCtorEq, false_or]
    -- A local that begins behind the first and in front of the others would have to be empty.
    have notBetween : other.slot.toNat < other.finish := Nat.lt_add_of_pos_right widthPos
    cases rest with
    | nil => simp
    | cons second others =>
      simp only [reduceCtorEq, false_or]
      omega

theorem slots_pairwise (laid : LaidFrom start entries) :
    (entries.map Local.slot).Pairwise (· < ·) := by
  refine List.pairwise_map.mpr (laid.pairwise.imp fun {first second} behind => ?_)
  have := first.type.width_pos
  rw [UInt16.lt_iff_toNat_lt]
  simp only [Local.finish, Local.width] at behind
  omega

/-- Locals in a row are in the order of their slots. -/
theorem snapshot_eq (laid : LaidFrom start entries) : Local.snapshot entries = entries := by
  refine List.mergeSort_of_pairwise ?_
  have ordered := List.pairwise_map.mp laid.slots_pairwise
  exact ordered.imp fun below => decide_eq_true (UInt16.le_of_lt below)

end LaidFrom

/-- Among locals of different names each is the one of its name. -/
theorem Local.find?_of_nodup {entries : List Local} {entry : Local}
    (distinct : (entries.map name).Nodup) (isIn : entry ∈ entries) :
    (entries.find? fun other => other.name = entry.name) = some entry := by
  induction entries with
  | nil => cases isIn
  | cons first rest ih =>
    obtain ⟨other, distinct⟩ := List.nodup_cons.mp distinct
    rcases List.mem_cons.mp isIn with rfl | isIn
    · simp
    · have different : first.name ≠ entry.name := by
        intro same
        exact other (same ▸ List.mem_map_of_mem isIn)
      rw [List.find?_cons_of_neg (by simpa using different)]
      exact ih distinct isIn

namespace Allocator

variable {allocator before middle after : Allocator} {fresh more : List Local} {name : String}
  {entry : Local}

/-! ### Known locals -/

theorem find?_eq_none_iff :
    allocator.find? name = none ↔ ∀ entry ∈ allocator.known, entry.name ≠ name := by
  simp [find?]

theorem name_of_find? (found : allocator.find? name = some entry) : entry.name = name := by
  simpa using List.find?_some found

theorem put_of_unknown (unknown : allocator.find? entry.name = none) :
    put entry allocator.known = allocator.known ++ [entry] := by
  rw [find?_eq_none_iff] at unknown
  generalize allocator.known = known at unknown
  induction known with
  | nil => rfl
  | cons first rest ih =>
    have other := unknown first List.mem_cons_self
    rw [put, if_neg other, ih fun entry isIn => unknown entry (List.mem_cons_of_mem _ isIn)]
    rfl

/-! ### The number of slots in use -/

/-- The first free slot is within a method, or right behind its last slot. -/
def Fits (allocator : Allocator) : Prop := allocator.next ≤ slotLimit

theorem Fits.startingAt (next : UInt16) : (startingAt next.toNat).Fits :=
  Nat.le_of_lt_succ next.toNat_lt

theorem Fits.toNat_count (fits : allocator.Fits) : allocator.count.toNat = allocator.next :=
  UInt16.toNat_ofNat_of_lt' (Nat.lt_succ_of_le fits)

/-! ### Extensions -/

/-- New locals were added at the end, and nothing else has changed. -/
structure Extends (before : Allocator) (fresh : List Local) (after : Allocator) : Prop where
  next : after.next = before.next + total Local.width fresh
  known : after.known = before.known ++ fresh
  allocated : after.allocated = before.allocated ++ fresh.map Local.name
  laid : LaidFrom before.next fresh
  unknown : ∀ entry ∈ fresh, before.find? entry.name = none
  distinct : (fresh.map Local.name).Nodup
  fits : before.Fits → after.Fits

namespace Extends

theorem refl (allocator : Allocator) : allocator.Extends [] allocator where
  next := rfl
  known := (List.append_nil _).symm
  allocated := (List.append_nil _).symm
  laid := trivial
  unknown := by simp
  distinct := .nil
  fits := id

/-- The slot of a new local is the first free one. -/
theorem allocate {type : FieldType} (done : before.allocate name type = .ok (entry, after)) :
    entry.name = name ∧ entry.type = type ∧ before.find? name = none ∧
      before.Extends [entry] after := by
  unfold Allocator.allocate at done
  split at done
  · cases done
  · next unknown =>
    dsimp only at done
    split at done
    · cases done
    · next fits =>
      cases done
      have widthPos := type.width_pos
      refine ⟨rfl, rfl, unknown, rfl, put_of_unknown unknown, rfl, ⟨?_, trivial⟩, ?_, ?_,
        fun _ => Nat.le_of_not_lt fits⟩
      simp only [slotLimit, Local.width] at fits
      · exact UInt16.toNat_ofNat_of_lt' (by rw [UInt16.size]; omega)
      · simp [unknown]
      · simp

/-- What was known is still known. -/
theorem find?_of_known (extended : before.Extends fresh after)
    (found : before.find? name = some entry) : after.find? name = some entry := by
  unfold Allocator.find? at found ⊢
  rw [extended.known, List.find?_append, found]
  rfl

theorem find?_of_unknown (extended : before.Extends fresh after)
    (unknown : before.find? name = none) :
    after.find? name = fresh.find? fun entry => entry.name = name := by
  unfold Allocator.find? at unknown ⊢
  rw [extended.known, List.find?_append, unknown]
  rfl

/-- What was added is known. -/
theorem find?_of_fresh (extended : before.Extends fresh after) (isIn : entry ∈ fresh) :
    after.find? entry.name = some entry := by
  rw [extended.find?_of_unknown (extended.unknown entry isIn)]
  exact Local.find?_of_nodup extended.distinct isIn

theorem trans (first : before.Extends fresh middle) (second : middle.Extends more after) :
    before.Extends (fresh ++ more) after where
  next := by rw [second.next, first.next, total_append, Nat.add_assoc]
  known := by rw [second.known, first.known, List.append_assoc]
  allocated := by rw [second.allocated, first.allocated, List.map_append, List.append_assoc]
  laid := first.laid.append (first.next ▸ second.laid)
  unknown := by
    intro entry isIn
    rcases List.mem_append.mp isIn with isIn | isIn
    · exact first.unknown entry isIn
    · cases found : before.find? entry.name with
      | none => rfl
      | some known =>
        have unknown := second.unknown entry isIn
        rw [first.find?_of_known found] at unknown
        cases unknown
  distinct := by
    rw [List.map_append]
    refine List.nodup_append.mpr ⟨first.distinct, second.distinct, ?_⟩
    intro name isFirst other isSecond
    rintro rfl
    obtain ⟨entry, isIn, rfl⟩ := List.mem_map.mp isFirst
    obtain ⟨later, isLater, same⟩ := List.mem_map.mp isSecond
    have unknown := second.unknown later isLater
    rw [same, first.find?_of_fresh isIn] at unknown
    cases unknown
  fits := second.fits ∘ first.fits

/-- **What was added since a mark is given back** without a trace. -/
theorem rollback (extended : before.Extends fresh after) :
    after.rollback before.mark = before := by
  obtain ⟨next, known, allocated⟩ := after
  obtain ⟨rfl, rfl, rfl, _, unknown, _, _⟩ := extended
  unfold Allocator.rollback mark
  cases fresh with
  | nil => simp
  | cons first rest =>
    rw [if_neg (by simp)]
    simp only [List.drop_left, List.take_left, List.filter_append]
    have old : (before.known.filter fun entry =>
        decide (entry.name ∉ (first :: rest).map Local.name)) = before.known := by
      refine List.filter_eq_self.mpr fun entry isKnown => decide_eq_true ?_
      intro isFresh
      obtain ⟨new, isNew, same⟩ := List.mem_map.mp isFresh
      exact find?_eq_none_iff.mp (unknown new isNew) entry isKnown same.symm
    have new : ((first :: rest).filter fun entry =>
        decide (entry.name ∉ (first :: rest).map Local.name)) = [] := by
      refine List.filter_eq_nil_iff.mpr fun entry isFresh isOutside => ?_
      exact of_decide_eq_true isOutside (List.mem_map_of_mem isFresh)
    rw [old, new, List.append_nil]

end Extends

/-! ### The first free slot -/

/-- The first free slot is behind every known local. -/
def Bounded (allocator : Allocator) : Prop := ∀ entry ∈ allocator.known, entry.finish ≤ allocator.next

theorem Extends.le_next (extended : before.Extends fresh after) : before.next ≤ after.next := by
  rw [extended.next]
  exact Nat.le_add_right _ _

theorem Extends.bounded (extended : before.Extends fresh after) (bounded : before.Bounded) :
    after.Bounded := by
  intro entry isKnown
  rw [extended.known] at isKnown
  rcases List.mem_append.mp isKnown with isOld | isNew
  · exact Nat.le_trans (bounded entry isOld) extended.le_next
  · rw [extended.next]
    exact (extended.laid.bounds isNew).2

/-- **A new local shares no slot with another one**, whether that was known before or is new too. -/
theorem Extends.apart (extended : before.Extends fresh after) (bounded : before.Bounded)
    (isNew : entry ∈ fresh) {other : Local} (isKnown : other ∈ after.known)
    (different : other.name ≠ entry.name) : entry.overlaps other = false := by
  rw [extended.known] at isKnown
  rcases List.mem_append.mp isKnown with isOld | isOther
  · rw [Local.overlaps_comm]
    exact Local.overlaps_of_finish_le
      (Nat.le_trans (bounded other isOld) (extended.laid.bounds isNew).1)
  · exact extended.laid.apart isNew isOther fun same => different (congrArg Local.name same.symm)

end Allocator

end MethodPatch
