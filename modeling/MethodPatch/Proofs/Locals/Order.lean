/-
**Recorded locals in any order.**

A local variable table may list its entries in any order, and a name more than once. They are registered
one after the other: an entry takes the place of another of its name unless its slot is lower, and in both
cases the first free slot moves behind it. What comes out does not depend on the order.

* `Allocator.registerAll_ok_iff`: locals are registered exactly if all of them end within the slots of a
  method;
* `Allocator.next_registerAll`: the first free slot is the largest of the ends;
* `Allocator.Keeps`: of the locals of each name the highest one is known;
* `Allocator.Alike`: states of an allocator that differ in nothing that can be asked for;
* `MethodRecord.seeded_in_any_order`: **a table in another order leaves the same locals and the same
  symbols.**
-/

import Mathlib.Data.List.Nodup
import Mathlib.Data.List.Perm.Basic
import MethodPatch.Proofs.Patch.Slots

namespace MethodPatch

/-- A local is the one of its name that has the highest slot. -/
structure IsHighest (entries : List Local) (name : String) (entry : Local) : Prop where
  isIn : entry ∈ entries
  named : entry.name = name
  highest : ∀ other ∈ entries, other.name = name → other.slot ≤ entry.slot

/-- No two locals have both their name and their slot in common. -/
def Separate (entries : List Local) : Prop :=
  entries.Pairwise fun first second => ¬(first.name = second.name ∧ first.slot = second.slot)

namespace IsHighest

variable {entries : List Local} {name : String} {entry : Local}

/-- There is one highest local of a name. -/
theorem unique {other : Local} (separate : Separate entries) (first : IsHighest entries name entry)
    (second : IsHighest entries name other) : entry = other := by
  have symmetric : Std.Symm fun first second : Local => ¬(first.name = second.name ∧ first.slot = second.slot) :=
    ⟨fun first second apart same => apart ⟨same.1.symm, same.2.symm⟩⟩
  by_contra different
  refine List.Pairwise.forall separate first.isIn second.isIn different ⟨?_, ?_⟩
  · rw [first.named, second.named]
  · exact UInt16.le_antisymm (second.highest entry first.isIn first.named)
      (first.highest other second.isIn second.named)

theorem of_perm {others : List Local} (perm : others.Perm entries) (highest : IsHighest entries name entry) :
    IsHighest others name entry where
  isIn := perm.mem_iff.mpr highest.isIn
  named := highest.named
  highest := fun other isIn => highest.highest other (perm.mem_iff.mp isIn)

end IsHighest

namespace Allocator

variable {before after allocator other : Allocator} {entries : List Local} {entry : Local}

/-! ### One local after the other -/

theorem registerAll_cons_eq_ok : before.registerAll (entry :: entries) = .ok after ↔
    ∃ middle, before.register entry = .ok middle ∧ middle.registerAll entries = .ok after := by
  rw [registerAll, List.foldlM_cons, bind_eq_ok]
  rfl

theorem register_ok_iff : (∃ after, before.register entry = .ok after) ↔ entry.finish ≤ slotLimit := by
  unfold register
  split
  · next above => exact iff_of_false nofun (Nat.not_le.mpr above)
  · next within =>
    refine iff_of_true ?_ (Nat.not_lt.mp within)
    dsimp only
    split
    · split <;> exact ⟨_, rfl⟩
    · exact ⟨_, rfl⟩

/-- Locals are registered exactly if each of them ends within the slots of a method. -/
theorem registerAll_ok_iff :
    (∃ after, before.registerAll entries = .ok after) ↔ ∀ entry ∈ entries, entry.finish ≤ slotLimit := by
  induction entries generalizing before with
  | nil => exact iff_of_true ⟨before, rfl⟩ nofun
  | cons first rest ih =>
    rw [List.forall_mem_cons]
    constructor
    · rintro ⟨after, done⟩
      obtain ⟨middle, registered, others⟩ := registerAll_cons_eq_ok.mp done
      exact ⟨register_ok_iff.mp ⟨middle, registered⟩, ih.mp ⟨after, others⟩⟩
    · rintro ⟨within, others⟩
      obtain ⟨middle, registered⟩ := register_ok_iff.mpr within
      obtain ⟨after, done⟩ := ih.mpr others
      exact ⟨after, registerAll_cons_eq_ok.mpr ⟨middle, registered, done⟩⟩

theorem next_register (done : before.register entry = .ok after) :
    after.next = max before.next entry.finish := by
  unfold register at done
  split at done
  · cases done
  · dsimp only at done
    split at done
    · split at done <;> cases done <;> rfl
    · cases done
      rfl

/-- The first free slot is behind all registered locals, whether or not they are still known. -/
theorem next_registerAll (done : before.registerAll entries = .ok after) :
    after.next = (entries.map Local.finish).foldl max before.next := by
  induction entries generalizing before with
  | nil =>
    cases done
    rfl
  | cons first rest ih =>
    obtain ⟨middle, registered, others⟩ := registerAll_cons_eq_ok.mp done
    rw [ih others, next_register registered]
    rfl

/-! ### The highest of each name -/

/-- Of the locals of each name the highest one is known. -/
structure Keeps (allocator : Allocator) (entries : List Local) : Prop where
  highest : ∀ {name entry}, allocator.find? name = some entry → IsHighest entries name entry
  isKnown : ∀ entry ∈ entries, (allocator.find? entry.name).isSome

namespace Keeps

theorem startingAt (next : Nat) : (startingAt next).Keeps [] := ⟨nofun, nofun⟩

theorem register (keeps : before.Keeps entries) (done : before.register entry = .ok after) :
    after.Keeps (entries ++ [entry]) where
  highest {name found} isFound := by
    rw [find?_register done] at isFound
    split at isFound
    · next stays =>
      obtain ⟨rfl, notLower⟩ := stays
      cases isFound
      refine ⟨List.mem_append_right _ List.mem_cons_self, rfl, fun other isIn named => ?_⟩
      rcases List.mem_append.mp isIn with isOld | isNew
      · obtain ⟨existing, isExisting⟩ := Option.isSome_iff_exists.mp (keeps.isKnown other isOld)
        rw [named] at isExisting
        exact UInt16.le_trans ((keeps.highest isExisting).highest other isOld named)
          (notLower existing isExisting)
      · rw [List.mem_singleton.mp isNew]
        exact UInt16.le_refl _
    · next dropped =>
      have highest := keeps.highest isFound
      refine ⟨List.mem_append_left _ highest.isIn, highest.named, fun other isIn named => ?_⟩
      rcases List.mem_append.mp isIn with isOld | isNew
      · exact highest.highest other isOld named
      · obtain rfl := List.mem_singleton.mp isNew
        -- It was not registered, since the known one is higher.
        refine UInt16.not_lt.mp fun higher => dropped ⟨named, fun existing isExisting => ?_⟩
        rw [named, isFound] at isExisting
        cases isExisting
        exact UInt16.le_of_lt higher
  isKnown other isIn := by
    have named : (after.find? other.name).isSome ↔
        (before.find? other.name).isSome ∨ ∃ new ∈ [entry], new.name = other.name :=
      isSome_find?_registerAll (registerAll_cons_eq_ok.mpr ⟨after, done, rfl⟩)
    rcases List.mem_append.mp isIn with isOld | isNew
    · exact named.mpr (.inl (keeps.isKnown other isOld))
    · exact named.mpr (.inr ⟨entry, List.mem_cons_self, by rw [List.mem_singleton.mp isNew]⟩)

theorem registerAll {more : List Local} (keeps : before.Keeps entries)
    (done : before.registerAll more = .ok after) : after.Keeps (entries ++ more) := by
  induction more generalizing before entries with
  | nil =>
    cases done
    rwa [List.append_nil]
  | cons first rest ih =>
    obtain ⟨middle, registered, others⟩ := registerAll_cons_eq_ok.mp done
    rw [List.append_cons]
    exact ih (keeps.register registered) others

theorem seeded {next : Nat} (done : seeded next entries = .ok after) : after.Keeps entries :=
  (startingAt next).registerAll done

/-- What is known of a name is its highest local. -/
theorem find?_eq_some_iff (keeps : allocator.Keeps entries) (separate : Separate entries) {name : String} :
    allocator.find? name = some entry ↔ IsHighest entries name entry := by
  refine ⟨keeps.highest, fun highest => ?_⟩
  obtain ⟨found, isFound⟩ := Option.isSome_iff_exists.mp (keeps.isKnown entry highest.isIn)
  rw [highest.named] at isFound
  rw [isFound, (keeps.highest isFound).unique separate highest]

end Keeps

/-- Locals of different names that end below the first free slot are all known, and it stays. -/
theorem seeded_of_nodup {next : Nat} (distinct : (entries.map Local.name).Nodup) (fits : next ≤ slotLimit)
    (ends : ∀ entry ∈ entries, entry.finish ≤ next) :
    ∃ after, seeded next entries = .ok after ∧ after.next = next ∧
      ∀ entry ∈ entries, after.find? entry.name = some entry := by
  obtain ⟨after, done⟩ : ∃ after, seeded next entries = .ok after :=
    registerAll_ok_iff.mpr fun entry isIn => Nat.le_trans (ends entry isIn) fits
  have seeds : (startingAt next).Seeds entries after := .registerAll done
  refine ⟨after, done, Nat.le_antisymm ?_ ?_, fun entry isIn => ?_⟩
  · rcases (seeds.le_next_iff after.next).mp (Nat.le_refl _) with within | ⟨entry, isIn, within⟩
    · exact within
    · exact Nat.le_trans within (ends entry isIn)
  · exact (seeds.le_next_iff _).mpr (.inl (Nat.le_refl _))
  · obtain ⟨found, isFound⟩ := Option.isSome_iff_exists.mp ((Keeps.seeded done).isKnown entry isIn)
    have highest := (Keeps.seeded done).highest isFound
    rw [isFound, List.inj_on_of_nodup_map distinct highest.isIn isIn highest.named]

/-! ### States that are alike -/

/-- Two states of an allocator with the same answers to all questions. -/
structure Alike (allocator other : Allocator) : Prop where
  next : other.next = allocator.next
  allocated : other.allocated = allocator.allocated
  find? : ∀ name, other.find? name = allocator.find? name
  bySlot : other.bySlot = allocator.bySlot

theorem mem_known_iff (distinct : allocator.Distinct) :
    entry ∈ allocator.known ↔ allocator.find? entry.name = some entry :=
  ⟨Local.find?_of_nodup distinct, List.mem_of_find?_eq_some⟩

/-- Locals by slot, and by name within a slot. -/
theorem pairwise_bySlot (allocator : Allocator) : allocator.bySlot.Pairwise fun first second =>
    first.slot < second.slot ∨ first.slot = second.slot ∧ first.name ≤ second.name := by
  refine (List.pairwise_mergeSort (fun first second third => ?_) (fun first second => ?_) _).imp
    of_decide_eq_true
  · simp only [decide_eq_true_eq]
    rintro (below | ⟨same, before⟩) (behind | ⟨equal, after⟩)
    · exact .inl (UInt16.lt_trans below behind)
    · exact .inl (equal ▸ below)
    · exact .inl (same ▸ behind)
    · exact .inr ⟨same.trans equal, String.le_trans before after⟩
  · simp only [Bool.or_eq_true, decide_eq_true_eq]
    rcases Nat.lt_trichotomy first.slot.toNat second.slot.toNat with below | same | above
    · exact .inl (.inl (UInt16.lt_iff_toNat_lt.mpr below))
    · have same := UInt16.toNat_inj.mp same
      exact (String.le_total first.name second.name).imp (fun before => .inr ⟨same, before⟩)
        fun before => .inr ⟨same.symm, before⟩
    · exact .inr (.inl (UInt16.lt_iff_toNat_lt.mpr above))

/-- The locals in the order of their slots are determined by which ones there are. -/
theorem bySlot_eq_of_perm (distinct : allocator.Distinct) (perm : other.known.Perm allocator.known) :
    other.bySlot = allocator.bySlot := by
  refine List.Perm.eq_of_pairwise (fun first second isFirst isSecond below above => ?_)
    other.pairwise_bySlot allocator.pairwise_bySlot
    ((List.mergeSort_perm ..).trans (perm.trans (List.mergeSort_perm ..).symm))
  have isKnown : first ∈ allocator.known := perm.mem_iff.mp (List.mem_mergeSort.mp isFirst)
  have isOther : second ∈ allocator.known := List.mem_mergeSort.mp isSecond
  have sameName : first.name = second.name := by
    rcases below with lower | ⟨same, before⟩ <;> rcases above with higher | ⟨_, after⟩
    · exact absurd lower (UInt16.lt_asymm higher)
    · simp_all
    · simp_all
    · exact String.le_antisymm before after
  have found := (mem_known_iff distinct).mp isKnown
  rw [sameName, (mem_known_iff distinct).mp isOther] at found
  exact (Option.some.inj found).symm

/-- The same locals in another order leave an allocator alike. -/
theorem alike_of_perm {next : Nat} {others : List Local} (separate : Separate entries)
    (perm : others.Perm entries) (first : seeded next entries = .ok allocator)
    (second : seeded next others = .ok other) : allocator.Alike other := by
  have seeds : (startingAt next).Seeds entries allocator := .registerAll first
  have otherSeeds : (startingAt next).Seeds others other := .registerAll second
  have distinct : allocator.Distinct := seeds.distinct List.nodup_nil
  have otherDistinct : other.Distinct := otherSeeds.distinct List.nodup_nil
  have otherSeparate : Separate others :=
    perm.symm.pairwise separate fun apart same => apart ⟨same.1.symm, same.2.symm⟩
  have same : ∀ name, other.find? name = allocator.find? name := by
    intro name
    refine Option.ext fun entry => ?_
    rw [(Keeps.seeded first).find?_eq_some_iff separate,
      (Keeps.seeded second).find?_eq_some_iff otherSeparate]
    exact ⟨.of_perm perm.symm, .of_perm perm⟩
  have known : other.known.Perm allocator.known := by
    refine (List.perm_ext_iff_of_nodup (List.Nodup.of_map _ otherDistinct)
      (List.Nodup.of_map _ distinct)).mpr fun entry => ?_
    rw [mem_known_iff distinct, mem_known_iff otherDistinct, same]
  refine ⟨?_, otherSeeds.allocated.trans seeds.allocated.symm, same, bySlot_eq_of_perm distinct known⟩
  rw [next_registerAll first, next_registerAll second]
  exact (perm.map Local.finish).foldl_eq' (fun _ _ _ _ _ => Nat.max_right_comm ..) _

end Allocator

namespace MethodRecord

variable {record : MethodRecord} {entries : List Local}

theorem resolve_eq_ok_iff : record.resolve = .ok entries ↔
    List.Forall₂ (fun record entry => LocalRecord.resolve record = .ok entry) record.locals entries := by
  obtain ⟨maxLocals, locals⟩ := record
  unfold resolve
  dsimp only
  induction locals generalizing entries with
  | nil =>
    rw [List.mapM_nil, List.forall₂_nil_left_iff, pure_eq_ok]
  | cons first rest ih =>
    simp only [List.mapM_cons, bind_eq_ok, pure_eq_ok, List.forall₂_cons_left_iff]
    constructor
    · rintro ⟨entry, here, others, behind, rfl⟩
      exact ⟨entry, others, here, ih.mp behind, rfl⟩
    · rintro ⟨entry, others, here, behind, rfl⟩
      exact ⟨entry, here, others, ih.mpr behind, rfl⟩

/-- A table in another order has the same locals. -/
theorem resolve_perm {locals : List LocalRecord} (resolved : record.resolve = .ok entries)
    (perm : locals.Perm record.locals) :
    ∃ others, (MethodRecord.mk record.maxLocals locals).resolve = .ok others ∧ others.Perm entries := by
  obtain ⟨others, isResolved, otherPerm⟩ := List.perm_comp_forall₂ perm (resolve_eq_ok_iff.mp resolved)
  exact ⟨others, resolve_eq_ok_iff.mpr isResolved, otherPerm⟩

theorem allocator_of_resolve (resolved : record.resolve = .ok entries) :
    record.allocator = Allocator.seeded record.maxLocals.toNat entries := by
  rw [allocator, resolved]
  rfl

/-- **A local variable table leaves the same locals and the same symbols in any order.** They can be
registered exactly if every entry ends within sixteen bits, the highest entry of each name is known and
bound, and the first free slot is behind all entries. -/
theorem seeded_in_any_order (resolved : record.resolve = .ok entries) (separate : Separate entries) :
    ((∃ allocator, record.allocator = .ok allocator) ↔ ∀ entry ∈ entries, entry.finish ≤ 65535) ∧
    (∀ allocator, record.allocator = .ok allocator →
      (∀ name entry, allocator.find? name = some entry ↔ IsHighest entries name entry) ∧
      allocator.next = (entries.map Local.finish).foldl max record.maxLocals.toNat ∧
      ∃ table, record.roots = .ok table ∧
        ∀ name, table.find? name = (allocator.find? name).map Local.symbol) ∧
    ∀ locals, locals.Perm record.locals →
      let other : MethodRecord := ⟨record.maxLocals, locals⟩
      ((∃ allocator, other.allocator = .ok allocator) ↔ ∃ allocator, record.allocator = .ok allocator) ∧
      ∀ allocator, record.allocator = .ok allocator →
        ∃ later, other.allocator = .ok later ∧ allocator.Alike later ∧ other.roots = record.roots := by
  have made := allocator_of_resolve resolved
  have fits : (∃ allocator, record.allocator = .ok allocator) ↔ ∀ entry ∈ entries, entry.finish ≤ 65535 := by
    rw [made]
    exact Allocator.registerAll_ok_iff
  refine ⟨fits, fun allocator isMade => ⟨?_, ?_, ?_⟩, fun locals perm => ?_⟩
  · rw [made] at isMade
    exact fun name entry => (Allocator.Keeps.seeded isMade).find?_eq_some_iff separate
  · rw [made] at isMade
    exact Allocator.next_registerAll isMade
  · have rooted : record.roots = .ok (allocator.bySlot.map Local.symbol) := by
      rw [roots, isMade]
      rfl
    exact ⟨_, rooted, find?_roots rooted isMade⟩
  · intro other
    obtain ⟨others, otherResolved, otherPerm⟩ := resolve_perm resolved perm
    have otherMade := allocator_of_resolve otherResolved
    have otherFits : (∃ allocator, other.allocator = .ok allocator) ↔
        ∃ allocator, record.allocator = .ok allocator := by
      rw [fits, otherMade]
      refine Allocator.registerAll_ok_iff.trans ?_
      simp only [otherPerm.mem_iff]
      rfl
    refine ⟨otherFits, fun allocator isMade => ?_⟩
    obtain ⟨later, isLater⟩ := otherFits.mpr ⟨allocator, isMade⟩
    have alike : allocator.Alike later :=
      Allocator.alike_of_perm separate otherPerm (made ▸ isMade) (otherMade ▸ isLater)
    refine ⟨later, isLater, alike, ?_⟩
    rw [roots, roots, isLater, isMade, Except.map, Except.map, alike.bySlot]

/-- A table that lists a variable for each of two loops, the later one first. -/
def twoLoops : MethodRecord := ⟨2, [⟨"i", 4, "I"⟩, ⟨"i", 1, "J"⟩, ⟨"sum", 2, "J"⟩]⟩

/-- The variable of the later loop is known, in whichever order the table lists the two. -/
theorem seeded_in_any_order_loops :
    twoLoops.resolve = .ok [⟨"i", 4, .int⟩, ⟨"i", 1, .long⟩, ⟨"sum", 2, .long⟩] ∧
    Separate [⟨"i", 4, .int⟩, ⟨"i", 1, .long⟩, ⟨"sum", 2, .long⟩] ∧
    ∃ allocator later, twoLoops.allocator = .ok allocator ∧
      (MethodRecord.mk 2 twoLoops.locals.reverse).allocator = .ok later ∧ allocator.Alike later ∧
      allocator.next = 5 ∧ allocator.find? "i" = some ⟨"i", 4, .int⟩ := by
  have resolved : twoLoops.resolve = .ok [⟨"i", 4, .int⟩, ⟨"i", 1, .long⟩, ⟨"sum", 2, .long⟩] := by
    decide
  have separate : Separate [⟨"i", 4, .int⟩, ⟨"i", 1, .long⟩, ⟨"sum", 2, .long⟩] := by
    unfold Separate
    decide
  obtain ⟨fits, known, anyOrder⟩ := seeded_in_any_order resolved separate
  obtain ⟨allocator, isMade⟩ := fits.mpr (by decide)
  obtain ⟨highest, next, -⟩ := known allocator isMade
  obtain ⟨later, isLater, alike, -⟩ :=
    (anyOrder twoLoops.locals.reverse (List.reverse_perm _)).2 allocator isMade
  exact ⟨resolved, separate, allocator, later, isMade, isLater, alike, next,
    (highest "i" _).mpr ⟨by decide, rfl, by decide⟩⟩

end MethodRecord

end MethodPatch
