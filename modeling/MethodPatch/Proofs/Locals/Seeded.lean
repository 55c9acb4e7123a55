/-
**What an allocator knows of recorded locals.**

Recorded locals are registered one after the other. Of two of one name only one stays known, but the
first free slot is behind both of them.

* `Allocator.find?_register`, `Allocator.isSome_find?_registerAll`: which locals are known then;
* `Allocator.Seeds`: what registering locals leaves;
* `Seeds.distinct`: each name is known once;
* `Seeds.bounded`, `Seeds.le_next_iff`: the first free slot is behind all recorded locals, and no
  further than they and the recorded count demand;
* `Target.firstFreeSlot_le`: what a workspace records of a method counts its parameters.
-/

import MethodPatch.Locals.Allocator
import MethodPatch.Proofs.Locals.Extends
import MethodPatch.Workspace.Host

namespace MethodPatch.Allocator

variable {before middle after : Allocator} {entries : List Local} {entry : Local}

theorem mem_put {other : Local} {known : List Local} (isIn : other ∈ put entry known) :
    other = entry ∨ other ∈ known := by
  induction known with
  | nil => exact .inl (List.mem_singleton.mp isIn)
  | cons first rest ih =>
    rw [put] at isIn
    split at isIn
    · rcases List.mem_cons.mp isIn with here | isIn
      · exact .inl here
      · exact .inr (List.mem_cons_of_mem _ isIn)
    · rcases List.mem_cons.mp isIn with rfl | isIn
      · exact .inr List.mem_cons_self
      · exact (ih isIn).imp_right (List.mem_cons_of_mem _)

theorem names_put (entry : Local) (known : List Local) :
    (put entry known).map Local.name =
      if entry.name ∈ known.map Local.name then known.map Local.name
      else known.map Local.name ++ [entry.name] := by
  induction known with
  | nil => rfl
  | cons first rest ih =>
    unfold put
    by_cases same : first.name = entry.name
    · simp [same]
    · have other : entry.name ≠ first.name := Ne.symm same
      rw [if_neg same, List.map_cons, ih]
      simp only [List.map_cons, List.mem_cons, other, false_or]
      split <;> rfl

/-- Each name is known once. -/
def Distinct (allocator : Allocator) : Prop := (allocator.known.map Local.name).Nodup

/-- In the order of their slots each local is still found by its name. -/
theorem find?_bySlot {allocator : Allocator} (distinct : allocator.Distinct) (name : String) :
    allocator.bySlot.find? (fun entry => entry.name = name) = allocator.find? name := by
  cases found : allocator.find? name with
  | none =>
    refine List.find?_eq_none.mpr fun entry isIn => ?_
    simpa using find?_eq_none_iff.mp found entry (List.mem_mergeSort.mp isIn)
  | some entry =>
    have isKnown : entry ∈ allocator.bySlot :=
      List.mem_mergeSort.mpr (List.mem_of_find?_eq_some found)
    have nodup : (allocator.bySlot.map Local.name).Nodup :=
      ((List.mergeSort_perm ..).map Local.name).nodup_iff.mpr distinct
    obtain rfl := name_of_find? found
    exact Local.find?_of_nodup nodup isKnown

theorem nodup_put {known : List Local} (distinct : (known.map Local.name).Nodup) :
    ((put entry known).map Local.name).Nodup := by
  rw [names_put]
  split
  · exact distinct
  · next other =>
    refine List.nodup_append.mpr ⟨distinct, by simp, ?_⟩
    rintro name isKnown _ isNew rfl
    exact other (List.mem_singleton.mp isNew ▸ isKnown)

/-- Of two locals of one name the one that is registered stays known if its slot is not lower. -/
theorem find?_register (done : before.register entry = .ok after) (name : String) :
    after.find? name =
      if entry.name = name ∧ ∀ existing ∈ before.find? entry.name, existing.slot ≤ entry.slot
      then some entry else before.find? name := by
  unfold register at done
  split at done
  · cases done
  · dsimp only at done
    split at done
    · next existing found =>
      split at done <;> cases done
      · next lower =>
        rw [if_neg]
        · rfl
        · rintro ⟨_, below⟩
          exact UInt16.not_le.mpr lower (below existing found)
      · next notLower =>
        have below : ∀ other ∈ before.find? entry.name, other.slot ≤ entry.slot := by
          rw [found]
          rintro other ⟨⟩
          exact UInt16.not_lt.mp notLower
        exact (find?_put ..).trans (if_congr (and_iff_left below).symm rfl rfl)
    · next unknown =>
      cases done
      have below : ∀ other ∈ before.find? entry.name, other.slot ≤ entry.slot := by
        rw [unknown]
        rintro other ⟨⟩
      exact (find?_put ..).trans (if_congr (and_iff_left below).symm rfl rfl)

/-- Exactly the names of registered locals become known. -/
theorem isSome_find?_registerAll {name : String} (done : before.registerAll entries = .ok after) :
    (after.find? name).isSome ↔
      (before.find? name).isSome ∨ ∃ entry ∈ entries, entry.name = name := by
  unfold registerAll at done
  induction entries generalizing before with
  | nil =>
    cases done
    simp
  | cons first rest ih =>
    rw [List.foldlM_cons] at done
    cases registered : before.register first with
    | error error =>
      rw [registered] at done
      cases done
    | ok middle =>
      rw [registered] at done
      have here : (middle.find? name).isSome ↔ (before.find? name).isSome ∨ first.name = name := by
        rw [find?_register registered]
        split
        · next stays => simp [stays.1]
        · next dropped =>
          refine ⟨.inl, fun known => known.elim id fun same => ?_⟩
          -- The name was known, for otherwise the local would have stayed.
          subst same
          cases found : before.find? first.name with
          | none => simp [found] at dropped
          | some existing => rfl
      rw [ih done, here, or_assoc]
      simp

/-- Locals that a method has already were registered. -/
structure Seeds (before : Allocator) (entries : List Local) (after : Allocator) : Prop where
  allocated : after.allocated = before.allocated
  known : ∀ entry ∈ after.known, entry ∈ before.known ∨ entry ∈ entries
  le_next_iff : ∀ slot, slot ≤ after.next ↔
    slot ≤ before.next ∨ ∃ entry ∈ entries, slot ≤ entry.finish
  distinct : before.Distinct → after.Distinct
  fits : before.Fits → after.Fits

namespace Seeds

theorem refl (allocator : Allocator) : allocator.Seeds [] allocator where
  allocated := rfl
  known := fun _ isKnown => .inl isKnown
  le_next_iff := by simp
  distinct := id
  fits := id

theorem register (done : before.register entry = .ok after) : before.Seeds [entry] after := by
  unfold Allocator.register at done
  split at done
  · cases done
  · next within =>
    have fits : before.Fits → max before.next entry.finish ≤ slotLimit :=
      fun reached => Nat.max_le.mpr ⟨reached, Nat.le_of_not_lt within⟩
    have nextIff : ∀ slot, slot ≤ max before.next entry.finish ↔
        slot ≤ before.next ∨ ∃ other ∈ [entry], slot ≤ other.finish := by
      intro slot
      simp only [List.mem_singleton, exists_eq_left]
      omega
    have stays : ∀ other ∈ before.known, other ∈ before.known ∨ other ∈ [entry] :=
      fun other isKnown => .inl isKnown
    have replaced : ∀ other ∈ put entry before.known, other ∈ before.known ∨ other ∈ [entry] :=
      fun other isIn => (mem_put isIn).symm.imp_right List.mem_singleton.mpr
    dsimp only at done
    split at done
    · split at done <;> cases done
      · exact ⟨rfl, stays, nextIff, id, fits⟩
      · exact ⟨rfl, replaced, nextIff, nodup_put, fits⟩
    · cases done
      exact ⟨rfl, replaced, nextIff, nodup_put, fits⟩

theorem trans {more : List Local} (first : before.Seeds entries middle)
    (second : middle.Seeds more after) : before.Seeds (entries ++ more) after where
  allocated := second.allocated.trans first.allocated
  known := by
    intro entry isKnown
    rw [List.mem_append, ← or_assoc]
    exact (second.known entry isKnown).imp_left (first.known entry)
  le_next_iff := by
    intro slot
    rw [second.le_next_iff, first.le_next_iff, or_assoc]
    simp [or_and_right, exists_or]
  distinct := second.distinct ∘ first.distinct
  fits := second.fits ∘ first.fits

theorem registerAll (done : before.registerAll entries = .ok after) :
    before.Seeds entries after := by
  unfold Allocator.registerAll at done
  induction entries generalizing before with
  | nil =>
    cases done
    exact .refl _
  | cons first rest ih =>
    rw [List.foldlM_cons] at done
    cases registered : before.register first with
    | error error =>
      rw [registered] at done
      cases done
    | ok middle =>
      rw [registered] at done
      exact (Seeds.register registered).trans (ih done)

/-- The end of every registered local is within the slots that are not free. -/
theorem finish_le (seeds : before.Seeds entries after) (isIn : entry ∈ entries) :
    entry.finish ≤ after.next := (seeds.le_next_iff _).mpr (.inr ⟨entry, isIn, Nat.le_refl _⟩)

theorem bounded (seeds : before.Seeds entries after) (bounded : before.Bounded) :
    after.Bounded := by
  intro entry isKnown
  rcases seeds.known entry isKnown with isOld | isNew
  · exact (seeds.le_next_iff _).mpr (.inl (bounded entry isOld))
  · exact seeds.finish_le isNew

end Seeds

end MethodPatch.Allocator

namespace MethodPatch

theorem total_map {α β : Type} (change : α → β) (weight : β → Nat) (members : List α) :
    total weight (members.map change) = total (fun member => weight (change member)) members := by
  induction members with
  | nil => rfl
  | cons member rest ih => rw [List.map_cons, total_cons, total_cons, ih]

namespace MethodRecord

/-- What has a name in a method without a local variable table is `this` and the parameters. -/
theorem total_parameters (owner name : String) (isStatic : Bool) (signature : Signature) :
    total (fun entry => entry.2.width) (parameters owner isStatic signature) =
      (MethodContext.mk owner name signature isStatic).slots := by
  have numbered (types : List FieldType) (start : Nat) :
      total (fun numbered : FieldType × Nat => numbered.1.width) (types.zipIdx start) =
        total FieldType.width types := by
    induction types generalizing start with
    | nil => rfl
    | cons type rest ih => rw [List.zipIdx_cons, total_cons, total_cons, ih]
  simp only [parameters, total_append, total_map, numbered, MethodContext.slots, Signature.slots]
  cases isStatic
  · exact Nat.add_comm ..
  · exact Nat.zero_add _

/-- A method without a local variable table uses the slots of `this` and of its parameters. -/
theorem maxLocals_ofSignature (owner name : String) (isStatic : Bool) (signature : Signature) :
    (ofSignature owner isStatic signature).maxLocals =
      (MethodContext.mk owner name signature isStatic).firstFreeSlot := by
  rw [← UInt16.toNat_inj, MethodContext.toNat_firstFreeSlot,
    ← total_parameters owner name isStatic signature]
  exact UInt16.toNat_ofNat'

/-- The allocator of a record registers the recorded locals in order. -/
theorem allocator_registers {record : MethodRecord} {allocator : Allocator}
    (made : record.allocator = .ok allocator) :
    ∃ entries, record.resolve = .ok entries ∧
      (Allocator.startingAt record.maxLocals.toNat).registerAll entries = .ok allocator := by
  unfold MethodRecord.allocator at made
  cases resolved : record.resolve with
  | error error =>
    rw [resolved] at made
    cases made
  | ok entries =>
    rw [resolved] at made
    exact ⟨entries, rfl, made⟩

/-- The allocator of a record knows recorded locals only, and has allocated none. -/
theorem allocator_seeds {record : MethodRecord} {allocator : Allocator}
    (made : record.allocator = .ok allocator) :
    ∃ entries, record.resolve = .ok entries ∧
      (Allocator.startingAt record.maxLocals.toNat).Seeds entries allocator := by
  obtain ⟨entries, resolved, registered⟩ := allocator_registers made
  exact ⟨entries, resolved, .registerAll registered⟩

end MethodRecord

/-- A method has the slots of `this` and of its parameters at least. -/
theorem Target.firstFreeSlot_le {target : Target} {site : Site} {record : MethodRecord}
    (hasSite : target.site = .ok site) (recorded : target.record = .ok record) :
    site.method.firstFreeSlot ≤ record.maxLocals := by
  unfold Target.site Target.context at hasSite
  unfold Target.record MethodEntry.record at recorded
  cases found : target.method with
  | error error =>
    rw [found] at recorded
    cases recorded
  | ok method =>
    cases read : method.signature with
    | error error =>
      simp only [found, Except.bind, read, Except.map] at recorded
      cases recorded
    | ok signature =>
      simp only [found, Except.bind, bind, pure, Except.pure, read, Except.map] at hasSite recorded
      cases hasSite
      cases recorded
      rw [MethodRecord.maxLocals_ofSignature target.className target.methodName, Max.max]
      show _ ≤ if _ then _ else _
      split
      · assumption
      · exact UInt16.le_refl _

end MethodPatch
