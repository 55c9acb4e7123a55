/-
**Lines of instructions.**

A line table says where the line changes, and nothing about what comes between two changes. The line
at a byte offset is therefore read from the last entry that does not begin behind it. Instructions
without a line leave no entry, so the table goes on with the line in front of them.

* `lineAt?`: the line that a table gives for a byte offset;
* `Body.lineEntries_sublist`: entries begin where instructions do, in the same order;
* `Body.isChain_lineEntries`: an entry has another line than the one in front of it;
* `Body.lineTable_exact`: **the table gives every instruction with a line that line.**
-/

import Mathlib.Data.List.Chain
import MethodPatch.Proofs.Encoding.Body

namespace MethodPatch

/-- The line that a table gives for a byte offset: that of the last entry that does not begin behind
it. -/
def lineAt? (table : List (Nat × Nat)) (offset : Nat) : Option Nat :=
  (table.filter fun entry => entry.1 ≤ offset).getLast?.map Prod.snd

theorem lineAt?_cons_of_le {table : List (Nat × Nat)} {start line offset : Nat}
    (reached : start ≤ offset) :
    lineAt? ((start, line) :: table) offset = (lineAt? table offset).or (some line) := by
  unfold lineAt?
  rw [List.filter_cons_of_pos (by simpa using reached), List.getLast?_cons]
  cases (table.filter fun entry => entry.1 ≤ offset).getLast? <;> rfl

/-- A table whose entries all begin behind an offset gives no line for it. -/
theorem lineAt?_of_lt {table : List (Nat × Nat)} {offset : Nat}
    (behind : ∀ entry ∈ table, offset < entry.1) : lineAt? table offset = none := by
  unfold lineAt?
  rw [List.filter_eq_nil_iff.mpr fun entry isIn => by simpa using behind entry isIn]
  rfl

namespace Body

/-! ### Entries -/

section

variable {last : Option Nat} {located : List (Nat × Step)}

/-- Entries begin where instructions do, in the order of the instructions. -/
theorem lineEntries_sublist (last : Option Nat) (located : List (Nat × Step)) :
    ((lineEntries last located).map Prod.fst).Sublist (located.map Prod.fst) := by
  fun_induction lineEntries last located with
  | case1 => exact .slnil
  | case2 _ _ _ _ _ ih => exact ih.cons _
  | case3 _ _ _ _ _ _ _ ih => exact ih.cons_cons _
  | case4 _ _ _ _ _ _ _ ih => exact ih.cons _

/-- An entry has another line than the one in front of it. -/
theorem isChain_lineEntries (last : Option Nat) (located : List (Nat × Step)) :
    (last.toList ++ (lineEntries last located).map Prod.snd).IsChain (· ≠ ·) := by
  fun_induction lineEntries last located with
  | case1 last => cases last <;> simp
  | case2 _ _ _ _ _ ih => exact ih
  | case3 last _ _ _ line _ changes ih =>
    cases last with
    | none => exact ih
    | some before =>
      refine List.isChain_cons_cons.mpr ⟨?_, ih⟩
      rintro rfl
      exact changes.2 rfl
  | case4 _ _ _ _ _ _ _ ih => exact ih

/-- The line of an instruction is that of the table or, if no entry has been reached yet, the one that
the table goes on from. -/
theorem lineAt?_lineEntries (ordered : (located.map Prod.fst).Pairwise (· < ·))
    (small : ∀ place ∈ located, place.1 < 65536) {offset line : Nat} {step : Step}
    (isIn : (offset, step) ∈ located) (isLine : step.line? = some line) :
    (lineAt? (lineEntries last located) offset).or last = some line := by
  -- The entries behind an instruction begin behind it, since instructions do.
  have behind : ∀ {start : Nat} {rest : List (Nat × Step)} {last : Option Nat},
      (∀ other ∈ rest.map Prod.fst, start < other) →
        ∀ entry ∈ lineEntries last rest, start < entry.1 :=
    fun first entry isEntry =>
      first _ ((lineEntries_sublist _ _).subset (List.mem_map_of_mem isEntry))
  fun_induction lineEntries last located with
  | case1 => cases isIn
  | case2 last start other rest unknown ih =>
    obtain ⟨_, ordered⟩ := List.pairwise_cons.mp ordered
    rcases List.mem_cons.mp isIn with same | inRest
    · cases same
      rw [unknown] at isLine
      cases isLine
    · exact ih ordered (List.forall_mem_cons.mp small).2 inRest
  | case3 last start other rest begun known changes ih =>
    obtain ⟨first, ordered⟩ := List.pairwise_cons.mp ordered
    rcases List.mem_cons.mp isIn with same | inRest
    · cases same
      cases known.symm.trans isLine
      rw [lineAt?_cons_of_le (Nat.le_refl _), lineAt?_of_lt (behind first)]
      rfl
    · have reached := Nat.le_of_lt (first offset (List.mem_map_of_mem inRest))
      rw [lineAt?_cons_of_le reached, ih ordered (List.forall_mem_cons.mp small).2 inRest]
      rfl
  | case4 last start other rest begun known same ih =>
    obtain ⟨first, ordered⟩ := List.pairwise_cons.mp ordered
    obtain ⟨fits, small⟩ := List.forall_mem_cons.mp small
    rcases List.mem_cons.mp isIn with isFirst | inRest
    · cases isFirst
      cases known.symm.trans isLine
      have goesOn : last = some line := Decidable.byContradiction fun changes => same ⟨fits, changes⟩
      rw [lineAt?_of_lt (behind first), goesOn]
      rfl
    · exact ih ordered small inRest

end

/-! ### Line tables -/

/-- An instruction begins where the ones in front of it end, and it has at least one byte. -/
theorem bounds_of_mem_zip {base offset : Nat} {step : Step} {steps : List Step}
    (isIn : (offset, step) ∈ (offsetsFrom base steps).zip steps) :
    base ≤ offset ∧ offset < base + total (fun step => step.instr.size) steps := by
  induction steps generalizing base with
  | nil => cases isIn
  | cons first rest ih =>
    rw [offsetsFrom, List.zip_cons_cons] at isIn
    have isLong := first.instr.size_pos
    rw [total_cons]
    rcases List.mem_cons.mp isIn with same | inRest
    · cases same
      omega
    · have := ih inRest
      omega

theorem pairwise_zip_offsetsFrom (base : Nat) (steps : List Step) :
    (((offsetsFrom base steps).zip steps).map Prod.fst).Pairwise (· < ·) := by
  induction steps generalizing base with
  | nil => exact .nil
  | cons first rest ih =>
    rw [offsetsFrom, List.zip_cons_cons]
    refine List.pairwise_cons.mpr ⟨fun offset isLater => ?_, ih _⟩
    obtain ⟨⟨_, step⟩, inRest, rfl⟩ := List.mem_map.mp isLater
    have isLong := first.instr.size_pos
    have := (bounds_of_mem_zip inRest).1
    omega

/-- **The table gives every instruction with a line that line**, in a body that is not too long to be
encoded. Its entries begin at increasing offsets, and no two neighbours have the same line. -/
theorem lineTable_exact (body : Body) (fits : body.codeSize ≤ maxCodeSize) :
    (body.lineTable.map Prod.fst).Pairwise (· < ·) ∧
      (body.lineTable.map Prod.snd).IsChain (· ≠ ·) ∧
      ∀ (index line : Nat) (step : Step), body.code[index]? = some step → step.line? = some line →
        ∃ offset, body.offsets[index]? = some offset ∧ lineAt? body.lineTable offset = some line := by
  have ordered : ((body.offsets.zip body.code.toList).map Prod.fst).Pairwise (· < ·) :=
    pairwise_zip_offsetsFrom 0 _
  have small : ∀ place ∈ body.offsets.zip body.code.toList, place.1 < 65536 := by
    rintro ⟨offset, step⟩ isIn
    have before := (bounds_of_mem_zip isIn).2
    rw [Nat.zero_add] at before
    exact Nat.lt_trans before (Nat.lt_succ_of_le fits)
  refine ⟨ordered.sublist (lineEntries_sublist _ _), isChain_lineEntries none _,
    fun index line step found isLine => ?_⟩
  have begins : index < body.offsets.length := by
    rw [offsets_length]
    exact Nat.lt_succ_of_lt (Array.getElem?_eq_some_iff.mp found).1
  refine ⟨_, List.getElem?_eq_getElem begins, ?_⟩
  have isIn : (body.offsets[index], step) ∈ body.offsets.zip body.code.toList := by
    refine List.mem_iff_getElem?.mpr ⟨index, List.getElem?_zip_eq_some.mpr ⟨?_, ?_⟩⟩
    · exact List.getElem?_eq_getElem begins
    · rwa [Array.getElem?_toList]
  have answers : (lineAt? body.lineTable body.offsets[index]).or none = some line :=
    lineAt?_lineEntries ordered small isIn isLine
  rwa [Option.or_none] at answers

/-- A body whose second instruction has no line, and whose last but one has a line that no table can
hold. -/
def striped : Body where
  code := #[⟨.iconst 5, some ⟨1, 1, 0⟩⟩, ⟨.nop, none⟩, ⟨.store .int 4, some ⟨1, 1, 0⟩⟩,
    ⟨.iinc 300 1, some ⟨2, 1, 12⟩⟩, ⟨.load .int 4, some ⟨65536, 1, 90⟩⟩, ⟨.ret none, some ⟨1, 4, 3⟩⟩]
  pool := .empty
  depth := 0
  maxStack := 1

theorem lineTable_exact_striped : striped.codeSize ≤ maxCodeSize ∧
    striped.lineTable = [(0, 1), (4, 2), (12, 1)] ∧
    ∃ offset, striped.offsets[5]? = some offset ∧ lineAt? striped.lineTable offset = some 1 := by
  have fits : striped.codeSize ≤ maxCodeSize := by decide
  exact ⟨fits, by decide, (lineTable_exact striped fits).2.2 5 1 _ rfl (by decide)⟩

end Body

end MethodPatch
