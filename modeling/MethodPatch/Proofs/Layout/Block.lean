/-
**Structured code of expressions.**

What expressions are lowered to is code without loops: instructions in order, and choices between
two pieces of code by a condition. A condition is code that branches away for one outcome and goes
on for the other. `Block` and `Condition` are this structure, `layout` is the code that it stands
for, with the targets of all branches.

A condition is generated before its target is known: its branches, which stand at the indices
`exits`, go to instruction zero until they are landed.

The code of a construct stands somewhere in the code of a whole body. `PartAt whole start part` says
that `part` begins at an index of `whole`.

* `PartAt.left`, `PartAt.right`: the two halves of a part are parts of the whole;
* `Condition.landed_layout`: landing the exits of a condition gives its layout with the target;
* `landed_of_disjoint`: landing changes nothing but the branches that are landed.
-/

import MethodPatch.Code.Instr

namespace MethodPatch

/-! ### Parts of a list -/

/-- A part begins at an index of a list. -/
def PartAt {α : Type} (whole : List α) (start : Nat) (part : List α) : Prop :=
  ∃ front rest, whole = front ++ part ++ rest ∧ front.length = start

namespace PartAt

variable {α : Type} {whole part first second : List α} {start : Nat}

theorem refl (whole : List α) : PartAt whole 0 whole := ⟨[], [], by simp, rfl⟩

/-- What was appended begins where the list ended. -/
theorem appended (front part : List α) : PartAt (front ++ part) front.length part :=
  ⟨front, [], by simp, rfl⟩

theorem left (here : PartAt whole start (first ++ second)) : PartAt whole start first := by
  obtain ⟨front, rest, rfl, rfl⟩ := here
  exact ⟨front, second ++ rest, by simp, rfl⟩

theorem right (here : PartAt whole start (first ++ second)) :
    PartAt whole (start + first.length) second := by
  obtain ⟨front, rest, rfl, rfl⟩ := here
  exact ⟨front ++ first, rest, by simp, by simp⟩

theorem tail {head : α} (here : PartAt whole start (head :: part)) :
    PartAt whole (start + 1) part :=
  right (show PartAt whole start ([head] ++ part) from here)

theorem head {head : α} (here : PartAt whole start (head :: part)) :
    whole[start]? = some head := by
  obtain ⟨front, rest, rfl, rfl⟩ := here
  simp

theorem le_length (here : PartAt whole start part) : start + part.length ≤ whole.length := by
  obtain ⟨front, rest, rfl, rfl⟩ := here
  simp

/-- A part is cut out of the list by its ends. -/
theorem extract (here : PartAt whole start part) :
    whole.extract start (start + part.length) = part := by
  obtain ⟨front, rest, rfl, rfl⟩ := here
  rw [List.extract_eq_take_drop, List.append_assoc, List.drop_left, Nat.add_sub_cancel_left,
    List.take_left]

end PartAt

/-! ### Blocks and conditions -/

mutual

/-- Code that goes on behind its end. -/
inductive Block where
  | nil
  | instr (instr : Instr)
  | seq (first second : Block)
  | choice (test : Condition) (first second : Block)

/-- Code that branches away for one outcome and goes on behind its end for the other. -/
inductive Condition where
  | branch (operands : Block) (test : Test)
  | constant (leaves : Bool)
  | either (first second : Condition)
  | skipping (skip second : Condition)

end

mutual

/-- The number of instructions. -/
def Block.size : Block → Nat
  | .nil => 0
  | .instr _ => 1
  | .seq first second => first.size + second.size
  | .choice test first second => test.size + first.size + 1 + second.size

/-- The number of instructions. -/
def Condition.size : Condition → Nat
  | .branch operands _ => operands.size + 1
  | .constant leaves => if leaves then 1 else 0
  | .either first second | .skipping first second => first.size + second.size

end

mutual

/-- The code that begins at an index. -/
def Block.layout (start : Nat) : Block → List Instr
  | .nil => []
  | .instr instr => [instr]
  | .seq first second => first.layout start ++ second.layout (start + first.size)
  | .choice test first second =>
    let other := start + test.size + first.size + 1
    test.layout start other ++ (first.layout (start + test.size) ++
      (.branch .always (other + second.size) :: second.layout other))

/-- The code that begins at an index and branches away to a target. -/
def Condition.layout (start target : Nat) : Condition → List Instr
  | .branch operands test => operands.layout start ++ [.branch test target]
  | .constant leaves => if leaves then [.branch .always target] else []
  | .either first second =>
    first.layout start target ++ second.layout (start + first.size) target
  | .skipping skip second =>
    skip.layout start (start + skip.size + second.size) ++
      second.layout (start + skip.size) target

end

/-- The indices of the branches by which a condition is left. -/
def Condition.exits (start : Nat) : Condition → List Nat
  | .branch operands _ => [start + operands.size]
  | .constant leaves => if leaves then [start] else []
  | .either first second => first.exits start ++ second.exits (start + first.size)
  | .skipping skip second => second.exits (start + skip.size)

/-- Instructions in order. -/
def Block.ofList : List Instr → Block
  | [] => .nil
  | first :: rest => .seq (.instr first) (ofList rest)

mutual

@[simp] theorem Block.length_layout (start : Nat) :
    (block : Block) → (block.layout start).length = block.size
  | .nil => rfl
  | .instr _ => rfl
  | .seq first second => by
    simp [Block.layout, Block.size, first.length_layout, second.length_layout]
  | .choice test first second => by
    simp only [Block.layout, Block.size, List.length_append, List.length_cons,
      test.length_layout, first.length_layout, second.length_layout]
    omega

@[simp] theorem Condition.length_layout (start target : Nat) :
    (condition : Condition) → (condition.layout start target).length = condition.size
  | .branch operands _ => by simp [Condition.layout, Condition.size, operands.length_layout]
  | .constant leaves => by cases leaves <;> rfl
  | .either first second => by
    simp [Condition.layout, Condition.size, first.length_layout, second.length_layout]
  | .skipping skip second => by
    simp [Condition.layout, Condition.size, skip.length_layout, second.length_layout]

end

theorem Condition.exits_bounds {start index : Nat} :
    (condition : Condition) → index ∈ condition.exits start →
      start ≤ index ∧ index < start + condition.size
  | .branch operands _, isExit => by
    simp only [exits, List.mem_singleton] at isExit
    simp only [size]
    omega
  | .constant leaves, isExit => by cases leaves <;> simp_all [exits, size]
  | .either first second, isExit => by
    simp only [exits, List.mem_append] at isExit
    simp only [size]
    rcases isExit with inFirst | inSecond
    · have := exits_bounds first inFirst
      omega
    · have := exits_bounds second inSecond
      omega
  | .skipping skip second, isExit => by
    have := exits_bounds second isExit
    simp only [size]
    omega

/-! ### Landing -/

/-- Instructions that are numbered from an index, with some branches moved to a target. -/
def landed (branches : List Nat) (target start : Nat) (instrs : List Instr) : List Instr :=
  instrs.mapIdx fun index instr => if start + index ∈ branches then instr.retarget target else instr

section Landing

variable {branches : List Nat} {target start : Nat} {instrs : List Instr}

@[simp] theorem length_landed : (landed branches target start instrs).length = instrs.length := by
  simp [landed]

theorem landed_append (first second : List Instr) :
    landed branches target start (first ++ second) =
      landed branches target start first ++
        landed branches target (start + first.length) second := by
  simp only [landed, List.mapIdx_append]
  congr 2
  funext index instr
  rw [show start + (index + first.length) = start + first.length + index by omega]

theorem landed_of_disjoint (instrs : List Instr)
    (disjoint : ∀ index ∈ branches, index < start ∨ start + instrs.length ≤ index) :
    landed branches target start instrs = instrs := by
  apply List.ext_getElem? fun index => ?_
  simp only [landed, List.getElem?_mapIdx]
  by_cases inside : index < instrs.length
  · have notLanded : start + index ∉ branches := by
      intro isLanded
      have := disjoint _ isLanded
      omega
    simp [notLanded]
  · simp [List.getElem?_eq_none (Nat.le_of_not_lt inside)]

@[simp] theorem landed_nil : landed [] target start instrs = instrs :=
  landed_of_disjoint instrs (by simp)

@[simp] theorem landed_singleton (instr : Instr) :
    landed branches target start [instr] =
      [if start ∈ branches then instr.retarget target else instr] := by
  simp [landed]

theorem landed_cons (first : Instr) (rest : List Instr) :
    landed branches target start (first :: rest) =
      (if start ∈ branches then first.retarget target else first) ::
        landed branches target (start + 1) rest := by
  rw [← List.singleton_append, landed_append, landed_singleton]
  rfl

/-- Landing some branches more leaves code alone in which they do not stand. -/
theorem landed_append_left (branches : List Nat) {others : List Nat}
    (disjoint : ∀ index ∈ others, index < start ∨ start + instrs.length ≤ index) :
    landed (branches ++ others) target start instrs = landed branches target start instrs := by
  apply List.ext_getElem? fun index => ?_
  simp only [landed, List.getElem?_mapIdx]
  by_cases inside : index < instrs.length
  · have notLanded : start + index ∉ others := by
      intro isLanded
      have := disjoint _ isLanded
      omega
    simp [notLanded]
  · simp [List.getElem?_eq_none (Nat.le_of_not_lt inside)]

theorem landed_append_right {others : List Nat}
    (disjoint : ∀ index ∈ others, index < start ∨ start + instrs.length ≤ index) :
    landed (others ++ branches) target start instrs = landed branches target start instrs := by
  rw [← landed_append_left branches disjoint]
  simp only [landed, List.mem_append, or_comm]

end Landing

/-- **Landing the exits of a condition gives its layout.** -/
theorem Condition.landed_layout (start target : Nat) :
    (condition : Condition) →
      landed (condition.exits start) target start (condition.layout start 0) =
        condition.layout start target
  | .branch operands test => by
    rw [layout, exits, landed_append, landed_of_disjoint]
    · simp [layout, Instr.retarget]
    · simp
  | .constant leaves => by cases leaves <;> simp [layout, exits, Instr.retarget]
  | .either first second => by
    have before : ∀ index ∈ second.exits (start + first.size),
        index < start ∨ start + (first.layout start 0).length ≤ index := by
      intro index isExit
      have := exits_bounds second isExit
      simp only [length_layout]
      omega
    have behind : ∀ index ∈ first.exits start, index < start + first.size ∨
        start + first.size + (second.layout (start + first.size) 0).length ≤ index := by
      intro index isExit
      have := exits_bounds first isExit
      omega
    rw [layout, exits, landed_append, landed_append_left _ before, length_layout,
      landed_append_right behind, landed_layout start target first,
      landed_layout (start + first.size) target second, layout]
  | .skipping skip second => by
    have before : ∀ index ∈ second.exits (start + skip.size), index < start ∨
        start + (skip.layout start (start + skip.size + second.size)).length ≤ index := by
      intro index isExit
      have := exits_bounds second isExit
      simp only [length_layout]
      omega
    rw [layout, exits, landed_append, landed_of_disjoint _ before, length_layout,
      landed_layout (start + skip.size) target second, layout]

end MethodPatch
