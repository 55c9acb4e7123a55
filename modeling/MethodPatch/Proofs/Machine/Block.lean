/-
**Runs of structured code.**

What a block does to the data can be said without a place in the code: instructions change the data,
and a condition decides between two blocks. The machine does the same in every code that holds the
layout of the block, and it stays in the layout until it is done.

* `Block.run`, `Condition.run`: data to data;
* `Block.reaches`, `Condition.reaches`: the machine runs layouts alike.
-/

import MethodPatch.Proofs.Layout.Block
import MethodPatch.Proofs.Machine.Step

namespace MethodPatch

mutual

/-- What a block does to the data. -/
def Block.run (pool : Pool) : Block → Data → Option Data
  | .nil, data => some data
  | .instr instr, data => instr.apply pool data
  | .seq first second, data => (first.run pool data).bind (second.run pool)
  | .choice test first second, data =>
    match test.run pool data with
    | none => none
    | some (true, behind) => second.run pool behind
    | some (false, behind) => first.run pool behind

/-- Whether a condition branches away, and what it does to the data. -/
def Condition.run (pool : Pool) : Condition → Data → Option (Bool × Data)
  | .branch operands test, data => (operands.run pool data).bind test.decide
  | .constant leaves, data => some (leaves, data)
  | .either first second, data =>
    match first.run pool data with
    | none => none
    | some (true, behind) => some (true, behind)
    | some (false, behind) => second.run pool behind
  | .skipping skip second, data =>
    match skip.run pool data with
    | none => none
    | some (true, behind) => some (false, behind)
    | some (false, behind) => second.run pool behind

end

section

variable {code : List Instr} {pool : Pool} {data behind : Data}

/-- A step over an instruction that changes the data. -/
theorem step_apply {index : Nat} {instr : Instr} (found : code[index]? = some instr)
    (applied : instr.apply pool data = some behind) :
    step code pool ⟨index, data⟩ = some ⟨index + 1, behind⟩ := by
  unfold step
  rw [found]
  cases instr with
  | branch test target => cases applied
  | _ =>
    dsimp only
    rw [applied]
    rfl

/-- A step over a branch. -/
theorem step_branch {index target : Nat} {test : Test} {taken : Bool}
    (found : code[index]? = some (.branch test target))
    (decided : test.decide data = some (taken, behind)) :
    step code pool ⟨index, data⟩ = some ⟨if taken then target else index + 1, behind⟩ := by
  unfold step
  rw [found]
  dsimp only
  rw [decided]
  rfl

end

section

variable {code : List Instr} {pool : Pool}

mutual

/-- **The machine runs a block** from the beginning of its layout to the end. -/
theorem Block.reaches {start : Nat} {data behind : Data} :
    (block : Block) → PartAt code start (block.layout start) →
      block.run pool data = some behind →
      Reaches code pool start (start + block.size) ⟨start, data⟩ ⟨start + block.size, behind⟩
  | .nil, _, ran => by
    cases ran
    exact .refl _
  | .instr instr, here, ran =>
    .single (Nat.le_refl _) (Nat.lt_succ_self _) (step_apply here.head ran)
  | .seq first second, here, ran => by
    simp only [Block.run, Option.bind_eq_some_iff] at ran
    obtain ⟨middle, ranFirst, ranSecond⟩ := ran
    have firstReaches := first.reaches here.left ranFirst
    have there := here.right
    rw [first.length_layout] at there
    have secondReaches := second.reaches there ranSecond
    rw [Block.size, ← Nat.add_assoc]
    exact (firstReaches.widen (Nat.le_refl _) (Nat.le_add_right _ _)).trans
      (secondReaches.widen (Nat.le_add_right _ _) (Nat.le_refl _))
  | .choice test first second, here, ran => by
    have atTest := here.left
    have behindTest := here.right
    rw [test.length_layout] at behindTest
    have atFirst := behindTest.left
    have behindFirst := behindTest.right
    rw [first.length_layout] at behindFirst
    have size : (Block.choice test first second).size =
        test.size + first.size + 1 + second.size := rfl
    simp only [Block.run] at ran
    split at ran
    · cases ran
    · next middle tested =>
      have skips := test.reaches atTest tested
      have secondReaches := second.reaches behindFirst.tail ran
      rw [size]
      simp only [← Nat.add_assoc]
      exact (skips.widen (Nat.le_refl _) (by omega)).trans
        (secondReaches.widen (by omega) (Nat.le_refl _))
    · next middle tested =>
      have goesOn := test.reaches atTest tested
      have firstReaches := first.reaches atFirst ran
      have jumps : step code pool ⟨start + test.size + first.size, behind⟩ =
          some ⟨start + test.size + first.size + 1 + second.size, behind⟩ :=
        step_branch behindFirst.head rfl
      rw [size]
      simp only [← Nat.add_assoc]
      refine ((goesOn.widen (Nat.le_refl _) (by omega)).trans
        (firstReaches.widen (by omega) (by omega))).trans
          (.single (by dsimp only; omega) (by dsimp only; omega) jumps)

/-- **The machine runs a condition** to its target or to the end of its layout. -/
theorem Condition.reaches {start target : Nat} {data behind : Data} {leaves : Bool} :
    (condition : Condition) → PartAt code start (condition.layout start target) →
      condition.run pool data = some (leaves, behind) →
      Reaches code pool start (start + condition.size) ⟨start, data⟩
        ⟨if leaves then target else start + condition.size, behind⟩
  | .branch operands test, here, ran => by
    simp only [Condition.run, Option.bind_eq_some_iff] at ran
    obtain ⟨middle, ranOperands, decided⟩ := ran
    have atBranch := here.right.head
    rw [operands.length_layout] at atBranch
    have operandsReach := operands.reaches here.left ranOperands
    exact (operandsReach.widen (Nat.le_refl _) (Nat.le_add_right _ 1)).trans
      (.single (Nat.le_add_right _ _) (Nat.lt_succ_self _) (step_branch atBranch decided))
  | .constant true, here, ran => by
    cases ran
    exact .single (Nat.le_refl _) (Nat.lt_succ_self _) (step_branch here.head rfl)
  | .constant false, here, ran => by
    cases ran
    exact .refl _
  | .either first second, here, ran => by
    have atSecond := here.right
    rw [first.length_layout] at atSecond
    have size : (Condition.either first second).size = first.size + second.size := rfl
    simp only [Condition.run] at ran
    split at ran
    · cases ran
    · next middle left =>
      cases ran
      exact (first.reaches here.left left).widen (Nat.le_refl _) (by omega)
    · next middle left =>
      have firstReaches := first.reaches here.left left
      have secondReaches := second.reaches atSecond ran
      rw [size, ← Nat.add_assoc]
      exact (firstReaches.widen (Nat.le_refl _) (by omega)).trans
        (secondReaches.widen (by omega) (Nat.le_refl _))
  | .skipping skip second, here, ran => by
    have atSecond := here.right
    rw [skip.length_layout] at atSecond
    have size : (Condition.skipping skip second).size = skip.size + second.size := rfl
    simp only [Condition.run] at ran
    split at ran
    · cases ran
    · next middle skips =>
      cases ran
      rw [size, ← Nat.add_assoc]
      exact (skip.reaches here.left skips).widen (Nat.le_refl _) (by omega)
    · next middle goesOn =>
      have skipReaches := skip.reaches here.left goesOn
      have secondReaches := second.reaches atSecond ran
      rw [size, ← Nat.add_assoc]
      exact (skipReaches.widen (Nat.le_refl _) (by omega)).trans
        (secondReaches.widen (by omega) (Nat.le_refl _))

end

/-- A condition is left by a branch, which is a step. -/
theorem Condition.advances {start target : Nat} {data behind : Data} :
    (condition : Condition) → PartAt code start (condition.layout start target) →
      condition.run pool data = some (true, behind) →
      Advances code pool start (start + condition.size) ⟨start, data⟩ ⟨target, behind⟩
  | .branch operands test, here, ran => by
    simp only [Condition.run, Option.bind_eq_some_iff] at ran
    obtain ⟨middle, ranOperands, decided⟩ := ran
    have atBranch := here.right.head
    rw [operands.length_layout] at atBranch
    have operandsReach := operands.reaches here.left ranOperands
    exact (operandsReach.widen (Nat.le_refl _) (Nat.le_add_right _ 1)).advances
      (.single (Nat.le_add_right _ _) (Nat.lt_succ_self _) (step_branch atBranch decided))
  | .constant true, here, ran => by
    cases ran
    exact .single (Nat.le_refl _) (Nat.lt_succ_self _) (step_branch here.head rfl)
  | .constant false, here, ran => by cases ran
  | .either first second, here, ran => by
    have atSecond := here.right
    rw [first.length_layout] at atSecond
    have size : (Condition.either first second).size = first.size + second.size := rfl
    simp only [Condition.run] at ran
    split at ran
    · cases ran
    · next middle left =>
      cases ran
      exact (first.advances here.left left).widen (Nat.le_refl _) (by omega)
    · next middle left =>
      rw [size, ← Nat.add_assoc]
      exact ((first.reaches here.left left).widen (Nat.le_refl _) (by omega)).advances
        ((second.advances atSecond ran).widen (by omega) (Nat.le_refl _))
  | .skipping skip second, here, ran => by
    have atSecond := here.right
    rw [skip.length_layout] at atSecond
    have size : (Condition.skipping skip second).size = skip.size + second.size := rfl
    simp only [Condition.run] at ran
    split at ran
    · cases ran
    · cases ran
    · next middle goesOn =>
      rw [size, ← Nat.add_assoc]
      exact ((skip.reaches here.left goesOn).widen (Nat.le_refl _) (by omega)).advances
        ((second.advances atSecond ran).widen (by omega) (Nat.le_refl _))

end

end MethodPatch
