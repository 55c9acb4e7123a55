/-
**What generating leaves in a generator.**

`Generator.Lays before block after`: between two states of a generator the layout of a block was
appended to the code, constants to the pool, and no slots of local variables were taken.
`Generator.Branches` says the same of a condition whose branches have no target yet.

* `Lays.trans`: code behind code;
* `Lays.choice`: the way in which choices are generated, with branches that are landed later, gives
  the layout of a choice;
* `Branches.either`, `Branches.skipping`: two conditions that branch away alike, and a condition that
  is skipped by another one.
-/

import MethodPatch.Proofs.Constants.Growth
import MethodPatch.Proofs.Emission.Yields

namespace MethodPatch.Generator

/-- The layout of a block was appended to the code. -/
structure Lays (before : Generator) (block : Block) (after : Generator) : Prop where
  instrs : after.instrs = before.instrs ++ block.layout before.size
  pool : before.body.pool.Grows after.body.pool
  maxLocals : after.maxLocals = before.maxLocals

/-- The layout of a condition was appended to the code. Its branches still go to instruction zero. -/
structure Branches (before : Generator) (condition : Condition) (branches : List Nat)
    (after : Generator) : Prop where
  instrs : after.instrs = before.instrs ++ condition.layout before.size 0
  exits : branches = condition.exits before.size
  pool : before.body.pool.Grows after.body.pool
  maxLocals : after.maxLocals = before.maxLocals

section Lays

variable {before middle after : Generator} {first second : Block}

theorem Lays.size (laid : before.Lays first after) : after.size = before.size + first.size := by
  rw [← length_instrs, laid.instrs]
  simp

theorem Lays.nil (generator : Generator) : generator.Lays .nil generator :=
  ⟨by simp [Block.layout], .refl _, rfl⟩

theorem Lays.push (generator : Generator) (instr : Instr) :
    generator.Lays (.instr instr) (generator.push instr) :=
  ⟨by simp [Block.layout], .refl _, rfl⟩

theorem Lays.withPool {generator : Generator} {pool : Pool}
    (grows : generator.body.pool.Grows pool) : generator.Lays .nil (generator.withPool pool) :=
  ⟨by simp [Block.layout], grows, rfl⟩

theorem Lays.trans (laid : before.Lays first middle) (behind : middle.Lays second after) :
    before.Lays (.seq first second) after where
  instrs := by
    rw [behind.instrs, laid.instrs, laid.size, Block.layout, List.append_assoc]
  pool := laid.pool.trans behind.pool
  maxLocals := behind.maxLocals.trans laid.maxLocals

end Lays

section Branches

variable {before middle after : Generator} {first second : Condition} {skips branches : List Nat}

theorem Branches.size (laid : before.Branches first branches after) :
    after.size = before.size + first.size := by
  rw [← length_instrs, laid.instrs]
  simp

/-- Landing branches that stand in one part of the code. -/
theorem instrs_land_part {generator : Generator} {branches : List Nat}
    {front part rest : List Instr} (target : Nat)
    (code : generator.instrs = front ++ (part ++ rest))
    (inside : ∀ index ∈ branches, front.length ≤ index ∧ index < front.length + part.length) :
    (generator.land branches target).instrs =
      front ++ (landed branches target front.length part ++ rest) := by
  rw [instrs_land, code, landed_append, landed_append, Nat.zero_add]
  congr 1
  · refine landed_of_disjoint _ fun index isBranch => ?_
    have := inside index isBranch
    omega
  · congr 1
    refine landed_of_disjoint _ fun index isBranch => ?_
    have := inside index isBranch
    omega

/-- Landing the exits of a condition that stands somewhere in the code. -/
theorem instrs_land_exits {generator : Generator} {front rest : List Instr}
    (target : Nat) (code : generator.instrs = front ++ (first.layout front.length 0 ++ rest)) :
    (generator.land (first.exits front.length) target).instrs =
      front ++ (first.layout front.length target ++ rest) := by
  rw [instrs_land_part target code, Condition.landed_layout]
  intro index isExit
  simpa using first.exits_bounds isExit

theorem Branches.branch {operands : Block} (laid : before.Lays operands middle) (test : Test) :
    before.Branches (.branch operands test) [middle.size] (middle.push (.branch test 0)) where
  instrs := by rw [instrs_push, laid.instrs, Condition.layout, List.append_assoc]
  exits := by rw [laid.size, Condition.exits]
  pool := laid.pool
  maxLocals := laid.maxLocals

theorem Branches.always (generator : Generator) :
    generator.Branches (.constant true) [generator.size] (generator.push (.branch .always 0)) :=
  ⟨by simp [Condition.layout], rfl, .refl _, rfl⟩

theorem Branches.never (generator : Generator) :
    generator.Branches (.constant false) [] generator :=
  ⟨by simp [Condition.layout], rfl, .refl _, rfl⟩

theorem Branches.either (laid : before.Branches first skips middle)
    (behind : middle.Branches second branches after) :
    before.Branches (.either first second) (skips ++ branches) after where
  instrs := by
    rw [behind.instrs, laid.instrs, laid.size, Condition.layout, List.append_assoc]
  exits := by rw [laid.exits, behind.exits, laid.size, Condition.exits]
  pool := laid.pool.trans behind.pool
  maxLocals := behind.maxLocals.trans laid.maxLocals

theorem Branches.skipping (laid : before.Branches first skips middle)
    (behind : middle.Branches second branches after) :
    before.Branches (.skipping first second) branches (after.land skips after.size) where
  instrs := by
    have code : after.instrs = before.instrs ++
        (first.layout before.instrs.length 0 ++ second.layout (before.size + first.size) 0) := by
      rw [behind.instrs, laid.instrs, laid.size, length_instrs, List.append_assoc]
    have exits : skips = first.exits before.instrs.length := by rw [laid.exits, length_instrs]
    rw [exits, instrs_land_exits after.size code, behind.size, laid.size, length_instrs,
      Condition.layout]
  exits := by rw [behind.exits, laid.size, Condition.exits]
  pool := by
    rw [pool_land]
    exact laid.pool.trans behind.pool
  maxLocals := behind.maxLocals.trans laid.maxLocals

end Branches

/-- **The way in which choices are generated.** The branches of the test are landed behind the code
of the first outcome, which ends with a branch that is landed behind the code of the second. -/
theorem Lays.choice {before tested chosen after : Generator} {test : Condition} {skips : List Nat}
    {first second : Block} {depth : Nat} (condition : before.Branches test skips tested)
    (holds : tested.Lays first chosen)
    (fails : (((chosen.push (.branch .always 0)).land skips (chosen.size + 1)).setDepth
      depth).Lays second after) :
    before.Lays (.choice test first second) (after.land [chosen.size] after.size) where
  instrs := by
    have chosenSize : chosen.size = before.size + test.size + first.size := by
      rw [holds.size, condition.size]
    have code : (chosen.push (.branch .always 0)).instrs = before.instrs ++
        (test.layout before.instrs.length 0 ++
          (first.layout (before.size + test.size) ++ [Instr.branch .always 0])) := by
      rw [instrs_push, holds.instrs, condition.instrs, condition.size, length_instrs]
      simp only [List.append_assoc]
    have exits : skips = test.exits before.instrs.length := by
      rw [condition.exits, length_instrs]
    have whole := fails.instrs
    rw [instrs_setDepth, size_setDepth, size_land, size_push, exits,
      instrs_land_exits _ code, length_instrs] at whole
    have afterSize : after.size = before.size + test.size + first.size + 1 + second.size := by
      rw [fails.size, size_setDepth, size_land, size_push, chosenSize]
    rw [instrs_land, whole, Block.layout, afterSize, chosenSize]
    simp only [List.append_assoc, landed_append, Condition.length_layout, Block.length_layout,
      length_instrs, Nat.zero_add, List.singleton_append]
    rw [landed_of_disjoint before.instrs, landed_of_disjoint (test.layout _ _),
      landed_of_disjoint (first.layout _)]
    · congr 3
      rw [landed_cons, landed_of_disjoint (second.layout _)]
      · simp [Instr.retarget]
      · simp
    · simp
    · simp
    · simp
      omega
  pool := by
    rw [pool_land]
    refine (condition.pool.trans holds.pool).trans ?_
    simpa using fails.pool
  maxLocals := by
    rw [maxLocals_land, fails.maxLocals, maxLocals_setDepth, maxLocals_land, maxLocals_push,
      holds.maxLocals, condition.maxLocals]

end MethodPatch.Generator
