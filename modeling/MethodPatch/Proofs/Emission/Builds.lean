/-
**What generating statements leaves in a generator.**

`Generator.Builds before chunk exits after`: between two states of a generator the layout of a chunk
was appended to the code. The branches by which the loop around is left are those of `exits`, and
they still go to instruction zero.

* `Builds.whileLoop`, `Builds.doLoop`, `Builds.forLoop`: the three ways in which loops are generated,
  with the branches of their tests and bodies that are landed last, give the layouts of loops.
-/

import MethodPatch.Proofs.Emission.Lays
import MethodPatch.Proofs.Layout.Chunk

namespace MethodPatch

/-- The branches of one way. -/
def LoopExits.branches (exits : LoopExits) : Way → List Nat
  | .out => exits.breaks
  | .next => exits.continues

theorem LoopExits.branches_none (way : Way) : LoopExits.none.branches way = [] := by
  cases way <;> rfl

theorem LoopExits.branches_append (first second : LoopExits) (way : Way) :
    (first ++ second).branches way = first.branches way ++ second.branches way := by
  cases way <;> rfl

namespace Generator

theorem land_append (generator : Generator) (branches others : List Nat) (target : Nat) :
    generator.land (branches ++ others) target =
      (generator.land branches target).land others target := by
  simp [land]

/-- The layout of a chunk was appended to the code. -/
structure Builds (before : Generator) (chunk : Chunk) (exits : LoopExits) (after : Generator) :
    Prop where
  instrs : after.instrs = before.instrs ++ chunk.layout before.size fun _ => 0
  leaving : ∀ way, exits.branches way = chunk.leaving way before.size
  pool : before.body.pool.Grows after.body.pool

namespace Builds

variable {before started tested chosen finished updated middle after : Generator}
  {test : Condition} {first second body : Chunk} {operands updates : Block}
  {exits others : LoopExits} {skips : List Nat}

theorem size (built : before.Builds first exits after) :
    after.size = before.size + first.size := by
  rw [← length_instrs, built.instrs]
  simp

theorem block (laid : before.Lays operands after) : before.Builds (.block operands) .none after :=
  ⟨laid.instrs, LoopExits.branches_none, laid.pool⟩

theorem stop (laid : before.Lays operands middle) (instr : Instr) :
    before.Builds (.stop operands instr) .none (middle.push instr) where
  instrs := by rw [instrs_push, laid.instrs, Chunk.layout, List.append_assoc]
  leaving := LoopExits.branches_none
  pool := laid.pool

theorem seq (built : before.Builds first exits middle) (behind : middle.Builds second others after) :
    before.Builds (.seq first second) (exits ++ others) after where
  instrs := by rw [behind.instrs, built.instrs, built.size, Chunk.layout, List.append_assoc]
  leaving := by
    intro way
    rw [LoopExits.branches_append, built.leaving, behind.leaving, built.size, Chunk.leaving]
  pool := built.pool.trans behind.pool

theorem ifThen (condition : before.Branches test skips tested)
    (holds : tested.Builds body exits after) :
    before.Builds (.ifThen test body) exits (after.land skips after.size) where
  instrs := by
    have code : after.instrs = before.instrs ++ (test.layout before.instrs.length 0 ++
        body.layout (before.size + test.size) fun _ => 0) := by
      rw [holds.instrs, condition.instrs, condition.size, length_instrs, List.append_assoc]
    have isExit : skips = test.exits before.instrs.length := by
      rw [condition.exits, length_instrs]
    rw [isExit, instrs_land_exits _ code, holds.size, condition.size, length_instrs, Chunk.layout]
  leaving := by
    intro way
    rw [holds.leaving, condition.size, Chunk.leaving]
  pool := by
    rw [pool_land]
    exact condition.pool.trans holds.pool

theorem ifElse (condition : before.Branches test skips tested)
    (holds : tested.Builds first exits chosen)
    (fails : ((chosen.push (.branch .always 0)).land skips (chosen.size + 1)).Builds second others
      after) :
    before.Builds (.ifElse test first second) (exits ++ others)
      (after.land [chosen.size] after.size) where
  instrs := by
    have chosenSize : chosen.size = before.size + test.size + first.size := by
      rw [holds.size, condition.size]
    have code : (chosen.push (.branch .always 0)).instrs = before.instrs ++
        (test.layout before.instrs.length 0 ++
          (first.layout (before.size + test.size) (fun _ => 0) ++ [Instr.branch .always 0])) := by
      rw [instrs_push, holds.instrs, condition.instrs, condition.size, length_instrs]
      simp only [List.append_assoc]
    have isExit : skips = test.exits before.instrs.length := by
      rw [condition.exits, length_instrs]
    have whole := fails.instrs
    rw [size_land, size_push, isExit, instrs_land_exits _ code, length_instrs] at whole
    have afterSize : after.size = before.size + test.size + first.size + 1 + second.size := by
      rw [fails.size, size_land, size_push, chosenSize]
    have parts : after.instrs = (before.instrs ++ (test.layout before.size (chosen.size + 1) ++
        first.layout (before.size + test.size) fun _ => 0)) ++
          ([Instr.branch .always 0] ++ second.layout (chosen.size + 1) fun _ => 0) := by
      rw [whole]
      simp only [List.append_assoc]
    rw [instrs_land_part _ parts]
    · simp only [List.length_append, length_instrs, Condition.length_layout, Chunk.length_layout,
        ← Nat.add_assoc, ← chosenSize, landed_singleton, List.mem_singleton, if_true,
        Instr.retarget, Chunk.layout, afterSize, List.append_assoc, List.singleton_append]
    · intro index isJump
      cases List.mem_singleton.mp isJump
      simp [chosenSize, Nat.add_assoc]
  leaving := by
    intro way
    rw [LoopExits.branches_append, holds.leaving, fails.leaving, size_land, size_push, holds.size,
      condition.size, Chunk.leaving]
  pool := by
    rw [pool_land]
    refine (condition.pool.trans holds.pool).trans ?_
    simpa using fails.pool

theorem leave (generator : Generator) (way : Way) {exits : LoopExits}
    (leaving : ∀ other, exits.branches other = if way = other then [generator.size] else []) :
    generator.Builds (.leave way) exits (generator.push (.branch .always 0)) :=
  ⟨by simp [Chunk.layout], leaving, .refl _⟩

/-! ### Loops -/

/-- Landing what leaves the body of a loop, and the test in front of it. -/
theorem instrs_land_loop {generator : Generator} {front rest : List Instr} {out next : Nat}
    (code : generator.instrs = front ++ (test.layout front.length 0 ++
      (body.layout (front.length + test.size) (fun _ => 0) ++ rest)))
    (leaving : ∀ way, exits.branches way = body.leaving way (front.length + test.size)) :
    ((generator.land exits.continues next).land
      (test.exits front.length ++ exits.breaks) out).instrs =
        front ++ (test.layout front.length out ++
          (body.layout (front.length + test.size) (Way.targets out next) ++ rest)) := by
  have frontLength : ∀ target, (front ++ test.layout front.length target).length =
      front.length + test.size := by simp
  rw [← List.append_assoc] at code
  have rounds : (generator.land exits.continues next).instrs =
      front ++ (test.layout front.length 0 ++
        (landed (body.leaving .next (front.length + test.size)) next (front.length + test.size)
          (body.layout (front.length + test.size) fun _ => 0) ++ rest)) := by
    rw [show exits.continues = _ from leaving .next, instrs_land_part next code, frontLength,
      List.append_assoc]
    intro index isLeaving
    simpa [Nat.add_assoc] using body.leaving_bounds isLeaving
  have skips := instrs_land_exits out rounds
  rw [← List.append_assoc] at skips
  rw [land_append, show exits.breaks = _ from leaving .out, instrs_land_part out skips, frontLength,
    Chunk.landed_both, List.append_assoc]
  intro index isLeaving
  simpa [Nat.add_assoc] using body.leaving_bounds isLeaving

theorem whileLoop (condition : before.Branches test skips tested)
    (round : tested.Builds body exits finished) :
    before.Builds (.whileLoop test body) .none
      (((finished.push (.branch .always before.size)).land exits.continues before.size).land
        (skips ++ exits.breaks) (finished.size + 1)) where
  instrs := by
    have code : (finished.push (.branch .always before.size)).instrs = before.instrs ++
        (test.layout before.instrs.length 0 ++
          (body.layout (before.instrs.length + test.size) (fun _ => 0) ++
            [Instr.branch .always before.size])) := by
      rw [instrs_push, round.instrs, condition.instrs, condition.size, length_instrs]
      simp only [List.append_assoc]
    have leaving : ∀ way, exits.branches way =
        body.leaving way (before.instrs.length + test.size) := by
      intro way
      rw [round.leaving, condition.size, length_instrs]
    have isExit : skips = test.exits before.instrs.length := by
      rw [condition.exits, length_instrs]
    rw [isExit, instrs_land_loop code leaving, round.size, condition.size, length_instrs,
      Chunk.layout]
  leaving := LoopExits.branches_none
  pool := by
    rw [pool_land, pool_land, pool_push]
    exact condition.pool.trans round.pool

theorem doLoop (round : before.Builds body exits finished)
    (condition : (finished.setDepth 0).Branches test skips after) :
    before.Builds (.doLoop body test) .none
      (((after.land skips before.size).land exits.continues finished.size).land exits.breaks
        after.size) where
  instrs := by
    have tested := condition.instrs
    rw [instrs_setDepth, size_setDepth, round.instrs, round.size] at tested
    have length : (before.instrs ++ body.layout before.size fun _ => 0).length =
        before.size + body.size := by simp
    have code : after.instrs = (before.instrs ++ body.layout before.size fun _ => 0) ++
        (test.layout (before.instrs ++ body.layout before.size fun _ => 0).length 0 ++ []) := by
      rw [tested, length, List.append_nil]
    have isExit : skips =
        test.exits (before.instrs ++ body.layout before.size fun _ => 0).length := by
      rw [condition.exits, size_setDepth, round.size, length]
    have inBody : ∀ way index, index ∈ body.leaving way before.size →
        before.instrs.length ≤ index ∧ index < before.instrs.length + body.size := by
      intro way index isLeaving
      simpa using body.leaving_bounds isLeaving
    have again := instrs_land_exits before.size code
    rw [← isExit, length, List.append_nil, List.append_assoc] at again
    have rounds : ((after.land skips before.size).land (body.leaving .next before.size)
        finished.size).instrs = _ :=
      instrs_land_part finished.size again (by simpa using inBody .next)
    have outs : (((after.land skips before.size).land (body.leaving .next before.size)
        finished.size).land (body.leaving .out before.size) after.size).instrs = _ :=
      instrs_land_part after.size rounds (by simpa using inBody .out)
    rw [show exits.continues = _ from round.leaving .next,
      show exits.breaks = _ from round.leaving .out, outs, length_instrs, Chunk.landed_both,
      condition.size, size_setDepth, round.size, Chunk.layout]
  leaving := LoopExits.branches_none
  pool := by
    rw [pool_land, pool_land, pool_land]
    exact round.pool.trans condition.pool

theorem forLoop (start : before.Builds first others started)
    (condition : (started.setDepth 0).Branches test skips tested)
    (round : tested.Builds body exits finished) (update : finished.Lays updates updated) :
    before.Builds (.forLoop first test body updates) .none
      (((updated.push (.branch .always started.size)).land exits.continues finished.size).land
        (skips ++ exits.breaks) (updated.size + 1)) where
  instrs := by
    have length : (before.instrs ++ first.layout before.size fun _ => 0).length =
        started.size := by
      rw [start.size]
      simp
    have testedSize : tested.size = started.size + test.size := condition.size
    have code : (updated.push (.branch .always started.size)).instrs =
        (before.instrs ++ first.layout before.size fun _ => 0) ++
          (test.layout (before.instrs ++ first.layout before.size fun _ => 0).length 0 ++
            (body.layout ((before.instrs ++ first.layout before.size fun _ => 0).length + test.size)
              (fun _ => 0) ++
                (updates.layout finished.size ++ [Instr.branch .always started.size]))) := by
      rw [instrs_push, update.instrs, round.instrs, condition.instrs, instrs_setDepth,
        size_setDepth, start.instrs, testedSize, length]
      simp only [List.append_assoc]
    have leaving : ∀ way, exits.branches way = body.leaving way
        ((before.instrs ++ first.layout before.size fun _ => 0).length + test.size) := by
      intro way
      rw [round.leaving, testedSize, length]
    have isExit : skips =
        test.exits (before.instrs ++ first.layout before.size fun _ => 0).length := by
      rw [condition.exits, size_setDepth, length]
    rw [isExit, instrs_land_loop code leaving, length, update.size, round.size, testedSize,
      start.size, Chunk.layout, List.append_assoc]
  leaving := LoopExits.branches_none
  pool := by
    rw [pool_land, pool_land, pool_push]
    exact ((start.pool.trans condition.pool).trans round.pool).trans update.pool

end Builds

end Generator

end MethodPatch
