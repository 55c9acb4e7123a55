/-
**Generating code that fits the operand stack.**

`Generator.Paves` is `Generator.Lays` with the depths: the block fits the depth that the generator
follows, its end is followed too, and the depths on the way are recorded in the largest one.
Lowered expressions say no more of their code than how much deeper the stack is behind it:

* `Generator.Raises base slots after`: a block was generated that puts slots on the stack, if its
  calls are counted in full;
* `Generator.Splits base branches after`: a condition was generated, which leaves the stack alone;
* `Raises.push`, `Raises.trans`, `Raises.choice`: how code that raises is put together.
-/

import MethodPatch.Proofs.Stack.Counted
import MethodPatch.Proofs.Stack.Depths

namespace MethodPatch.Generator

/-- The depth that is followed has been recorded. -/
def Recorded (generator : Generator) : Prop :=
  Body.recordedDepth generator.body.depth ≤ generator.body.maxStack

/-- Depths were recorded between two states. -/
structure Records (before : Generator) (depths : List Nat) (after : Generator) : Prop where
  grows : before.body.maxStack ≤ after.body.maxStack
  recorded : before.Recorded → after.Recorded
  depths : before.Recorded → ∀ depth ∈ depths, Body.recordedDepth depth ≤ after.body.maxStack

/-- A block was appended that fits the depth of the stack. -/
structure Paves (before : Generator) (block : Block) (after : Generator) : Prop extends
    Lays before block after where
  fits : block.Fits before.body.depth
  depth : after.body.depth = block.leaves before.body.depth
  records : before.Records (block.depths before.body.depth) after

/-- A condition was appended that fits the depth of the stack. -/
structure Forks (before : Generator) (condition : Condition) (branches : List Nat)
    (after : Generator) : Prop extends Branches before condition branches after where
  fits : condition.Fits before.body.depth
  depth : after.body.depth = before.body.depth
  records : before.Records (condition.depths before.body.depth) after

section Records

variable {before middle after : Generator} {depths others : List Nat}

theorem Records.refl (generator : Generator) : generator.Records [] generator :=
  ⟨Nat.le_refl _, id, by simp⟩

theorem Records.trans (first : before.Records depths middle) (second : middle.Records others after) :
    before.Records (depths ++ others) after where
  grows := Nat.le_trans first.grows second.grows
  recorded := fun recorded => second.recorded (first.recorded recorded)
  depths := by
    intro recorded depth isDepth
    rcases List.mem_append.mp isDepth with inFirst | inSecond
    · exact Nat.le_trans (first.depths recorded depth inFirst) second.grows
    · exact second.depths (first.recorded recorded) depth inSecond

theorem Records.push (generator : Generator) (instr : Instr) :
    generator.Records [generator.body.depth] (generator.push instr) where
  grows := by
    rw [maxStack_push]
    omega
  recorded := by
    intro _
    rw [Recorded, maxStack_push]
    omega
  depths := by
    intro recorded depth isDepth
    rw [List.mem_singleton.mp isDepth, maxStack_push]
    exact Nat.le_trans recorded (Nat.le_max_left _ _)

theorem Records.setDepth (generator : Generator) (depth : Nat) :
    generator.Records [] (generator.setDepth depth) where
  grows := by
    rw [maxStack_setDepth]
    omega
  recorded := by
    intro _
    rw [Recorded, maxStack_setDepth, depth_setDepth]
    omega
  depths := by simp

theorem Records.withPool (generator : Generator) (pool : Pool) :
    generator.Records [] (generator.withPool pool) :=
  ⟨Nat.le_refl _, id, by simp⟩

theorem Records.land (generator : Generator) (branches : List Nat) (target : Nat) :
    generator.Records [] (generator.land branches target) where
  grows := by simp
  recorded := by simp [Recorded]
  depths := by simp

end Records

section Paves

variable {before middle after : Generator} {first second : Block}

theorem Paves.nil (generator : Generator) : generator.Paves .nil generator :=
  ⟨.nil generator, trivial, rfl, .refl generator⟩

theorem Paves.push {instr : Instr} (enough : instr.pops ≤ before.body.depth)
    (goesOn : instr.isTerminator = false) : before.Paves (.instr instr) (before.push instr) where
  toLays := .push before instr
  fits := ⟨enough, goesOn⟩
  depth := by rw [depth_push, Instr.effect_eq _ _ enough, Block.leaves]
  records := .push before instr

theorem Paves.withPool {pool : Pool} (grows : before.body.pool.Grows pool) :
    before.Paves .nil (before.withPool pool) :=
  ⟨.withPool grows, trivial, rfl, .withPool before pool⟩

theorem Paves.trans (paved : before.Paves first middle) (behind : middle.Paves second after) :
    before.Paves (.seq first second) after where
  toLays := paved.toLays.trans behind.toLays
  fits := ⟨paved.fits, paved.depth ▸ behind.fits⟩
  depth := by rw [behind.depth, paved.depth, Block.leaves]
  records := by
    have records := paved.records.trans behind.records
    rwa [paved.depth] at records

/-- **The way in which choices are generated**, with both ways through them. -/
theorem Paves.choice {tested chosen : Generator} {test : Condition} {skips : List Nat}
    (condition : before.Forks test skips tested) (holds : tested.Paves first chosen)
    (fails : (((chosen.push (.branch .always 0)).land skips (chosen.size + 1)).setDepth
      tested.body.depth).Paves second after)
    (same : after.body.depth = chosen.body.depth) :
    before.Paves (.choice test first second) (after.land [chosen.size] after.size) where
  toLays := .choice condition.toBranches holds.toLays fails.toLays
  fits := by
    refine ⟨condition.fits, condition.depth ▸ holds.fits, condition.depth ▸ fails.fits, ?_⟩
    have first := holds.depth
    have second := fails.depth
    rw [condition.depth] at first
    rw [depth_setDepth, condition.depth] at second
    rw [← first, ← second, same]
  depth := by rw [depth_land, same, holds.depth, condition.depth, Block.leaves]
  records := by
    have jump := (Records.push chosen (.branch .always 0)).trans
      ((Records.land _ skips (chosen.size + 1)).trans (Records.setDepth _ tested.body.depth))
    have whole := condition.records.trans (holds.records.trans (jump.trans
      (fails.records.trans (Records.land after [chosen.size] after.size))))
    simpa [Block.depths, holds.depth, condition.depth] using whole

end Paves

section Forks

variable {before middle after : Generator} {first second : Condition} {skips branches : List Nat}

theorem Forks.branch {operands : Block} {test : Test} (paved : before.Paves operands middle)
    (deep : middle.body.depth = before.body.depth + test.operands) :
    before.Forks (.branch operands test) [middle.size] (middle.push (.branch test 0)) where
  toBranches := .branch paved.toLays test
  fits := ⟨paved.fits, by rw [← paved.depth, deep]⟩
  depth := by
    rw [depth_push, Instr.effect_eq] <;> simp only [Instr.pops, Instr.pushes] <;> omega
  records := by
    have records := paved.records.trans (.push middle (.branch test 0))
    rwa [paved.depth] at records

theorem Forks.always (generator : Generator) :
    generator.Forks (.constant true) [generator.size] (generator.push (.branch .always 0)) where
  toBranches := .always generator
  fits := trivial
  depth := rfl
  records := .push generator _

theorem Forks.never (generator : Generator) : generator.Forks (.constant false) [] generator where
  toBranches := .never generator
  fits := trivial
  depth := rfl
  records := .refl generator

theorem Forks.either (forked : before.Forks first skips middle)
    (behind : middle.Forks second branches after) :
    before.Forks (.either first second) (skips ++ branches) after where
  toBranches := .either forked.toBranches behind.toBranches
  fits := ⟨forked.fits, forked.depth ▸ behind.fits⟩
  depth := behind.depth.trans forked.depth
  records := by
    have records := forked.records.trans behind.records
    rwa [forked.depth] at records

theorem Forks.skipping (forked : before.Forks first skips middle)
    (behind : middle.Forks second branches after) :
    before.Forks (.skipping first second) branches (after.land skips after.size) where
  toBranches := .skipping forked.toBranches behind.toBranches
  fits := ⟨forked.fits, forked.depth ▸ behind.fits⟩
  depth := by rw [depth_land, behind.depth, forked.depth]
  records := by
    have records := forked.records.trans (behind.records.trans (.land after skips after.size))
    rw [forked.depth] at records
    simpa [Condition.depths] using records

end Forks

/-! ### How much deeper the stack is -/

/-- Code was generated that puts slots on the stack, if its calls are counted in full. -/
def Raises (base : Generator) (slots : Nat) (after : Generator) : Prop :=
  ∃ block, base.Lays block after ∧
    (after.Counted → base.Paves block after ∧ after.body.depth = base.body.depth + slots)

/-- A condition was generated. It leaves the stack as it was whatever its outcome is, if its calls are
counted in full. -/
def Splits (base : Generator) (branches : List Nat) (after : Generator) : Prop :=
  ∃ condition, base.Branches condition branches after ∧
    (after.Counted → base.Forks condition branches after)

section Raises

variable {base before middle after : Generator} {slots count : Nat} {skips branches : List Nat}

theorem Raises.refl (generator : Generator) : generator.Raises 0 generator :=
  ⟨.nil, .nil generator, fun _ => ⟨.nil generator, rfl⟩⟩

theorem Raises.trans (first : base.Raises slots middle) (second : middle.Raises count after) :
    base.Raises (slots + count) after := by
  obtain ⟨_, laid, first⟩ := first
  obtain ⟨_, behind, second⟩ := second
  refine ⟨_, laid.trans behind, fun counted => ?_⟩
  obtain ⟨paved, depth⟩ := first (counted.ofLays behind)
  obtain ⟨pavedBehind, deeper⟩ := second counted
  exact ⟨paved.trans pavedBehind, by omega⟩

/-- What an instruction does to the stack may depend on its being counted in full. -/
theorem Raises.pushCounted {instr : Instr} (raises : base.Raises slots before)
    (goesOn : instr.isTerminator = false)
    (effect : (before.push instr).Counted →
      instr.pops ≤ slots ∧ count = slots - instr.pops + instr.pushes) :
    base.Raises count (before.push instr) := by
  obtain ⟨_, laid, raised⟩ := raises
  refine ⟨_, laid.trans (.push before instr), fun counted => ?_⟩
  obtain ⟨enough, leaves⟩ := effect counted
  obtain ⟨paved, depth⟩ := raised counted.ofPush
  refine ⟨paved.trans (.push (by omega) goesOn), ?_⟩
  rw [depth_push, Instr.effect_eq _ _ (by omega)]
  omega

theorem Raises.push {instr : Instr} (raises : base.Raises slots before)
    (goesOn : instr.isTerminator = false) (enough : instr.pops ≤ slots)
    (leaves : count = slots - instr.pops + instr.pushes) :
    base.Raises count (before.push instr) :=
  raises.pushCounted goesOn fun _ => ⟨enough, leaves⟩

theorem Raises.withPool {pool : Pool} (raises : base.Raises slots before)
    (grows : before.body.pool.Grows pool) : base.Raises slots (before.withPool pool) := by
  obtain ⟨_, laid, raised⟩ := raises
  refine ⟨_, laid.trans (.withPool grows), fun counted => ?_⟩
  obtain ⟨paved, depth⟩ := raised (counted.ofLays (.withPool grows))
  exact ⟨paved.trans (.withPool grows), depth⟩

theorem Raises.choice {tested chosen : Generator} (raises : base.Raises slots before)
    (condition : before.Splits skips tested) (holds : tested.Raises count chosen)
    (fails : (((chosen.push (.branch .always 0)).land skips
      (chosen.push (.branch .always 0)).size).setDepth tested.body.depth).Raises count after) :
    base.Raises (slots + count) (after.land [chosen.size] after.size) := by
  obtain ⟨_, laid, raised⟩ := raises
  obtain ⟨_, branched, forked⟩ := condition
  obtain ⟨_, laidFirst, raisedFirst⟩ := holds
  rw [size_push] at fails
  obtain ⟨_, laidSecond, raisedSecond⟩ := fails
  refine ⟨_, laid.trans (.choice branched laidFirst laidSecond), fun counted => ?_⟩
  have countedFirst : chosen.Counted :=
    (counted.ofLand.ofLays laidSecond).ofSetDepth.ofLand.ofPush
  have countedTest := countedFirst.ofLays laidFirst
  obtain ⟨paved, depth⟩ := raised (countedTest.ofBranches branched)
  have forked := forked countedTest
  obtain ⟨first, firstDepth⟩ := raisedFirst countedFirst
  obtain ⟨second, secondDepth⟩ := raisedSecond counted.ofLand
  have same : after.body.depth = chosen.body.depth := by
    rw [firstDepth, secondDepth, depth_setDepth]
  refine ⟨paved.trans (.choice forked first second same), ?_⟩
  rw [depth_land, secondDepth, depth_setDepth, forked.depth, depth]
  omega

theorem Splits.branch {test : Test} (raises : base.Raises test.operands middle) :
    base.Splits [middle.size] (middle.push (.branch test 0)) := by
  obtain ⟨_, laid, raised⟩ := raises
  refine ⟨_, .branch laid test, fun counted => ?_⟩
  obtain ⟨paved, depth⟩ := raised counted.ofPush
  exact .branch paved depth

theorem Splits.always (generator : Generator) :
    generator.Splits [generator.size] (generator.push (.branch .always 0)) :=
  ⟨_, .always generator, fun _ => .always generator⟩

theorem Splits.never (generator : Generator) : generator.Splits [] generator :=
  ⟨_, .never generator, fun _ => .never generator⟩

theorem Splits.either (first : before.Splits skips middle)
    (second : middle.Splits branches after) : before.Splits (skips ++ branches) after := by
  obtain ⟨_, branched, forked⟩ := first
  obtain ⟨_, behind, forkedBehind⟩ := second
  exact ⟨_, branched.either behind, fun counted =>
    (forked (counted.ofBranches behind)).either (forkedBehind counted)⟩

theorem Splits.skipping (first : before.Splits skips middle)
    (second : middle.Splits branches after) :
    before.Splits branches (after.land skips after.size) := by
  obtain ⟨_, branched, forked⟩ := first
  obtain ⟨_, behind, forkedBehind⟩ := second
  exact ⟨_, branched.skipping behind, fun counted =>
    (forked (counted.ofLand.ofBranches behind)).skipping (forkedBehind counted.ofLand)⟩

end Raises

end MethodPatch.Generator
