/-
**Code that does what it is meant to do.**

What code is meant to do is a relation between situations: the words on the operand stack and the
values of the variables, before and after. A block performs the relation if it leads from each
situation to the related one, wherever a frame has put the variables; a condition decides by a
relation likewise, which says for each situation whether it branches away.

* `Generator.Performs`, `Generator.Asks`: code that a generator has appended performs a relation;
* `Performs.trans`, `Performs.choice`: code that is put together performs what its parts do;
* `Asks.either`, `Asks.skipping`: conditions of which the second may be left out;
* `Performs.reaches`, `Asks.reaches`: what the machine does with the code.
-/

import MethodPatch.Proofs.Emission.Lays
import MethodPatch.Proofs.Lowering.Frame

namespace MethodPatch

/-- The words on the operand stack, the last one first, and the values of the variables. -/
structure Situation where
  stack : List Word
  store : Store

namespace Frame

variable {frame : Frame} {pool : Pool} {situation middle final : Situation}

/-- A block leads from one situation to another. -/
def Moves (frame : Frame) (pool : Pool) (block : Block) (situation final : Situation) : Prop :=
  ∀ locals, frame.Holds situation.store locals → ∃ after,
    block.run pool ⟨situation.stack, locals⟩ = some ⟨final.stack, after⟩ ∧
      frame.Holds final.store after ∧ frame.Keeps locals after

/-- A condition branches away or does not, and leads to another situation. -/
def Tests (frame : Frame) (pool : Pool) (condition : Condition) (situation : Situation)
    (leaves : Bool) (final : Situation) : Prop :=
  ∀ locals, frame.Holds situation.store locals → ∃ after,
    condition.run pool ⟨situation.stack, locals⟩ = some (leaves, ⟨final.stack, after⟩) ∧
      frame.Holds final.store after ∧ frame.Keeps locals after

theorem Moves.nil (situation : Situation) : frame.Moves pool .nil situation situation :=
  fun locals holds => ⟨locals, rfl, holds, .refl locals⟩

theorem Moves.seq {first second : Block} (moves : frame.Moves pool first situation middle)
    (behind : frame.Moves pool second middle final) :
    frame.Moves pool (.seq first second) situation final := by
  intro locals holds
  obtain ⟨between, ran, holds, keeps⟩ := moves locals holds
  obtain ⟨after, ranBehind, holds, keepsBehind⟩ := behind between holds
  refine ⟨after, ?_, holds, keeps.trans keepsBehind⟩
  rw [Block.run, ran, Option.bind_some, ranBehind]

theorem Moves.choice {test : Condition} {first second : Block} {leaves : Bool}
    (tests : frame.Tests pool test situation leaves middle)
    (moves : frame.Moves pool (if leaves then second else first) middle final) :
    frame.Moves pool (.choice test first second) situation final := by
  intro locals holds
  obtain ⟨between, ran, holds, keeps⟩ := tests locals holds
  obtain ⟨after, ranBehind, holds, keepsBehind⟩ := moves between holds
  refine ⟨after, ?_, holds, keeps.trans keepsBehind⟩
  rw [Block.run, ran]
  cases leaves <;> exact ranBehind

theorem Tests.branch {operands : Block} {test : Test} {leaves : Bool}
    (moves : frame.Moves pool operands situation middle) (same : final.store = middle.store)
    (decides : ∀ locals,
      test.decide ⟨middle.stack, locals⟩ = some (leaves, ⟨final.stack, locals⟩)) :
    frame.Tests pool (.branch operands test) situation leaves final := by
  intro locals holds
  obtain ⟨after, ran, holds, keeps⟩ := moves locals holds
  refine ⟨after, ?_, same ▸ holds, keeps⟩
  rw [Condition.run, ran, Option.bind_some, decides]

theorem Tests.constant (leaves : Bool) (situation : Situation) :
    frame.Tests pool (.constant leaves) situation leaves situation :=
  fun locals holds => ⟨locals, rfl, holds, .refl locals⟩

/-- The first condition branches away, and the second one is not reached. -/
theorem Tests.either_first {first second : Condition}
    (tests : frame.Tests pool first situation true final) :
    frame.Tests pool (.either first second) situation true final := by
  intro locals holds
  obtain ⟨after, ran, kept⟩ := tests locals holds
  exact ⟨after, by rw [Condition.run, ran], kept⟩

theorem Tests.either_second {first second : Condition} {leaves : Bool}
    (tests : frame.Tests pool first situation false middle)
    (behind : frame.Tests pool second middle leaves final) :
    frame.Tests pool (.either first second) situation leaves final := by
  intro locals holds
  obtain ⟨between, ran, holds, keeps⟩ := tests locals holds
  obtain ⟨after, ranBehind, holds, keepsBehind⟩ := behind between holds
  exact ⟨after, by rw [Condition.run, ran]; exact ranBehind, holds, keeps.trans keepsBehind⟩

/-- The first condition branches away, behind the second one. -/
theorem Tests.skipping_first {first second : Condition}
    (tests : frame.Tests pool first situation true final) :
    frame.Tests pool (.skipping first second) situation false final := by
  intro locals holds
  obtain ⟨after, ran, kept⟩ := tests locals holds
  exact ⟨after, by rw [Condition.run, ran], kept⟩

theorem Tests.skipping_second {first second : Condition} {leaves : Bool}
    (tests : frame.Tests pool first situation false middle)
    (behind : frame.Tests pool second middle leaves final) :
    frame.Tests pool (.skipping first second) situation leaves final := by
  intro locals holds
  obtain ⟨between, ran, holds, keeps⟩ := tests locals holds
  obtain ⟨after, ranBehind, holds, keepsBehind⟩ := behind between holds
  exact ⟨after, by rw [Condition.run, ran]; exact ranBehind, holds, keeps.trans keepsBehind⟩

end Frame

/-! ### What instructions do -/

/-- An instruction changes the stack alone. -/
def Instr.Changes (instr : Instr) (situation final : Situation) : Prop :=
  final.store = situation.store ∧ ∀ pool locals,
    instr.apply pool ⟨situation.stack, locals⟩ = some ⟨final.stack, locals⟩

/-- Instructions in order change the stack alone. -/
def Instr.ChangesAll : List Instr → Situation → Situation → Prop
  | [], situation, final => final = situation
  | first :: rest, situation, final =>
    ∃ middle, first.Changes situation middle ∧ Instr.ChangesAll rest middle final

/-- A test takes its operands from the stack and branches away or does not. -/
def Test.Takes (test : Test) (situation : Situation) (leaves : Bool) (final : Situation) : Prop :=
  final.store = situation.store ∧ ∀ locals,
    test.decide ⟨situation.stack, locals⟩ = some (leaves, ⟨final.stack, locals⟩)

/-- One relation after another. -/
def Situation.Then (first second : Situation → Situation → Prop) (situation final : Situation) :
    Prop :=
  ∃ middle, first situation middle ∧ second middle final

/-! ### What generated code does -/

namespace Generator

variable {frame : Frame} {before tested chosen middle after : Generator}
  {change first second : Situation → Situation → Prop}
  {question other : Situation → Bool → Situation → Prop} {skips branches : List Nat}

/-- A block was appended that performs a relation, with the constants that are there when the code
is complete. -/
def Performs (frame : Frame) (before : Generator) (change : Situation → Situation → Prop)
    (after : Generator) : Prop :=
  ∃ block, before.Lays block after ∧ (before.body.pool.Fits → ∀ pool, after.body.pool.Grows pool →
    ∀ situation final, situation.store.Agrees frame.types → change situation final →
      frame.Moves pool block situation final)

/-- A condition was appended that decides by a relation. -/
def Asks (frame : Frame) (before : Generator) (question : Situation → Bool → Situation → Prop)
    (branches : List Nat) (after : Generator) : Prop :=
  ∃ condition, before.Branches condition branches after ∧ (before.body.pool.Fits → ∀ pool,
    after.body.pool.Grows pool → ∀ situation leaves final, situation.store.Agrees frame.types →
      question situation leaves final → frame.Tests pool condition situation leaves final)

theorem Performs.mono (performs : before.Performs frame change after)
    (implies : ∀ situation final, situation.store.Agrees frame.types →
      first situation final → change situation final) :
    before.Performs frame first after := by
  obtain ⟨block, laid, moves⟩ := performs
  exact ⟨block, laid, fun fits pool grows situation final agrees related =>
    moves fits pool grows situation final agrees (implies situation final agrees related)⟩

theorem Asks.mono (asks : before.Asks frame question branches after)
    (implies : ∀ situation leaves final, situation.store.Agrees frame.types →
      other situation leaves final → question situation leaves final) :
    before.Asks frame other branches after := by
  obtain ⟨condition, laid, tests⟩ := asks
  exact ⟨condition, laid, fun fits pool grows situation leaves final agrees related =>
    tests fits pool grows situation leaves final agrees
      (implies situation leaves final agrees related)⟩

theorem Performs.nil (generator : Generator) :
    generator.Performs frame (fun situation final => final = situation) generator := by
  refine ⟨.nil, .nil generator, ?_⟩
  rintro _ pool _ situation _ _ rfl
  exact .nil _

theorem Performs.trans (performs : before.Performs frame first middle)
    (behind : middle.Performs frame second after) :
    before.Performs frame (Situation.Then first second) after := by
  obtain ⟨block, laid, moves⟩ := performs
  obtain ⟨rest, laidBehind, movesBehind⟩ := behind
  refine ⟨.seq block rest, laid.trans laidBehind, ?_⟩
  rintro fits pool grows situation final agrees ⟨between, isFirst, isSecond⟩ locals holds
  have moved := moves fits pool (laidBehind.pool.trans grows) situation between agrees isFirst
  obtain ⟨_, _, holdsBetween, _⟩ := moved locals holds
  exact (moved.seq (movesBehind (laid.pool.fits fits) pool grows between final
    holdsBetween.agrees isSecond)) locals holds

theorem Performs.push (generator : Generator) (instr : Instr) :
    generator.Performs frame instr.Changes (generator.push instr) := by
  refine ⟨.instr instr, .push generator instr, ?_⟩
  rintro _ pool _ situation final _ ⟨same, applied⟩ locals holds
  exact ⟨locals, applied pool locals, same ▸ holds, .refl locals⟩

theorem Performs.pushAll (generator : Generator) (instrs : List Instr) :
    generator.Performs frame (Instr.ChangesAll instrs) (generator.pushAll instrs) := by
  induction instrs generalizing generator with
  | nil => exact .nil generator
  | cons instr rest ih => exact (Performs.push generator instr).trans (ih (generator.push instr))

/-- **Choices.** The test branches away to the second outcome. -/
theorem Performs.choice {depth : Nat} (asks : before.Asks frame question skips tested)
    (holds : tested.Performs frame first chosen)
    (fails : (((chosen.push (.branch .always 0)).land skips
      (chosen.push (.branch .always 0)).size).setDepth depth).Performs frame second after) :
    before.Performs frame (fun situation final => ∃ leaves middle,
      question situation leaves middle ∧ if leaves then second middle final else first middle final)
        (after.land [chosen.size] after.size) := by
  obtain ⟨test, laidTest, tests⟩ := asks
  obtain ⟨block, laid, moves⟩ := holds
  obtain ⟨rest, laidBehind, movesBehind⟩ := fails
  rw [size_push] at laidBehind movesBehind
  refine ⟨.choice test block rest, Lays.choice laidTest laid laidBehind, ?_⟩
  rintro fits pool grows situation final agrees ⟨leaves, between, isAnswer, related⟩ locals holds
  rw [pool_land] at grows
  have grown : chosen.body.pool.Grows pool := by simpa using laidBehind.pool.trans grows
  have tested := tests fits pool (laid.pool.trans grown) situation leaves between agrees isAnswer
  obtain ⟨_, _, holdsBetween, _⟩ := tested locals holds
  have fitsTested := laidTest.pool.fits fits
  refine (Frame.Moves.choice tested ?_) locals holds
  cases leaves with
  | false => exact moves fitsTested pool grown between final holdsBetween.agrees related
  | true =>
    refine movesBehind ?_ pool grows between final holdsBetween.agrees related
    simpa using laid.pool.fits fitsTested

theorem Asks.branch (performs : before.Performs frame change middle) (test : Test) :
    before.Asks frame (fun situation leaves final =>
      ∃ operands, change situation operands ∧ test.Takes operands leaves final)
        [middle.size] (middle.push (.branch test 0)) := by
  obtain ⟨block, laid, moves⟩ := performs
  refine ⟨.branch block test, .branch laid test, ?_⟩
  rintro fits pool grows situation leaves final agrees ⟨operands, related, same, decides⟩
  exact .branch (moves fits pool grows situation operands agrees related) same decides

theorem Asks.always (generator : Generator) :
    generator.Asks frame (fun situation leaves final => leaves = true ∧ final = situation)
      [generator.size] (generator.push (.branch .always 0)) := by
  refine ⟨.constant true, .always generator, ?_⟩
  rintro _ pool _ situation _ _ _ ⟨rfl, rfl⟩
  exact .constant true _

theorem Asks.never (generator : Generator) :
    generator.Asks frame (fun situation leaves final => leaves = false ∧ final = situation)
      [] generator := by
  refine ⟨.constant false, .never generator, ?_⟩
  rintro _ pool _ situation _ _ _ ⟨rfl, rfl⟩
  exact .constant false _

/-- **Two conditions that branch away alike.** -/
theorem Asks.either (asks : before.Asks frame question skips middle)
    (behind : middle.Asks frame other branches after) :
    before.Asks frame (fun situation leaves final =>
      (leaves = true ∧ question situation true final) ∨
        ∃ between, question situation false between ∧ other between leaves final)
        (skips ++ branches) after := by
  obtain ⟨condition, laid, tests⟩ := asks
  obtain ⟨rest, laidBehind, testsBehind⟩ := behind
  refine ⟨.either condition rest, laid.either laidBehind, ?_⟩
  rintro fits pool grows situation leaves final agrees (⟨rfl, isAnswer⟩ | ⟨between, isAnswer, more⟩)
  · exact (tests fits pool (laidBehind.pool.trans grows) situation true final agrees
      isAnswer).either_first
  · intro locals holds
    have tested := tests fits pool (laidBehind.pool.trans grows) situation false between agrees
      isAnswer
    obtain ⟨_, _, holdsBetween, _⟩ := tested locals holds
    exact (tested.either_second (testsBehind (laid.pool.fits fits) pool grows between leaves final
      holdsBetween.agrees more)) locals holds

/-- **A condition that skips another one.** -/
theorem Asks.skipping (asks : before.Asks frame question skips middle)
    (behind : middle.Asks frame other branches after) :
    before.Asks frame (fun situation leaves final =>
      (leaves = false ∧ question situation true final) ∨
        ∃ between, question situation false between ∧ other between leaves final)
        branches (after.land skips after.size) := by
  obtain ⟨condition, laid, tests⟩ := asks
  obtain ⟨rest, laidBehind, testsBehind⟩ := behind
  refine ⟨.skipping condition rest, laid.skipping laidBehind, ?_⟩
  rintro fits pool grows situation leaves final agrees (⟨rfl, isAnswer⟩ | ⟨between, isAnswer, more⟩)
  · rw [pool_land] at grows
    exact (tests fits pool (laidBehind.pool.trans grows) situation true final agrees
      isAnswer).skipping_first
  · intro locals holds
    rw [pool_land] at grows
    have tested := tests fits pool (laidBehind.pool.trans grows) situation false between agrees
      isAnswer
    obtain ⟨_, _, holdsBetween, _⟩ := tested locals holds
    exact (tested.skipping_second (testsBehind (laid.pool.fits fits) pool grows between leaves final
      holdsBetween.agrees more)) locals holds

/-! ### Runs -/

variable {situation final : Situation} {locals : Locals}

/-- The machine runs the code that was appended, from its beginning to its end. -/
theorem Performs.reaches (performs : before.Performs frame change after)
    (fits : before.body.pool.Fits) (holds : frame.Holds situation.store locals)
    (related : change situation final) :
    ∃ behind, frame.Holds final.store behind ∧ frame.Keeps locals behind ∧
      Reaches after.instrs after.body.pool before.size after.size
        ⟨before.size, ⟨situation.stack, locals⟩⟩ ⟨after.size, ⟨final.stack, behind⟩⟩ := by
  obtain ⟨block, laid, moves⟩ := performs
  obtain ⟨behind, ran, holds, keeps⟩ :=
    moves fits _ (.refl _) situation final holds.agrees related locals holds
  have here : PartAt after.instrs before.size (block.layout before.size) := by
    rw [laid.instrs, ← length_instrs]
    exact .appended _ _
  refine ⟨behind, holds, keeps, ?_⟩
  rw [laid.size]
  exact block.reaches here ran

/-- The machine runs the condition that was appended. It leaves the code for the place where the
branches are landed, or it goes on behind the code. -/
theorem Asks.reaches {leaves : Bool} (asks : before.Asks frame question branches after)
    (fits : before.body.pool.Fits) (holds : frame.Holds situation.store locals)
    (related : question situation leaves final) (target : Nat) :
    ∃ behind, frame.Holds final.store behind ∧ frame.Keeps locals behind ∧
      Reaches (after.land branches target).instrs after.body.pool before.size after.size
        ⟨before.size, ⟨situation.stack, locals⟩⟩
        ⟨if leaves then target else after.size, ⟨final.stack, behind⟩⟩ := by
  obtain ⟨condition, laid, tests⟩ := asks
  obtain ⟨behind, ran, holds, keeps⟩ :=
    tests fits _ (.refl _) situation leaves final holds.agrees related locals holds
  have here : PartAt (after.land branches target).instrs before.size
      (condition.layout before.size target) := by
    have code : after.instrs =
        before.instrs ++ (condition.layout before.instrs.length 0 ++ []) := by
      rw [laid.instrs, length_instrs, List.append_nil]
    have landed := instrs_land_exits target code
    rw [length_instrs, List.append_nil, ← laid.exits] at landed
    rw [landed, ← length_instrs]
    exact .appended _ _
  refine ⟨behind, holds, keeps, ?_⟩
  rw [laid.size]
  exact condition.reaches here ran

end Generator

end MethodPatch
