/-
**Code that ends as statements end.**

An execution of statements and one of their code end alike if both are given up, or if both pass on
or leave in the same way with the values of the variables in their slots and nothing on the operand
stack. Where the statements find no rule, nothing is asked of the code.

* `Frame.Matches`: two executions end alike;
* `Frame.Simulates`: code does so wherever the variables are, with the combinators of `Outcome`;
* `Generator.Executes`: code that a generator has appended does, for each way in which statements
  are generated.
-/

import MethodPatch.Proofs.Emission.Builds
import MethodPatch.Proofs.Lowering.Lowered
import MethodPatch.Proofs.Machine.Chunk
import MethodPatch.Proofs.Meaning.Stmt

namespace MethodPatch

namespace Frame

/-- An execution of statements and one of code end alike. -/
inductive Matches (frame : Frame) (locals : Locals) : Outcome Store → Outcome Data → Prop
  | stuck (outcome : Outcome Data) : Matches frame locals .stuck outcome
  | unfinished : Matches frame locals .unfinished .unfinished
  | passed {store : Store} {behind : Locals} (holds : frame.Holds store behind)
    (keeps : frame.Keeps locals behind) :
    Matches frame locals (.passed store) (.passed ⟨[], behind⟩)
  | left {store : Store} {behind : Locals} (way : Way) (holds : frame.Holds store behind)
    (keeps : frame.Keeps locals behind) :
    Matches frame locals (.left way store) (.left way ⟨[], behind⟩)

/-- Code ends as statements do, wherever the variables are. -/
def Simulates (frame : Frame) (source : Store → Outcome Store) (code : Data → Outcome Data) :
    Prop :=
  ∀ store locals, frame.Holds store locals → frame.Matches locals (source store) (code ⟨[], locals⟩)

variable {frame : Frame} {locals middle : Locals} {outcome : Outcome Store} {result : Outcome Data}
  {first second : Store → Outcome Store} {code rest : Data → Outcome Data}

theorem Matches.behind (matched : frame.Matches middle outcome result)
    (kept : frame.Keeps locals middle) : frame.Matches locals outcome result := by
  cases matched with
  | stuck => exact .stuck _
  | unfinished => exact .unfinished
  | passed holds keeps => exact .passed holds (kept.trans keeps)
  | left way holds keeps => exact .left way holds (kept.trans keeps)

theorem Matches.andThen (matched : frame.Matches locals outcome result)
    (goesOn : frame.Simulates second rest) :
    frame.Matches locals (outcome.andThen second) (result.andThen rest) := by
  cases matched with
  | stuck => exact .stuck _
  | unfinished => exact .unfinished
  | passed holds keeps => exact (goesOn _ _ holds).behind keeps
  | left way holds keeps => exact .left way holds keeps

theorem Matches.caught (matched : frame.Matches locals outcome result) :
    frame.Matches locals outcome.caught result.caught := by
  cases matched with
  | stuck => exact .stuck _
  | unfinished => exact .unfinished
  | passed holds keeps => exact .passed holds keeps
  | left way holds keeps =>
    cases way with
    | out => exact .left .out holds keeps
    | next => exact .passed holds keeps

theorem Matches.unlooped (matched : frame.Matches locals outcome result) :
    frame.Matches locals outcome.unlooped result.unlooped := by
  cases matched with
  | stuck => exact .stuck _
  | unfinished => exact .unfinished
  | passed holds keeps => exact .passed holds keeps
  | left => exact .stuck _

namespace Simulates

theorem passed : frame.Simulates .passed .passed := fun _ locals holds =>
  .passed holds (.refl locals)

theorem left (way : Way) : frame.Simulates (.left way) (.left way) := fun _ locals holds =>
  .left way holds (.refl locals)

theorem andThen (here : frame.Simulates first code) (behind : frame.Simulates second rest) :
    frame.Simulates (fun store => (first store).andThen second)
      fun data => (code data).andThen rest :=
  fun store locals holds => (here store locals holds).andThen behind

theorem caught (here : frame.Simulates first code) :
    frame.Simulates (fun store => (first store).caught) fun data => (code data).caught :=
  fun store locals holds => (here store locals holds).caught

theorem unlooped (here : frame.Simulates first code) :
    frame.Simulates (fun store => (first store).unlooped) fun data => (code data).unlooped :=
  fun store locals holds => (here store locals holds).unlooped

/-- **Loops.** Both are given up after the same number of rounds. -/
theorem rounds (round : frame.Simulates first code) (count : Nat) :
    frame.Simulates (Outcome.rounds first count) (Outcome.rounds code count) := by
  induction count with
  | zero => exact fun _ _ _ => .unfinished
  | succ count ih =>
    intro store locals holds
    unfold Outcome.rounds
    generalize turned : first store = outcome
    generalize ran : code ⟨[], locals⟩ = result
    have matched := round store locals holds
    rw [turned, ran] at matched
    cases matched with
    | stuck => exact .stuck _
    | unfinished => exact .unfinished
    | passed holds keeps => exact (ih _ _ holds).behind keeps
    | left way holds keeps =>
      cases way with
      | out => exact .passed holds keeps
      | next => exact (ih _ _ holds).behind keeps

/-- A condition that branches away if it has an outcome. -/
theorem decide {pool : Pool} {test : Expr} {condition : Condition} {result : Bool}
    {holds fails : Store → Outcome Store} {leaves stays : Data → Outcome Data}
    (answers : ∀ situation taken final, situation.store.Agrees frame.types →
      test.Answers frame.types result situation taken final →
        frame.Tests pool condition situation taken final)
    (whenLeft : frame.Simulates (if result then holds else fails) leaves)
    (whenStayed : frame.Simulates (if result then fails else holds) stays) :
    frame.Simulates (test.decide frame.types holds fails)
      (condition.decide pool leaves stays) := by
  intro store locals isHeld
  unfold Expr.decide Condition.decide
  -- The stack is empty in front of the condition and behind it.
  have tested : ∀ truth final, test.eval frame.types store = some (.boolean truth, final) →
      ∃ after, condition.run pool ⟨[], locals⟩ = some (truth == result, ⟨[], after⟩) ∧
        frame.Holds final after ∧ frame.Keeps locals after := by
    intro truth final evaluated
    exact answers ⟨[], store⟩ _ ⟨[], final⟩ isHeld.agrees ⟨truth, evaluated, rfl, rfl⟩ locals isHeld
  split
  · next final evaluated =>
    obtain ⟨after, ran, isHeld, keeps⟩ := tested true final evaluated
    rw [ran]
    cases result with
    | true => exact (whenLeft _ _ isHeld).behind keeps
    | false => exact (whenStayed _ _ isHeld).behind keeps
  · next final evaluated =>
    obtain ⟨after, ran, isHeld, keeps⟩ := tested false final evaluated
    rw [ran]
    cases result with
    | true => exact (whenStayed _ _ isHeld).behind keeps
    | false => exact (whenLeft _ _ isHeld).behind keeps
  · exact .stuck _

end Simulates

end Frame

/-! ### Generated code -/

namespace Generator

variable {frame : Frame} {before started tested chosen finished updated middle after : Generator}
  {source first second : Store → Outcome Store} {exec other : Nat → Store → Outcome Store}
  {exits others : LoopExits} {skips : List Nat} {test : Expr}

/-- A block was appended that ends as statements without loops do. -/
def Applies (frame : Frame) (before : Generator) (source : Store → Outcome Store)
    (after : Generator) : Prop :=
  ∃ block, before.Lays block after ∧ (before.body.pool.Fits → ∀ pool, after.body.pool.Grows pool →
    frame.Simulates source fun data => .ofOption (block.run pool data))

/-- A chunk was appended that ends as statements do, within every limit on the rounds of loops. -/
def Executes (frame : Frame) (before : Generator) (exec : Nat → Store → Outcome Store)
    (exits : LoopExits) (after : Generator) : Prop :=
  ∃ chunk, before.Builds chunk exits after ∧ (before.body.pool.Fits → ∀ pool,
    after.body.pool.Grows pool → ∀ limit, frame.Simulates (exec limit) (chunk.run pool limit))

/-! #### Code without loops -/

theorem Performs.applies {change : Situation → Situation → Prop} {compute : Store → Option Store}
    (performs : before.Performs frame change after)
    (related : ∀ store final, store.Agrees frame.types → compute store = some final →
      change ⟨[], store⟩ ⟨[], final⟩) :
    before.Applies frame (fun store => .ofOption (compute store)) after := by
  obtain ⟨block, laid, moves⟩ := performs
  refine ⟨block, laid, fun fits pool grows store locals holds => ?_⟩
  show frame.Matches locals (.ofOption (compute store)) (.ofOption (block.run pool ⟨[], locals⟩))
  cases computed : compute store with
  | none => exact .stuck _
  | some final =>
    have changed := related store final holds.agrees computed
    obtain ⟨behind, ran, holds, keeps⟩ :=
      moves fits pool grows ⟨[], store⟩ ⟨[], final⟩ holds.agrees changed locals holds
    rw [show block.run pool ⟨[], locals⟩ = some ⟨[], behind⟩ from ran]
    exact .passed holds keeps

theorem Applies.maxLocals (applies : before.Applies frame source after) :
    after.maxLocals = before.maxLocals := by
  obtain ⟨_, laid, _⟩ := applies
  exact laid.maxLocals

theorem Applies.nil (generator : Generator) : generator.Applies frame .passed generator :=
  ⟨.nil, .nil generator, fun _ _ _ => .passed⟩

theorem Applies.seq (here : before.Applies frame first middle)
    (behind : middle.Applies frame second after) :
    before.Applies frame (fun store => (first store).andThen second) after := by
  obtain ⟨block, laid, simulates⟩ := here
  obtain ⟨rest, laidBehind, simulatesBehind⟩ := behind
  refine ⟨.seq block rest, laid.trans laidBehind, fun fits pool grows => ?_⟩
  have both := (simulates fits pool (laidBehind.pool.trans grows)).andThen
    (simulatesBehind (laid.pool.fits fits) pool grows)
  intro store locals holds
  have matched := both store locals holds
  dsimp only at matched
  have joined : (Outcome.ofOption (block.run pool ⟨[], locals⟩)).andThen
      (fun data => .ofOption (rest.run pool data)) =
        .ofOption ((Block.seq block rest).run pool ⟨[], locals⟩) := by
    rw [Block.run]
    cases block.run pool ⟨[], locals⟩ <;> rfl
  rwa [joined] at matched

/-- Code begins where the instructions and the constants are the same. -/
theorem Applies.ofSame (applies : middle.Applies frame source after)
    (instrs : middle.instrs = before.instrs) (pool : middle.body.pool = before.body.pool)
    (maxLocals : middle.maxLocals = before.maxLocals) : before.Applies frame source after := by
  obtain ⟨block, laid, simulates⟩ := applies
  have size : middle.size = before.size := by rw [← length_instrs, instrs, length_instrs]
  exact ⟨block, ⟨by rw [laid.instrs, instrs, size], pool ▸ laid.pool,
    laid.maxLocals.trans maxLocals⟩, pool ▸ simulates⟩

theorem Applies.executes (applies : before.Applies frame source after) :
    before.Executes frame (fun _ => source) .none after := by
  obtain ⟨block, laid, simulates⟩ := applies
  exact ⟨.block block, .block laid, fun fits pool grows _ => simulates fits pool grows⟩

/-! #### Code with loops -/

/-- Code begins where the instructions and the constants are the same. -/
theorem Executes.ofSame (executes : middle.Executes frame exec exits after)
    (instrs : middle.instrs = before.instrs) (pool : middle.body.pool = before.body.pool) :
    before.Executes frame exec exits after := by
  obtain ⟨chunk, built, simulates⟩ := executes
  have size : middle.size = before.size := by rw [← length_instrs, instrs, length_instrs]
  exact ⟨chunk, ⟨by rw [built.instrs, instrs, size], by simpa only [size] using built.leaving,
    pool ▸ built.pool⟩, pool ▸ simulates⟩

/-- A statement begins with another place and an empty stack. -/
theorem Executes.moved {position : Position}
    (executes : ((before.moveTo position).setDepth 0).Executes frame exec exits after) :
    before.Executes frame exec exits after := executes.ofSame rfl rfl

theorem Executes.seq (here : before.Executes frame exec exits middle)
    (behind : middle.Executes frame other others after) :
    before.Executes frame (fun limit store => (exec limit store).andThen (other limit))
      (exits ++ others) after := by
  obtain ⟨chunk, built, simulates⟩ := here
  obtain ⟨rest, builtBehind, simulatesBehind⟩ := behind
  refine ⟨.seq chunk rest, built.seq builtBehind, fun fits pool grows limit => ?_⟩
  exact (simulates fits pool (builtBehind.pool.trans grows) limit).andThen
    (simulatesBehind (built.pool.fits fits) pool grows limit)

theorem Executes.leave (generator : Generator) (way : Way) {exits : LoopExits}
    (leaving : ∀ other, exits.branches other = if way = other then [generator.size] else []) :
    generator.Executes frame (fun _ => .left way) exits (generator.push (.branch .always 0)) :=
  ⟨.leave way, .leave generator way leaving, fun _ _ _ _ => .left way⟩

theorem Executes.ifThen (asks : before.Asks frame (test.Answers frame.types false) skips tested)
    (holds : tested.Executes frame exec exits after) :
    before.Executes frame (fun limit => test.decide frame.types (exec limit) .passed) exits
      (after.land skips after.size) := by
  obtain ⟨condition, laid, answers⟩ := asks
  obtain ⟨chunk, built, simulates⟩ := holds
  refine ⟨.ifThen condition chunk, .ifThen laid built, fun fits pool grows limit => ?_⟩
  rw [pool_land] at grows
  exact .decide (answers fits pool (built.pool.trans grows)) .passed
    (simulates (laid.pool.fits fits) pool grows limit)

theorem Executes.ifElse (asks : before.Asks frame (test.Answers frame.types false) skips tested)
    (holds : tested.Executes frame exec exits chosen)
    (fails : ((chosen.push (.branch .always 0)).land skips
      (chosen.push (.branch .always 0)).size).Executes frame other others after) :
    before.Executes frame (fun limit => test.decide frame.types (exec limit) (other limit))
      (exits ++ others) (after.land [chosen.size] after.size) := by
  rw [size_push] at fails
  obtain ⟨condition, laid, answers⟩ := asks
  obtain ⟨chunk, built, simulates⟩ := holds
  obtain ⟨rest, builtBehind, simulatesBehind⟩ := fails
  refine ⟨.ifElse condition chunk rest, .ifElse laid built builtBehind,
    fun fits pool grows limit => ?_⟩
  rw [pool_land] at grows
  have grown : chosen.body.pool.Grows pool := by simpa using builtBehind.pool.trans grows
  have fitsChosen := built.pool.fits (laid.pool.fits fits)
  exact .decide (answers fits pool (built.pool.trans grown))
    (simulatesBehind (by simpa using fitsChosen) pool grows limit)
    (simulates (laid.pool.fits fits) pool grown limit)

theorem Executes.whileLoop (asks : before.Asks frame (test.Answers frame.types false) skips tested)
    (round : tested.Executes frame exec exits finished) :
    before.Executes frame
      (fun limit => Outcome.rounds (test.decide frame.types (exec limit) (.left .out)) limit) .none
      (((finished.push (.branch .always before.size)).land exits.continues before.size).land
        (skips ++ exits.breaks)
          ((finished.push (.branch .always before.size)).land exits.continues before.size).size) := by
  rw [size_land, size_push]
  obtain ⟨condition, laid, answers⟩ := asks
  obtain ⟨chunk, built, simulates⟩ := round
  refine ⟨.whileLoop condition chunk, .whileLoop laid built, fun fits pool grows limit => ?_⟩
  rw [pool_land, pool_land, pool_push] at grows
  exact .rounds (.decide (answers fits pool (built.pool.trans grows)) (.left .out)
    (simulates (laid.pool.fits fits) pool grows limit)) limit

theorem Executes.doLoop (round : before.Executes frame exec exits finished)
    (asks : (finished.setDepth 0).Asks frame (test.Answers frame.types true) skips after) :
    before.Executes frame
      (fun limit => Outcome.rounds (fun store => (exec limit store).caught.andThen
        (test.decide frame.types .passed (.left .out))) limit) .none
      (((after.land skips before.size).land exits.continues finished.size).land exits.breaks
        ((after.land skips before.size).land exits.continues finished.size).size) := by
  rw [size_land, size_land]
  obtain ⟨condition, laid, answers⟩ := asks
  obtain ⟨chunk, built, simulates⟩ := round
  refine ⟨.doLoop chunk condition, .doLoop built laid, fun fits pool grows limit => ?_⟩
  rw [pool_land, pool_land, pool_land] at grows
  exact .rounds ((simulates fits pool (laid.pool.trans grows) limit).caught.andThen
    (.decide (answers (built.pool.fits fits) pool grows) .passed (.left .out))) limit

/-- The test of a `for` loop is a condition that branches away if it fails, or it is left out. -/
inductive AsksAny (frame : Frame) (before : Generator) : Option Expr → List Nat → Generator → Prop
  | test {test : Expr} {skips : List Nat} {after : Generator}
    (asks : before.Asks frame (test.Answers frame.types false) skips after) :
    AsksAny frame before (some test) skips after
  | none : AsksAny frame before none [] before

theorem Executes.forLoop {test : Option Expr} {start : Nat → Store → Outcome Store}
    (begins : before.Executes frame start others started)
    (asks : (started.setDepth 0).AsksAny frame test skips tested)
    (round : tested.Executes frame exec exits finished)
    (update : finished.Applies frame source updated) :
    before.Executes frame
      (fun limit store => (start limit store).unlooped.andThen
        (Outcome.rounds (Expr.decide? frame.types test
          (fun store => (exec limit store).caught.andThen source) (.left .out)) limit)) .none
      (((updated.push (.branch .always started.size)).land exits.continues finished.size).land
        (skips ++ exits.breaks)
          ((updated.push (.branch .always started.size)).land exits.continues
            finished.size).size) := by
  rw [size_land, size_push]
  obtain ⟨first, builtFirst, simulatesFirst⟩ := begins
  obtain ⟨chunk, built, simulates⟩ := round
  obtain ⟨block, laidUpdate, simulatesUpdate⟩ := update
  -- Both kinds of tests are conditions of the same loop.
  obtain ⟨condition, laid, decides⟩ : ∃ condition,
      (started.setDepth 0).Branches condition skips tested ∧
        (started.body.pool.Fits → ∀ pool, tested.body.pool.Grows pool →
          ∀ (holds : Store → Outcome Store) stays, frame.Simulates holds stays →
            frame.Simulates (Expr.decide? frame.types test holds (.left .out))
              (condition.decide pool (.left .out) stays)) := by
    cases asks with
    | test asks =>
      obtain ⟨condition, laid, answers⟩ := asks
      exact ⟨condition, laid, fun fits pool grows holds stays whenStayed =>
        .decide (answers fits pool grows) (.left .out) whenStayed⟩
    | none => exact ⟨_, .never _, fun _ _ _ _ _ whenStayed => whenStayed⟩
  refine ⟨.forLoop first condition chunk block, .forLoop builtFirst laid built laidUpdate,
    fun fits pool grows limit => ?_⟩
  rw [pool_land, pool_land, pool_push] at grows
  have grownFinished := laidUpdate.pool.trans grows
  have grownTested := built.pool.trans grownFinished
  have grownStarted : started.body.pool.Grows pool := laid.pool.trans grownTested
  have fitsStarted := builtFirst.pool.fits fits
  have fitsTested := laid.pool.fits fitsStarted
  exact (simulatesFirst fits pool grownStarted limit).unlooped.andThen
    (.rounds (decides fitsStarted pool grownTested _ _
      ((simulates fitsTested pool grownFinished limit).caught.andThen
        (simulatesUpdate (built.pool.fits fitsTested) pool grows))) limit)

/-! ### Runs -/

variable {store : Store} {locals : Locals}

/-- The machine runs the code that was appended, unless the loop around it is left. -/
theorem Executes.runs (executes : before.Executes frame exec exits after)
    (fits : before.body.pool.Fits) (holds : frame.Holds store locals) :
    (∀ limit final, exec limit store = .passed final →
      ∃ behind, frame.Holds final behind ∧ frame.Keeps locals behind ∧
        Reaches after.instrs after.body.pool before.size after.size
          ⟨before.size, ⟨[], locals⟩⟩ ⟨after.size, ⟨[], behind⟩⟩) ∧
    ((∀ limit, exec limit store = .unfinished) →
      Stays after.instrs after.body.pool before.size after.size ⟨before.size, ⟨[], locals⟩⟩) := by
  obtain ⟨chunk, built, simulates⟩ := executes
  have here : PartAt after.instrs before.size (chunk.layout before.size fun _ => 0) := by
    rw [built.instrs, ← length_instrs]
    exact .appended _ _
  have follows (limit : Nat) : Follows after.instrs after.body.pool before.size
      (before.size + chunk.size) limit ⟨before.size, ⟨[], locals⟩⟩ (before.size + chunk.size) _
        (chunk.run after.body.pool limit ⟨[], locals⟩) := chunk.follows here ⟨[], locals⟩
  have matched := fun limit => simulates fits _ (.refl _) limit store locals holds
  rw [built.size]
  constructor
  · intro limit final ends
    have followed := follows limit
    have ended := matched limit
    rw [ends] at ended
    generalize chunk.run after.body.pool limit ⟨[], locals⟩ = result at followed ended
    cases ended with
    | passed holds keeps => exact ⟨_, holds, keeps, followed⟩
  · intro givenUp limit
    have followed := follows limit
    have ended := matched limit
    rw [givenUp limit] at ended
    generalize chunk.run after.body.pool limit ⟨[], locals⟩ = result at followed ended
    cases ended with
    | unfinished => exact followed

end Generator

end MethodPatch
