/-
**Depths of the operand stack along code of statements.**

Between statements the stack is empty, so every block in a chunk begins and ends with depth zero, and
so does every way out of a loop.

* `Chunk.steady`: a chunk that fits has steady code.
-/

import MethodPatch.Proofs.Layout.Chunk
import MethodPatch.Proofs.Stack.Depths

namespace MethodPatch.Chunk

/-- The depths before the instructions of a chunk. -/
def depths : Chunk → List Nat
  | .block code => code.depths 0
  | .stop operands _ => operands.depths 0 ++ [operands.leaves 0]
  | .seq first second => first.depths ++ second.depths
  | .ifThen test body => test.depths 0 ++ body.depths
  | .ifElse test first second => test.depths 0 ++ (first.depths ++ 0 :: second.depths)
  | .whileLoop test body => test.depths 0 ++ (body.depths ++ [0])
  | .doLoop body test => body.depths ++ test.depths 0
  | .forLoop first test body updates =>
    first.depths ++ (test.depths 0 ++ (body.depths ++ (updates.depths 0 ++ [0])))
  | .leave _ => [0]

/-- The blocks of a chunk find what they pop and leave the stack empty; control does not go on
behind an instruction that stops it. -/
def Fits : Chunk → Prop
  | .block code => code.Fits 0 ∧ code.leaves 0 = 0
  | .stop operands instr =>
    operands.Fits 0 ∧ instr.pops ≤ operands.leaves 0 ∧ instr.pushes = 0 ∧
      instr.isUnconditional = true ∧ instr.target? = none
  | .seq first second => first.Fits ∧ second.Fits
  | .ifThen test body => test.Fits 0 ∧ body.Fits
  | .ifElse test first second => test.Fits 0 ∧ first.Fits ∧ second.Fits
  | .whileLoop test body | .doLoop body test => test.Fits 0 ∧ body.Fits
  | .forLoop first test body updates =>
    first.Fits ∧ test.Fits 0 ∧ body.Fits ∧ updates.Fits 0 ∧ updates.leaves 0 = 0
  | .leave _ => True

@[simp] theorem length_depths (chunk : Chunk) : chunk.depths.length = chunk.size := by
  induction chunk <;> simp [depths, size, *] <;> omega

/-- The first depth of a chunk, or the one behind it, is zero. -/
theorem head_depths (rest : List Nat) :
    (chunk : Chunk) → chunk.Fits → ∃ others, chunk.depths ++ 0 :: rest = 0 :: others
  | .block code, fits => by
    obtain ⟨others, head⟩ := code.head_depths 0 rest
    rw [fits.2] at head
    exact ⟨others, head⟩
  | .stop operands _, _ => by
    obtain ⟨others, head⟩ := operands.head_depths 0 (0 :: rest)
    exact ⟨others, by rw [depths, List.append_assoc, List.singleton_append, head]⟩
  | .seq first second, fits => by
    obtain ⟨others, behind⟩ := head_depths rest second fits.2
    obtain ⟨others, head⟩ := head_depths others first fits.1
    exact ⟨others, by rw [depths, List.append_assoc, behind, head]⟩
  | .ifThen test body, fits => by
    obtain ⟨others, behind⟩ := head_depths rest body fits.2
    obtain ⟨others, head⟩ := test.head_depths 0 others
    exact ⟨others, by rw [depths, List.append_assoc, behind, head]⟩
  | .ifElse test first second, fits => by
    obtain ⟨others, behind⟩ := head_depths (second.depths ++ 0 :: rest) first fits.2.1
    obtain ⟨others, head⟩ := test.head_depths 0 others
    refine ⟨others, ?_⟩
    rw [depths, List.append_assoc, List.append_assoc, List.cons_append, behind, head]
  | .whileLoop test body, fits => by
    obtain ⟨others, behind⟩ := head_depths (0 :: rest) body fits.2
    obtain ⟨others, head⟩ := test.head_depths 0 others
    refine ⟨others, ?_⟩
    rw [depths, List.append_assoc, List.append_assoc, List.singleton_append, behind, head]
  | .doLoop body test, fits => by
    obtain ⟨others, behind⟩ := test.head_depths 0 rest
    obtain ⟨others, head⟩ := head_depths others body fits.2
    exact ⟨others, by rw [depths, List.append_assoc, behind, head]⟩
  | .forLoop first test body updates, fits => by
    obtain ⟨firstFits, _, bodyFits, _, leaves⟩ := fits
    obtain ⟨others, update⟩ := updates.head_depths 0 (0 :: rest)
    rw [leaves] at update
    obtain ⟨others, round⟩ := head_depths others body bodyFits
    obtain ⟨others, tested⟩ := test.head_depths 0 others
    obtain ⟨others, head⟩ := head_depths others first firstFits
    refine ⟨others, ?_⟩
    simp only [depths, List.append_assoc, List.singleton_append, update, round, tested, head]
  | .leave _, _ => ⟨0 :: rest, rfl⟩

theorem empty_at_start {whole rest : List Nat} {start : Nat} {chunk : Chunk} (fits : chunk.Fits)
    (here : PartAt whole start (chunk.depths ++ 0 :: rest)) : whole[start]? = some 0 := by
  obtain ⟨_, head⟩ := head_depths rest chunk fits
  exact (head ▸ here).head

/-- An instruction behind which control does not go on. -/
theorem steadyAt_stop {whole : List Nat} {start depth : Nat} {instr : Instr}
    (here : whole[start]? = some depth) (enough : instr.pops ≤ depth) (pushes : instr.pushes = 0)
    (stops : instr.isUnconditional = true) (noTarget : instr.target? = none) :
    SteadyAt whole start instr := by
  refine ⟨depth, depth - instr.pops, here, enough, ?_, ?_, ?_⟩
  · rw [Instr.effect, pushes]
    omega
  · rw [stops]
    exact fun impossible => absurd impossible (by simp)
  · rw [noTarget]
    exact fun _ impossible => absurd impossible (by simp)

variable {whole : List Nat}

/-- **A chunk that fits has steady code**, if the stack is empty where the loop around goes on. -/
theorem steady (zero : whole[0]? = some 0) {start : Nat} {targets : Way → Nat} :
    (chunk : Chunk) → chunk.Fits → PartAt whole start (chunk.depths ++ [0]) →
      (∀ way, whole[targets way]? = some 0) → Steady whole start (chunk.layout start targets)
  | .block code, fits, here, _ => code.steady fits.1 (by rwa [fits.2])
  | .stop operands instr, fits, here, _ => by
    obtain ⟨operandsFit, enough, pushes, stops, noTarget⟩ := fits
    simp only [depths, List.append_assoc] at here
    have jump := here.right
    rw [Block.length_depths] at jump
    refine (operands.steady operandsFit (here.upTo rfl)).append ?_
    rw [Block.length_layout]
    exact .single (steadyAt_stop jump.head enough pushes stops noTarget)
  | .seq first second, fits, here, there => by
    simp only [depths, List.append_assoc] at here
    obtain ⟨_, head⟩ := head_depths [] second fits.2
    have behind := here.right
    rw [length_depths] at behind
    refine (steady zero first fits.1 (here.upTo head) there).append ?_
    rw [length_layout]
    exact steady zero second fits.2 behind there
  | .ifThen test body, fits, here, there => by
    simp only [depths, List.append_assoc] at here
    obtain ⟨_, head⟩ := head_depths [] body fits.2
    have behind := here.right
    rw [Condition.length_depths] at behind
    have finish := behind.right.head
    rw [length_depths] at finish
    refine (test.steady fits.1 (here.upTo head) finish).append ?_
    rw [Condition.length_layout]
    exact steady zero body fits.2 behind there
  | .ifElse test first second, fits, here, there => by
    obtain ⟨testFits, firstFits, secondFits⟩ := fits
    simp only [depths, List.append_assoc, List.cons_append] at here
    obtain ⟨_, firstHead⟩ := head_depths (second.depths ++ [0]) first firstFits
    obtain ⟨_, secondHead⟩ := head_depths [] second secondFits
    have chosen := here.right
    rw [Condition.length_depths] at chosen
    have jump := chosen.right
    rw [length_depths] at jump
    have other := jump.tail
    have finish := other.right.head
    rw [length_depths] at finish
    refine (test.steady testFits (here.upTo firstHead) (secondHead ▸ other).head).append ?_
    rw [Condition.length_layout]
    refine (steady zero first firstFits (chosen.upTo rfl) there).append ?_
    rw [length_layout]
    refine (Steady.single (.branch jump.head rfl (by simp) finish)).append ?_
    exact steady zero second secondFits other there
  | .whileLoop test body, fits, here, _ => by
    have again := empty_at_start fits here
    obtain ⟨testFits, bodyFits⟩ := fits
    simp only [depths, List.append_assoc, List.singleton_append] at here
    obtain ⟨_, bodyHead⟩ := head_depths [0] body bodyFits
    have round := here.right
    rw [Condition.length_depths] at round
    have jump := round.right
    rw [length_depths] at jump
    have finish := jump.tail.head
    refine (test.steady testFits (here.upTo bodyHead) finish).append ?_
    rw [Condition.length_layout]
    refine (steady zero body bodyFits (round.upTo rfl) fun way => ?_).append ?_
    · cases way
      · exact finish
      · exact again
    · rw [length_layout]
      exact .single (.branch jump.head rfl (by simp) again)
  | .doLoop body test, fits, here, _ => by
    have again := empty_at_start fits here
    obtain ⟨testFits, bodyFits⟩ := fits
    simp only [depths, List.append_assoc] at here
    obtain ⟨_, testHead⟩ := test.head_depths 0 []
    have tested := here.right
    rw [length_depths] at tested
    have finish := tested.right.head
    rw [Condition.length_depths] at finish
    have next := (testHead ▸ tested).head
    refine (steady zero body bodyFits (here.upTo testHead) fun way => ?_).append ?_
    · cases way
      · exact finish
      · exact next
    · rw [length_layout]
      exact test.steady testFits tested again
  | .forLoop first test body updates, fits, here, _ => by
    obtain ⟨firstFits, testFits, bodyFits, updatesFit, leaves⟩ := fits
    simp only [depths, List.append_assoc, List.singleton_append] at here
    obtain ⟨_, updateHead⟩ := updates.head_depths 0 [0]
    rw [leaves] at updateHead
    obtain ⟨_, bodyHead⟩ := head_depths _ body bodyFits
    obtain ⟨_, testHead⟩ := test.head_depths 0 _
    have tested := here.right
    rw [length_depths] at tested
    have round := tested.right
    rw [Condition.length_depths] at round
    have update := round.right
    rw [length_depths] at update
    have jump := update.right
    rw [Block.length_depths] at jump
    have finish := jump.tail.head
    have next := (updateHead ▸ update).head
    rw [updateHead] at round
    rw [updateHead, bodyHead] at tested
    rw [updateHead, bodyHead, testHead] at here
    have again := (testHead ▸ tested).head
    refine (steady zero first firstFits (here.upTo rfl) fun _ => zero).append ?_
    rw [length_layout]
    refine (test.steady testFits (tested.upTo rfl) finish).append ?_
    rw [Condition.length_layout]
    refine (steady zero body bodyFits (round.upTo rfl) fun way => ?_).append ?_
    · cases way
      · exact finish
      · exact next
    · rw [length_layout]
      refine (updates.steady updatesFit (by rw [leaves]; exact update.upTo rfl)).append ?_
      rw [Block.length_layout]
      exact .single (.branch jump.head rfl (by simp) again)
  | .leave way, _, here, there => .single (.branch here.head rfl (by simp) (there way))

end MethodPatch.Chunk
