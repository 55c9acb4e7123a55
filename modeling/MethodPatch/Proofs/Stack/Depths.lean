/-
**Depths of the operand stack along structured code.**

`Steady depths start code` is what the virtual machine's verifier asks of a piece of code: each
instruction finds the slots that it pops, and wherever control goes from it the depth is the one
that it leaves. A block tells the depths of its instructions in advance, and whether they are such.

* `Block.steady`: a block that fits a depth has steady code, wherever it stands;
* `Condition.steady`: so has a condition, if the depth at its target is the one that it began with.
-/

import MethodPatch.Proofs.Layout.Block

namespace MethodPatch

/-- What one instruction asks of the depths: there is enough to pop, and its successors have the
depth that it leaves. -/
def SteadyAt (depths : List Nat) (index : Nat) (instr : Instr) : Prop :=
  ∃ before after : Nat, depths[index]? = some before ∧ instr.pops ≤ before ∧
    (after : Int) = before + instr.effect ∧
    (instr.isUnconditional = false → depths[index + 1]? = some after) ∧
    ∀ target, instr.target? = some target → depths[target]? = some after

/-- What all instructions of a piece of code ask of the depths. -/
def Steady (depths : List Nat) (start : Nat) (code : List Instr) : Prop :=
  ∀ index instr, code[index]? = some instr → SteadyAt depths (start + index) instr

section Steady

variable {depths : List Nat} {start before after : Nat}

theorem Steady.nil : Steady depths start [] := by
  intro index instr found
  simp at found

theorem Steady.append {first second : List Instr} (left : Steady depths start first)
    (right : Steady depths (start + first.length) second) :
    Steady depths start (first ++ second) := by
  intro index instr found
  by_cases inFirst : index < first.length
  · rw [List.getElem?_append_left inFirst] at found
    exact left index instr found
  · rw [List.getElem?_append_right (by omega)] at found
    have steady := right _ instr found
    rwa [show start + first.length + (index - first.length) = start + index by omega] at steady

theorem Steady.single {instr : Instr} (steady : SteadyAt depths start instr) :
    Steady depths start [instr] := by
  intro index other found
  cases index with
  | zero => exact Option.some.inj found ▸ steady
  | succ index => simp at found

/-- An instruction after which control goes on. -/
theorem SteadyAt.plain {instr : Instr} (here : PartAt depths start [before, after])
    (enough : instr.pops ≤ before) (goesOn : instr.isTerminator = false)
    (leaves : after = before - instr.pops + instr.pushes) : SteadyAt depths start instr := by
  refine ⟨before, after, here.head, enough, ?_, fun _ => here.tail.head, fun target found => ?_⟩
  · rw [leaves, Instr.effect]
    omega
  · cases instr <;> simp [Instr.target?, Instr.isTerminator] at found goesOn

/-- A branch. -/
theorem SteadyAt.branch {test : Test} {target : Nat} (here : depths[start]? = some before)
    (leaves : before = after + test.operands)
    (behind : test ≠ .always → depths[start + 1]? = some after)
    (there : depths[target]? = some after) : SteadyAt depths start (.branch test target) := by
  refine ⟨before, after, here, ?_, ?_, fun conditional => behind ?_, fun _ found => ?_⟩
  · simp only [Instr.pops]
    omega
  · simp only [Instr.effect, Instr.pops, Instr.pushes]
    omega
  · rintro rfl
    simp [Instr.isUnconditional] at conditional
  · exact Option.some.inj found ▸ there

end Steady

/-! ### Blocks -/

/-- The depth behind a block that begins with a depth. -/
def Block.leaves (depth : Nat) : Block → Nat
  | .nil => depth
  | .instr single => depth - single.pops + single.pushes
  | .seq first second => second.leaves (first.leaves depth)
  | .choice _ first _ => first.leaves depth

mutual

/-- The depths before the instructions of a block that begins with a depth. -/
def Block.depths (depth : Nat) : Block → List Nat
  | .nil => []
  | .instr _ => [depth]
  | .seq first second => first.depths depth ++ second.depths (first.leaves depth)
  | .choice test first second =>
    test.depths depth ++ (first.depths depth ++ (first.leaves depth :: second.depths depth))

/-- The depths before the instructions of a condition that begins with a depth. -/
def Condition.depths (depth : Nat) : Condition → List Nat
  | .branch operands _ => operands.depths depth ++ [operands.leaves depth]
  | .constant leaves => if leaves then [depth] else []
  | .either first second | .skipping first second => first.depths depth ++ second.depths depth

end

mutual

/-- A block finds what its instructions pop, and both ways through a choice end with one depth. -/
def Block.Fits (depth : Nat) : Block → Prop
  | .nil => True
  | .instr instr => instr.pops ≤ depth ∧ instr.isTerminator = false
  | .seq first second => first.Fits depth ∧ second.Fits (first.leaves depth)
  | .choice test first second =>
    test.Fits depth ∧ first.Fits depth ∧ second.Fits depth ∧
      first.leaves depth = second.leaves depth

/-- A condition finds what its instructions pop and ends with the depth that it begins with. -/
def Condition.Fits (depth : Nat) : Condition → Prop
  | .branch operands test =>
    operands.Fits depth ∧ operands.leaves depth = depth + test.operands
  | .constant _ => True
  | .either first second | .skipping first second => first.Fits depth ∧ second.Fits depth

end

mutual

@[simp] theorem Block.length_depths (depth : Nat) :
    (block : Block) → (block.depths depth).length = block.size
  | .nil => rfl
  | .instr _ => rfl
  | .seq first second => by
    simp [Block.depths, Block.size, first.length_depths, second.length_depths]
  | .choice test first second => by
    simp only [Block.depths, Block.size, List.length_append, List.length_cons,
      test.length_depths, first.length_depths, second.length_depths]
    omega

@[simp] theorem Condition.length_depths (depth : Nat) :
    (condition : Condition) → (condition.depths depth).length = condition.size
  | .branch operands _ => by simp [Condition.depths, Condition.size, operands.length_depths]
  | .constant leaves => by cases leaves <;> rfl
  | .either first second | .skipping first second => by
    simp [Condition.depths, Condition.size, first.length_depths, second.length_depths]

end

mutual

/-- The first depth of a block is the one that it begins with. -/
theorem Block.head_depths (depth : Nat) (rest : List Nat) :
    (block : Block) → ∃ others, block.depths depth ++ block.leaves depth :: rest = depth :: others
  | .nil => ⟨rest, rfl⟩
  | .instr _ => ⟨_, rfl⟩
  | .seq first second => by
    obtain ⟨others, second⟩ := second.head_depths (first.leaves depth) rest
    obtain ⟨others, first⟩ := first.head_depths depth others
    exact ⟨others, by rw [Block.depths, Block.leaves, List.append_assoc, second, first]⟩
  | .choice test first second => by
    obtain ⟨others, first⟩ := first.head_depths depth (second.depths depth ++ _ :: rest)
    obtain ⟨others, test⟩ := test.head_depths depth others
    refine ⟨others, ?_⟩
    rw [Block.depths, Block.leaves, List.append_assoc, List.append_assoc, List.cons_append, first,
      test]

/-- The first depth of a condition is the one that it begins and ends with. -/
theorem Condition.head_depths (depth : Nat) (rest : List Nat) :
    (condition : Condition) → ∃ others, condition.depths depth ++ depth :: rest = depth :: others
  | .branch operands _ => by
    obtain ⟨others, operands⟩ := operands.head_depths depth (depth :: rest)
    exact ⟨others, by rw [Condition.depths, List.append_assoc, List.singleton_append, operands]⟩
  | .constant leaves => by cases leaves <;> exact ⟨_, rfl⟩
  | .either first second | .skipping first second => by
    obtain ⟨others, second⟩ := second.head_depths depth rest
    obtain ⟨others, first⟩ := first.head_depths depth others
    exact ⟨others, by rw [Condition.depths, List.append_assoc, second, first]⟩

end

/-- A part that goes on with some depth, up to that depth. -/
theorem PartAt.upTo {depths front back rest : List Nat} {start depth : Nat}
    (here : PartAt depths start (front ++ back)) (head : back = depth :: rest) :
    PartAt depths start (front ++ [depth]) := by
  rw [head, ← List.singleton_append, ← List.append_assoc] at here
  exact here.left

section Blocks

variable {depths : List Nat}

mutual

/-- **A block that fits has steady code.** -/
theorem Block.steady {start depth : Nat} :
    (block : Block) → block.Fits depth →
      PartAt depths start (block.depths depth ++ [block.leaves depth]) →
      Steady depths start (block.layout start)
  | .nil, _, _ => .nil
  | .instr _, fits, here => .single (.plain here fits.1 fits.2 rfl)
  | .seq first second, fits, here => by
    simp only [Block.depths, Block.leaves, List.append_assoc] at here
    obtain ⟨others, head⟩ := second.head_depths (first.leaves depth) []
    have behind := here.right
    rw [Block.length_depths] at behind
    refine (first.steady fits.1 (here.upTo head)).append ?_
    rw [Block.length_layout]
    exact second.steady fits.2 behind
  | .choice test first second, fits, here => by
    obtain ⟨testFits, firstFits, secondFits, same⟩ := fits
    simp only [Block.depths, Block.leaves, List.append_assoc, List.cons_append] at here
    obtain ⟨others, firstHead⟩ :=
      first.head_depths depth (second.depths depth ++ [first.leaves depth])
    have chosen := here.right
    rw [Condition.length_depths] at chosen
    have jump := chosen.right
    rw [Block.length_depths] at jump
    have other := jump.tail
    have finish := other.right.head
    rw [Block.length_depths] at finish
    rw [same] at other
    obtain ⟨_, secondHead⟩ := second.head_depths depth []
    have otherDepth := (secondHead ▸ other).head
    refine (test.steady testFits (here.upTo firstHead) otherDepth).append ?_
    rw [Condition.length_layout]
    refine (first.steady firstFits (chosen.upTo rfl)).append ?_
    rw [Block.length_layout]
    refine (Steady.single (.branch jump.head rfl (by simp) finish)).append ?_
    exact second.steady secondFits other

/-- **A condition that fits has steady code**, if its target has the depth that it begins with. -/
theorem Condition.steady {start target depth : Nat} :
    (condition : Condition) → condition.Fits depth →
      PartAt depths start (condition.depths depth ++ [depth]) →
      depths[target]? = some depth → Steady depths start (condition.layout start target)
  | .branch operands test, fits, here, there => by
    simp only [Condition.depths, List.append_assoc] at here
    have jump := here.right
    rw [Block.length_depths] at jump
    refine (operands.steady fits.1 (here.upTo rfl)).append ?_
    rw [Block.length_layout]
    exact .single (.branch jump.head fits.2 (fun _ => jump.tail.head) there)
  | .constant true, _, here, there => .single (.branch here.head rfl (by simp) there)
  | .constant false, _, _, _ => .nil
  | .either first second, fits, here, there => by
    simp only [Condition.depths, List.append_assoc] at here
    obtain ⟨others, head⟩ := second.head_depths depth []
    have behind := here.right
    rw [Condition.length_depths] at behind
    refine (first.steady fits.1 (here.upTo head) there).append ?_
    rw [Condition.length_layout]
    exact second.steady fits.2 behind there
  | .skipping skip second, fits, here, there => by
    simp only [Condition.depths, List.append_assoc] at here
    obtain ⟨others, head⟩ := second.head_depths depth []
    have behind := here.right
    rw [Condition.length_depths] at behind
    have finish := behind.right.head
    rw [Condition.length_depths] at finish
    refine (skip.steady fits.1 (here.upTo head) finish).append ?_
    rw [Condition.length_layout]
    exact second.steady fits.2 behind there

end

end Blocks

end MethodPatch
