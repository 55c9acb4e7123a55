/-
**A machine for whole numbers.**

The part of the virtual machine that runs on whole numbers in local variables and on the operand
stack. A `long` takes two slots of the local variables; what is stored in either of them makes it
unreadable. An instruction that finds other operands than it takes, or that the machine does not
have, stops it.

* `Instr.apply`: what an instruction that is no branch does to the data;
* `step`: one step of code;
* `Runs`: steps that begin inside an interval of the code, counted;
* `Stays.inside`: a machine that can go on for ever in an interval is never found outside.
-/

import Mathlib.Logic.Relation
import MethodPatch.Class.Pool
import MethodPatch.Typing.Assignable
import MethodPatch.Proofs.Machine.Word

namespace MethodPatch

/-- What a slot of the local variables holds: a word, or the second half of one. -/
inductive Cell where
  | word (word : Word)
  | upper
  deriving DecidableEq

/-- The local variables by their slots. -/
abbrev Locals := Nat → Option Cell

namespace Locals

/-- The word of a type at a slot. -/
def load (locals : Locals) (slot : Nat) (type : Integral) : Option Word :=
  match locals slot with
  | some (.word word) =>
    if word.type = type ∧ (type = .int ∨ locals (slot + 1) = some .upper) then some word else none
  | _ => none

/-- The local variables with a word at a slot. -/
def store (locals : Locals) (slot : Nat) (word : Word) : Locals := fun other =>
  if other = slot then some (.word word)
  else if word.type = .long ∧ other = slot + 1 then some .upper
  else locals other

end Locals

/-- The operand stack, the last word first, and the local variables. -/
structure Data where
  stack : List Word
  locals : Locals

namespace Data

/-- One word more on the stack. -/
def push (data : Data) (word : Word) : Data := { data with stack := word :: data.stack }

/-- The last word, and the data without it. -/
def pop (data : Data) : Option (Word × Data) :=
  match data.stack with
  | [] => none
  | word :: rest => some (word, { data with stack := rest })

/-- The last word of a type, and the data without it. -/
def popOf (data : Data) (type : Integral) : Option (Word × Data) := do
  let (word, rest) ← data.pop
  if word.type = type then some (word, rest) else none

/-- The last word replaced by what is made of its number. -/
def convert (data : Data) (source target : Integral) (change : Int → Int) : Option Data := do
  let (word, rest) ← data.popOf source
  some (rest.push (.ofInt target (change word.toInt)))

/-- The last two words, of one type, replaced by what is computed from them. -/
def combine (data : Data) (type : Integral) (compute : Word → Word → Option Word) :
    Option Data := do
  let (right, rest) ← data.popOf type
  let (left, rest) ← rest.popOf type
  let word ← compute left right
  some (rest.push word)

/-- The operations on the stack that are made for one word. -/
def stackOp (data : Data) (op : StackOp) : Option Data :=
  match op with
  | .pop => do
    let (_, rest) ← data.popOf .int
    some rest
  | .pop2 => do
    let (_, rest) ← data.popOf .long
    some rest
  | .dup => do
    let (word, _) ← data.popOf .int
    some (data.push word)
  | .dup2 => do
    let (word, _) ← data.popOf .long
    some (data.push word)
  | .dupX1 | .dupX2 | .dup2X1 | .dup2X2 | .swap => none

end Data

/-- The whole numbers among the families of values. -/
def Storage.integral? : Storage → Option Integral
  | .int => some .int
  | .long => some .long
  | .float | .double | .ref => none

/-- What an instruction that is no branch does to the data. -/
def Instr.apply (pool : Pool) (instr : Instr) (data : Data) : Option Data :=
  match instr with
  | .nop => some data
  | .iconst value | .bipush value => some (data.push (.ofInt .int value.toInt))
  | .sipush value => some (data.push (.ofInt .int value.toInt))
  | .lconst value => some (data.push (.ofInt .long value.toNat))
  | .ldc index =>
    match pool.get? index.toNat with
    | some (.integer value) => some (data.push (.int value))
    | _ => none
  | .ldc2 index =>
    match pool.get? index.toNat with
    | some (.long value) => some (data.push (.long value))
    | _ => none
  | .load storage slot => do
    let word ← data.locals.load slot.toNat (← storage.integral?)
    some (data.push word)
  | .store storage slot => do
    let (word, rest) ← data.popOf (← storage.integral?)
    some { rest with locals := rest.locals.store slot.toNat word }
  | .iinc slot delta => do
    let word ← data.locals.load slot.toNat .int
    some { data with locals :=
      data.locals.store slot.toNat (.ofInt .int (word.toInt + delta.toInt)) }
  | .stack op => data.stackOp op
  | .arithmetic op numeric => do data.combine (← numeric.integral?) (Word.arithmetic op)
  | .neg numeric => do
    let type ← numeric.integral?
    data.convert type type fun number => -number
  | .shift op type => do
    let (distance, rest) ← data.popOf .int
    let (word, rest) ← rest.popOf type
    some (rest.push (word.shift op distance.toInt))
  | .bitwise op type => data.combine type (Word.bitwise op)
  | .convert source target => do
    data.convert (← source.integral?) (← target.integral?) id
  | .narrow target => data.convert .int .int (Word.narrow target)
  | .compare ordering =>
    match ordering with
    | .long => data.combine .long fun left right =>
      some (.ofInt .int (order left.toInt right.toInt))
    | .floatLess | .floatGreater | .doubleLess | .doubleGreater => none
  | .aconstNull | .fconst _ | .dconst _ | .arrayLoad _ | .arrayStore _ | .arrayLength | .newArray _
  | .anewArray _ | .branch _ _ | .ret _ | .athrow | .field _ _ _ | .invoke _ _ _ _ | .new _
  | .checkCast _ | .instanceOf _ => none

/-- Whether a branch is taken, and the data behind it. -/
def Test.decide (test : Test) (data : Data) : Option (Bool × Data) :=
  match test with
  | .zero comparison => do
    let (word, rest) ← data.popOf .int
    some (comparison.holds word.toInt 0, rest)
  | .ints comparison => do
    let (right, rest) ← data.popOf .int
    let (left, rest) ← rest.popOf .int
    some (comparison.holds left.toInt right.toInt, rest)
  | .always => some (true, data)
  | .same | .different | .null | .nonNull => none

/-- The index of the next instruction, and the data. -/
structure State where
  pc : Nat
  data : Data

/-- One step of code. There is none behind its end. -/
def step (code : List Instr) (pool : Pool) (state : State) : Option State :=
  match code[state.pc]? with
  | none => none
  | some (.branch test target) =>
    (test.decide state.data).map fun (taken, data) =>
      ⟨if taken then target else state.pc + 1, data⟩
  | some instr => (instr.apply pool state.data).map fun data => ⟨state.pc + 1, data⟩

/-! ### Runs -/

/-- A number of steps, each from an instruction of an interval. -/
inductive Runs (code : List Instr) (pool : Pool) (start stop : Nat) : Nat → State → State → Prop
  | refl (state : State) : Runs code pool start stop 0 state state
  | step {count : Nat} {state next last : State} (above : start ≤ state.pc)
    (below : state.pc < stop) (steps : MethodPatch.step code pool state = some next)
    (rest : Runs code pool start stop count next last) :
    Runs code pool start stop (count + 1) state last

namespace Runs

variable {code : List Instr} {pool : Pool} {start stop first second : Nat}
  {state middle last : State}

theorem trans (here : Runs code pool start stop first state middle)
    (behind : Runs code pool start stop second middle last) :
    Runs code pool start stop (first + second) state last := by
  induction here with
  | refl state => rwa [Nat.zero_add]
  | step above below steps rest ih =>
    rw [Nat.add_right_comm]
    exact .step above below steps (ih behind)

/-- An interval inside another one. -/
theorem widen {outerStart outerStop : Nat} (here : Runs code pool start stop first state last)
    (fromStart : outerStart ≤ start) (toStop : stop ≤ outerStop) :
    Runs code pool outerStart outerStop first state last := by
  induction here with
  | refl state => exact .refl state
  | step above below steps rest ih =>
    exact .step (Nat.le_trans fromStart above) (Nat.lt_of_lt_of_le below toStop) steps ih

end Runs

/-- Steps lead from one state to another, all from an interval. -/
def Reaches (code : List Instr) (pool : Pool) (start stop : Nat) (state last : State) : Prop :=
  ∃ count, Runs code pool start stop count state last

namespace Reaches

variable {code : List Instr} {pool : Pool} {start stop : Nat} {state middle last : State}

theorem refl (state : State) : Reaches code pool start stop state state := ⟨0, .refl state⟩

theorem trans (here : Reaches code pool start stop state middle)
    (behind : Reaches code pool start stop middle last) :
    Reaches code pool start stop state last := by
  obtain ⟨_, here⟩ := here
  obtain ⟨_, behind⟩ := behind
  exact ⟨_, here.trans behind⟩

theorem widen {outerStart outerStop : Nat} (here : Reaches code pool start stop state last)
    (fromStart : outerStart ≤ start) (toStop : stop ≤ outerStop) :
    Reaches code pool outerStart outerStop state last := by
  obtain ⟨count, here⟩ := here
  exact ⟨count, here.widen fromStart toStop⟩

theorem single (above : start ≤ state.pc) (below : state.pc < stop)
    (steps : step code pool state = some last) : Reaches code pool start stop state last :=
  ⟨1, .step above below steps (.refl last)⟩

end Reaches

/-- Reaching with at least one step. -/
def Advances (code : List Instr) (pool : Pool) (start stop : Nat) (state last : State) : Prop :=
  ∃ count, Runs code pool start stop (count + 1) state last

namespace Advances

variable {code : List Instr} {pool : Pool} {start stop : Nat} {state middle last : State}

theorem reaches (here : Advances code pool start stop state last) :
    Reaches code pool start stop state last := by
  obtain ⟨count, here⟩ := here
  exact ⟨count + 1, here⟩

theorem single (above : start ≤ state.pc) (below : state.pc < stop)
    (steps : step code pool state = some last) : Advances code pool start stop state last :=
  ⟨0, .step above below steps (.refl last)⟩

theorem widen {outerStart outerStop : Nat} (here : Advances code pool start stop state last)
    (fromStart : outerStart ≤ start) (toStop : stop ≤ outerStop) :
    Advances code pool outerStart outerStop state last := by
  obtain ⟨count, here⟩ := here
  exact ⟨count, here.widen fromStart toStop⟩

end Advances

theorem Reaches.advances {code : List Instr} {pool : Pool} {start stop : Nat}
    {state middle last : State} (here : Reaches code pool start stop state middle)
    (behind : Advances code pool start stop middle last) :
    Advances code pool start stop state last := by
  obtain ⟨first, here⟩ := here
  obtain ⟨second, behind⟩ := behind
  exact ⟨first + second, here.trans behind⟩

/-! ### Any number of steps -/

/-- Steps lead from one state to another, wherever they go. -/
def Leads (code : List Instr) (pool : Pool) : State → State → Prop :=
  Relation.ReflTransGen fun state next => step code pool state = some next

theorem Reaches.leads {code : List Instr} {pool : Pool} {start stop : Nat} {state last : State}
    (here : Reaches code pool start stop state last) : Leads code pool state last := by
  obtain ⟨count, here⟩ := here
  induction here with
  | refl state => exact .refl
  | step above below steps rest ih => exact .head steps ih

/-- The machine can go on for any number of steps without leaving an interval. -/
def Stays (code : List Instr) (pool : Pool) (start stop : Nat) (state : State) : Prop :=
  ∀ enough, ∃ count last, enough ≤ count ∧ Runs code pool start stop count state last

/-- A machine that stays in an interval is never found outside, because its steps are determined. -/
theorem Stays.inside {code : List Instr} {pool : Pool} {start stop : Nat} {state last : State}
    (stays : Stays code pool start stop state) (leads : Leads code pool state last) :
    start ≤ last.pc ∧ last.pc < stop := by
  induction leads using Relation.ReflTransGen.head_induction_on with
  | refl =>
    obtain ⟨count, _, some, runs⟩ := stays 1
    cases runs with
    | refl => cases some
    | step above below _ _ => exact ⟨above, below⟩
  | head steps _ ih =>
    refine ih fun enough => ?_
    obtain ⟨count, last, many, runs⟩ := stays (enough + 1)
    cases runs with
    | refl => cases many
    | step _ _ alsoSteps rest =>
      rw [steps] at alsoSteps
      cases alsoSteps
      exact ⟨_, last, Nat.le_of_succ_le_succ many, rest⟩

end MethodPatch
