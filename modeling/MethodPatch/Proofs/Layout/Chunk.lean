/-
**Structured code of statements.**

Statements are lowered to code with loops. The branches by which `break` and `continue` leave the
body of a loop go to places that the loop decides; until it is generated they stand at the indices
`leaving` and go to instruction zero. `layout` is the code with both targets.

* `Chunk.landed_leaving`: landing the branches of one way out gives the layout with that target.
-/

import MethodPatch.Proofs.Layout.Block

namespace MethodPatch

/-- The ways to leave the body of a loop early: out of the loop, and to its next round. -/
inductive Way where
  | out
  | next
  deriving DecidableEq

/-- The target of each way. -/
def Way.targets (out next : Nat) : Way → Nat
  | .out => out
  | .next => next

/-- Code of statements. What stands in `first` of a `for` loop is in no loop of its own. -/
inductive Chunk where
  | block (code : Block)
  | stop (operands : Block) (instr : Instr)
  | seq (first second : Chunk)
  | ifThen (test : Condition) (body : Chunk)
  | ifElse (test : Condition) (first second : Chunk)
  | whileLoop (test : Condition) (body : Chunk)
  | doLoop (body : Chunk) (test : Condition)
  | forLoop (first : Chunk) (test : Condition) (body : Chunk) (updates : Block)
  | leave (way : Way)

namespace Chunk

/-- The number of instructions. -/
def size : Chunk → Nat
  | .block code => code.size
  | .stop operands _ => operands.size + 1
  | .seq first second => first.size + second.size
  | .ifThen test body => test.size + body.size
  | .ifElse test first second => test.size + first.size + 1 + second.size
  | .whileLoop test body => test.size + body.size + 1
  | .doLoop body test => body.size + test.size
  | .forLoop first test body updates => first.size + test.size + body.size + updates.size + 1
  | .leave _ => 1

/-- The code that begins at an index, with the targets of the ways out of the loop around. -/
def layout (start : Nat) (targets : Way → Nat) : Chunk → List Instr
  | .block code => code.layout start
  | .stop operands instr => operands.layout start ++ [instr]
  | .seq first second =>
    first.layout start targets ++ second.layout (start + first.size) targets
  | .ifThen test body =>
    test.layout start (start + test.size + body.size) ++ body.layout (start + test.size) targets
  | .ifElse test first second =>
    let other := start + test.size + first.size + 1
    test.layout start other ++ (first.layout (start + test.size) targets ++
      (.branch .always (other + second.size) :: second.layout other targets))
  | .whileLoop test body =>
    let finish := start + test.size + body.size + 1
    test.layout start finish ++
      (body.layout (start + test.size) (Way.targets finish start) ++ [.branch .always start])
  | .doLoop body test =>
    let again := start + body.size
    body.layout start (Way.targets (again + test.size) again) ++ test.layout again start
  | .forLoop first test body updates =>
    let round := start + first.size
    let update := round + test.size + body.size
    let finish := update + updates.size + 1
    first.layout start (fun _ => 0) ++ (test.layout round finish ++
      (body.layout (round + test.size) (Way.targets finish update) ++
        (updates.layout update ++ [.branch .always round])))
  | .leave way => [.branch .always (targets way)]

/-- The indices of the branches by which the loop around is left in one way. -/
def leaving (way : Way) (start : Nat) : Chunk → List Nat
  | .seq first second => first.leaving way start ++ second.leaving way (start + first.size)
  | .ifThen test body => body.leaving way (start + test.size)
  | .ifElse test first second =>
    first.leaving way (start + test.size) ++
      second.leaving way (start + test.size + first.size + 1)
  | .leave other => if other = way then [start] else []
  | _ => []

variable {start target index : Nat} {targets : Way → Nat} {way : Way}

@[simp] theorem length_layout (chunk : Chunk) (start : Nat) (targets : Way → Nat) :
    (chunk.layout start targets).length = chunk.size := by
  induction chunk generalizing start targets <;> simp [layout, size, *] <;> omega

theorem leaving_bounds (chunk : Chunk) (isLeaving : index ∈ chunk.leaving way start) :
    start ≤ index ∧ index < start + chunk.size := by
  induction chunk generalizing start with
  | seq first second ihFirst ihSecond =>
    simp only [size]
    rcases List.mem_append.mp isLeaving with inFirst | inSecond
    · have := ihFirst inFirst
      omega
    · have := ihSecond inSecond
      omega
  | ifThen test body ih =>
    have := ih isLeaving
    simp only [size]
    omega
  | ifElse test first second ihFirst ihSecond =>
    simp only [size]
    rcases List.mem_append.mp isLeaving with inFirst | inSecond
    · have := ihFirst inFirst
      omega
    · have := ihSecond inSecond
      omega
  | leave other =>
    rw [leaving] at isLeaving
    split at isLeaving
    · cases List.mem_singleton.mp isLeaving
      exact ⟨Nat.le_refl _, Nat.lt_succ_self _⟩
    · cases isLeaving
  | block | stop | whileLoop | doLoop | forLoop => simp [leaving] at isLeaving

/-! ### Landing -/

/-- Landing branches of which some stand in each of two pieces of code. -/
theorem landed_append_both {branches others : List Nat} {first second : List Instr}
    (inFirst : ∀ index ∈ branches, start ≤ index ∧ index < start + first.length)
    (inSecond : ∀ index ∈ others, start + first.length ≤ index) :
    landed (branches ++ others) target start (first ++ second) =
      landed branches target start first ++ landed others target (start + first.length) second := by
  rw [landed_append, landed_append_left, landed_append_right]
  · intro index isBranch
    have := inFirst index isBranch
    omega
  · intro index isBranch
    have := inSecond index isBranch
    omega

/-- Landing branches that all stand in the second of two pieces of code. -/
theorem landed_append_second {branches : List Nat} {first second : List Instr}
    (inSecond : ∀ index ∈ branches, start + first.length ≤ index) :
    landed branches target start (first ++ second) =
      first ++ landed branches target (start + first.length) second := by
  rw [landed_append, landed_of_disjoint first]
  intro index isBranch
  exact .inr (inSecond index isBranch)

/-- **Landing the branches of one way out.** -/
theorem landed_leaving (chunk : Chunk) (way : Way) (start target : Nat) (targets : Way → Nat) :
    landed (chunk.leaving way start) target start (chunk.layout start targets) =
      chunk.layout start (fun other => if other = way then target else targets other) := by
  induction chunk generalizing start with
  | seq first second ihFirst ihSecond =>
    simp only [layout, leaving]
    rw [landed_append_both, ihFirst, length_layout, ihSecond]
    · intro index isLeaving
      simpa using leaving_bounds first isLeaving
    · intro index isLeaving
      simpa using (leaving_bounds second isLeaving).1
  | ifThen test body ih =>
    simp only [layout, leaving]
    rw [landed_append_second, Condition.length_layout, ih]
    intro index isLeaving
    simpa using (leaving_bounds body isLeaving).1
  | ifElse test first second ihFirst ihSecond =>
    simp only [layout, leaving]
    rw [landed_append_second, Condition.length_layout, landed_append_both, ihFirst, length_layout,
      landed_cons, ihSecond]
    · have notLanded : start + test.size + first.size ∉
          second.leaving way (start + test.size + first.size + 1) := by
        intro isLeaving
        have := leaving_bounds second isLeaving
        omega
      rw [if_neg notLanded]
    · intro index isLeaving
      simpa using leaving_bounds first isLeaving
    · intro index isLeaving
      have := (leaving_bounds second isLeaving).1
      simp only [length_layout]
      omega
    · intro index isLeaving
      simp only [Condition.length_layout]
      rcases List.mem_append.mp isLeaving with inFirst | inSecond
      · exact (leaving_bounds first inFirst).1
      · have := (leaving_bounds second inSecond).1
        omega
  | leave other =>
    by_cases same : other = way <;> simp [layout, leaving, same, Instr.retarget]
  | block | stop | whileLoop | doLoop | forLoop => exact landed_nil

/-- Landing both ways, the next round first. -/
theorem landed_both (chunk : Chunk) (start out next : Nat) :
    landed (chunk.leaving .out start) out start
      (landed (chunk.leaving .next start) next start (chunk.layout start fun _ => 0)) =
        chunk.layout start (Way.targets out next) := by
  rw [landed_leaving, landed_leaving]
  congr 1
  funext way
  cases way <;> rfl

end Chunk

end MethodPatch
