/-
**Runs of code with loops.**

What a chunk does to the data, with a limit on the rounds of its loops, and what the machine does in
every code that holds the layout of the chunk: it arrives where the chunk passes on to, or at the
target of the way by which it is left. If the chunk is given up, the machine has taken as many steps
in the layout as there are rounds in the limit, since every round takes a step.

* `Chunk.run`: data to data;
* `Chunk.follows`: the machine runs layouts alike.
-/

import MethodPatch.Proofs.Machine.Block
import MethodPatch.Proofs.Machine.Outcome

namespace MethodPatch

/-- One of two executions, by whether a condition branches away. -/
def Condition.decide (pool : Pool) (test : Condition) (leaves stays : Data → Outcome Data)
    (data : Data) : Outcome Data :=
  match test.run pool data with
  | some (true, data) => leaves data
  | some (false, data) => stays data
  | none => .stuck

/-- What a chunk does to the data. -/
def Chunk.run (pool : Pool) (limit : Nat) : Chunk → Data → Outcome Data
  | .block code => fun data => .ofOption (code.run pool data)
  | .stop _ _ => fun _ => .stuck
  | .seq first second => fun data => (first.run pool limit data).andThen (second.run pool limit)
  | .ifThen test body => test.decide pool .passed (body.run pool limit)
  | .ifElse test first second => test.decide pool (second.run pool limit) (first.run pool limit)
  | .whileLoop test body => Outcome.rounds (test.decide pool (.left .out) (body.run pool limit)) limit
  | .doLoop body test =>
    Outcome.rounds (fun data => (body.run pool limit data).caught.andThen
      (test.decide pool .passed (.left .out))) limit
  | .forLoop first test body updates => fun data =>
    (first.run pool limit data).unlooped.andThen
      (Outcome.rounds (test.decide pool (.left .out) fun data =>
        (body.run pool limit data).caught.andThen fun data => .ofOption (updates.run pool data))
          limit)
  | .leave way => .left way

/-! ### What the machine does -/

/-- The machine does from a state on what an outcome says, between two places of the code. -/
def Follows (code : List Instr) (pool : Pool) (start stop limit : Nat) (state : State)
    (finish : Nat) (targets : Way → Nat) : Outcome Data → Prop
  | .stuck => True
  | .unfinished => ∃ count last, limit ≤ count ∧ Runs code pool start stop count state last
  | .passed data => Reaches code pool start stop state ⟨finish, data⟩
  | .left .out data => Reaches code pool start stop state ⟨targets .out, data⟩
  | .left .next data => Advances code pool start stop state ⟨targets .next, data⟩

section Follows

variable {code : List Instr} {pool : Pool} {start stop limit finish : Nat} {state middle : State}
  {targets : Way → Nat} {outcome : Outcome Data} {data : Data}

theorem Follows.widen {outerStart outerStop : Nat}
    (follows : Follows code pool start stop limit state finish targets outcome)
    (fromStart : outerStart ≤ start) (toStop : stop ≤ outerStop) :
    Follows code pool outerStart outerStop limit state finish targets outcome := by
  cases outcome with
  | stuck => trivial
  | unfinished =>
    obtain ⟨count, last, many, runs⟩ := follows
    exact ⟨count, last, many, runs.widen fromStart toStop⟩
  | passed data => exact Reaches.widen follows fromStart toStop
  | left way data =>
    cases way with
    | out => exact Reaches.widen follows fromStart toStop
    | next => exact Advances.widen follows fromStart toStop

/-- Steps in front of what an outcome says. -/
theorem Follows.behind (reaches : Reaches code pool start stop state middle)
    (follows : Follows code pool start stop limit middle finish targets outcome) :
    Follows code pool start stop limit state finish targets outcome := by
  cases outcome with
  | stuck => trivial
  | unfinished =>
    obtain ⟨first, reaches⟩ := reaches
    obtain ⟨count, last, many, runs⟩ := follows
    exact ⟨first + count, last, Nat.le_trans many (Nat.le_add_left _ _), reaches.trans runs⟩
  | passed data => exact reaches.trans follows
  | left way data =>
    cases way with
    | out => exact reaches.trans follows
    | next => exact reaches.advances follows

theorem Follows.andThen {place : Nat} {next : Data → Outcome Data}
    (follows : Follows code pool start stop limit state place targets outcome)
    (goesOn : ∀ data,
      Follows code pool start stop limit ⟨place, data⟩ finish targets (next data)) :
    Follows code pool start stop limit state finish targets (outcome.andThen next) := by
  cases outcome with
  | stuck => trivial
  | unfinished => exact follows
  | passed data => exact (goesOn data).behind follows
  | left way data => cases way <;> exact follows

/-- The body of a loop, whose next round begins with what stands behind it. -/
theorem Follows.caught {out : Nat} {others : Way → Nat}
    (follows : Follows code pool start stop limit state finish (Way.targets out finish) outcome)
    (isOut : others .out = out) :
    Follows code pool start stop limit state finish others outcome.caught := by
  cases outcome with
  | stuck => trivial
  | unfinished => exact follows
  | passed data => exact follows
  | left way data =>
    cases way with
    | out =>
      show Reaches code pool start stop state ⟨others .out, data⟩
      rw [isOut]
      exact follows
    | next => exact Advances.reaches follows

theorem Follows.unlooped {others : Way → Nat}
    (follows : Follows code pool start stop limit state finish targets outcome) :
    Follows code pool start stop limit state finish others outcome.unlooped := by
  cases outcome with
  | stuck => trivial
  | unfinished => exact follows
  | passed data => exact follows
  | left way data => trivial

/-- A condition, of which the branches go to one place. -/
theorem Follows.decide {test : Condition} {target : Nat} {leaves stays : Data → Outcome Data}
    (here : PartAt code start (test.layout start target)) (inside : start + test.size ≤ stop)
    (whenLeft : ∀ behind, Advances code pool start stop ⟨start, data⟩ ⟨target, behind⟩ →
      Follows code pool start stop limit ⟨start, data⟩ finish targets (leaves behind))
    (whenStayed : ∀ behind, Follows code pool start stop limit ⟨start + test.size, behind⟩ finish
      targets (stays behind)) :
    Follows code pool start stop limit ⟨start, data⟩ finish targets
      (test.decide pool leaves stays data) := by
  unfold Condition.decide
  split
  · next tested =>
    exact whenLeft _ ((test.advances here tested).widen (Nat.le_refl _) inside)
  · next tested =>
    exact (whenStayed _).behind ((test.reaches here tested).widen (Nat.le_refl _) inside)
  · trivial

/-! ### Loops -/

theorem Condition.turn_decide (test : Condition) (leaves stays : Data → Outcome Data) :
    (test.decide pool leaves stays data).turn =
      test.decide pool (fun data => (leaves data).turn) (fun data => (stays data).turn) data := by
  unfold decide
  split <;> rfl

/-- A branch leads from the end of a round to the next one. -/
theorem Follows.turn {place : Nat}
    (follows : Follows code pool start stop limit state place targets outcome)
    (found : code[place]? = some (.branch .always (targets .next))) (above : start ≤ place)
    (below : place < stop) :
    Follows code pool start stop limit state finish targets outcome.turn := by
  cases outcome with
  | passed data => exact Reaches.advances follows (.single above below (step_branch found rfl))
  | stuck => trivial
  | unfinished => exact follows
  | left way data => cases way <;> exact follows

/-- A branch leads to another place than that which is passed on to. -/
theorem Follows.jump {place : Nat}
    (follows : Follows code pool start stop limit state place targets outcome)
    (found : code[place]? = some (.branch .always finish)) (above : start ≤ place)
    (below : place < stop) : Follows code pool start stop limit state finish targets outcome := by
  cases outcome with
  | passed data => exact Reaches.trans follows (.single above below (step_branch found rfl))
  | stuck => trivial
  | unfinished => exact follows
  | left way data => cases way <;> exact follows

/-- A round in front of what an outcome says. -/
theorem Follows.succ (advances : Advances code pool start stop state middle)
    (follows : Follows code pool start stop limit middle finish targets outcome) :
    Follows code pool start stop (limit + 1) state finish targets outcome := by
  cases outcome with
  | stuck => trivial
  | unfinished =>
    obtain ⟨first, advances⟩ := advances
    obtain ⟨count, last, many, runs⟩ := follows
    exact ⟨first + 1 + count, last, by omega, advances.trans runs⟩
  | passed data => exact advances.reaches.trans follows
  | left way data =>
    cases way with
    | out => exact advances.reaches.trans follows
    | next => exact advances.reaches.advances follows

/-- **Loops.** Every round takes a step, so that a loop that is given up has taken as many steps as
rounds. -/
theorem Follows.rounds {round : Data → Outcome Data} {again : Nat} {others : Way → Nat}
    (turns : ∀ data, Follows code pool start stop limit ⟨again, data⟩ finish
      (Way.targets finish again) (round data).turn)
    {count : Nat} (atMost : count ≤ limit) (data : Data) :
    Follows code pool start stop count ⟨again, data⟩ finish others
      (Outcome.rounds round count data) := by
  induction count generalizing data with
  | zero => exact ⟨0, _, Nat.le_refl _, .refl _⟩
  | succ count ih =>
    have rest := ih (Nat.le_of_succ_le atMost)
    have turned := turns data
    unfold Outcome.rounds
    cases found : round data with
    | stuck => trivial
    | unfinished =>
      rw [found] at turned
      obtain ⟨steps, last, many, runs⟩ := turned
      exact ⟨steps, last, Nat.le_trans atMost many, runs⟩
    | passed behind =>
      rw [found] at turned
      exact .succ turned (rest behind)
    | left way behind =>
      rw [found] at turned
      cases way with
      | out => exact turned
      | next => exact .succ turned (rest behind)

/-- Code without loops. -/
theorem Block.follows (block : Block) (here : PartAt code start (block.layout start))
    (data : Data) :
    Follows code pool start (start + block.size) limit ⟨start, data⟩ (start + block.size) targets
      (.ofOption (block.run pool data)) := by
  cases ran : block.run pool data with
  | none => trivial
  | some behind => exact block.reaches here ran

end Follows

/-- **The machine runs a chunk** as its run says. -/
theorem Chunk.follows {code : List Instr} {pool : Pool} {start limit : Nat} {targets : Way → Nat}
    (chunk : Chunk) (here : PartAt code start (chunk.layout start targets)) (data : Data) :
    Follows code pool start (start + chunk.size) limit ⟨start, data⟩ (start + chunk.size) targets
      (chunk.run pool limit data) := by
  induction chunk generalizing start targets data with
  | block code => exact Block.follows code here data
  | stop operands instr => trivial
  | seq first second ihFirst ihSecond =>
    have there := here.right
    rw [first.length_layout] at there
    simp only [size, ← Nat.add_assoc]
    refine ((ihFirst here.left data).widen (Nat.le_refl _) (by omega)).andThen fun behind => ?_
    exact (ihSecond there behind).widen (by omega) (Nat.le_refl _)
  | ifThen test body ih =>
    have there := here.right
    rw [test.length_layout] at there
    simp only [size, ← Nat.add_assoc]
    refine .decide here.left (by omega) (fun _ advances => advances.reaches) fun behind => ?_
    exact (ih there behind).widen (by omega) (Nat.le_refl _)
  | ifElse test first second ihFirst ihSecond =>
    have atFirst := here.right.left
    have atJump := here.right.right
    rw [test.length_layout, first.length_layout] at atJump
    rw [test.length_layout] at atFirst
    simp only [size, ← Nat.add_assoc]
    refine .decide here.left (by omega) (fun behind advances => ?_) fun behind => ?_
    · refine .behind advances.reaches ?_
      exact (ihSecond atJump.tail behind).widen (by omega) (Nat.le_refl _)
    · exact ((ihFirst atFirst behind).widen (by omega) (by omega)).jump atJump.head (by omega)
        (by omega)
  | whileLoop test body ih =>
    have atBody := here.right.left
    have atJump := here.right.right
    rw [test.length_layout, body.length_layout] at atJump
    rw [test.length_layout] at atBody
    simp only [size, ← Nat.add_assoc]
    refine .rounds (fun behind => ?_) (Nat.le_refl _) data
    refine Follows.turn (.decide here.left (by omega) (fun _ advances => advances.reaches)
      fun behind => ?_) atJump.head (by omega) (Nat.lt_succ_self _)
    exact (ih atBody behind).widen (by omega) (by omega)
  | doLoop body test ih =>
    have atTest := here.right
    rw [body.length_layout] at atTest
    simp only [size, ← Nat.add_assoc]
    refine .rounds (fun behind => ?_) (Nat.le_refl _) data
    rw [Outcome.turn_andThen]
    refine (((ih here.left behind).caught rfl).widen (Nat.le_refl _) (by omega)).andThen
      fun behind => ?_
    rw [Condition.turn_decide]
    refine Follows.widen (.decide atTest (Nat.le_refl _) (fun behind advances => ?_)
      fun behind => ?_) (Nat.le_add_right _ _) (Nat.le_refl _)
    · exact advances
    · exact Reaches.refl _
  | forLoop first test body updates ihFirst ihBody =>
    have atTest := here.right.left
    have atBody := here.right.right.left
    have atUpdates := here.right.right.right.left
    have atJump := here.right.right.right.right
    rw [first.length_layout] at atTest atBody atUpdates atJump
    rw [test.length_layout] at atBody atUpdates atJump
    rw [body.length_layout] at atUpdates atJump
    rw [updates.length_layout] at atJump
    simp only [size, ← Nat.add_assoc]
    refine ((ihFirst here.left data).unlooped.widen (Nat.le_refl _) (by omega)).andThen
      fun behind => ?_
    refine (Follows.rounds (fun behind => ?_) (Nat.le_refl _) behind).widen
      (Nat.le_add_right start first.size) (Nat.le_refl _)
    refine Follows.turn (.decide atTest (by omega) (fun _ advances => advances.reaches)
      fun behind => ?_) atJump.head (by omega) (Nat.lt_succ_self _)
    refine (((ihBody atBody behind).caught rfl).widen (by omega) (by omega)).andThen
      fun behind => ?_
    exact (Block.follows updates atUpdates behind).widen (by omega) (by omega)
  | leave way =>
    have jumps : step code pool ⟨start, data⟩ = some ⟨targets way, data⟩ :=
      step_branch here.head rfl
    cases way <;> exact .single (Nat.le_refl _) (Nat.lt_succ_self _) jumps

end MethodPatch
