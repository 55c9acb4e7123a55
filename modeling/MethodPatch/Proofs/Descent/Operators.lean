/-
**Climbing by levels.**

A climb reads operators that bind at least so tightly, whichever they are. It may be made in two parts: what
binds more tightly first, and then the rest, for the first part stops where only looser operators can come.
Descending makes it in as many parts as there are kinds of operators.

* `Parse.climbFrom_split`: **a climb in two parts is one climb**;
* `Descent.reads_logicalRounds`, `Descent.reads_binaryRounds`: descending through operators.
-/

import MethodPatch.Proofs.Descent.Types
import MethodPatch.Proofs.Typing.Converts

namespace MethodPatch

/-! ### Climbs in parts -/

namespace Parse

variable {finish : Finish} {least above bound : Nat} {left : Expr} {tokens : List Lexeme}
  {position : Position}

/-- How tightly the operator binds that comes next. -/
def nextPrecedence? : List Lexeme → Option Nat
  | ⟨.keyword .instanceOf, _⟩ :: _ => some instanceOfPrecedence
  | ⟨.punct mark, _⟩ :: _ => (joinOp? mark).map JoinOp.precedence
  | _ => none

/-- A climb stops in front of these tokens: no operator comes next that binds as tightly. -/
def Stops (least : Nat) (tokens : List Lexeme) : Prop :=
  ∀ precedence ∈ nextPrecedence? tokens, precedence < least

theorem stops_nil : Stops least [] := by
  intro precedence isNext
  cases isNext

/-- A climb stops here, or an operator comes next that it takes. -/
theorem stops_or_takes (least : Nat) (tokens : List Lexeme) :
    Stops least tokens ∨
      (∃ position behind, tokens = ⟨.keyword .instanceOf, position⟩ :: behind ∧
        least ≤ instanceOfPrecedence) ∨
      ∃ mark op position behind, tokens = ⟨.punct mark, position⟩ :: behind ∧ joinOp? mark = some op ∧
        least ≤ op.precedence := by
  by_cases stops : Stops least tokens
  · exact .inl stops
  · refine .inr ?_
    simp only [Stops, not_forall, Nat.not_lt] at stops
    obtain ⟨precedence, isNext, isLeast⟩ := stops
    unfold nextPrecedence? at isNext
    split at isNext
    · next position behind =>
      cases isNext
      exact .inl ⟨position, behind, rfl, isLeast⟩
    · next mark position behind =>
      obtain ⟨op, isOp, rfl⟩ := Option.map_eq_some_iff.mp isNext
      exact .inr ⟨mark, op, position, behind, rfl, isOp, isLeast⟩
    · cases isNext

/-- In front of such tokens nothing more is read. -/
theorem climbFrom_of_stops (stops : Stops least tokens) (left : Expr) (fewer : tokens.length < bound) :
    climbFrom finish least bound left tokens fewer =
      look finish tokens >>= fun _ => .ok (left, ⟨tokens, fewer⟩) := by
  rw [climbFrom]
  cases looked : look finish tokens with
  | error error => rfl
  | ok token =>
    simp only [ok_bind]
    rcases tokens with _ | ⟨⟨found, position⟩, behind⟩
    · obtain ⟨position, rfl⟩ : ∃ position, finish = .ok position := by
        cases finish with
        | ok position => exact ⟨position, rfl⟩
        | error error => cases looked
      cases looked
      rfl
    · cases looked
      cases found with
      | keyword word =>
        cases word with
        | instanceOf => exact if_pos (stops _ rfl)
        | _ => rfl
      | punct mark =>
        simp only [nextPunct?]
        cases isOp : joinOp? mark with
        | none => rfl
        | some op => exact if_pos (stops _ (Option.map_eq_some_iff.mpr ⟨op, isOp, rfl⟩))
      | _ => rfl

theorem climbFrom_instanceOf {behind : List Lexeme} (isLeast : least ≤ instanceOfPrecedence) (left : Expr)
    (fewer : (⟨.keyword .instanceOf, position⟩ :: behind : List Lexeme).length < bound) :
    climbFrom finish least bound left (⟨.keyword .instanceOf, position⟩ :: behind) fewer =
      Parse.typeRef finish behind >>= fun read =>
        climbFrom finish least bound (.instanceOf left read.1 left.position) read.2.1
          (read.2.2.trans (Nat.lt_of_succ_lt fewer)) := by
  rw [climbFrom]
  simp only [look, ok_bind, if_neg (Nat.not_lt.mpr isLeast)]
  rfl

theorem climbFrom_join {behind : List Lexeme} {mark : Punct} {op : JoinOp} (isOp : joinOp? mark = some op)
    (isLeast : least ≤ op.precedence) (left : Expr)
    (fewer : (⟨.punct mark, position⟩ :: behind : List Lexeme).length < bound) :
    climbFrom finish least bound left (⟨.punct mark, position⟩ :: behind) fewer =
      climb finish (op.precedence + 1) behind >>= fun read =>
        climbFrom finish least bound (op.join left read.1) read.2.1
          (read.2.2.trans (Nat.lt_of_succ_lt fewer)) := by
  rw [climbFrom]
  simp only [look, ok_bind, nextPunct?, isOp, if_neg (Nat.not_lt.mpr isLeast)]

/-- **A climb in two parts**: what binds more tightly first, and then the rest. -/
theorem climbFrom_split (isAbove : least ≤ above) (left : Expr) (tokens : List Lexeme)
    (fewer : tokens.length < bound) :
    climbFrom finish least bound left tokens fewer =
      climbFrom finish above bound left tokens fewer >>= fun read =>
        climbFrom finish least bound read.1 read.2.1 read.2.2 := by
  obtain stops | ⟨position, behind, rfl, isLeast⟩ | ⟨mark, op, position, behind, rfl, isOp, isLeast⟩ :=
    stops_or_takes above tokens
  · rw [climbFrom_of_stops stops]
    cases looked : look finish tokens with
    | error error =>
      obtain ⟨rfl, rfl⟩ := eq_nil_of_look looked
      exact climbFrom_of_stops stops_nil left fewer
    | ok token => rfl
  · rw [climbFrom_instanceOf isLeast, climbFrom_instanceOf (isAbove.trans isLeast), bind_assoc]
    refine congrArg (Parse.typeRef finish behind >>= ·) (funext ?_)
    rintro ⟨type, rest, shorter⟩
    exact climbFrom_split isAbove _ rest _
  · rw [climbFrom_join isOp isLeast, climbFrom_join isOp (isAbove.trans isLeast), bind_assoc]
    refine congrArg (climb finish (op.precedence + 1) behind >>= ·) (funext ?_)
    rintro ⟨right, rest, shorter⟩
    exact climbFrom_split isAbove _ rest _
termination_by tokens.length
decreasing_by all_goals subst_vars; exact shorter.trans (Nat.lt_succ_self _)

/-- No operator binds more loosely than `||`. -/
theorem Stops.loosest (stops : Stops LogicalOp.or.precedence tokens) : Stops 0 tokens := by
  intro precedence isNext
  have isLoosest := stops precedence isNext
  unfold nextPrecedence? at isNext
  split at isNext
  · cases isNext
    exact absurd isLoosest (by decide)
  · next mark position behind =>
    obtain ⟨op, isOp, rfl⟩ := Option.map_eq_some_iff.mp isNext
    cases mark <;> cases isOp <;> exact absurd isLoosest (by decide)
  · cases isNext

/-- A climb that takes every operator is one from `||` on. -/
theorem climbFrom_loosest (left : Expr) (tokens : List Lexeme) (fewer : tokens.length < bound) :
    climbFrom finish 0 bound left tokens fewer =
      climbFrom finish LogicalOp.or.precedence bound left tokens fewer := by
  obtain stops | ⟨position, behind, rfl, isLeast⟩ | ⟨mark, op, position, behind, rfl, isOp, isLeast⟩ :=
    stops_or_takes LogicalOp.or.precedence tokens
  · rw [climbFrom_of_stops stops, climbFrom_of_stops stops.loosest]
  · rw [climbFrom_instanceOf isLeast, climbFrom_instanceOf (Nat.zero_le _)]
    refine congrArg (Parse.typeRef finish behind >>= ·) (funext ?_)
    rintro ⟨type, rest, shorter⟩
    exact climbFrom_loosest _ rest _
  · rw [climbFrom_join isOp isLeast, climbFrom_join isOp (Nat.zero_le _)]
    refine congrArg (climb finish (op.precedence + 1) behind >>= ·) (funext ?_)
    rintro ⟨right, rest, shorter⟩
    exact climbFrom_loosest _ rest _
termination_by tokens.length
decreasing_by all_goals subst_vars; exact shorter.trans (Nat.lt_succ_self _)

/-- A climb stops where it has to. -/
theorem stops_of_climbFrom {found : Parsed bound Expr} (left : Expr) (tokens : List Lexeme)
    (fewer : tokens.length < bound) (read : climbFrom finish least bound left tokens fewer = .ok found) :
    Stops least found.2.1 := by
  obtain stops | ⟨position, behind, rfl, isLeast⟩ | ⟨mark, op, position, behind, rfl, isOp, isLeast⟩ :=
    stops_or_takes least tokens
  · rw [climbFrom_of_stops stops] at read
    cases looked : look finish tokens with
    | error error =>
      rw [looked] at read
      cases read
    | ok token =>
      rw [looked] at read
      cases read
      exact stops
  · rw [climbFrom_instanceOf isLeast] at read
    obtain ⟨⟨type, rest, shorter⟩, -, read⟩ := bind_eq_ok.mp read
    exact stops_of_climbFrom _ rest _ read
  · rw [climbFrom_join isOp isLeast] at read
    obtain ⟨⟨type, rest, shorter⟩, -, read⟩ := bind_eq_ok.mp read
    exact stops_of_climbFrom _ rest _ read
termination_by tokens.length
decreasing_by all_goals subst_vars; exact shorter.trans (Nat.lt_succ_self _)

/-- A climb and, from where it stops, a climb that takes looser operators as well. -/
theorem climb_split (isAbove : least ≤ above) (tokens : List Lexeme) :
    climb finish least tokens =
      climb finish above tokens >>= fun read =>
        climbFrom finish least tokens.length read.1 read.2.1 read.2.2 := by
  rw [climb, climb, bind_assoc]
  refine congrArg (unary finish tokens >>= ·) (funext ?_)
  rintro ⟨left, rest, fewer⟩
  exact climbFrom_split isAbove left rest fewer

theorem stops_of_climb {found : Parsed tokens.length Expr} (read : climb finish least tokens = .ok found) :
    Stops least found.2.1 := by
  rw [climb] at read
  obtain ⟨⟨left, rest, fewer⟩, -, read⟩ := bind_eq_ok.mp read
  exact stops_of_climbFrom left rest fewer read

end Parse

/-! ### Levels -/

namespace Descent

open Parse

variable {finish : Finish} {tokens : List Lexeme} {bound limit count least : Nat} {mark : Punct}

theorem joinOp?_of_binaryOp? {op : BinaryOp} (isOp : binaryOp? mark = some op) :
    joinOp? mark = some (.binary op) := by
  cases mark <;> cases isOp <;> rfl

theorem binaryOp?_of_joinOp? {op : BinaryOp} (isOp : joinOp? mark = some (.binary op)) :
    binaryOp? mark = some op := by
  cases mark <;> cases isOp <;> rfl

/-- The levels are the precedences behind those of `&&` and `||`. -/
theorem precedence_eq_level (op : BinaryOp) : op.precedence = binaryLevel op + 2 := by
  rcases op with (_ | _ | _) | _ <;> rename_i op <;> cases op <;> rfl

/-- No other operator binds as tightly as `&&` does, or as `||`. -/
theorem eq_logicalMark {op : LogicalOp} {found : JoinOp} (isOp : joinOp? mark = some found)
    (same : found.precedence = op.precedence) : mark = logicalMark op := by
  cases op <;> cases mark <;> cases isOp <;> first | rfl | cases same

/-- Where no operator comes next that binds more tightly, it is this one or the climb stops. -/
theorem stops_of_not_next {op : LogicalOp} (stops : Stops (op.precedence + 1) tokens)
    (isOther : look finish tokens ≠ .ok (.punct (logicalMark op))) : Stops op.precedence tokens := by
  intro precedence isNext
  refine Nat.lt_of_le_of_ne (Nat.lt_succ_iff.mp (stops precedence isNext)) fun same => isOther ?_
  unfold nextPrecedence? at isNext
  split at isNext
  · cases isNext
    cases op <;> cases same
  · obtain ⟨found, isOp, rfl⟩ := Option.map_eq_some_iff.mp isNext
    rw [← eq_logicalMark isOp same]
    rfl
  · cases isNext

/-- Operands of `&&` or `||`, where no operator comes next that binds more tightly. -/
theorem reads_logicalRounds {op : LogicalOp} {operand : Descent Expr} {size : Nat}
    (reads : ∀ {tokens}, tokens.length < size →
      Reads finish tokens operand (climb finish (op.precedence + 1) tokens))
    (within : tokens.length ≤ size) (enough : tokens.length < count) (left : Expr)
    (stops : Stops (op.precedence + 1) tokens) (fewer : tokens.length < bound) :
    Reads finish tokens (rounds (logicalRound op operand) count left)
      (climbFrom finish op.precedence bound left tokens fewer) := by
  induction count generalizing tokens left with
  | zero => exact absurd enough (Nat.not_lt_zero _)
  | succ count ih =>
    rw [rounds, logicalRound, bind_assoc]
    by_cases isNext : look finish tokens = .ok (.punct (logicalMark op))
    · obtain ⟨position, behind, rfl⟩ := eq_cons_of_look isNext (by simp)
      have isOp : joinOp? (logicalMark op) = some (.logical op) := by cases op <;> rfl
      have joined : climbFrom finish op.precedence bound left
          (⟨.punct (logicalMark op), position⟩ :: behind) fewer = _ :=
        climbFrom_join isOp (Nat.le_refl _) left fewer
      rw [joined]
      refine .asks rfl ?_
      simp only [decide_true, if_true, bind_assoc, pure_bind]
      refine .takes ((reads within).bind ?_)
      rintro ⟨right, rest, shorter⟩ read
      have restStops : Stops (op.precedence + 1) rest := stops_of_climb read
      simp only [List.length_cons] at enough within ⊢
      exact ih (by omega) (by omega) _ restStops _
    · rw [climbFrom_of_stops (stops_of_not_next stops isNext)]
      refine .misses isNext ?_
      simp only [Bool.false_eq_true, if_false, pure_bind]
      exact .pure rfl rfl

/-- In front of looser operators, a round ends the operands. -/
theorem reads_binaryRounds_of_stops {operand : Nat → Descent Expr} (stops : Stops (least + 2) tokens)
    (left : Expr) (fewer : tokens.length < bound) :
    Reads finish tokens (rounds (binaryRound limit operand least) (count + 1) left)
      (climbFrom finish (least + 2) bound left tokens fewer) := by
  rw [rounds, binaryRound, bind_assoc, climbFrom_of_stops stops]
  refine FollowsFrom.peek.bind fun token looked => ?_
  cases token with
  | keyword word =>
    obtain ⟨position, behind, rfl⟩ := eq_cons_of_look looked (by simp)
    cases word with
    | instanceOf =>
      have isBelow : relationalLevel < least := Nat.lt_of_add_lt_add_right (stops _ rfl)
      simp only [id, if_pos isBelow, pure_bind]
      exact .pure rfl rfl
    | _ => exact .pure rfl rfl
  | punct mark =>
    obtain ⟨position, behind, rfl⟩ := eq_cons_of_look looked (by simp)
    cases isOp : binaryOp? mark with
    | none =>
      simp only [id, isOp, pure_bind]
      exact .pure rfl rfl
    | some op =>
      have isBelow := stops _ (Option.map_eq_some_iff.mpr ⟨_, joinOp?_of_binaryOp? isOp, rfl⟩)
      rw [JoinOp.precedence, precedence_eq_level] at isBelow
      simp only [id, isOp, if_pos (Nat.lt_of_add_lt_add_right isBelow), pure_bind]
      exact .pure rfl rfl
  | _ => exact .pure rfl rfl

/-- Operands joined by operators of a level at least. -/
theorem reads_binaryRounds {operand : Nat → Descent Expr} {size : Nat} (isLevel : 1 ≤ least)
    (reads : ∀ {tokens level}, 1 ≤ level → tokens.length < size →
      Reads finish tokens (operand level) (climb finish (level + 2) tokens))
    (within : tokens.length ≤ size) (limited : tokens.length ≤ limit) (enough : tokens.length < count)
    (left : Expr) (fewer : tokens.length < bound) :
    Reads finish tokens (rounds (binaryRound limit operand least) count left)
      (climbFrom finish (least + 2) bound left tokens fewer) := by
  induction count generalizing tokens left with
  | zero => exact absurd enough (Nat.not_lt_zero _)
  | succ count ih =>
    obtain stops | ⟨position, behind, rfl, isLeast⟩ | ⟨mark, op, position, behind, rfl, isOp, isLeast⟩ :=
      stops_or_takes (least + 2) tokens
    · exact reads_binaryRounds_of_stops stops left fewer
    · rw [rounds, binaryRound, bind_assoc, climbFrom_instanceOf isLeast]
      have isAbove : ¬ relationalLevel < least := Nat.not_lt.mpr (Nat.le_of_add_le_add_right isLeast)
      refine .looks rfl ?_
      simp only [if_neg isAbove, bind_assoc, pure_bind]
      refine .takes ((reads_typeRef (Nat.le_of_succ_le limited)).bind ?_)
      rintro ⟨type, rest, shorter⟩ -
      simp only [List.length_cons] at enough within limited ⊢
      exact ih (by omega) (by omega) (by omega) _ _
    · rw [rounds, binaryRound, bind_assoc, climbFrom_join isOp isLeast]
      refine .looks rfl ?_
      obtain ⟨binary, rfl⟩ : ∃ binary, op = .binary binary := by
        cases op with
        | binary op => exact ⟨op, rfl⟩
        | logical op =>
          have isTight : 3 ≤ op.precedence := (Nat.add_le_add_right isLevel 2).trans isLeast
          cases op <;> exact absurd isTight (by decide)
      simp only [JoinOp.precedence, precedence_eq_level] at isLeast ⊢
      have isAbove : ¬ binaryLevel binary < least := Nat.not_lt.mpr (Nat.le_of_add_le_add_right isLeast)
      simp only [binaryOp?_of_joinOp? isOp, if_neg isAbove, bind_assoc, pure_bind]
      refine .takes ((reads (Nat.le_add_left 1 _) within).bind ?_)
      rintro ⟨right, rest, shorter⟩ -
      simp only [List.length_cons] at enough within limited ⊢
      exact ih (by omega) (by omega) (by omega) _ _

end Descent

end MethodPatch
