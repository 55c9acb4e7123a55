/-
**Descending through types.**

Descending reads types as they are read from a list of tokens. Where it looks ahead it comes back, so that
nothing is read by a look; and a limit above the number of tokens is never reached.

* `Descent.reads_typeRef`: types;
* `Descent.follows_startsDeclaration`, `Descent.follows_castHead`: looking ahead.
-/

import MethodPatch.Proofs.Descent.Tokens

namespace MethodPatch.Descent

open Parse

variable {α γ δ : Type} {finish : Finish} {tokens : List Lexeme} {bound limit : Nat}

/-! ### Loops -/

/-- One pair of brackets after the other. -/
theorem reads_brackets (enough : tokens.length < limit) (type : TypeRef)
    (fewer : tokens.length < bound) :
    Reads finish tokens (rounds bracketsRound limit type)
      (brackets finish bound type tokens fewer) := by
  induction limit generalizing tokens type with
  | zero => exact absurd enough (Nat.not_lt_zero _)
  | succ limit ih =>
    rw [rounds, brackets, bracketsRound, bind_assoc]
    refine .accepts (fun inside within position isNext => ?_) ?_
    · subst isNext
      simp only [if_true, bind_assoc, pure_bind]
      refine .takes ?_
      refine (FollowsFrom.expectPunct .rbracket).bind ?_
      rintro ⟨behind, shorter⟩ -
      exact ih (shorter.trans (Nat.lt_of_succ_lt_succ enough)) _ _
    · simp only [Bool.false_eq_true, if_false, pure_bind]
      exact .pure rfl rfl

/-- One part of a dotted name after the other. Behind a point that no name follows the lexer comes back. -/
theorem reads_dotted (enough : tokens.length < limit) (name : String) (fewer : tokens.length < bound) :
    Reads finish tokens (rounds dottedRound limit name) (Parse.dottedName finish bound name tokens fewer) := by
  induction limit generalizing tokens name with
  | zero => exact absurd enough (Nat.not_lt_zero _)
  | succ limit ih =>
    rw [rounds, dottedRound, bind_assoc]
    by_cases isDot : ∃ position rest, tokens = ⟨.punct .dot, position⟩ :: rest
    · obtain ⟨position, rest, rfl⟩ := isDot
      refine .asks rfl ?_
      simp only [decide_true, if_true, bind_assoc]
      refine .saves fun saved isLeft => .takes ?_
      rcases rest with _ | ⟨⟨token, place⟩, rest⟩
      · cases finish with
        | ok ending =>
          refine .takes_end ?_
          simp only [bind_assoc, pure_bind]
          exact .restores isLeft (.pure rfl rfl)
        | error error => exact .takes_fault
      · refine .takes ?_
        cases token with
        | name part =>
          rw [Parse.dottedName]
          simp only [pure_bind]
          simp only [List.length_cons] at enough
          exact ih (by omega) _ _
        | _ =>
          simp only [bind_assoc, pure_bind]
          exact .restores isLeft (.pure rfl rfl)
    · have isKnown : Parse.dottedName finish bound name tokens fewer =
          look finish tokens >>= fun _ => .ok (name, ⟨tokens, fewer⟩) := by
        fun_cases Parse.dottedName finish bound name tokens fewer with
        | case1 => exact absurd ⟨_, _, rfl⟩ isDot
        | case2 => exact absurd ⟨_, _, rfl⟩ isDot
        | case3 => cases look finish tokens <;> rfl
      rw [isKnown]
      refine .misses (fun looked => isDot (eq_cons_of_look looked (by simp))) ?_
      simp only [Bool.false_eq_true, if_false, pure_bind]
      exact .pure rfl rfl

/-- The element type that a written type begins with. -/
theorem reads_baseType (enough : tokens.length ≤ limit) :
    Reads finish tokens (Descent.baseType limit) (Parse.baseType finish tokens) := by
  rw [Descent.baseType]
  rcases tokens with _ | ⟨⟨token, position⟩, rest⟩
  · cases finish with
    | ok position =>
      intro lexer isLeft
      obtain ⟨after, taken, isPlace⟩ := Lexer.next_end isLeft
      refine ⟨after, (run_bind_ok _ (ran_next taken)).trans ?_, nofun⟩
      subst isPlace
      rfl
    | error error => exact .takes_fault
  · refine .of_token fun isToken => ?_
    cases token with
    | keyword word =>
      rw [Parse.baseType]
      cases isPrimitive : Parse.primitive? word with
      | some type =>
        refine .takes ?_
        simp only [isPrimitive]
        exact .pure rfl rfl
      | none =>
        refine .refuses fun token looked => ?_
        cases looked
        simp only [isPrimitive]
    | name first =>
      refine .takes ?_
      exact (reads_dotted enough first _).bind fun answer _ => .pure rfl rfl
    | endOfInput => exact absurd rfl isToken
    | _ => exact .refuses fun token looked => by cases looked; rfl

/-- A type. -/
theorem reads_typeRef (enough : tokens.length ≤ limit) :
    Reads finish tokens (Descent.typeRef limit) (Parse.typeRef finish tokens) := by
  rw [Descent.typeRef, Parse.typeRef]
  refine FollowsFrom.place.bind fun position _ => ?_
  refine (reads_baseType enough).bind ?_
  rintro ⟨base, rest, fewer⟩ -
  exact reads_brackets (Nat.lt_of_lt_of_le fewer enough) _ _

/-- Pairs of brackets behind the length of a new array. -/
theorem reads_emptyBrackets (enough : tokens.length < limit) (element : TypeRef)
    (fewer : tokens.length < bound) :
    Reads finish tokens (rounds emptyBracketsRound limit element)
      (emptyBrackets finish bound element tokens fewer) := by
  induction limit generalizing tokens element with
  | zero => exact absurd enough (Nat.not_lt_zero _)
  | succ limit ih =>
    rw [rounds, emptyBrackets, emptyBracketsRound, bind_assoc]
    refine .accepts (fun inside within position isNext => ?_) ?_
    · subst isNext
      simp only [if_true, bind_assoc]
      refine .takes (.accepts (fun behind shorter _ isNext => ?_) ?_)
      · subst isNext
        simp only [if_true, bind_assoc, pure_bind]
        simp only [List.length_cons] at enough
        exact .takes (ih (by omega) _ _)
      · simp only [Bool.false_eq_true, if_false, bind_assoc]
        exact FollowsFrom.place.bind fun _ _ => .throw _
    · simp only [Bool.false_eq_true, if_false, pure_bind]
      exact .pure rfl rfl

/-! ### Looking ahead -/

/-- Behind a name, a declaration is a type and another name. -/
theorem startsDeclaration_iff {first : String} {position : Position} {rest : List Lexeme}
    {type : TypeRef} {behind : Fewer (rest.length + 1)}
    (read : Parse.typeRef finish (⟨.name first, position⟩ :: rest) = .ok (type, behind)) :
    Parse.startsDeclaration finish (⟨.name first, position⟩ :: rest) ↔
      ∃ name, look finish behind.1 = .ok (.name name) := by
  obtain ⟨behind, fewer⟩ := behind
  rw [Parse.startsDeclaration, read]
  rcases behind with _ | ⟨⟨token, place⟩, last⟩
  · cases finish <;> simp [look, Except.map]
  · cases token <;> simp [look]

/-- Whether a declaration comes next. -/
theorem follows_startsDeclaration (enough : tokens.length ≤ limit) :
    Follows finish tokens (Descent.startsDeclaration limit)
      (look finish tokens >>= fun _ => .ok (Parse.startsDeclaration finish tokens)) id
      fun _ => tokens := by
  rw [Descent.startsDeclaration]
  refine FollowsFrom.peek.bind fun token looked => ?_
  cases token with
  | keyword word =>
    obtain ⟨position, rest, rfl⟩ := eq_cons_of_look looked (by simp)
    exact .pure rfl rfl
  | name first =>
    obtain ⟨position, rest, rfl⟩ := eq_cons_of_look looked (by simp)
    refine .saves fun saved isLeft => ?_
    refine .attempts (reads_typeRef enough) ?_ ?_
    · rintro ⟨type, behind⟩ read
      have isAnswer := startsDeclaration_iff read
      refine .attempts FollowsFrom.peek ?_ ?_
      · intro token seen
        simp only [seen, Except.ok.injEq] at isAnswer
        cases token with
        | name text =>
          simp only [id, pure_bind]
          exact .restores isLeft (.pure (isAnswer.mpr ⟨text, rfl⟩).symm rfl)
        | _ =>
          simp only [id, pure_bind]
          exact .restores isLeft
            (.pure (Bool.eq_false_iff.mpr fun starts => nomatch isAnswer.mp starts).symm rfl)
      · intro error failed
        simp only [failed, reduceCtorEq, exists_false, iff_false] at isAnswer
        simp only [pure_bind]
        exact .restores isLeft (.pure (Bool.eq_false_iff.mpr isAnswer).symm rfl)
    · intro error read
      simp only [pure_bind]
      refine .restores isLeft (.pure ?_ rfl)
      rw [Parse.startsDeclaration, read]
      rfl
  | _ =>
    refine .pure ?_ rfl
    rcases tokens with _ | ⟨⟨token, position⟩, rest⟩
    · rfl
    · cases looked
      rfl

/-- The head of a cast, which the operand of the cast is behind. Behind a primitive type in parentheses
nothing is looked at for the head: it is the operand that fails there. -/
theorem follows_castHead {onward : Option TypeRef → Descent γ} {rest : List Lexeme} {position : Position}
    {more : Option (TypeRef × Fewer (rest.length + 1)) → Reading δ} {view : δ → γ}
    {last : δ → List Lexeme} (enough : rest.length ≤ limit)
    (casts : ∀ type (behind : Fewer (rest.length + 1)),
      Follows finish behind.1 (onward (some type)) (more (some (type, behind))) view last)
    (hidden : ∀ type error, finish = .error error →
      Follows finish [] (onward (some type)) (.error error : Reading δ) view last)
    (none : Follows finish (⟨.punct .lparen, position⟩ :: rest) (onward none) (more none) view last) :
    Follows finish (⟨.punct .lparen, position⟩ :: rest) (Descent.castHead limit >>= onward)
      (Parse.castHead finish (⟨.punct .lparen, position⟩ :: rest) >>= more) view last := by
  rw [Descent.castHead, Parse.castHead, accept_next]
  simp only [bind_assoc, ok_bind]
  refine .saves fun saved isLeft => .takes ?_
  have comesBack (start : Lexer → Prop) :
      FollowsFrom start finish (set saved >>= fun _ => onward Option.none) (more Option.none) view last :=
    .restores isLeft none
  refine FollowsFrom.peek.bind fun token looked => ?_
  cases possible : (startsType token).1 with
  | false =>
    simp only [id, possible, Bool.not_false, if_true, bind_assoc, pure_bind]
    exact comesBack _
  | true =>
    simp only [id, possible, Bool.not_true, Bool.false_eq_true, if_false, bind_assoc]
    refine .attempts (reads_typeRef enough) ?_ fun error failed => ?_
    · rintro ⟨type, inside, fewer⟩ read
      simp only [read, bind_assoc]
      refine .accepts (fun behind shorter place isNext => ?_) ?_
      · subst isNext
        simp only [if_true, bind_assoc, pure_bind]
        refine .takes ?_
        cases seen : look finish behind with
        | error error =>
          obtain ⟨rfl, isHidden⟩ := eq_nil_of_look seen
          simp only [error_bind]
          split
          · exact hidden type error isHidden
          · rw [bind_assoc]
            exact .looks_fault seen
        | ok found =>
          simp only [ok_bind]
          cases isPrimitive : (startsType token).2 with
          | true =>
            simp only [if_true, Bool.true_or, pure_bind]
            exact casts type ⟨behind, _⟩
          | false =>
            simp only [Bool.false_eq_true, if_false, Bool.false_or, bind_assoc]
            refine .looks seen ?_
            cases startsOperand found with
            | true =>
              simp only [if_true, pure_bind]
              exact casts type ⟨behind, _⟩
            | false =>
              simp only [Bool.false_eq_true, if_false, bind_assoc, pure_bind]
              exact comesBack _
      · simp only [Bool.false_eq_true, if_false, bind_assoc, pure_bind]
        exact comesBack _
    · simp only [failed, bind_assoc, pure_bind]
      exact comesBack _

end MethodPatch.Descent
