/-
**Guarded visits of expressions.**

No guard refuses anything in an expression, whatever its operands are: in each of the ways in which it
is visited, the guarded visit is the visit without guards. For its effect it generates what is lowered.

* `Expr.guarded_eq`: **guarded visits are visits**, by induction on the expression;
* `Expr.guarded_effect`: effects.
-/

import MethodPatch.Proofs.Guards.Operators
import MethodPatch.Proofs.Visiting.Expr

namespace MethodPatch

open Visit

mutual

/-- **Guarded visits are visits**: no guard refuses anything. -/
theorem Expr.guarded_eq (site : Site) (scope : Scope) : (expression : Expr) →
    (expression.guarded site scope).toVisited = expression.visit site scope
  | .literal (.boolean value) position => rfl
  | .literal (.int value) position | .literal (.long value) position
  | .literal (.float value) position | .literal (.double value) position
  | .literal (.char value) position | .literal (.string value) position
  | .literal .null position => rfl
  | .name name position => rfl
  | .this position => rfl
  | .member object name position => by
    rw [Expr.guarded, Expr.visit, object.guarded_eq site scope]
    rfl
  | .call none name arguments position => by
    rw [Expr.guarded, Expr.visit, guardedTypes_eq site scope arguments,
      guardedArguments_eq site scope arguments]
    rfl
  | .call (some callee) name arguments position => by
    rw [Expr.guarded, Expr.visit, callee.guarded_eq site scope, guardedTypes_eq site scope arguments,
      guardedArguments_eq site scope arguments]
    rfl
  | .new type arguments position => by
    rw [Expr.guarded, Expr.visit, guardedTypes_eq site scope arguments,
      guardedArguments_eq site scope arguments]
    rfl
  | .newArray element length position => by
    rw [Expr.guarded, Expr.visit, length.guarded_eq site scope]
    simp only [Guarded.newArray_eq]
    rfl
  | .index array index position => by
    rw [Expr.guarded, Expr.visit, array.guarded_eq site scope, index.guarded_eq site scope]
    rfl
  | .assign target op value position => by
    rw [Expr.guarded, Expr.visit, target.guarded_eq site scope, value.guarded_eq site scope]
    simp only [Guarded.ofWanted, Guarded.assign_eq]
    rfl
  | .update op isBefore target position => by
    rw [Expr.guarded, Expr.visit, target.guarded_eq site scope]
    simp only [Guarded.ofWanted, Guarded.update_eq]
    cases site.intVariable? scope target with
    | none => rfl
    | some slot => cases isBefore <;> rfl
  | .unary .not operand position => by
    rw [Expr.guarded, Expr.visit, operand.guarded_eq site scope]
    rfl
  | .unary .minus operand position | .unary .plus operand position
  | .unary .complement operand position => by
    rw [Expr.guarded, Expr.visit, operand.guarded_eq site scope]
    · rfl
    all_goals exact nofun
  | .binary (.compare wanted) left right position => by
    rw [Expr.guarded, Expr.visit, left.guarded_eq site scope, right.guarded_eq site scope]
    rfl
  | .binary (.compute op) left right position => by
    rw [Expr.guarded, Expr.visit, left.guarded_eq site scope, right.guarded_eq site scope,
      if_neg (by exact Bool.false_ne_true), Guarded.binary_eq, Guarded.appendBinary_eq]
    rfl
  | .logical op left right position => by
    rw [Expr.guarded, Expr.visit, left.guarded_eq site scope, right.guarded_eq site scope]
    rfl
  | .conditional test first second position => by
    rw [Expr.guarded, Expr.visit, test.guarded_eq site scope, first.guarded_eq site scope,
      second.guarded_eq site scope]
    rfl
  | .cast type operand position => by
    rw [Expr.guarded, Expr.visit, operand.guarded_eq site scope]
    simp only [Guarded.cast_eq]
    rfl
  | .instanceOf operand type position => by
    rw [Expr.guarded, Expr.visit, operand.guarded_eq site scope]
    simp only [Guarded.instanceOf_eq]
    rfl

theorem guardedTypes_eq (site : Site) (scope : Scope) : (arguments : List Expr) →
    guardedTypes site scope arguments = probeArguments site scope arguments
  | [] => rfl
  | first :: rest => by
    rw [guardedTypes, probeArguments, first.guarded_eq site scope, guardedTypes_eq site scope rest]

theorem guardedArguments_eq (site : Site) (scope : Scope) : (arguments : List Expr) →
    guardedArguments site scope arguments = visitArguments site scope arguments
  | [] => rfl
  | first :: rest => by
    funext parameters
    cases parameters with
    | nil => rfl
    | cons parameter parameters =>
      rw [guardedArguments, visitArguments, first.guarded_eq site scope,
        guardedArguments_eq site scope rest]

end

/-! ### Effects -/

namespace Guarded

variable {first second : Visited} {firstLowered secondLowered : Lowered}
  {firstTyped secondTyped : Typed} {firstPosition secondPosition position : Position} {site : Site}

theorem generates_assign (site : Site) (position : Position)
    (target : first.Agrees firstLowered firstTyped firstPosition)
    (value : second.Agrees secondLowered secondTyped secondPosition) (op : Option ComputeOp)
    (source : Expr) (wanted : Bool) :
    Generates (Guarded.assign site first (op.map .compute) source second position wanted)
      (Lowered.assign site firstLowered op source secondTyped.value secondLowered position wanted) := by
  refine .after target.place fun place => ?_
  have stored : Generates (do
        if wanted then Visit.instr place.copyValue
        Visit.write place
        return StaticType.value place.type) (do
        if wanted then Emit.instr place.copyValue
        Emit.write place
        return StaticType.value place.type) :=
    .maybe (Agrees.instr _) (.after (inert_write place) fun _ => .pure _)
  cases op with
  | none =>
    exact .after value.value fun type => (Generates.lift _).bind fun instrs =>
      .after (Agrees.instrs _) fun _ => stored
  | some op =>
    refine .after (Agrees.instrs _) fun _ => .after (inert_read place) fun _ => ?_
    have combined := (Visited.agrees_combine value op place.type position).generates.bind fun _ => stored
    rw [← combine_eq, bind_assoc] at combined
    exact combined

theorem generates_update (target : first.Agrees firstLowered firstTyped firstPosition) (op : UpdateOp)
    (before wanted : Bool) :
    Generates (Guarded.update op before first position wanted)
      (Lowered.update op before firstLowered position wanted) := by
  refine .after target.place fun place => ?_
  rw [promotedUpdate_eq, lift_map_bind]
  refine (Generates.lift _).bind fun type => ?_
  rw [promotedKind_type]
  refine .after (Agrees.instrs _) fun _ => .after (inert_read place) fun _ => ?_
  refine .maybe (Agrees.instr _) (.after (Agrees.instrs _) fun _ => .after (Agrees.instr _) fun _ => ?_)
  refine .after (Agrees.instr _) fun _ => .after (Agrees.instrs _) fun _ => ?_
  exact .maybe (Agrees.instr _) (.after (inert_write place) fun _ => .pure _)

theorem generates_updateVariable (op : UpdateOp) (before : Bool) (slot : Slot) (wanted : Bool) :
    Generates (Guarded.updateVariable op before slot wanted)
      (Lowered.updateVariable op before slot wanted) :=
  .maybe (Agrees.instr _) (.after (Agrees.instr _) fun _ => .maybe (Agrees.instr _) (.pure _))

theorem generates_increment (slot : Slot) (delta : Int16) (wanted : Bool) :
    Generates (Guarded.increment slot delta wanted) (Lowered.increment slot delta wanted) :=
  .after (Agrees.instr _) fun _ => .maybe (Agrees.instr _) (.pure _)

end Guarded

namespace Expr

variable {site : Site} {scope : Scope}

/-- The value of an expression is visited as it is lowered. -/
theorem guarded_value (site : Site) (scope : Scope) (expression : Expr) :
    Generates (expression.guarded site scope).value (expression.lower site scope).value := by
  rw [guarded_eq]
  exact (expression.visit_agrees site scope).value.generates

theorem guarded_branches (site : Site) (scope : Scope) (expression : Expr) (outcome : Bool) :
    Generates ((expression.guarded site scope).branches outcome)
      ((expression.lower site scope).branches outcome) := by
  rw [guarded_eq]
  exact ((expression.visit_agrees site scope).branches outcome).generates

/-- Expressions whose value is left out if it is not wanted. Of others it is dropped. -/
def leavesOut : Expr → Bool
  | assign _ _ _ _ | update _ _ _ _ => true
  | _ => false

theorem guarded_effect_of_drop {expression : Expr} (drops : expression.leavesOut = false) :
    (expression.guarded site scope).effect =
      (do Visit.instrs (← (expression.guarded site scope).value).drop) := by
  cases expression with
  | literal value position => cases value <;> rfl
  | call callee => cases callee <;> rfl
  | unary op => cases op <;> rfl
  | binary op left right position =>
    rw [guarded]
    split <;> rfl
  | assign => cases drops
  | update => cases drops
  | _ => rfl

theorem lower_effect_of_drop {expression : Expr} (drops : expression.leavesOut = false) :
    (expression.lower site scope).effect =
      (do Emit.instrs (← (expression.lower site scope).value).drop) := by
  cases expression with
  | literal value position => cases value <;> rfl
  | call callee => cases callee <;> rfl
  | unary op => cases op <;> rfl
  | binary op => cases op <;> rfl
  | assign => cases drops
  | update => cases drops
  | _ => rfl

/-- **An expression is visited for its effect as it is lowered for it.** -/
theorem guarded_effect (site : Site) (scope : Scope) (expression : Expr) :
    Generates (expression.guarded site scope).effect (expression.lower site scope).effect := by
  cases leaves : expression.leavesOut with
  | false =>
    rw [guarded_effect_of_drop leaves, lower_effect_of_drop leaves]
    exact (expression.guarded_value site scope).bind fun type => (Agrees.instrs _).generates
  | true =>
    cases expression with
    | assign target op value position =>
      rw [guarded, lower, guarded_eq, guarded_eq]
      refine Generates.bind ?_ fun _ => .pure ()
      have assigns := Guarded.generates_assign site position (target.visit_agrees site scope)
        (value.visit_agrees site scope) op value false
      cases site.intVariable? scope target with
      | none => exact assigns
      | some slot =>
        cases incrementBy? op value with
        | none => exact assigns
        | some delta => exact Guarded.generates_increment slot delta false
    | update op isBefore target position =>
      rw [guarded, lower, guarded_eq]
      refine Generates.bind ?_ fun _ => .pure ()
      cases site.intVariable? scope target with
      | none =>
        exact Guarded.generates_update (target.visit_agrees site scope) op isBefore false
      | some slot => exact Guarded.generates_updateVariable op isBefore slot false
    | _ => cases leaves

end Expr

end MethodPatch
