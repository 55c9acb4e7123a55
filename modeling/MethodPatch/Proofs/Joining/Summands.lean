/-
**Joined strings and their operands.**

Where operators that join strings are nested, one builder takes the operands of all of them. What is
appended to it are the summands of the expression, from left to right: an operator that joins strings
is taken apart, and every other expression is one summand, among them sums of numbers.

What the expression means does not know of builders. The operands of each operator are evaluated,
converted to strings and put together, from the inside out. Since a string is converted to itself, the
texts of the summands in order are the string in the end.

* `Expr.isJoin`, `Expr.summands`: operators that join strings, and what they join;
* `Expr.append_eq`, `Expr.value_eq`: the code of such an expression appends its summands in order;
* `Conversion`, `Expr.joinedValue`: how values become strings, and the nested meaning;
* `Expr.joinedValue_eq`: **the nested meaning is the text of the summands in order.**
-/

import MethodPatch.Generator.Expr
import MethodPatch.Proofs.Typing.Converts

namespace MethodPatch

variable {site : Site} {scope : Scope} {V : Type}

/-! ### Summands -/

/-- Whether an expression joins strings. An operator whose operands have no types does not. -/
def Expr.isJoin (site : Site) (scope : Scope) : Expr → Bool
  | .binary (.compute op) left right _ =>
    match left.staticType site scope, right.staticType site scope with
    | .ok leftType, .ok rightType => joinsStrings op leftType rightType
    | _, _ => false
  | _ => false

/-- The operands of an expression that joins strings and of those among them that do, from left to
right. Any other expression is one operand. -/
def Expr.summands (site : Site) (scope : Scope) : Expr → List Expr
  | .binary (.compute op) left right position =>
    if (Expr.binary (.compute op) left right position).isJoin site scope then
      left.summands site scope ++ right.summands site scope
    else [.binary (.compute op) left right position]
  | expression => [expression]

/-- An operand is evaluated and appended. -/
def Expr.appendAlone (site : Site) (scope : Scope) (operand : Expr) : Emit Unit := do
  Emit.append (← (operand.lower site scope).value) operand.position

/-- The string of operands that are appended to one builder in order. -/
def Emit.joinAll (site : Site) (scope : Scope) (operands : List Expr) : Emit StaticType := do
  Emit.emptyBuilder
  operands.forM (·.appendAlone site scope)
  Emit.builtString
  return .value .string

namespace Expr

/-- An operator joins strings if its operands have types and one of them is that of strings. -/
theorem isJoin_iff {expression : Expr} : expression.isJoin site scope = true ↔
    ∃ op left right position leftType rightType,
      expression = .binary (.compute op) left right position ∧
      left.staticType site scope = .ok leftType ∧ right.staticType site scope = .ok rightType ∧
      joinsStrings op leftType rightType = true := by
  constructor
  · intro joins
    unfold isJoin at joins
    split at joins
    · split at joins
      · next isLeft isRight => exact ⟨_, _, _, _, _, _, rfl, isLeft, isRight, joins⟩
      · cases joins
    · cases joins
  · rintro ⟨op, left, right, position, leftType, rightType, rfl, isLeft, isRight, joins⟩
    simp only [isJoin, isLeft, isRight, joins]

/-- What is computed from numbers is no string. -/
theorem isString_result (plan : ComputePlan) : plan.result.isString = false := by
  cases plan with
  | arithmetic op type | shift op type | bitwise op type => cases type <;> rfl
  | booleans => rfl

theorem staticType_compute (op : ComputeOp) (left right : Expr) (position : Position) :
    (Expr.binary (.compute op) left right position).staticType site scope = (do
      let leftType ← left.staticType site scope
      let rightType ← right.staticType site scope
      if joinsStrings op leftType rightType then return .value .string
      let plan ← computePlan op leftType rightType position
      return .value plan.result) :=
  rfl

/-- **Among operators that compute, those of the type of strings join strings.** -/
theorem isJoin_of_staticType {op : ComputeOp} {left right : Expr} {position : Position}
    {type : StaticType} (isString : type.isString = true)
    (typed : (Expr.binary (.compute op) left right position).staticType site scope = .ok type) :
    (Expr.binary (.compute op) left right position).isJoin site scope = true := by
  rw [staticType_compute] at typed
  obtain ⟨leftType, isLeft, typed⟩ := bind_eq_ok.mp typed
  obtain ⟨rightType, isRight, typed⟩ := bind_eq_ok.mp typed
  refine isJoin_iff.mpr ⟨_, _, _, _, _, _, rfl, isLeft, isRight, ?_⟩
  cases joins : joinsStrings op leftType rightType with
  | true => rfl
  | false =>
    rw [if_neg (by rw [joins]; exact Bool.false_ne_true)] at typed
    obtain ⟨plan, _, isResult⟩ := bind_eq_ok.mp typed
    cases isResult
    rw [StaticType.isString, isString_result] at isString
    cases isString

theorem staticType_of_isJoin {expression : Expr} (joins : expression.isJoin site scope = true) :
    expression.staticType site scope = .ok (.value .string) := by
  obtain ⟨op, left, right, position, leftType, rightType, rfl, isLeft, isRight, joins⟩ :=
    isJoin_iff.mp joins
  simp only [staticType_compute, isLeft, isRight, bind, Except.bind, joins, if_true]
  rfl

/-- **The sums that join strings are those of the type of strings.** -/
theorem isJoin_iff_staticType {expression : Expr} : expression.isJoin site scope = true ↔
    (∃ left right position,
      expression = .binary (.compute (.arithmetic .add)) left right position) ∧
      expression.staticType site scope = .ok (.value .string) := by
  constructor
  · intro joins
    refine ⟨?_, staticType_of_isJoin joins⟩
    obtain ⟨op, left, right, position, _, _, rfl, _, _, joins⟩ := isJoin_iff.mp joins
    rw [joinsStrings, Bool.and_eq_true, decide_eq_true_eq] at joins
    exact ⟨left, right, position, by rw [joins.1]⟩
  · rintro ⟨⟨left, right, position, rfl⟩, typed⟩
    exact isJoin_of_staticType rfl typed

theorem summands_of_isJoin {op : ComputeOp} {left right : Expr} {position : Position}
    (joins : (Expr.binary (.compute op) left right position).isJoin site scope = true) :
    (Expr.binary (.compute op) left right position).summands site scope =
      left.summands site scope ++ right.summands site scope :=
  if_pos joins

/-- What does not join strings is one summand, and so is a sum of numbers. -/
theorem summands_of_not_isJoin {expression : Expr} (alone : expression.isJoin site scope = false) :
    expression.summands site scope = [expression] := by
  unfold summands
  split
  · rw [if_neg (by rw [alone]; exact Bool.false_ne_true)]
  · rfl

/-- What holds of expressions that do not join strings, and of those that do if it holds of their
operands, holds of all. -/
theorem join_induction (site : Site) (scope : Scope) {motive : Expr → Prop}
    (alone : ∀ expression, expression.isJoin site scope = false → motive expression)
    (join : ∀ op left right position,
      (Expr.binary (.compute op) left right position).isJoin site scope = true →
      motive left → motive right → motive (.binary (.compute op) left right position))
    (expression : Expr) : motive expression := by
  fun_induction summands site scope expression with
  | case1 op left right position joins ihLeft ihRight => exact join op left right position joins ihLeft ihRight
  | case2 op left right position noJoin => exact alone _ (Bool.eq_false_iff.mpr noJoin)
  | case3 expression other =>
    refine alone _ (Bool.eq_false_iff.mpr fun joins => ?_)
    obtain ⟨op, left, right, position, _, _, rfl, _⟩ := isJoin_iff.mp joins
    exact other op left right position rfl

/-! ### Code -/

/-- An operator that computes, where the types of its operands are known. -/
theorem lower_compute {op : ComputeOp} {left right : Expr} {position : Position}
    {leftType rightType : StaticType} (isLeft : left.staticType site scope = .ok leftType)
    (isRight : right.staticType site scope = .ok rightType) :
    ((Expr.binary (.compute op) left right position).lower site scope).value =
        (if joinsStrings op leftType rightType then
          Lowered.joined (left.lower site scope) (right.lower site scope)
        else do
          let plan ← liftExcept (computePlan op leftType rightType position)
          Lowered.compute plan (left.lower site scope) (right.lower site scope)) ∧
      ((Expr.binary (.compute op) left right position).lower site scope).append =
        (if joinsStrings op leftType rightType then do
          (left.lower site scope).append
          (right.lower site scope).append
        else (Expr.binary (.compute op) left right position).appendAlone site scope) := by
  have isValue : ((Expr.binary (.compute op) left right position).lower site scope).value =
      (if joinsStrings op leftType rightType then
          Lowered.joined (left.lower site scope) (right.lower site scope)
        else do
          let plan ← liftExcept (computePlan op leftType rightType position)
          Lowered.compute plan (left.lower site scope) (right.lower site scope)) := by
    rw [lower, isLeft, isRight]
    rfl
  refine ⟨isValue, ?_⟩
  rw [appendAlone, isValue, lower, isLeft, isRight]
  rfl

/-- What is appended for an operand that does not join strings is its value. -/
theorem append_of_not_isJoin {expression : Expr} {type : StaticType}
    (typed : expression.staticType site scope = .ok type)
    (alone : expression.isJoin site scope = false) :
    (expression.lower site scope).append = expression.appendAlone site scope := by
  cases expression with
  | literal value position => cases value <;> rfl
  | call callee => cases callee <;> rfl
  | unary op => cases op <;> rfl
  | binary op left right position =>
    cases op with
    | compare => rfl
    | compute op =>
      rw [staticType_compute] at typed
      obtain ⟨leftType, isLeft, typed⟩ := bind_eq_ok.mp typed
      obtain ⟨rightType, isRight, _⟩ := bind_eq_ok.mp typed
      have noJoin : joinsStrings op leftType rightType = false := by
        simpa only [isJoin, isLeft, isRight] using alone
      rw [(lower_compute isLeft isRight).2, noJoin, if_neg Bool.false_ne_true]
  | _ => rfl

/-- **Appending an expression appends its summands in order.** -/
theorem append_eq {expression : Expr} {type : StaticType}
    (typed : expression.staticType site scope = .ok type) :
    (expression.lower site scope).append =
      (expression.summands site scope).forM (·.appendAlone site scope) := by
  induction expression using join_induction site scope generalizing type with
  | alone expression alone =>
    rw [summands_of_not_isJoin alone, append_of_not_isJoin typed alone]
    simp
  | join op left right position joins ihLeft ihRight =>
    obtain ⟨_, _, _, _, leftType, rightType, ⟨⟩, isLeft, isRight, joinsTypes⟩ := isJoin_iff.mp joins
    rw [(lower_compute isLeft isRight).2, if_pos joinsTypes, summands_of_isJoin joins,
      List.forM_eq_forM, List.forM_append, ihLeft isLeft, ihRight isRight]
    rfl

/-- **The code of an expression that joins strings**: a builder, to which the summands are appended in
order. -/
theorem value_eq {expression : Expr} (joins : expression.isJoin site scope = true) :
    (expression.lower site scope).value =
      Emit.joinAll site scope (expression.summands site scope) := by
  obtain ⟨op, left, right, position, leftType, rightType, rfl, isLeft, isRight, joinsTypes⟩ :=
    isJoin_iff.mp joins
  rw [(lower_compute isLeft isRight).1, if_pos joinsTypes, summands_of_isJoin joins, Lowered.joined,
    Emit.joinAll, List.forM_eq_forM, List.forM_append, append_eq isLeft, append_eq isRight]
  simp only [List.forM_eq_forM, bind_assoc]

end Expr

/-! ### Meaning -/

/-- How values become strings. `primitive` converts the values of the primitive types that have a
conversion of their own, and `reference` every reference. -/
structure Conversion (V : Type) where
  null : V
  ofString : String → V
  primitive : FieldType → V → String
  reference : V → String
  reference_null : reference null = "null"
  reference_ofString : ∀ text, reference (ofString text) = text

/-- The text of a value of a type. Values of `byte` and `short` are converted as `int`. -/
def Conversion.text (conversion : Conversion V) : StaticType → V → String
  | .void, _ => ""
  | .null, value => conversion.reference value
  | .value type, value =>
    if type.isReference then conversion.reference value
    else conversion.primitive (if type = .byte ∨ type = .short then .int else type) value

namespace Expr

/-- The text of a value of the type that an expression has. -/
def textOf (conversion : Conversion V) (site : Site) (scope : Scope) (expression : Expr) (value : V) :
    String :=
  match expression.staticType site scope with
  | .ok type => conversion.text type value
  | .error _ => ""

/-- What an expression means that joins strings: both operands are evaluated and converted, and their
texts put together. `value` is what the other expressions mean. -/
def joinedValue (conversion : Conversion V) (site : Site) (scope : Scope) (value : Expr → V) : Expr → V
  | .binary (.compute op) left right position =>
    if (Expr.binary (.compute op) left right position).isJoin site scope then
      conversion.ofString
        (left.textOf conversion site scope (left.joinedValue conversion site scope value) ++
          right.textOf conversion site scope (right.joinedValue conversion site scope value))
    else value (.binary (.compute op) left right position)
  | expression => value expression

variable {conversion : Conversion V} {value : Expr → V}

theorem joinedValue_of_isJoin {op : ComputeOp} {left right : Expr} {position : Position}
    (joins : (Expr.binary (.compute op) left right position).isJoin site scope = true) :
    (Expr.binary (.compute op) left right position).joinedValue conversion site scope value =
      conversion.ofString
        (left.textOf conversion site scope (left.joinedValue conversion site scope value) ++
          right.textOf conversion site scope (right.joinedValue conversion site scope value)) :=
  if_pos joins

theorem joinedValue_of_not_isJoin {expression : Expr} (alone : expression.isJoin site scope = false) :
    expression.joinedValue conversion site scope value = value expression := by
  unfold joinedValue
  split
  · rw [if_neg (by rw [alone]; exact Bool.false_ne_true)]
  · rfl

/-- The text of an expression is that of its summands in order. -/
theorem textOf_joinedValue (expression : Expr) :
    expression.textOf conversion site scope (expression.joinedValue conversion site scope value) =
      String.join ((expression.summands site scope).map fun operand =>
        operand.textOf conversion site scope (value operand)) := by
  induction expression using join_induction site scope with
  | alone expression alone =>
    rw [summands_of_not_isJoin alone, joinedValue_of_not_isJoin alone]
    simp
  | join op left right position joins ihLeft ihRight =>
    rw [summands_of_isJoin joins, List.map_append, String.join_append, ← ihLeft, ← ihRight,
      joinedValue_of_isJoin joins, textOf, staticType_of_isJoin joins]
    exact conversion.reference_ofString _

/-- **An expression that joins strings means the texts of its summands in order.** -/
theorem joinedValue_eq {expression : Expr} (joins : expression.isJoin site scope = true) :
    expression.joinedValue conversion site scope value =
      conversion.ofString (String.join ((expression.summands site scope).map fun operand =>
        operand.textOf conversion site scope (value operand))) := by
  obtain ⟨op, left, right, position, _, _, rfl, _⟩ := isJoin_iff.mp joins
  rw [summands_of_isJoin joins, List.map_append, String.join_append, ← textOf_joinedValue,
    ← textOf_joinedValue, joinedValue_of_isJoin joins]

end Expr

end MethodPatch
