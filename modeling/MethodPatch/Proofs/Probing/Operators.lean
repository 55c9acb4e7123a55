/-
**What types foretell of operators, assignments and calls.**

Once the types of its operands are known, an operator is in order or it is not; what is left are the
operands themselves. So the code of an operator comes out as its types say if the code of its operands
does. The facts are about operands that are foretold, and say the same of the whole.

* `foretold_comparison`, `foretold_compute`, `foretold_joined`, `foretold_unary`: operators;
* `foretold_assign`, `foretold_update`: places that are stored in;
* `foretold_conditional`, `foretold_cast`, `foretold_call`: other expressions.
-/

import MethodPatch.Proofs.Probing.Lowered

namespace MethodPatch

open Emit

/-- What is evaluated of two operands that are compared. An operand that is known to be `null` is
not. -/
def ComparisonPlan.evaluated {α : Type} (plan : ComparisonPlan) (left right : List α) : List α :=
  match plan with
  | .leftWithNull => left
  | .rightWithNull => right
  | _ => left ++ right

/-- References are the types that have a class constant. -/
theorem FieldType.classConstant?_isSome (type : FieldType) :
    type.classConstant?.isSome = type.isReference := by
  cases type <;> rfl

/-- An assignment with an operator is in order if the operator takes the right side. -/
theorem Typed.assignment_combined (site : Site) (place : Place) (op : ComputeOp) (source : Expr)
    (valueType : StaticType) (position : Position) :
    Typed.assignment site place (some op) source valueType position = Except.map
      (fun _ => .value place.type) (do
        if op = .arithmetic .add ∧ place.type.isString then requireValue valueType position
        else
          let _ ← computePlan op (.value place.type) valueType position) := by
  unfold Typed.assignment
  dsimp only
  split
  · cases requireValue valueType position <;> rfl
  · cases computePlan op (.value place.type) valueType position <;> rfl

namespace Lowered

variable {site : Site} {left right : Lowered} {position : Position} {voids more : List Position}
  {leftType rightType type : StaticType}

theorem foretold_convertedTo (operand : Emit.Foretold voids left.value (.ok leftType))
    (type : StaticType) : Emit.Foretold voids (left.convertedTo type) (.ok ()) := by
  refine operand.finish fun source => ?_
  cases type with
  | value target => exact .instrs _
  | void => exact .pure ()
  | null => exact .pure ()

/-! ### Operators -/

/-- The code of a comparison is in order if the operands that are evaluated are. A zero on the right
is not evaluated, and it has no operands. -/
theorem foretold_comparison {wanted : Comparison} {plan : ComparisonPlan} {expression : Expr}
    (isLeft : Emit.Foretold voids left.value (.ok leftType))
    (isRight : Emit.Foretold more right.value (.ok rightType))
    (zero : expression.intConstant? = some 0 → more = []) (outcome : Bool) :
    ForetoldBy (fun _ => ()) (plan.evaluated voids more)
      (Lowered.comparison wanted plan expression left right outcome) (.ok ()) := by
  have both : ∀ test, ForetoldBy (fun _ => ()) (voids ++ more) (do
      let _ ← left.value
      let _ ← right.value
      Emit.branch test) (.ok ()) := fun test =>
    isLeft.next fun _ => isRight.finish fun _ => .branch test
  cases plan with
  | leftWithNull => exact isLeft.finish fun _ => .branch _
  | rightWithNull => exact isRight.finish fun _ => .branch _
  | identity => exact both _
  | booleans => exact both _
  | numbers type =>
    refine (foretold_convertedTo isLeft _).next fun _ => ?_
    split
    · next isZero =>
      rw [zero isZero.2]
      exact .branch _
    · exact (foretold_convertedTo isRight _).finish fun _ => proceeds_compareNumbers type _ _

theorem foretold_compute (isLeft : Emit.Foretold voids left.value (.ok leftType))
    (isRight : Emit.Foretold more right.value (.ok rightType)) (plan : ComputePlan) :
    Emit.Foretold (voids ++ more) (Lowered.compute plan left right)
      (.ok (.value plan.result)) :=
  (foretold_convertedTo isLeft _).next fun _ => (foretold_convertedTo isRight _).finish fun _ =>
    .after (.instr _) fun _ => .pure _

theorem foretold_joined (isLeft : Emit.Foretold voids left.append (.ok ()))
    (isRight : Emit.Foretold more right.append (.ok ())) :
    Emit.Foretold (voids ++ more) (Lowered.joined left right) (.ok (.value .string)) :=
  .after proceeds_emptyBuilder fun _ => isLeft.next fun _ => isRight.finish fun _ =>
    .after (proceeds_invoke _ _) fun _ => .pure _

theorem foretold_unary {known : Except SourceError StaticType}
    (operand : Emit.Foretold voids left.value known) (op : UnaryOp) (position : Position) :
    Emit.Foretold voids (Lowered.unary op left position) (do
      let type ← unaryType op (← known) position
      return .value type.type) := by
  refine operand.last fun source _ => .check fun type _ => .after (.instrs _) fun _ => ?_
  cases op with
  | minus => exact .after (.instr _) fun _ => .pure _
  | plus => exact .pure _
  | not => exact .pure _
  | complement =>
    cases type with
    | long => exact .after (proceeds_number _ _ _) fun _ => .after (.instr _) fun _ => .pure _
    | _ => exact .after (proceeds_number _ _ _) fun _ => .after (.instr _) fun _ => .pure _

/-! ### Places -/

/-- The new value of a place is in order if the operator takes the right side. -/
theorem foretold_combine (value : Emit.Foretold voids right.value (.ok type)) (op : ComputeOp)
    (target : FieldType) (position : Position) :
    Emit.Foretold voids (Lowered.combine op target type right position) (do
      if op = .arithmetic .add ∧ target.isString then requireValue type position
      else
        let _ ← computePlan op (.value target) type position) := by
  unfold Lowered.combine
  split
  · refine .after proceeds_builderOfString fun _ => ?_
    show Emit.Foretold voids _
      ((Except.ok type : Except SourceError StaticType) >>= (requireValue · position))
    exact value.last fun source _ =>
      (foretold_append source position).followed fun _ => proceeds_invoke _ _
  · refine .check fun plan _ => .after (.instrs _) fun _ => ?_
    exact (foretold_convertedTo value _).finish fun _ => .after (.instr _) fun _ => .instrs _

/-- An assignment is in order if the place and the value are, and the value can be stored there. -/
theorem foretold_assign {known : Except SourceError Place} {source : Expr}
    {valueType : Except SourceError StaticType}
    (target : Emit.Foretold voids left.place known)
    (value : Emit.Foretold more right.value valueType) (op : Option ComputeOp)
    (position : Position) (wanted : Bool) :
    Emit.Foretold (voids ++ more)
      (Lowered.assign site left op source valueType right position wanted) (do
        let place ← known
        let valueType ← valueType
        Typed.assignment site place op source valueType position) := by
  refine target.bind fun place _ => ?_
  have stored : Emit.Foretold [] (do
      if wanted then Emit.instr place.copyValue
      Emit.write place
      return StaticType.value place.type) (.ok (.value place.type)) :=
    .maybe (.instr _) (.after (proceeds_write place) fun _ => .pure _)
  cases op with
  | none =>
    refine value.last fun type _ => .check fun instrs _ => .after (.instrs _) fun _ => stored
  | some op =>
    refine .after (.instrs _) fun _ => .after (proceeds_read place) fun _ => ?_
    refine .check fun type isKnown => ?_
    subst isKnown
    rw [Typed.assignment_combined]
    exact (foretold_combine value op place.type position).made fun _ _ => stored

/-- `++` or `--` is in order if the place is and holds a number. -/
theorem foretold_update {known : Except SourceError Place}
    (target : Emit.Foretold voids left.place known) (op : UpdateOp) (before : Bool)
    (position : Position) (wanted : Bool) :
    Emit.Foretold voids (Lowered.update op before left position wanted) (do
      let place ← known
      let _ ← updateType op place.type position
      return .value place.type) := by
  refine target.last fun place _ => .check fun type _ => .after (.instrs _) fun _ => ?_
  refine .after (proceeds_read place) fun _ => .maybe (.instr _) ?_
  refine .after (.instrs _) fun _ => .after (.instr _) fun _ => .after (.instr _) fun _ => ?_
  refine .after (.instrs _) fun _ => .maybe (.instr _) ?_
  exact .after (proceeds_write place) fun _ => .pure _

theorem foretold_updateVariable (op : UpdateOp) (before : Bool) (slot : Slot) (wanted : Bool) :
    Emit.Foretold [] (Lowered.updateVariable op before slot wanted) (.ok (.value .int)) :=
  .maybe (.instr _) (.after (.instr _) fun _ => .maybe (.instr _) (.pure _))

theorem foretold_increment (slot : Slot) (delta : Int16) (wanted : Bool) :
    Emit.Foretold [] (Lowered.increment slot delta wanted) (.ok (.value .int)) :=
  .after (.instr _) fun _ => .maybe (.instr _) (.pure _)

/-! ### Conditionals, casts and calls -/

/-- A conditional is in order if the condition is and the branches have values. -/
theorem foretold_conditional {test : Lowered} {known : Except SourceError Unit}
    {tests : List Position}
    (isTest : ForetoldBy (fun _ => ()) tests (test.branches false) known)
    (isFirst : Emit.Foretold voids left.value (.ok leftType))
    (isSecond : Emit.Foretold more right.value (.ok rightType)) (type : StaticType) :
    Emit.Foretold (tests ++ (voids ++ more)) (Lowered.conditional test left right type) (do
      known
      return type) :=
  isTest.bind fun _ _ => .after .depth fun _ => (foretold_convertedTo isFirst type).next fun _ =>
    .after (.branch _) fun _ => .after (.landHere _) fun _ => .after (.setDepth _) fun _ =>
      (foretold_convertedTo isSecond type).finish fun _ => .after (.landHere _) fun _ => .pure _

theorem foretold_cast {known : Except SourceError StaticType}
    (operand : Emit.Foretold voids left.value known) (target : FieldType) (position : Position) :
    Emit.Foretold voids (Lowered.cast site target left position) (do
      let source ← known
      match site.host.castPlan? source target with
      | some _ => return .value target
      | none => throw (mistyped (.inconvertible source (.value target)) (some position))) := by
  refine operand.last fun source _ => ?_
  rw [id_eq]
  cases site.host.castPlan? source target with
  | none => exact .throw _
  | some plan =>
    cases plan with
    | convert instrs => exact .after (.instrs _) fun _ => .pure _
    | check className => exact .after (.constant _) fun _ => .after (.instr _) fun _ => .pure _

theorem foretold_instanceOf {known : Except SourceError StaticType}
    (operand : Emit.Foretold voids left.value known) (target : FieldType) (position : Position) :
    Emit.Foretold voids (Lowered.instanceOf target left position) (do
      let source ← known
      if !(source.isReference && target.isReference) then
        throw (mistyped (.notTestable source target) (some position))
      return .value .boolean) := by
  refine operand.last fun source _ => ?_
  rw [id_eq, ← target.classConstant?_isSome]
  cases target.classConstant? with
  | none =>
    rw [Option.isSome_none, Bool.and_false]
    exact .throw _
  | some className =>
    cases source.isReference with
    | false => exact .throw _
    | true => exact .after (.constant _) fun _ => .after (.instr _) fun _ => .pure _

theorem foretold_newArray {known : Except SourceError StaticType}
    (length : Emit.Foretold voids left.value known) (element : FieldType) (position : Position) :
    Emit.Foretold voids (Lowered.newArray element left position) (do
      requireInt (← known) position
      return .value (.array element)) := by
  refine length.last fun source _ => .check fun _ _ => ?_
  cases element.primitiveElement? with
  | some primitive => exact .after (.instr _) fun _ => .pure _
  | none =>
    cases element.classConstant? with
    | some className => exact .after (.constant _) fun _ => .after (.instr _) fun _ => .pure _
    | none => exact .pure _

/-- A call of a selected method is in order if its arguments are. -/
theorem foretold_call {method : MethodRef} {arguments : List FieldType → Emit Unit}
    (inOrder : Emit.Foretold voids (arguments method.signature.parameters) (.ok ()))
    (receiver : Receiver) :
    Emit.Foretold voids (Lowered.call site method receiver arguments) (.ok method.resultType) :=
  .maybe (.instr _) (.maybe (.instr _) (inOrder.finish fun _ =>
    .after (proceeds_invoke _ _) fun _ => .pure _))

/-- An argument is in order if it can be passed as its parameter. -/
theorem foretold_argument {argument : Expr} {parameter : FieldType} {instrs : List Instr}
    (value : Emit.Foretold voids left.value (.ok type))
    (coerces : site.host.coercion type parameter argument = .ok instrs) :
    Emit.Foretold voids (Lowered.argument site.host argument left parameter) (.ok ()) := by
  show Emit.Foretold voids _ ((Except.ok type : Except SourceError StaticType) >>= fun _ => .ok ())
  refine value.last fun source isKnown => ?_
  obtain rfl : type = source := Except.ok.inj isKnown
  rw [coerces]
  exact .instrs _

end Lowered

end MethodPatch
