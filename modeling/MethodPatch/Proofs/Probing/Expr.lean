/-
**What types foretell of expressions.**

The code of an expression comes out as its type says: it leaves a value of the type, or stops with the
error that the type has. Types do not look at the operands of joined strings, so they miss the ones
that have no value; `Expr.voidOperands` lists these.

A method is selected by the types of the arguments alone, before any code is generated for them. The
code of the arguments then leaves values of just these types, and what a parameter takes when the
method is selected can be assigned to it as well. So the arguments of a selected method go through.

* `Expr.foretold`: **lowered expressions come out as known of their types**, but for limits of the
  class file and operands without a value;
* `lowerArguments_eq`: arguments are lowered one by one, each for its parameter;
* `Site.selected_arguments`: **each argument of a selected method is converted to the type of its
  parameter**.

The induction is on expressions and lists of arguments together.
-/

import MethodPatch.Proofs.Probing.Operators
import MethodPatch.Proofs.Typing.Selection

namespace MethodPatch

open Emit

variable {site : Site} {scope : Scope} {name : String} {position : Position} {method : MethodRef}

/-! ### Arguments of selected methods -/

/-- Arguments with types: the first one has a value, and so have the others. -/
theorem argumentTypes_cons {first : Expr} {rest : List Expr} {types : List StaticType}
    (typed : argumentTypes site scope (first :: rest) = .ok types) :
    ∃ type others, types = type :: others ∧ (first.typed site scope).value = .ok type ∧
      type ≠ .void ∧ argumentTypes site scope rest = .ok others := by
  rw [argumentTypes] at typed
  obtain ⟨type, isFirst, typed⟩ := bind_eq_ok.mp typed
  obtain ⟨_, hasValue, typed⟩ := bind_eq_ok.mp typed
  obtain ⟨others, isRest, typed⟩ := bind_eq_ok.mp typed
  cases typed
  refine ⟨type, others, rfl, isFirst, ?_, isRest⟩
  rintro rfl
  cases hasValue

theorem argumentTypes_ne_void {arguments : List Expr} {types : List StaticType}
    (typed : argumentTypes site scope arguments = .ok types) : ∀ type ∈ types, type ≠ .void := by
  induction arguments generalizing types with
  | nil =>
    rw [argumentTypes] at typed
    cases typed
    exact List.forall_mem_nil _
  | cons first rest ih =>
    obtain ⟨type, others, rfl, -, hasValue, isRest⟩ := argumentTypes_cons typed
    exact List.forall_mem_cons.mpr ⟨hasValue, ih isRest⟩

theorem Host.exists_applicable_of_select {host : Host} {candidates : List MethodRef}
    {types : List StaticType}
    (selected : host.select candidates name types position = .ok method) :
    ∃ strict, method.Applicable host strict types := by
  obtain ⟨strict, phase⟩ := host.exists_phase candidates types
  exact ⟨strict, (phase.of_select selected).2⟩

theorem Site.exists_applicable_of_calledMethod {owner : String} {receiver : Receiver}
    {types : List StaticType}
    (called : site.calledMethod owner receiver name types position = .ok method) :
    ∃ strict, method.Applicable site.host strict types := by
  unfold calledMethod at called
  obtain ⟨found, selected, allowed⟩ := bind_eq_ok.mp called
  split at allowed
  · cases allowed
  · cases allowed
    exact Host.exists_applicable_of_select selected

/-- A value is passed as the type that its parameter has if nothing is known of a constructor. -/
theorem Site.passes_parameterFor (host : Host) {type : StaticType} (notVoid : type ≠ .void) :
    host.Passes true type (parameterFor type) := by
  cases type with
  | void => exact absurd rfl notVoid
  | null => exact .null rfl
  | value type => exact .same type

theorem Site.exists_applicable_of_constructor {className : String} {types : List StaticType}
    (values : ∀ type ∈ types, type ≠ .void)
    (found : site.constructor className types position = .ok method) :
    ∃ strict, method.Applicable site.host strict types := by
  unfold constructor at found
  split at found
  · cases found
    refine ⟨true, List.forall₂_map_right_iff.mpr (List.forall₂_same.mpr fun type isIn => ?_)⟩
    exact passes_parameterFor site.host (values type isIn)
  · exact Host.exists_applicable_of_select found

/-! ### Operands without a value -/

/-- What is known of two operands that are compared. -/
def Typed.comparison (op : Comparison) (left right : Typed) (position : Position) :
    Except SourceError ComparisonPlan := do
  comparisonPlan op (← left.value) (← right.value) position

/-- Whether two operands are joined to a string. -/
def Typed.joins (op : ComputeOp) (left right : Typed) : Bool :=
  match left.value, right.value with
  | .ok leftType, .ok rightType => joinsStrings op leftType rightType
  | _, _ => false

mutual

/-- The operands of joined strings that have no value, by their positions. What is not evaluated does
not count. -/
def Expr.voidOperands (site : Site) (scope : Scope) : Expr → List Position
  | .literal _ _ | .name _ _ | .this _ => []
  | .member object _ _ => object.voidOperands site scope
  | .call none _ arguments _ => voidOperandsOf site scope arguments
  | .call (some callee) _ arguments _ =>
    callee.voidOperands site scope ++ voidOperandsOf site scope arguments
  | .new _ arguments _ => voidOperandsOf site scope arguments
  | .newArray _ length _ => length.voidOperands site scope
  | .index array index _ => array.voidOperands site scope ++ index.voidOperands site scope
  | .assign target _ value _ => target.voidOperands site scope ++ value.voidOperands site scope
  | .update _ _ target _ => target.voidOperands site scope
  | .unary _ operand _ => operand.voidOperands site scope
  | .binary (.compare op) left right position =>
    match Typed.comparison op (left.typed site scope) (right.typed site scope) position with
    | .ok plan => plan.evaluated (left.voidOperands site scope) (right.voidOperands site scope)
    | .error _ => []
  | .binary (.compute op) left right _ =>
    if Typed.joins op (left.typed site scope) (right.typed site scope) then
      (left.voidOperands site scope ++ (left.typed site scope).voidAt left.position) ++
        (right.voidOperands site scope ++ (right.typed site scope).voidAt right.position)
    else left.voidOperands site scope ++ right.voidOperands site scope
  | .logical _ left right _ => left.voidOperands site scope ++ right.voidOperands site scope
  | .conditional test first second _ =>
    test.voidOperands site scope ++
      (first.voidOperands site scope ++ second.voidOperands site scope)
  | .cast _ operand _ => operand.voidOperands site scope
  | .instanceOf operand _ _ => operand.voidOperands site scope

/-- The operands of joined strings in arguments that have no value. -/
def voidOperandsOf (site : Site) (scope : Scope) : List Expr → List Position
  | [] => []
  | first :: rest => first.voidOperands site scope ++ voidOperandsOf site scope rest

end

theorem Expr.voidOperands_of_intConstant {expression : Expr} {value : Int32}
    (constant : expression.intConstant? = some value) :
    expression.voidOperands site scope = [] := by
  cases expression <;> first | rfl | cases constant

/-- A variable that is changed in place is evaluated without operands. -/
theorem Site.voidOperands_of_intVariable {target : Expr} {slot : Slot}
    (isVariable : site.intVariable? scope target = some slot) :
    target.voidOperands site scope = [] := by
  cases target <;> first | rfl | cases isVariable

theorem Expr.voidOperands_of_incrementBy {op : Option ComputeOp} {value : Expr} {delta : Int16}
    (isDelta : incrementBy? op value = some delta) : value.voidOperands site scope = [] := by
  unfold incrementBy? at isDelta
  obtain ⟨amount, isConstant, -⟩ := Option.bind_eq_some_iff.mp isDelta
  exact voidOperands_of_intConstant isConstant

section Operators

variable {left right : Expr}

theorem Typed.both_eq_ok {first second : Typed} {firstType secondType : StaticType}
    (known : (do return (← first.value, ← second.value)) =
      (.ok (firstType, secondType) : Except SourceError _)) :
    first.value = .ok firstType ∧ second.value = .ok secondType := by
  obtain ⟨_, isFirst, known⟩ := bind_eq_ok.mp known
  obtain ⟨_, isSecond, known⟩ := bind_eq_ok.mp known
  cases known
  exact ⟨isFirst, isSecond⟩

theorem Typed.joins_eq {op : ComputeOp} {first second : Typed} {firstType secondType : StaticType}
    (isFirst : first.value = .ok firstType) (isSecond : second.value = .ok secondType) :
    Typed.joins op first second = joinsStrings op firstType secondType := by
  rw [joins, isFirst, isSecond]

/-- The code of a relation comes out as its types say. -/
theorem Lowered.foretold_relation (wanted : Comparison) (position : Position)
    (isLeft : (left.lower site scope).Foretold (left.typed site scope) left.position
      (left.voidOperands site scope))
    (isRight : (right.lower site scope).Foretold (right.typed site scope) right.position
      (right.voidOperands site scope)) :
    (Expr.lower site scope (.binary (.compare wanted) left right position)).Foretold
      (Expr.typed site scope (.binary (.compare wanted) left right position)) position
      (Expr.voidOperands site scope (.binary (.compare wanted) left right position)) := by
  have branches : ∀ outcome, ForetoldBy (fun _ => ())
      (Expr.voidOperands site scope (.binary (.compare wanted) left right position))
      ((Expr.lower site scope (.binary (.compare wanted) left right position)).branches outcome)
      (do
        let leftType ← (left.typed site scope).value
        let rightType ← (right.typed site scope).value
        let _ ← comparisonPlan wanted leftType rightType position
        return ()) := fun outcome =>
    .check fun leftType leftKnown => .check fun rightType rightKnown =>
      .check fun plan planned => by
        have isPlan : Typed.comparison wanted (left.typed site scope) (right.typed site scope)
            position = .ok plan := by
          rw [← planned, Typed.comparison, show (left.typed site scope).value = _ from leftKnown,
            show (right.typed site scope).value = _ from rightKnown]
          rfl
        rw [Expr.voidOperands, isPlan]
        exact (foretold_comparison (isLeft.value_of leftKnown) (isRight.value_of rightKnown)
          Expr.voidOperands_of_intConstant outcome).finish fun jump => .pure [jump]
  have whole := Foretold.ofCondition position branches
  simp only [bind_assoc, pure_bind] at whole
  exact whole

/-- The value of an operator on operands of known types. -/
def Typed.computed (op : ComputeOp) (leftType rightType : StaticType) (position : Position) :
    Except SourceError StaticType := do
  if joinsStrings op leftType rightType then return .value .string
  let plan ← computePlan op leftType rightType position
  return .value plan.result

theorem Expr.typed_binary (op : ComputeOp) (left right : Expr) (position : Position) :
    Expr.typed site scope (.binary (.compute op) left right position) = .ofValue position (do
      let (leftType, rightType) ← (do
        return (← left.staticType site scope, ← right.staticType site scope))
      Typed.computed op leftType rightType position) := by
  rw [Expr.typed]
  simp only [bind_assoc, pure_bind]
  rfl

/-- Whatever an operator computes is a value. -/
theorem Typed.voidAt_computed (op : ComputeOp)
    (types : Except SourceError (StaticType × StaticType)) (position : Position) :
    (Typed.ofValue position (do
      let (leftType, rightType) ← types
      Typed.computed op leftType rightType position)).voidAt position = [] := by
  unfold Typed.voidAt
  split
  · next isVoid =>
    obtain ⟨⟨leftType, rightType⟩, _, isVoid⟩ := bind_eq_ok.mp isVoid
    dsimp only at isVoid
    unfold Typed.computed at isVoid
    split at isVoid
    · cases isVoid
    · obtain ⟨_, _, isVoid⟩ := bind_eq_ok.mp isVoid
      cases isVoid
  · rfl

/-- Operands of an operator are in order, and the operator is if it takes them. An operator that joins
strings is appended by appending its operands. -/
theorem Lowered.foretold_binary (op : ComputeOp) (position : Position)
    (isLeft : (left.lower site scope).Foretold (left.typed site scope) left.position
      (left.voidOperands site scope))
    (isRight : (right.lower site scope).Foretold (right.typed site scope) right.position
      (right.voidOperands site scope)) :
    (Expr.lower site scope (.binary (.compute op) left right position)).Foretold
      (Expr.typed site scope (.binary (.compute op) left right position)) position
      (Expr.voidOperands site scope (.binary (.compute op) left right position)) := by
  rw [Expr.typed_binary]
  have value : Emit.Foretold
      (Expr.voidOperands site scope (.binary (.compute op) left right position))
      (Expr.lower site scope (.binary (.compute op) left right position)).value (do
        let (leftType, rightType) ← (do
          return (← left.staticType site scope, ← right.staticType site scope))
        Typed.computed op leftType rightType position) := by
    rw [Expr.voidOperands]
    refine .check fun (leftType, rightType) known => ?_
    obtain ⟨leftKnown, rightKnown⟩ := Typed.both_eq_ok known
    rw [Typed.joins_eq leftKnown rightKnown]
    dsimp only
    unfold Typed.computed
    split
    · exact foretold_joined (isLeft.append_of leftKnown) (isRight.append_of rightKnown)
    · exact .check fun plan _ =>
        foretold_compute (isLeft.value_of leftKnown) (isRight.value_of rightKnown) plan
  have appended := foretold_appended value position
  refine { Foretold.ofValue position value with append := ?_ }
  rw [Typed.voidAt_computed, List.append_nil] at appended ⊢
  refine (congrArg (Emit.Foretold _ _) (map_bind _ _ _)).mpr (.check fun types known => ?_)
  obtain ⟨leftType, rightType⟩ := types
  obtain ⟨leftKnown, rightKnown⟩ := Typed.both_eq_ok known
  dsimp only
  cases joins : joinsStrings op leftType rightType with
  | true =>
    rw [Expr.voidOperands, Typed.joins_eq leftKnown rightKnown, joins, Typed.computed, joins]
    exact (isLeft.append_of leftKnown).next fun _ => isRight.append_of rightKnown
  | false =>
    rw [known] at appended
    exact appended

end Operators

/-! ### Expressions -/

mutual

/-- **Lowered expressions come out as known of their types.** -/
theorem Expr.foretold (site : Site) (scope : Scope) : (expression : Expr) →
    (expression.lower site scope).Foretold (expression.typed site scope) expression.position
      (expression.voidOperands site scope)
  | .literal (.boolean value) position => .boolean position value
  | .literal (.int value) position | .literal (.long value) position
  | .literal (.float value) position | .literal (.double value) position
  | .literal (.char value) position | .literal (.string value) position
  | .literal .null position =>
    .ofValue position (.after (proceeds_literal _) fun _ => .pure _)
  | .name name position =>
    .ofQualifier (foretold_name site scope name position)
      (foretold_namePlace site scope name position)
  | .this position => by
    have kept : site.thisType "this" position = (site.thisType "this" position).map id := by
      cases site.thisType "this" position <;> rfl
    rw [Expr.typed, kept]
    exact .ofValue position (.checked fun type _ => .after (.instr _) fun _ => .pure type)
  | .member object name position =>
    .ofQualifier
      ((object.foretold site scope).qualifier.last fun front _ =>
        foretold_member site front name position)
      ((object.foretold site scope).qualifier.last fun front _ =>
        foretold_memberPlace site front name position)
  | .call none name arguments position => by
    refine .ofValue position (.check fun types typed => .checked fun method called => ?_)
    obtain ⟨strict, applicable⟩ := Site.exists_applicable_of_calledMethod called
    exact Lowered.foretold_call
      (foretold_lowerArguments site scope arguments _ typed applicable) _
  | .call (some callee) name arguments position => by
    refine .ofValue position ?_
    refine (callee.foretold site scope).qualifier.bind fun front _ => .check fun found _ => ?_
    refine .check fun types typed => .checked fun method called => ?_
    obtain ⟨strict, applicable⟩ := Site.exists_applicable_of_calledMethod called
    exact Lowered.foretold_call
      (foretold_lowerArguments site scope arguments _ typed applicable) _
  | .new type arguments position => by
    refine .ofValue position (.check fun className _ => .check fun types typed => ?_)
    refine .check fun method found => .after (proceeds_newObject _) fun _ => ?_
    obtain ⟨strict, applicable⟩ :=
      Site.exists_applicable_of_constructor (argumentTypes_ne_void typed) found
    refine (foretold_lowerArguments site scope arguments _ typed applicable).finish fun _ => ?_
    exact .after (proceeds_invoke _ _) fun _ => .pure _
  | .newArray element length position =>
    .ofValue position (.check fun element _ =>
      Lowered.foretold_newArray (length.foretold site scope).value element length.position)
  | .index array index position =>
    .element (array.foretold site scope) (index.foretold site scope)
  | .assign target op value position => by
    refine .ofWanted position ?_
    cases isVariable : site.intVariable? scope target with
    | none =>
      exact Lowered.foretold_assign (target.foretold site scope).place
        (value.foretold site scope).value op position true
    | some slot =>
      cases isDelta : incrementBy? op value with
      | none =>
        exact Lowered.foretold_assign (target.foretold site scope).place
          (value.foretold site scope).value op position true
      | some delta =>
        rw [Expr.voidOperands, Site.voidOperands_of_intVariable isVariable,
          Expr.voidOperands_of_incrementBy isDelta]
        exact Lowered.foretold_increment slot delta true
  | .update op isBefore target position => by
    refine .ofWanted position ?_
    cases isVariable : site.intVariable? scope target with
    | none =>
      exact Lowered.foretold_update (target.foretold site scope).place op isBefore position true
    | some slot =>
      rw [Expr.voidOperands, Site.voidOperands_of_intVariable isVariable]
      exact Lowered.foretold_updateVariable op isBefore slot true
  | .unary .not operand position =>
    .ofCondition position fun outcome => (operand.foretold site scope).branches (!outcome)
  | .unary .minus operand position | .unary .plus operand position
  | .unary .complement operand position =>
    .ofValue position (Lowered.foretold_unary (operand.foretold site scope).value _ position)
  | .binary (.compare wanted) left right position =>
    Lowered.foretold_relation wanted position (left.foretold site scope) (right.foretold site scope)
  | .binary (.compute op) left right position =>
    Lowered.foretold_binary op position (left.foretold site scope) (right.foretold site scope)
  | .logical op left right position => by
    have whole := Lowered.Foretold.ofCondition position
      (foretold_branchesOf op (left.foretold site scope).branches
        (right.foretold site scope).branches)
    rw [bind_assoc] at whole
    exact whole
  | .conditional test first second position =>
    .ofValue position (.check fun _ isFirst => .check fun _ isSecond => .check fun type _ =>
      Lowered.foretold_conditional ((test.foretold site scope).branches false)
        ((first.foretold site scope).value_of isFirst)
        ((second.foretold site scope).value_of isSecond) type)
  | .cast type operand position =>
    .ofValue position (.check fun target _ =>
      Lowered.foretold_cast (operand.foretold site scope).value target position)
  | .instanceOf operand type position =>
    .ofValue position (.check fun target _ =>
      Lowered.foretold_instanceOf (operand.foretold site scope).value target position)

/-- Arguments of a method that is applicable to them are in order. -/
theorem foretold_lowerArguments (site : Site) (scope : Scope) :
    (arguments : List Expr) → (parameters : List FieldType) → {strict : Bool} →
      {types : List StaticType} → argumentTypes site scope arguments = .ok types →
        List.Forall₂ (site.host.Passes strict) types parameters →
          Emit.Foretold (voidOperandsOf site scope arguments)
            (lowerArguments site scope arguments parameters) (.ok ())
  | [], _, _, _, _, _ => .pure ()
  | first :: rest, parameters, strict, types, typed, applicable => by
    obtain ⟨type, others, rfl, isFirst, -, isRest⟩ := argumentTypes_cons typed
    cases applicable with
    | cons passes applicable =>
      rw [voidOperandsOf, lowerArguments]
      have passed := Lowered.foretold_argument ((first.foretold site scope).value_of isFirst)
        (Host.coercion_of_passes passes first)
      exact passed.next fun _ => foretold_lowerArguments site scope rest _ isRest applicable

end

/-- The code of an expression leaves a value of the type that is known of it. -/
theorem Expr.staticType_of_lower {expression : Expr} {before : Generator} {type : StaticType}
    (generated : (expression.lower site scope).value.result before = .ok type) :
    expression.staticType site scope = .ok type := by
  rcases (expression.foretold site scope).value before with ⟨isKnown, -⟩ | ⟨error, failed, -⟩
  · rw [generated] at isKnown
    exact isKnown.symm
  · rw [generated] at failed
    cases failed

end MethodPatch

namespace MethodPatch

/-! ### Arguments are converted to parameters -/

variable {site : Site} {scope : Scope} {position : Position}

/-- Arguments are lowered one by one, each for its parameter. -/
theorem lowerArguments_eq (site : Site) (scope : Scope) (arguments : List Expr)
    (parameters : List FieldType) :
    lowerArguments site scope arguments parameters =
      (arguments.zip parameters).forM fun (argument, parameter) =>
        Lowered.argument site.host argument (argument.lower site scope) parameter := by
  induction arguments generalizing parameters with
  | nil => rfl
  | cons first rest ih =>
    cases parameters with
    | nil => rfl
    | cons parameter parameters =>
      rw [lowerArguments, ih]
      rfl

/-- Arguments are passed, by their types, as the parameters of a method that is applicable to
them. -/
theorem argumentTypes_passes {host : Host} {strict : Bool} {arguments : List Expr}
    {types : List StaticType} {parameters : List FieldType}
    (typed : argumentTypes site scope arguments = .ok types)
    (applicable : List.Forall₂ (host.Passes strict) types parameters) :
    List.Forall₂ (fun argument parameter => ∃ type, argument.staticType site scope = .ok type ∧
      host.Passes strict type parameter) arguments parameters := by
  induction arguments generalizing types parameters with
  | nil =>
    rw [argumentTypes] at typed
    cases typed
    cases applicable
    exact .nil
  | cons first rest ih =>
    obtain ⟨type, others, rfl, isFirst, -, isRest⟩ := argumentTypes_cons typed
    cases applicable with
    | cons passes applicable => exact .cons ⟨type, isFirst, passes⟩ (ih isRest applicable)

/-- A method is meant by arguments of some types: it is selected among candidates, or it is the
constructor that a new object is made by. -/
def Site.Means (site : Site) (types : List StaticType) (position : Position) (method : MethodRef) :
    Prop :=
  (∃ candidates name, site.host.select candidates name types position = .ok method) ∨
    ∃ className, site.constructor className types position = .ok method

namespace Site

/-- **Each argument of a selected method is converted to the type of its parameter.** There are as many
arguments as parameters, and they are lowered one by one, each for its own. Whenever the code of an
argument leaves a value of a type, the value can be assigned to the parameter. So lowering the
arguments goes through, but for limits of the class file and for operands of joined strings that have
no value; it does not fail for types that do not fit. -/
theorem selected_arguments {arguments : List Expr} {types : List StaticType} {method : MethodRef}
    (typed : argumentTypes site scope arguments = .ok types)
    (means : site.Means types position method) :
    arguments.length = method.signature.parameters.length ∧
      lowerArguments site scope arguments method.signature.parameters =
        (arguments.zip method.signature.parameters).forM (fun (argument, parameter) =>
          Lowered.argument site.host argument (argument.lower site scope) parameter) ∧
      (∀ argument parameter, (argument, parameter) ∈ arguments.zip method.signature.parameters →
        ∀ before type, (argument.lower site scope).value.result before = .ok type →
          ∃ instrs, site.host.coercion type parameter argument = .ok instrs) ∧
      ∀ before error, (lowerArguments site scope arguments method.signature.parameters).result before =
          .error error →
        (∃ fault place, InternalFault.isLimit fault = true ∧ error = notGenerated fault place) ∨
          ∃ place ∈ voidOperandsOf site scope arguments,
            error = mistyped .voidOperand (some place) := by
  have applicable : ∃ strict, method.Applicable site.host strict types := by
    rcases means with ⟨_, _, selected⟩ | ⟨_, found⟩
    · exact Host.exists_applicable_of_select selected
    · exact exists_applicable_of_constructor (argumentTypes_ne_void typed) found
  obtain ⟨strict, applicable⟩ := applicable
  obtain ⟨sameLength, passed⟩ := List.forall₂_iff_zip.mp (argumentTypes_passes typed applicable)
  refine ⟨sameLength, lowerArguments_eq site scope _ _, ?_, ?_⟩
  · intro argument parameter isPair before type generated
    obtain ⟨known, isKnown, passes⟩ := passed isPair
    obtain rfl := Except.ok.inj (isKnown.symm.trans (Expr.staticType_of_lower generated))
    exact ⟨_, Host.coercion_of_passes passes argument⟩
  · intro before error failed
    rcases foretold_lowerArguments site scope arguments _ typed applicable before with
      ⟨isKnown, -⟩ | ⟨other, stopped, unforeseen⟩
    · rw [failed] at isKnown
      cases isKnown
    · rw [failed] at stopped
      cases stopped
      exact unforeseen.limit_or_void

/-- A static method of a class with two static methods `put`. -/
def putting : Site where
  method := ⟨"Counter", "run", ⟨[], none⟩, true⟩
  host := { Host.detached with
    methods := fun owner name =>
      if owner = "Counter" ∧ name = "put" then
        [⟨"Counter", "put", ⟨[.long, .object objectClass], none⟩, true, false⟩,
          ⟨"Counter", "put", ⟨[.int, .object "java/lang/String"], none⟩, true, false⟩]
      else [] }

/-- Both methods `put` take `'c', null`, and the second one is selected. -/
theorem selected_arguments_put :
    let arguments : List Expr := [.literal (.char 99) ⟨1, 5, 4⟩, .literal .null ⟨1, 10, 9⟩]
    let method : MethodRef :=
      ⟨"Counter", "put", ⟨[.int, .object "java/lang/String"], none⟩, true, false⟩
    argumentTypes putting (.root []) arguments = .ok [.value .char, .null] ∧
      putting.Means [.value .char, .null] ⟨1, 1, 0⟩ method ∧
      arguments.length = method.signature.parameters.length ∧
      ∀ before error,
        (lowerArguments putting (.root []) arguments method.signature.parameters).result before =
            .error error →
          ∃ fault place, InternalFault.isLimit fault = true ∧ error = notGenerated fault place := by
  intro arguments method
  have typed : argumentTypes putting (.root []) arguments = .ok [.value .char, .null] := rfl
  have means : putting.Means [.value .char, .null] ⟨1, 1, 0⟩ method :=
    .inl ⟨putting.host.methods "Counter" "put", "put", rfl⟩
  obtain ⟨sameLength, -, -, unforeseen⟩ := selected_arguments typed means
  refine ⟨typed, means, sameLength, fun before error failed => ?_⟩
  rcases unforeseen before error failed with limit | ⟨place, isVoid, -⟩
  · exact limit
  · exact absurd isVoid List.not_mem_nil

end Site

end MethodPatch
