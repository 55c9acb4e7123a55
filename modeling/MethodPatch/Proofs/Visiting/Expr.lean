/-
**Probing for types beside generating code.**

One visit finds the type of an expression and generates its code. Probing changes nothing, and its
answer is the type that is known of the expression; generating is lowering the expression.

* `Expr.visit_agrees`: **visits generate what is lowered, and probe for what is known**;
* `probeArguments_agrees`, `visitArguments_generates`: the same of arguments;
* `Expr.expressionType_run`: what finding a type does;
* `Expr.probing_inert`: **probing is inert and agrees with generating**;
* `Expr.generates_of_typed`: **what has a type is generated, unless a limit is reached or a joined
  operand has no value**.
-/

import MethodPatch.Proofs.Visiting.Operators

namespace MethodPatch

/-! ### Probing for types beside generating code

One visit finds the type of an expression and generates its code. Probing changes nothing, and its
answer is the type that is known of the expression; generating is lowering the expression.

The induction is on expressions and lists of arguments together. -/

open Visit

/-- Checks in order are one check. -/
theorem liftExcept_bind {α β : Type} (known : Except SourceError α)
    (rest : α → Except SourceError β) :
    (liftExcept (known >>= rest) : Emit β) =
      liftExcept known >>= fun answer => liftExcept (rest answer) := by
  cases known <;> rfl

mutual

/-- **Visits generate what is lowered, and probe for what is known.** -/
theorem Expr.visit_agrees (site : Site) (scope : Scope) : (expression : Expr) →
    (expression.visit site scope).Agrees (expression.lower site scope) (expression.typed site scope)
      expression.position
  | .literal (.boolean value) position => .boolean position value
  | .literal (.int value) position | .literal (.long value) position
  | .literal (.float value) position | .literal (.double value) position
  | .literal (.char value) position | .literal (.string value) position
  | .literal .null position =>
    .ofValue position (.after (inert_literal _) fun _ => .pure _)
  | .name name position =>
    .ofQualifier (agrees_name site scope name position) (agrees_namePlace site scope name position)
  | .this position => by
    have kept : site.thisType "this" position = (site.thisType "this" position).map id := by
      cases site.thisType "this" position <;> rfl
    rw [Expr.typed, kept]
    exact .ofValue position (.checked fun type => .after (.instr _) fun _ => .pure type)
  | .member object name position =>
    .ofQualifier
      ((object.visit_agrees site scope).qualifier.bind fun front =>
        agrees_member site front name position)
      ((object.visit_agrees site scope).qualifier.bind fun front =>
        agrees_memberPlace site front name position)
  | .call none name arguments position =>
    .ofValue position ((probeArguments_agrees site scope arguments).bind fun types =>
      .checked fun method =>
        Visited.agrees_call (visitArguments_generates site scope arguments) .implicit)
  | .call (some callee) name arguments position =>
    .ofValue position ((callee.visit_agrees site scope).qualifier.bind fun front =>
      .check fun found _ => (probeArguments_agrees site scope arguments).bind fun types =>
        .checked fun method =>
          Visited.agrees_call (visitArguments_generates site scope arguments) found.2)
  | .new type arguments position =>
    .ofValue position (.check fun className _ =>
      (probeArguments_agrees site scope arguments).bind fun types => .check fun method _ =>
        Visited.agrees_new (visitArguments_generates site scope arguments) className)
  | .newArray element length position =>
    .ofValue position (.check fun element _ =>
      Visited.agrees_newArray (length.visit_agrees site scope) element length.position)
  | .index array index position =>
    .element (array.visit_agrees site scope) (index.visit_agrees site scope) position
  | .assign target op value position => by
    refine .ofWanted position ?_
    cases site.intVariable? scope target with
    | none =>
      exact Visited.agrees_assign (target.visit_agrees site scope) (value.visit_agrees site scope)
        op value position
    | some slot =>
      cases incrementBy? op value with
      | none =>
        exact Visited.agrees_assign (target.visit_agrees site scope)
          (value.visit_agrees site scope) op value position
      | some delta => exact Visited.agrees_increment slot delta
  | .update op isBefore target position => by
    refine .ofWanted position ?_
    cases site.intVariable? scope target with
    | none => exact Visited.agrees_update (target.visit_agrees site scope) op isBefore position
    | some slot => exact Visited.agrees_updateVariable op isBefore slot
  | .unary .not operand position =>
    .ofCondition position fun outcome => (operand.visit_agrees site scope).branches (!outcome)
  | .unary .minus operand position | .unary .plus operand position
  | .unary .complement operand position =>
    .ofValue position (Visited.agrees_unary (operand.visit_agrees site scope) _ position)
  | .binary (.compare wanted) left right position => by
    have whole := Visited.Agrees.ofCondition position
      (Visited.agrees_relation (left.visit_agrees site scope) (right.visit_agrees site scope) wanted
        right position)
    simp only [bind_assoc, pure_bind] at whole
    exact whole
  | .binary (.compute op) left right position => by
    rw [Expr.typed_binary]
    have value := Visited.agrees_binary (left.visit_agrees site scope)
      (right.visit_agrees site scope) op position
    exact { Visited.Agrees.ofValue position value with
      append := Visited.generates_appendBinary (left.visit_agrees site scope)
        (right.visit_agrees site scope) op position value.generates }
  | .logical op left right position => by
    have whole := Visited.Agrees.ofCondition position
      (agrees_branchesOf op (left.visit_agrees site scope).branches
        (right.visit_agrees site scope).branches)
    rw [bind_assoc] at whole
    exact whole
  | .conditional test first second position =>
    .ofValue position (Visited.agrees_conditional (test.visit_agrees site scope)
      (first.visit_agrees site scope) (second.visit_agrees site scope) position)
  | .cast type operand position =>
    .ofValue position (.check fun target _ =>
      Visited.agrees_cast (operand.visit_agrees site scope) target position)
  | .instanceOf operand type position =>
    .ofValue position (.check fun target _ =>
      Visited.agrees_instanceOf (operand.visit_agrees site scope) target position)

/-- Probes give the types that are known of arguments. -/
theorem probeArguments_agrees (site : Site) (scope : Scope) : (arguments : List Expr) →
    Visit.Agrees id (probeArguments site scope arguments)
      (liftExcept (argumentTypes site scope arguments)) (argumentTypes site scope arguments)
  | [] => .pure []
  | first :: rest => by
    rw [probeArguments, argumentTypes]
    simp only [liftExcept_bind]
    exact .probe (first.visit_agrees site scope).value.probes fun type _ => .check fun _ _ =>
      (probeArguments_agrees site scope rest).bind fun others => .pure (type :: others)

/-- Visits of arguments generate what is lowered. -/
theorem visitArguments_generates (site : Site) (scope : Scope) : (arguments : List Expr) →
    (parameters : List FieldType) → Generates (visitArguments site scope arguments parameters)
      (lowerArguments site scope arguments parameters)
  | [], _ => .pure ()
  | _ :: _, [] => .pure ()
  | first :: rest, parameter :: parameters =>
    (Visited.generates_argument (first.visit_agrees site scope) site.host first parameter).bind
      fun _ => visitArguments_generates site scope rest parameters

end

/-! ### Types that are found, and code that is generated

Finding the type of an expression changes nothing, and it gives the type of the value that the code of
the expression leaves. The other way round, code is generated for what has a type, but for the limits
of the class file and for operands of joined strings that have no value. -/

namespace Expr

variable {site : Site} {scope : Scope}

/-- Finding a type is a probe: it answers what is known, and leaves the visitor as it is. -/
theorem expressionType_run (site : Site) (scope : Scope) (expression : Expr) (visitor : Visitor) :
    (expression.expressionType site scope).run.run visitor =
      (expression.staticType site scope, visitor) := by
  obtain ⟨result, answered, isKnown⟩ :=
    (expression.visit_agrees site scope).value.probes { visitor with probing := true } rfl
  rw [expressionType, Visit.run_probe, answered,
    show expression.staticType site scope = result.map id from isKnown.symm]
  cases result <;> rfl

/-- **Probing is inert and agrees with generating.** Finding the type of an expression leaves the
generator, the loops around the expression and the mode of the visitor as they are, whether there is a
type or an error. Visiting the expression while the visitor generates is lowering it. And if visiting
it gives a value of a type, that is the type that is found. -/
theorem probing_inert (site : Site) (scope : Scope) (expression : Expr) (visitor : Visitor) :
    ((expression.expressionType site scope).run.run visitor).2 = visitor ∧
      (visitor.probing = false → (expression.visit site scope).value.run.run visitor =
        (expression.lower site scope).value.visited visitor) ∧
      ∀ type, ((expression.visit site scope).value.run.run visitor).1 = .ok type →
        ((expression.expressionType site scope).run.run visitor).1 = .ok type := by
  rw [expressionType_run]
  have agrees := (expression.visit_agrees site scope).value
  refine ⟨rfl, agrees.generates visitor, fun type visited => ?_⟩
  cases mode : visitor.probing with
  | false =>
    rw [agrees.generates visitor mode] at visited
    exact staticType_of_lower visited
  | true =>
    obtain ⟨result, answered, isKnown⟩ := agrees.probes visitor mode
    rw [answered] at visited
    cases visited
    exact isKnown.symm

/-- **What has a type is generated, unless a limit is reached or a joined operand has no value.** If
the type of an expression is found, generating its code from the same state leaves a value of the type,
and then no operand is without a value. Otherwise the class file does not hold the code, or generating
stops at one of the operands without a value. -/
theorem generates_of_typed {expression : Expr} {visitor : Visitor} {type : StaticType}
    (generating : visitor.probing = false)
    (typed : ((expression.expressionType site scope).run.run visitor).1 = .ok type) :
    (((expression.visit site scope).value.run.run visitor).1 = .ok type ∧
        expression.voidOperands site scope = []) ∨
      (∃ fault place, InternalFault.isLimit fault = true ∧
        ((expression.visit site scope).value.run.run visitor).1 =
          .error (notGenerated fault place)) ∨
      ∃ place ∈ expression.voidOperands site scope,
        ((expression.visit site scope).value.run.run visitor).1 =
          .error (mistyped .voidOperand (some place)) := by
  rw [expressionType_run] at typed
  rw [(expression.visit_agrees site scope).value.generates visitor generating]
  rcases (expression.foretold site scope).value visitor.generator with
    ⟨isKnown, none⟩ | ⟨error, failed, unforeseen⟩
  · rw [show (expression.typed site scope).value = _ from typed] at isKnown none
    exact .inl ⟨(id_map _).symm.trans isKnown, none rfl⟩
  · refine .inr ?_
    show (∃ fault place, _ ∧ (expression.lower site scope).value.result visitor.generator = _) ∨
      ∃ place ∈ _, (expression.lower site scope).value.result visitor.generator = _
    rw [failed]
    simpa using unforeseen.limit_or_void

/-- A static method of a class that has a static method `v` without a result. -/
def voidSite : Site where
  method := ⟨"Counter", "run", ⟨[], none⟩, true⟩
  host := { Host.detached with
    methods := fun owner name =>
      if owner = "Counter" ∧ name = "v" then [⟨"Counter", "v", ⟨[], none⟩, true, false⟩] else [] }

/-- A visitor that generates the first code of a method. -/
def startOfCode : Visitor := ⟨.ofPool voidSite.method .empty, [], false⟩

/-- What is joined to a string: `"a" + operand`. -/
def joined (operand : Expr) : Expr :=
  .binary (.compute (.arithmetic .add)) (.literal (.string "a") ⟨1, 1, 0⟩) operand ⟨1, 5, 4⟩

/-- The call `v()`. -/
def callOfVoid : Expr := .call none "v" [] ⟨1, 7, 6⟩

/-- `"a" + (true ? null : "a" + 1)` has a type, and it is generated. -/
theorem generates_of_typed_conditional :
    let operand := conditional (.literal (.boolean true) ⟨1, 6, 5⟩) (.literal .null ⟨1, 13, 12⟩)
      (joined (.literal (.int 1) ⟨1, 26, 25⟩)) ⟨1, 11, 10⟩
    startOfCode.probing = false ∧
      (((joined operand).expressionType voidSite (.root [])).run.run startOfCode).1 =
        .ok (.value .string) ∧
      (joined operand).voidOperands voidSite (.root []) = [] ∧
      ((((joined operand).visit voidSite (.root [])).value.run.run startOfCode).1 =
          .ok (.value .string) ∨
        ∃ fault place, InternalFault.isLimit fault = true ∧
          (((joined operand).visit voidSite (.root [])).value.run.run startOfCode).1 =
            .error (notGenerated fault place)) := by
  intro operand
  have typed : (((joined operand).expressionType voidSite (.root [])).run.run startOfCode).1 =
      .ok (.value .string) := rfl
  have none : (joined operand).voidOperands voidSite (.root []) = [] := by decide
  refine ⟨rfl, typed, none, ?_⟩
  rcases generates_of_typed rfl typed with ⟨generated, -⟩ | limit | ⟨place, isVoid, -⟩
  · exact .inl generated
  · exact .inr limit
  · exact absurd isVoid (none ▸ List.not_mem_nil)

/-- `"a" + v()` has a type, and it cannot be generated: its last operand has no value. -/
theorem typed_not_generated :
    (((joined callOfVoid).expressionType voidSite (.root [])).run.run startOfCode).1 =
        .ok (.value .string) ∧
      (((joined callOfVoid).visit voidSite (.root [])).value.run.run startOfCode).1 =
        .error (mistyped .voidOperand (some ⟨1, 7, 6⟩)) :=
  ⟨rfl, by decide +kernel⟩

end Expr

end MethodPatch
