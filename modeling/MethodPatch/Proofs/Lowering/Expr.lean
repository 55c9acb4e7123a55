/-
**Lowered expressions mean what they say.**

Lowering an expression over variables that the scope binds as a frame has them means the expression:
the machine, wherever the code stands, computes its value.

* `settles_branchesOf`, `leaves_compute`, `leaves_choice`: operators whose operands mean what they
  say;
* `Expr.means`: every way of lowering an expression;
* `Expr.lower_preserves`: what the machine does with the code.
-/

import MethodPatch.Proofs.Lowering.Types

namespace MethodPatch

variable {site : Site} {scope : Scope} {frame : Frame}

/-! ### Code -/

/-- Two conditions, of which the second may be left out. -/
theorem settles_branchesOf {op : LogicalOp} {left right : Expr} {first second : Lowered}
    {known : String → Prop} {position : Position} (separate : frame.Separate)
    (isLeft : left.IsScalar known) (meansLeft : first.Means frame left)
    (meansRight : second.Means frame right) :
    Settles frame (.logical op left right position)
      (Emit.branchesOf op first.branches second.branches) := by
  intro outcome before jumps after yields
  have evaluates : ∀ {situation final : Situation} {leaves : Bool},
      left.scalarType? frame.types = some .boolean → situation.store.Agrees frame.types →
      (Expr.logical op left right position).Answers frame.types outcome situation leaves final →
      final.stack = situation.stack ∧ ∃ decision middle,
        left.eval frame.types situation.store = some (.boolean decision, middle) ∧
          ((decision = op.decisive ∧ middle = final.store ∧ leaves = (decision == outcome)) ∨
            (decision ≠ op.decisive ∧ ∃ truth, leaves = (truth == outcome) ∧
              right.eval frame.types middle = some (.boolean truth, final.store))) := by
    rintro situation final leaves leftTyped agrees ⟨truth, evaluated, same, rfl⟩
    refine ⟨same, ?_⟩
    obtain ⟨first, middle, decision, isFirst, isDecision, outcome⟩ := Expr.eval_logical.mp evaluated
    obtain ⟨isBoolean, _⟩ := separate.eval_type isLeft isFirst leftTyped agrees
    obtain ⟨_, rfl⟩ := Scalar.eq_boolean isBoolean
    cases isDecision
    refine ⟨decision, middle, isFirst, ?_⟩
    rcases outcome with ⟨decides, isTruth, same⟩ | ⟨goesOn, isSecond⟩
    · cases isTruth
      exact .inl ⟨decides, same.symm, rfl⟩
    · exact .inr ⟨goesOn, truth, rfl, isSecond⟩
  simp only [Emit.branchesOf, yields_ite, yields_bind, Emit.yields_landHere, yields_pure] at yields
  obtain ⟨alike, _, _, isLeft, _, _, isRight, rfl, rfl⟩ |
    ⟨opposite, _, _, isLeft, _, _, isRight, _, _, rfl, rfl, rfl⟩ := yields
  · obtain ⟨leftTyped, asks⟩ := meansLeft.branches isLeft
    obtain ⟨rightTyped, behind⟩ := meansRight.branches isRight
    refine ⟨Expr.scalarType?_logical.mpr ⟨leftTyped, rightTyped, rfl⟩,
      (asks.either behind).mono ?_⟩
    rintro situation leaves ⟨stack, store⟩ agrees answers
    obtain ⟨same, decision, middle, evaluated, decides⟩ := evaluates leftTyped agrees answers
    rw [show stack = _ from same]
    have decisive : outcome = op.decisive := by
      cases op <;> cases outcome <;> first | rfl | simp at alike
    rcases decides with ⟨rfl, rfl, rfl⟩ | ⟨goesOn, truth, rfl, evaluatedBehind⟩
    · rw [decisive, beq_self_eq_true]
      exact .inl ⟨rfl, _, evaluated, rfl, by rw [beq_self_eq_true]⟩
    · refine .inr ⟨⟨situation.stack, middle⟩, ⟨_, evaluated, rfl, ?_⟩, truth, evaluatedBehind, rfl,
        rfl⟩
      rw [decisive]
      exact (beq_eq_false_iff_ne.mpr goesOn).symm
  · obtain ⟨leftTyped, asks⟩ := meansLeft.branches isLeft
    obtain ⟨rightTyped, behind⟩ := meansRight.branches isRight
    refine ⟨Expr.scalarType?_logical.mpr ⟨leftTyped, rightTyped, rfl⟩,
      (asks.skipping behind).mono ?_⟩
    rintro situation leaves ⟨stack, store⟩ agrees answers
    obtain ⟨same, decision, middle, evaluated, decides⟩ := evaluates leftTyped agrees answers
    rw [show stack = _ from same]
    have decisive : (!outcome) = op.decisive := by
      cases op <;> cases outcome <;> first | rfl | simp at opposite
    rcases decides with ⟨rfl, rfl, rfl⟩ | ⟨goesOn, truth, rfl, evaluatedBehind⟩
    · refine .inl ⟨?_, _, evaluated, rfl, ?_⟩
      · rw [← decisive]
        cases outcome <;> rfl
      · rw [decisive, beq_self_eq_true]
    · refine .inr ⟨⟨situation.stack, middle⟩, ⟨_, evaluated, rfl, ?_⟩, truth, evaluatedBehind, rfl,
        rfl⟩
      rw [decisive]
      exact (beq_eq_false_iff_ne.mpr goesOn).symm

/-- A truth value that is written. -/
theorem Lowered.Means.boolean (position : Position) (value : Bool) (separate : frame.Separate) :
    (Lowered.boolean position value).Means frame (.literal (.boolean value) position) := by
  have isScalar : (Expr.literal (.boolean value) position).IsScalar fun _ => True :=
    .literal position rfl
  have leaves : Leaves frame (.literal (.boolean value) position) true
      (do
        Emit.literal (.boolean value)
        return .value .boolean) := by
    intro before type after yields
    simp only [yields_bind, yields_pure] at yields
    obtain ⟨_, _, yields, rfl, rfl⟩ := yields
    refine ⟨_, rfl, rfl, (performs_literal rfl yields).leaves ?_⟩
    intro situation found store _ evaluated
    cases evaluated
    rfl
  refine { Means.ofValue position separate isScalar leaves with branches := ?_ }
  intro outcome before jumps after yields
  have evaluates : ∀ {situation final : Situation} {leaves : Bool},
      (Expr.literal (.boolean value) position).Answers frame.types outcome situation leaves final →
      leaves = (value == outcome) ∧ final = situation := by
    rintro situation ⟨stack, store⟩ leaves ⟨truth, evaluated, same, rfl⟩
    cases evaluated
    cases same
    exact ⟨rfl, rfl⟩
  simp only [Lowered.boolean, yields_ite, yields_bind, Emit.yields_branch, yields_pure] at yields
  obtain ⟨alike, _, _, ⟨rfl, rfl⟩, rfl, rfl⟩ | ⟨opposite, rfl, rfl⟩ := yields
  · refine ⟨rfl, (Generator.Asks.always before).mono ?_⟩
    rintro situation leaves final _ answers
    obtain ⟨rfl, rfl⟩ := evaluates answers
    exact ⟨by rw [alike, beq_self_eq_true], rfl⟩
  · refine ⟨rfl, (Generator.Asks.never _).mono ?_⟩
    rintro situation leaves final _ answers
    obtain ⟨rfl, rfl⟩ := evaluates answers
    exact ⟨beq_eq_false_iff_ne.mpr opposite, rfl⟩

/-- The value of a variable. -/
theorem leaves_name {identifier : String} {slot : Slot} {type : FieldType} {position : Position}
    {unknown : String → ReferenceFault} (separate : frame.Separate)
    (isVariable : frame identifier = some (slot, type))
    (names : site.Names scope identifier slot type) :
    Leaves frame (.name identifier position) true (do
      liftExcept ((← Emit.name site scope identifier position).asValue unknown position)) := by
  intro before found after yields
  have loads : Emit.name site scope identifier position = (do
      Emit.instr (.load type.storage slot)
      return .value (.value type)) := by
    rw [Emit.name, show site.nameUse? scope identifier = _ from names]
  simp only [loads, yields_bind, Emit.yields_instr, yields_pure, yields_liftExcept] at yields
  obtain ⟨_, _, ⟨_, _, rfl, rfl, rfl⟩, typed, rfl⟩ := yields
  cases typed
  refine ⟨type, rfl, Frame.types_eq isVariable,
    (performs_load separate isVariable before).leaves ?_⟩
  intro situation value store _ evaluated
  obtain ⟨isValue, rfl⟩ := Expr.eval_name.mp evaluated
  exact ⟨value, isValue, rfl⟩

/-- The negation of a condition is asked for by its opposite outcome. -/
theorem settles_not {operand : Expr} {lowered : Lowered} {position : Position}
    (means : lowered.Means frame operand) :
    Settles frame (.unary .not operand position) fun outcome => lowered.branches (!outcome) := by
  intro outcome before jumps after yields
  obtain ⟨typed, asks⟩ := means.branches yields
  refine ⟨Expr.scalarType?_not.mpr ⟨typed, rfl⟩, asks.mono ?_⟩
  rintro situation _ final _ ⟨truth, evaluated, same, rfl⟩
  obtain ⟨value, operand, isValue, isTruth, isNegation⟩ := Expr.eval_not.mp evaluated
  cases isNegation
  cases value <;> cases isTruth
  refine ⟨operand, isValue, same, ?_⟩
  cases operand <;> cases outcome <;> rfl

section Operators

variable {left right : Expr} {first second : Lowered} {known : String → Prop} {position : Position}

/-- An operator whose operands are lowered as they mean. -/
theorem leaves_compute {op : ComputeOp} (site : Site) (separate : frame.Separate)
    (total : op.isTotal = true)
    (isLeft : left.IsScalar (frame.Binds scope)) (isRight : right.IsScalar (frame.Binds scope))
    (meansLeft : first.Means frame left) (meansRight : second.Means frame right) :
    Leaves frame (.binary (.compute op) left right position) true (do
      let (leftType, rightType) ← liftExcept (do
        return (← left.staticType site scope, ← right.staticType site scope))
      if joinsStrings op leftType rightType then Lowered.joined first second
      else
        let plan ← liftExcept (computePlan op leftType rightType position)
        Lowered.compute plan first second) := by
  intro before found after yields
  simp only [yields_bind, yields_liftExcept, bind_eq_ok, pure_eq_ok] at yields
  obtain ⟨_, _, ⟨⟨_, isLeftType, _, isRightType, rfl⟩, rfl⟩, yields⟩ := yields
  obtain ⟨leftType, rfl, leftTyped⟩ := Expr.scalarType?_of_staticType separate isLeft isLeftType
  obtain ⟨rightType, rfl, rightTyped⟩ := Expr.scalarType?_of_staticType separate isRight isRightType
  simp only [joinsStrings_scalar (separate.isScalar_type isLeft leftTyped)
    (separate.isScalar_type isRight rightTyped), Bool.false_eq_true, if_false,
    yields_bind, yields_liftExcept] at yields
  obtain ⟨plan, _, ⟨planned, rfl⟩, yields⟩ := yields
  exact Lowered.leaves_compute separate isLeft isRight total meansLeft meansRight leftTyped
    rightTyped (computePlan_eq planned) yields

/-- A relation whose operands are lowered as they mean. -/
theorem settles_compare {comparison : Comparison} (separate : frame.Separate)
    (isLeft : left.IsScalar (frame.Binds scope)) (isRight : right.IsScalar (frame.Binds scope))
    (meansLeft : first.Means frame left) (meansRight : second.Means frame right) :
    Settles frame (.binary (.compare comparison) left right position) fun outcome => do
      let leftType ← liftExcept (left.staticType site scope)
      let rightType ← liftExcept (right.staticType site scope)
      let plan ← liftExcept (comparisonPlan comparison leftType rightType position)
      return [← Lowered.comparison comparison plan right first second outcome] := by
  intro outcome before jumps after yields
  simp only [yields_bind, yields_liftExcept, yields_pure] at yields
  obtain ⟨_, _, ⟨isLeftType, rfl⟩, _, _, ⟨isRightType, rfl⟩, plan, _, ⟨planned, rfl⟩, branch, _,
    compared, rfl, rfl⟩ := yields
  obtain ⟨leftType, rfl, leftTyped⟩ := Expr.scalarType?_of_staticType separate isLeft isLeftType
  obtain ⟨rightType, rfl, rightTyped⟩ := Expr.scalarType?_of_staticType separate isRight isRightType
  obtain ⟨compares, asks⟩ := Lowered.settles_comparison separate isLeft isRight meansLeft
    meansRight leftTyped rightTyped (comparisonPlan_eq planned) compared
  exact ⟨Expr.scalarType?_compare.mpr ⟨leftType, rightType, leftTyped, rightTyped, compares, rfl⟩,
    asks⟩

/-- A conditional whose parts are lowered as they mean. -/
theorem leaves_choice {test : Expr} {decides : Lowered} (separate : frame.Separate)
    (isTest : test.IsScalar (frame.Binds scope)) (isLeft : left.IsScalar (frame.Binds scope))
    (isRight : right.IsScalar (frame.Binds scope)) (meansTest : decides.Means frame test)
    (meansLeft : first.Means frame left) (meansRight : second.Means frame right) :
    Leaves frame (.conditional test left right position) true (do
      let firstType ← liftExcept (left.staticType site scope)
      let secondType ← liftExcept (right.staticType site scope)
      let type ← liftExcept (site.host.conditionalType firstType secondType position)
      Lowered.conditional decides first second type) := by
  intro before found after yields
  simp only [yields_bind, yields_liftExcept] at yields
  obtain ⟨_, _, ⟨isLeftType, rfl⟩, _, _, ⟨isRightType, rfl⟩, type, _, ⟨isCommon, rfl⟩, yields⟩ :=
    yields
  obtain ⟨leftType, rfl, leftTyped⟩ := Expr.scalarType?_of_staticType separate isLeft isLeftType
  obtain ⟨rightType, rfl, rightTyped⟩ := Expr.scalarType?_of_staticType separate isRight isRightType
  obtain ⟨result, rfl, isOutcome⟩ := outcomeType?_of_conditional
    (separate.isScalar_type isLeft leftTyped) (separate.isScalar_type isRight rightTyped)
    (conditionalType_eq isCommon)
  exact Lowered.leaves_conditional separate isTest isLeft isRight meansTest meansLeft meansRight
    leftTyped rightTyped isOutcome yields

/-- A cast whose operand is lowered as it means. -/
theorem leaves_castTo {operand : Expr} {lowered : Lowered} {written : TypeRef} {target : FieldType}
    (separate : frame.Separate) (isOperand : operand.IsScalar known)
    (isIntegral : written.integral? = some target) (means : lowered.Means frame operand) :
    Leaves frame (.cast written operand position) true (do
      let target ← liftExcept (site.host.typeOf written)
      Lowered.cast site target lowered position) := by
  intro before found after yields
  simp only [yields_bind, yields_liftExcept, Host.typeOf_integral isIntegral] at yields
  obtain ⟨_, _, ⟨same, rfl⟩, yields⟩ := yields
  cases same
  exact Lowered.leaves_cast separate isOperand isIntegral means yields

end Operators

/-- A name is lowered to the place of its variable. -/
theorem Lowered.isVariable_of_binding {identifier : String} {slot : Slot} {type : FieldType}
    (place : Position) (isVariable : frame identifier = some (slot, type))
    (bound : scope.binding? identifier = some (slot, type)) :
    ((Expr.name identifier place).lower site scope).IsVariable frame identifier slot type :=
  ⟨isVariable, fun yields => yields_namePlace (Site.names_of_binding bound) yields⟩

/-- **Lowered expressions mean what they say.** -/
theorem Expr.means (site : Site) (separate : frame.Separate) {expression : Expr}
    (isScalar : expression.IsScalar (frame.Binds scope)) :
    (expression.lower site scope).Means frame expression := by
  induction isScalar with
  | @literal value constant position isConstant =>
    have isScalar : (Expr.literal value position).IsScalar (frame.Binds scope) :=
      .literal position isConstant
    have leaves : Leaves frame (.literal value position) true
        (do
          Emit.literal value
          return value.type) := by
      intro before type after yields
      simp only [yields_bind, yields_pure] at yields
      obtain ⟨_, _, yields, rfl, rfl⟩ := yields
      have typed : value.type = .value constant.type := by
        cases value <;> cases isConstant <;> rfl
      refine ⟨constant.type, typed, scalarType?_literal isConstant,
        (performs_literal isConstant yields).leaves ?_⟩
      intro situation found store _ evaluated
      rw [eval_literal isConstant] at evaluated
      cases evaluated
      rfl
    cases value with
    | boolean value => exact .boolean position value separate
    | int | long | char => exact .ofValue position separate isScalar leaves
    | float | double | string | null => cases isConstant
  | @name identifier position known =>
    have isScalar := IsScalar.name position known
    obtain ⟨slot, type, isVariable, bound⟩ := known
    have leaves : Leaves frame (.name identifier position) true (do
        liftExcept ((← Emit.name site scope identifier position).asValue .unknownVariable
          position)) := leaves_name separate isVariable (Site.names_of_binding bound)
    have means := Lowered.Means.ofValue position separate isScalar leaves
    exact ⟨means.value, means.branches, means.effect⟩
  | assign place position known isSource ih =>
    have isScalar := IsScalar.assign place position known isSource
    obtain ⟨slot, type, isVariable, bound⟩ := known
    refine Lowered.Means.ofWanted separate isScalar fun wanted => ?_
    split
    · next inPlace =>
      obtain ⟨_, _, _, absurd, _⟩ := incrementBy?_eq inPlace
      cases absurd
    · exact Lowered.leaves_assign separate isSource
        (Lowered.isVariable_of_binding place isVariable bound) ih
  | compound place position known total isSource ih =>
    have isScalar := IsScalar.compound place position known total isSource
    obtain ⟨slot, type, isVariable, bound⟩ := known
    refine Lowered.Means.ofWanted separate isScalar fun wanted => ?_
    split
    · next inInt inPlace =>
      rw [Site.intVariable?_of_binding bound] at inInt
      obtain ⟨rfl, same⟩ := Option.ite_none_right_eq_some.mp inInt
      cases same
      exact Lowered.leaves_increment separate isVariable inPlace
    · exact Lowered.leaves_compound separate isSource total
        (Lowered.isVariable_of_binding place isVariable bound) ih
        fun found typed => scalarType?_of_staticType separate isSource typed
  | update op before place position known =>
    have isScalar := IsScalar.update op before place position known
    obtain ⟨slot, type, isVariable, bound⟩ := known
    refine Lowered.Means.ofWanted separate isScalar fun wanted => ?_
    split
    · next inInt =>
      rw [Site.intVariable?_of_binding bound] at inInt
      obtain ⟨rfl, same⟩ := Option.ite_none_right_eq_some.mp inInt
      cases same
      exact Lowered.leaves_updateVariable separate isVariable
    · exact Lowered.leaves_update separate (Lowered.isVariable_of_binding place isVariable bound)
  | not position isOperand ih =>
    exact .ofCondition separate (.not position isOperand) (settles_not ih)
  | @unary op operand position isNumeric isOperand ih =>
    have means := Lowered.Means.ofValue position separate
      (IsScalar.unary position isNumeric isOperand)
      (Lowered.leaves_unary separate isOperand isNumeric ih)
    cases op with
    | not => exact absurd rfl isNumeric
    | plus | minus | complement => exact means
  | compute position total isLeft isRight ihLeft ihRight =>
    have means := Lowered.Means.ofValue position separate
      (IsScalar.compute position total isLeft isRight)
      (leaves_compute site separate total isLeft isRight ihLeft ihRight)
    exact ⟨means.value, means.branches, means.effect⟩
  | compare comparison position isLeft isRight ihLeft ihRight =>
    exact .ofCondition separate (.compare comparison position isLeft isRight)
      (settles_compare separate isLeft isRight ihLeft ihRight)
  | logical op position isLeft isRight ihLeft ihRight =>
    exact .ofCondition separate (.logical op position isLeft isRight)
      (settles_branchesOf separate isLeft ihLeft ihRight)
  | conditional position isTest isFirst isSecond ihTest ihFirst ihSecond =>
    exact .ofValue position separate (.conditional position isTest isFirst isSecond)
      (leaves_choice separate isTest isFirst isSecond ihTest ihFirst ihSecond)
  | cast position isIntegral isOperand ih =>
    exact .ofValue position separate (.cast position isIntegral isOperand)
      (leaves_castTo separate isOperand isIntegral ih)

/-! ### Runs -/

/-- **Lowering preserves what expressions mean.** Code for the value of an expression pushes the
value that evaluation gives, of the type that is known for it, and code for a condition leaves
through its branches exactly if evaluation gives the outcome. The rest of the stack stays, the
variables become what evaluation leaves in them, and other slots keep what they hold. -/
theorem Expr.lower_preserves (site : Site) (separate : frame.Separate) {expression : Expr}
    (isScalar : expression.IsScalar (frame.Binds scope)) {store : Store} {locals : Locals}
    (total : store.IsTotal frame.types) (holds : frame.Holds store locals) {before : Generator}
    (fits : before.body.pool.Fits) (stack : List Word) :
    (∀ type after, Yields (expression.lower site scope).value before type after →
      ∃ value final behind, type = .value value.type ∧
        expression.eval frame.types store = some (value, final) ∧
        frame.Holds final behind ∧ frame.Keeps locals behind ∧
        Reaches after.instrs after.body.pool before.size after.size
          ⟨before.size, ⟨stack, locals⟩⟩ ⟨after.size, ⟨value.word :: stack, behind⟩⟩) ∧
    ∀ outcome branches after,
      Yields ((expression.lower site scope).branches outcome) before branches after →
      ∃ truth final, expression.eval frame.types store = some (.boolean truth, final) ∧
        ∀ target, ∃ behind, frame.Holds final behind ∧ frame.Keeps locals behind ∧
          Reaches (after.land branches target).instrs after.body.pool before.size after.size
            ⟨before.size, ⟨stack, locals⟩⟩
            ⟨if truth = outcome then target else after.size, ⟨stack, behind⟩⟩ := by
  have scalars : ∀ name type, frame.types name = some type → type.isScalar = true :=
    fun _ _ => separate.isScalar
  have means := Expr.means site separate isScalar
  have begun : frame.Holds (Situation.mk stack store).store locals := holds
  constructor
  · intro type after yields
    obtain ⟨result, rfl, typed, performs⟩ := means.value yields
    obtain ⟨value, final, evaluated, _⟩ :=
      Expr.eval_eq_some scalars isScalar typed holds.agrees total
    obtain ⟨rfl, _⟩ := separate.eval_type isScalar evaluated typed holds.agrees
    have pushes : expression.Pushes frame.types ⟨stack, store⟩ ⟨value.word :: stack, final⟩ :=
      ⟨value, evaluated, rfl⟩
    obtain ⟨behind, holds, keeps, reaches⟩ := performs.reaches fits begun pushes
    exact ⟨value, final, behind, rfl, evaluated, holds, keeps, reaches⟩
  · intro outcome branches after yields
    obtain ⟨typed, asks⟩ := means.branches yields
    obtain ⟨value, final, evaluated, _⟩ :=
      Expr.eval_eq_some scalars isScalar typed holds.agrees total
    obtain ⟨isBoolean, _⟩ := separate.eval_type isScalar evaluated typed holds.agrees
    obtain ⟨truth, rfl⟩ := Scalar.eq_boolean isBoolean
    have answers : expression.Answers frame.types outcome ⟨stack, store⟩ (truth == outcome)
        ⟨stack, final⟩ := ⟨truth, evaluated, rfl, rfl⟩
    refine ⟨truth, final, evaluated, fun target => ?_⟩
    obtain ⟨behind, holds, keeps, reaches⟩ := asks.reaches fits begun answers target
    simp only [beq_iff_eq] at reaches
    exact ⟨behind, holds, keeps, reaches⟩

/-- A `byte` in slot 0 and a `long` in slots 1 and 2. -/
def wrappingFrame : Frame := fun name =>
  if name = "b" then some (0, .byte) else if name = "x" then some (1, .long) else none

def wrappingScope : Scope := .root [.bound "b" 0 .byte, .bound "x" 1 .long]

/-- The relation `(b += x++ * 100000L) < 40`. -/
def wrapping : Expr :=
  let origin : Position := ⟨1, 1, 0⟩
  .binary (.compare .lt)
    (.assign (.name "b" origin) (some (.arithmetic .add))
      (.binary (.compute (.arithmetic .mul)) (.update .increment false (.name "x" origin) origin)
        (.literal (.long 100000) origin) origin) origin)
    (.literal (.int 40) origin) origin

def wrappingStore : Store := fun name =>
  if name = "b" then some (.byte 7) else if name = "x" then some (.long 5) else none

def wrappingLocals : Locals := fun slot =>
  match slot with
  | 0 => some (.word (.int 7))
  | 1 => some (.word (.long 5))
  | 2 => some .upper
  | _ => none

theorem wrappingFrame_cases {name : String} {slot : Slot} {type : FieldType}
    (isVariable : wrappingFrame name = some (slot, type)) :
    (name = "b" ∧ slot = 0 ∧ type = .byte) ∨ (name = "x" ∧ slot = 1 ∧ type = .long) := by
  unfold wrappingFrame at isVariable
  split at isVariable
  · next isByte =>
    cases isVariable
    exact .inl ⟨isByte, rfl, rfl⟩
  · split at isVariable
    · next isLong =>
      cases isVariable
      exact .inr ⟨isLong, rfl, rfl⟩
    · cases isVariable

theorem separate_wrapping : wrappingFrame.Separate where
  scalars := by
    intro name slot type isVariable
    obtain ⟨_, _, rfl⟩ | ⟨_, _, rfl⟩ := wrappingFrame_cases isVariable <;> rfl
  disjoint := by
    intro first second slot type otherSlot otherType different isFirst isSecond
    obtain ⟨rfl, rfl, rfl⟩ | ⟨rfl, rfl, rfl⟩ := wrappingFrame_cases isFirst <;>
      obtain ⟨rfl, rfl, rfl⟩ | ⟨rfl, rfl, rfl⟩ := wrappingFrame_cases isSecond
    · exact absurd rfl different
    · exact .inl (by decide)
    · exact .inr (by decide)
    · exact absurd rfl different

theorem isScalar_wrapping : wrapping.IsScalar (wrappingFrame.Binds wrappingScope) :=
  .compare _ _
    (.compound _ _ ⟨0, .byte, rfl, rfl⟩ rfl
      (.compute _ rfl (.update _ _ _ _ ⟨1, .long, rfl, rfl⟩) (.literal _ rfl)))
    (.literal _ rfl)

theorem total_wrapping : wrappingStore.IsTotal wrappingFrame.types := by
  intro name isTyped
  obtain ⟨type, typed⟩ := Option.isSome_iff_exists.mp isTyped
  obtain ⟨⟨slot, _⟩, isVariable, rfl⟩ := Option.map_eq_some_iff.mp typed
  obtain ⟨rfl, _, _⟩ | ⟨rfl, _, _⟩ := wrappingFrame_cases isVariable <;> rfl

theorem holds_wrapping : wrappingFrame.Holds wrappingStore wrappingLocals where
  agrees := by
    intro name value isValue
    unfold wrappingStore at isValue
    split at isValue
    · next same =>
      cases isValue
      rw [same]
      rfl
    · split at isValue
      · next same =>
        cases isValue
        rw [same]
        rfl
      · cases isValue
  loads := by
    intro name slot type value isVariable isValue
    obtain ⟨rfl, rfl, rfl⟩ | ⟨rfl, rfl, rfl⟩ := wrappingFrame_cases isVariable <;>
      cases isValue <;> rfl

/-- The sum 500007 wraps around to 39, the `long` is one more, and the relation holds: its value is
pushed, and a branch that waits for this outcome is taken. -/
theorem Expr.lower_preserves_wrapping :
    wrappingFrame.Separate ∧ wrapping.IsScalar (wrappingFrame.Binds wrappingScope) ∧
      wrappingStore.IsTotal wrappingFrame.types ∧
      wrappingFrame.Holds wrappingStore wrappingLocals ∧ Pool.empty.Fits ∧
      (∃ after behind, Yields (wrapping.lower .detached wrappingScope).value
          (.ofPool .detached .empty) (.value .boolean) after ∧
        behind.load 0 .int = some (.int 39) ∧ behind.load 1 .long = some (.long 6) ∧
        Reaches after.instrs after.body.pool 0 after.size ⟨0, ⟨[.long 1], wrappingLocals⟩⟩
          ⟨after.size, ⟨[.int 1, .long 1], behind⟩⟩) ∧
      ∃ branches after behind, Yields ((wrapping.lower .detached wrappingScope).branches true)
          (.ofPool .detached .empty) branches after ∧
        behind.load 0 .int = some (.int 39) ∧ behind.load 1 .long = some (.long 6) ∧
        Reaches (after.land branches 1000).instrs after.body.pool 0 after.size
          ⟨0, ⟨[.long 1], wrappingLocals⟩⟩ ⟨1000, ⟨[.long 1], behind⟩⟩ := by
  have fits : (Generator.ofPool .detached .empty).body.pool.Fits := Pool.fits_ofReserved 1
  obtain ⟨values, conditions⟩ := Expr.lower_preserves .detached separate_wrapping isScalar_wrapping
    total_wrapping holds_wrapping fits [.long 1]
  refine ⟨separate_wrapping, isScalar_wrapping, total_wrapping, holds_wrapping, fits, ?_, ?_⟩
  · obtain ⟨value, final, behind, _, evaluated, holds, _, reaches⟩ := values (.value .boolean) _ rfl
    cases evaluated
    exact ⟨_, behind, rfl, holds.loads "b" 0 .byte (.byte 39) rfl rfl,
      holds.loads "x" 1 .long (.long 6) rfl rfl, reaches⟩
  · obtain ⟨truth, final, evaluated, leaves⟩ := conditions true _ _ rfl
    cases evaluated
    obtain ⟨behind, holds, _, reaches⟩ := leaves 1000
    exact ⟨_, _, behind, rfl, holds.loads "b" 0 .byte (.byte 39) rfl rfl,
      holds.loads "x" 1 .long (.long 6) rfl rfl, reaches⟩

end MethodPatch
