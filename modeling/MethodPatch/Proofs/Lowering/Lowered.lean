/-
**What lowered expressions are meant to do.**

`Lowered.Means` relates the ways in which an expression is lowered to its meaning: code for the value
leaves the value on the stack, a condition branches away by it, and code for the effect alone leaves
the stack as it was. In each case the variables are what evaluation leaves them. Each shape of lowered
expressions means the expression if the code that it is made from does.

* `Means.ofValue`, `Means.ofCondition`, `Means.ofWanted`: the shapes of lowered expressions;
* `Generator.Performs.converted`, `Means.convertedTo`: values that are converted.
-/

import MethodPatch.Generator.Expr
import MethodPatch.Proofs.Lowering.Instrs
import MethodPatch.Proofs.Typing.Converts

namespace MethodPatch

namespace Expr

/-- The value of an expression is pushed on the stack. -/
def Pushes (types : Types) (expression : Expr) (situation final : Situation) : Prop :=
  ∃ value, expression.eval types situation.store = some (value, final.store) ∧
    final.stack = value.word :: situation.stack

/-- The value of an expression is converted and pushed on the stack. -/
def PushesAs (types : Types) (target : FieldType) (expression : Expr)
    (situation final : Situation) : Prop :=
  ∃ value, expression.eval types situation.store = some (value, final.store) ∧
    final.stack = (value.convert target).word :: situation.stack

/-- An expression is evaluated, and its value is not left. -/
def Effects (types : Types) (expression : Expr) (situation final : Situation) : Prop :=
  ∃ value, expression.eval types situation.store = some (value, final.store) ∧
    final.stack = situation.stack

/-- A condition branches away if it has the outcome. -/
def Answers (types : Types) (expression : Expr) (outcome : Bool) (situation : Situation)
    (leaves : Bool) (final : Situation) : Prop :=
  ∃ truth, expression.eval types situation.store = some (.boolean truth, final.store) ∧
    final.stack = situation.stack ∧ leaves = (truth == outcome)

end Expr

/-- Code that leaves the value of an expression, or nothing if the value is not wanted. -/
def Leaves (frame : Frame) (expression : Expr) (wanted : Bool) (action : Emit StaticType) : Prop :=
  ∀ {before type after}, Yields action before type after →
    ∃ result, type = .value result ∧ expression.scalarType? frame.types = some result ∧
      before.Performs frame (if wanted then expression.Pushes frame.types
        else expression.Effects frame.types) after

theorem Generator.Performs.leaves {frame : Frame} {expression : Expr} {wanted : Bool}
    {before after : Generator} {change : Situation → Situation → Prop}
    (performs : before.Performs frame change after)
    (related : ∀ situation value store, situation.store.Agrees frame.types →
      expression.eval frame.types situation.store = some (value, store) → change situation
        ⟨if wanted then value.word :: situation.stack else situation.stack, store⟩) :
    before.Performs frame (if wanted then expression.Pushes frame.types
      else expression.Effects frame.types) after := by
  refine performs.mono ?_
  cases wanted <;> rintro situation ⟨stack, store⟩ agrees ⟨value, evaluated, same⟩ <;>
    rw [show stack = _ from same] <;> exact related situation value store agrees evaluated

/-- Branches that are taken if a condition has the outcome. -/
def Settles (frame : Frame) (expression : Expr) (branches : Bool → Emit (List Nat)) : Prop :=
  ∀ {outcome before jumps after}, Yields (branches outcome) before jumps after →
    expression.scalarType? frame.types = some .boolean ∧
      before.Asks frame (expression.Answers frame.types outcome) jumps after

/-- The ways of lowering an expression do what the expression means. -/
structure Lowered.Means (lowered : Lowered) (frame : Frame) (expression : Expr) : Prop where
  value : Leaves frame expression true lowered.value
  branches : Settles frame expression lowered.branches
  effect : ∀ {before done after}, Yields lowered.effect before done after →
    before.Performs frame (expression.Effects frame.types) after

variable {frame : Frame} {expression : Expr} {known : String → Prop} {position : Position}

/-- Evaluation keeps the types of variables. -/
theorem Frame.Separate.eval_type (separate : frame.Separate) (isScalar : expression.IsScalar known)
    {store after : Store} {value : Scalar} {type : FieldType}
    (evaluated : expression.eval frame.types store = some (value, after))
    (typed : expression.scalarType? frame.types = some type) (agrees : store.Agrees frame.types) :
    value.type = type ∧ after.Agrees frame.types :=
  Expr.eval_type (fun _ _ => separate.isScalar) isScalar evaluated typed agrees

theorem Frame.Separate.isScalar_type (separate : frame.Separate)
    (isScalar : expression.IsScalar known) {type : FieldType}
    (typed : expression.scalarType? frame.types = some type) : type.isScalar = true :=
  Expr.isScalar_scalarType? (fun _ _ => separate.isScalar) isScalar typed

theorem Scalar.eq_boolean {value : Scalar} (isBoolean : value.type = .boolean) :
    ∃ truth, value = .boolean truth := by
  cases value <;> first | exact ⟨_, rfl⟩ | cases isBoolean

/-- The value of an expression is pushed and then converted. -/
theorem Generator.Performs.converted {before middle : Generator} {source target : FieldType}
    (performs : before.Performs frame (expression.Pushes frame.types) middle)
    (separate : frame.Separate) (isScalar : expression.IsScalar known)
    (typed : expression.scalarType? frame.types = some source)
    (converts : Convertible source target) :
    before.Performs frame (expression.PushesAs frame.types target)
      (middle.pushAll (conversion source target)) := by
  refine (performs.trans (.pushAll middle _)).mono ?_
  rintro situation ⟨stack, store⟩ agrees ⟨value, evaluated, same⟩
  obtain ⟨rfl, _⟩ := separate.eval_type isScalar evaluated typed agrees
  rw [show stack = _ from same]
  exact ⟨⟨value.word :: situation.stack, store⟩, ⟨value, evaluated, rfl⟩,
    Instr.changes_conversion value converts⟩

/-! ### Tests -/

theorem Test.takes_zero {comparison : Comparison} {word : Word} {number : Int} {stack : List Word}
    {store : Store} (isInt : word.type = .int) (isNumber : word.toInt = number) :
    (Test.zero comparison).Takes ⟨word :: stack, store⟩ (comparison.holds number 0)
      ⟨stack, store⟩ := by
  refine ⟨rfl, fun locals => ?_⟩
  simp [Test.decide, Data.popOf, Data.pop, isInt, isNumber]

theorem Test.takes_ints {comparison : Comparison} {left right : Word} {stack : List Word}
    {store : Store} (leftInt : left.type = .int) (rightInt : right.type = .int) :
    (Test.ints comparison).Takes ⟨right :: left :: stack, store⟩
      (comparison.holds left.toInt right.toInt) ⟨stack, store⟩ := by
  refine ⟨rfl, fun locals => ?_⟩
  simp [Test.decide, Data.popOf, Data.pop, leftInt, rightInt]

/-! ### Shapes -/

theorem settles_branchOnValue {value : Emit StaticType} (leaves : Leaves frame expression true value) :
    Settles frame expression (fun outcome => do
      Emit.branchOnValue (← value) position outcome) := by
  intro outcome before jumps after yields
  simp only [yields_bind, Emit.branchOnValue, yields_liftExcept, Emit.yields_branch,
    yields_pure] at yields
  obtain ⟨type, middle, yields, _, _, ⟨required, rfl⟩, _, _, ⟨rfl, rfl⟩, rfl, rfl⟩ := yields
  obtain ⟨result, rfl, typed, performs⟩ := leaves yields
  have isBoolean : StaticType.value result = .value .boolean := by
    unfold requireBoolean at required
    split at required
    · assumption
    · cases required
  cases isBoolean
  refine ⟨typed, (Generator.Asks.branch performs _).mono ?_⟩
  rintro situation _ ⟨stack, store⟩ _ ⟨truth, evaluated, same, rfl⟩
  refine ⟨⟨(Scalar.boolean truth).word :: situation.stack, store⟩, ⟨_, evaluated, rfl⟩, ?_⟩
  have taken : (truth == outcome) =
      (if outcome then Comparison.ne else .eq).holds truth.toInt 0 := by
    cases truth <;> cases outcome <;> rfl
  rw [taken, show stack = situation.stack from same]
  exact Test.takes_zero rfl (Scalar.toInt_word _)

namespace Lowered

theorem Means.ofValue (position : Position) (separate : frame.Separate)
    (isScalar : expression.IsScalar known) {value : Emit StaticType}
    (leaves : Leaves frame expression true value) :
    (Lowered.ofValue position value).Means frame expression where
  value := leaves
  branches := settles_branchOnValue leaves
  effect := by
    intro before done after yields
    simp only [Lowered.ofValue, yields_bind, Emit.yields_instrs] at yields
    obtain ⟨type, middle, yields, rfl⟩ := yields
    obtain ⟨result, rfl, typed, performs⟩ := leaves yields
    refine (performs.trans (.pushAll middle _)).mono ?_
    rintro situation ⟨stack, store⟩ agrees ⟨value, evaluated, same⟩
    obtain ⟨rfl, _⟩ := separate.eval_type isScalar evaluated typed agrees
    rw [show stack = situation.stack from same]
    exact ⟨⟨value.word :: situation.stack, store⟩, ⟨value, evaluated, rfl⟩,
      Instr.changes_drop value⟩

theorem Means.ofCondition (separate : frame.Separate) (isScalar : expression.IsScalar known)
    {branches : Bool → Emit (List Nat)} (settles : Settles frame expression branches) :
    (Lowered.ofCondition position branches).Means frame expression := by
  have leaves : Leaves frame expression true (Emit.booleanOf (branches false)) := by
    intro before type after yields
    simp only [Emit.booleanOf, yields_bind, Emit.yields_depth, Emit.yields_instr,
      Emit.yields_branch, Emit.yields_landHere, Emit.yields_setDepth, yields_pure] at yields
    obtain ⟨skips, _, condition, _, tested, ⟨rfl, rfl⟩, _, _, rfl, _, _, ⟨rfl, rfl⟩, _, _, rfl,
      _, _, rfl, _, _, rfl, _, _, rfl, rfl, rfl⟩ := yields
    obtain ⟨typed, asks⟩ := settles condition
    refine ⟨_, rfl, typed, (Generator.Performs.choice asks (.push tested (.iconst 1))
      (.push _ (.iconst 0))).mono ?_⟩
    rintro situation ⟨stack, store⟩ agrees ⟨value, evaluated, same⟩
    obtain ⟨isBoolean, _⟩ := separate.eval_type isScalar evaluated typed agrees
    obtain ⟨truth, rfl⟩ := Scalar.eq_boolean isBoolean
    rw [show stack = _ from same]
    refine ⟨!truth, ⟨situation.stack, store⟩, ⟨truth, evaluated, rfl, ?_⟩, ?_⟩
    · cases truth <;> rfl
    · cases truth <;> exact ⟨rfl, fun _ _ => rfl⟩
  exact { Means.ofValue position separate isScalar leaves with branches := settles }

theorem Means.ofWanted (separate : frame.Separate) (isScalar : expression.IsScalar known)
    {value : Bool → Emit StaticType} (leaves : ∀ wanted, Leaves frame expression wanted (value wanted)) :
    (Lowered.ofWanted position value).Means frame expression := by
  refine { Means.ofValue position separate isScalar (leaves true) with effect := ?_ }
  intro before done after yields
  simp only [Lowered.ofWanted, yields_bind, yields_pure] at yields
  obtain ⟨type, _, yields, _, rfl⟩ := yields
  obtain ⟨_, _, _, performs⟩ := leaves false yields
  exact performs

/-- A value is converted to the type of the result of which it is one possibility. -/
theorem Means.convertedTo {lowered : Lowered} {source target : FieldType}
    (means : lowered.Means frame expression) (separate : frame.Separate)
    (isScalar : expression.IsScalar known)
    (typed : expression.scalarType? frame.types = some source)
    (converts : Convertible source target) {before after : Generator} {done : Unit}
    (yields : Yields (lowered.convertedTo (.value target)) before done after) :
    before.Performs frame (expression.PushesAs frame.types target) after := by
  simp only [Lowered.convertedTo, yields_bind, Emit.yields_instrs] at yields
  obtain ⟨_, middle, yields, rfl⟩ := yields
  obtain ⟨_, rfl, sourceTyped, performs⟩ := means.value yields
  cases typed.symm.trans sourceTyped
  exact performs.converted separate isScalar typed converts

end Lowered

end MethodPatch
