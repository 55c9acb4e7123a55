/-
**What expressions mean.**

The meaning of expressions over local variables: their types, and their values with what they leave
in the variables. Operands are evaluated from the left to the right, and some not at all.

* `Expr.IsScalar`: expressions of truth values and whole numbers over some names;
* `Expr.scalarType?`: the type of an expression, if it has one;
* `Expr.eval`: the value of an expression and the variables behind it;
* `Expr.scalarType?_assign`, `Expr.eval_assign` and their like: a rule for each kind of expression.
-/

import MethodPatch.Proofs.Meaning.Scalar

namespace MethodPatch

/-- The types of local variables by their names. -/
abbrev Types := String → Option FieldType

/-- The values of local variables by their names. -/
abbrev Store := String → Option Scalar

/-- The store with another value of a name. -/
def Store.set (store : Store) (name : String) (value : Scalar) : Store := fun other =>
  if other = name then some value else store other

/-- The value of a literal that is a truth value or a whole number. -/
def Literal.scalar? : Literal → Option Scalar
  | .int value => some (.int value)
  | .long value => some (.long value)
  | .char unit => some (.char unit)
  | .boolean value => some (.boolean value)
  | .float _ | .double _ | .string _ | .null => none

/-- The truth value of a left operand after which the right one is not evaluated. -/
def LogicalOp.decisive : LogicalOp → Bool
  | .and => false
  | .or => true

/-- Operators other than division. -/
def ComputeOp.isTotal : ComputeOp → Bool
  | .arithmetic .div | .arithmetic .rem => false
  | _ => true

/-- The type that is written, if it is one of whole numbers. -/
def TypeRef.integral? (type : TypeRef) : Option FieldType :=
  match type.base, type.dimensions with
  | .primitive element, 0 => if element.isIntegral then some element else none
  | _, _ => none

namespace Expr

/-- Expressions that compute truth values and whole numbers, without division, and store them in
variables. -/
inductive IsScalar (isVariable : String → Prop) : Expr → Prop
  | literal {value : Literal} {constant : Scalar} (position : Position)
    (isConstant : value.scalar? = some constant) : IsScalar isVariable (.literal value position)
  | name {identifier : String} (position : Position) (known : isVariable identifier) :
    IsScalar isVariable (.name identifier position)
  | assign {identifier : String} {source : Expr} (place position : Position)
    (known : isVariable identifier) (isSource : IsScalar isVariable source) :
    IsScalar isVariable (.assign (.name identifier place) none source position)
  | compound {identifier : String} {op : ComputeOp} {source : Expr} (place position : Position)
    (known : isVariable identifier) (total : op.isTotal = true)
    (isSource : IsScalar isVariable source) :
    IsScalar isVariable (.assign (.name identifier place) (some op) source position)
  | update {identifier : String} (op : UpdateOp) (before : Bool) (place position : Position)
    (known : isVariable identifier) :
    IsScalar isVariable (.update op before (.name identifier place) position)
  | not {operand : Expr} (position : Position) (isOperand : IsScalar isVariable operand) :
    IsScalar isVariable (.unary .not operand position)
  | unary {op : UnaryOp} {operand : Expr} (position : Position) (isNumeric : op ≠ .not)
    (isOperand : IsScalar isVariable operand) : IsScalar isVariable (.unary op operand position)
  | compute {op : ComputeOp} {left right : Expr} (position : Position) (total : op.isTotal = true)
    (isLeft : IsScalar isVariable left) (isRight : IsScalar isVariable right) :
    IsScalar isVariable (.binary (.compute op) left right position)
  | compare {left right : Expr} (comparison : Comparison) (position : Position)
    (isLeft : IsScalar isVariable left) (isRight : IsScalar isVariable right) :
    IsScalar isVariable (.binary (.compare comparison) left right position)
  | logical {left right : Expr} (op : LogicalOp) (position : Position)
    (isLeft : IsScalar isVariable left) (isRight : IsScalar isVariable right) :
    IsScalar isVariable (.logical op left right position)
  | conditional {test first second : Expr} (position : Position)
    (isTest : IsScalar isVariable test) (isFirst : IsScalar isVariable first)
    (isSecond : IsScalar isVariable second) :
    IsScalar isVariable (.conditional test first second position)
  | cast {written : TypeRef} {operand : Expr} {type : FieldType} (position : Position)
    (isIntegral : written.integral? = some type) (isOperand : IsScalar isVariable operand) :
    IsScalar isVariable (.cast written operand position)

/-- Whether an expression of a type can be stored in a variable of another: the type is the same or
wider, or the expression is a constant that fits. -/
def isStorable (value : Expr) (source target : FieldType) : Bool :=
  source = target || widens source target ||
    (source.promoted? = some .int && value.intConstant?.any (constantFits · target))

/-- The type of the two outcomes of a conditional. -/
def outcomeType? (first second : FieldType) : Option FieldType :=
  if first = second then some first else (joined? first second).map Integral.type

/-- The type of an expression. -/
def scalarType? (types : Types) : Expr → Option FieldType
  | .literal value _ => value.scalar?.map Scalar.type
  | .name identifier _ => types identifier
  | .assign (.name identifier _) none value _ => do
    let target ← types identifier
    let source ← value.scalarType? types
    if value.isStorable source target then some target else none
  | .assign (.name identifier _) (some op) value _ => do
    let target ← types identifier
    let source ← value.scalarType? types
    let _ ← op.type? target source
    some target
  | .update _ _ (.name identifier _) _ => do
    let target ← types identifier
    let _ ← target.promoted?
    some target
  | .unary .not operand _ =>
    if operand.scalarType? types = some .boolean then some .boolean else none
  | .unary _ operand _ => do
    let source ← operand.scalarType? types
    source.promoted?.map Integral.type
  | .binary (.compute op) left right _ => do
    let first ← left.scalarType? types
    let second ← right.scalarType? types
    op.type? first second
  | .binary (.compare comparison) left right _ => do
    let first ← left.scalarType? types
    let second ← right.scalarType? types
    if comparable comparison first second then some .boolean else none
  | .logical _ left right _ =>
    if left.scalarType? types = some .boolean ∧ right.scalarType? types = some .boolean then
      some .boolean
    else none
  | .conditional test first second _ => do
    let first ← first.scalarType? types
    let second ← second.scalarType? types
    if test.scalarType? types = some .boolean then outcomeType? first second else none
  | .cast type operand _ => do
    let target ← type.integral?
    let source ← operand.scalarType? types
    if source.isIntegral then some target else none
  | _ => none

/-- The value of an expression, and the variables as they are then. -/
def eval (types : Types) : Expr → Store → Option (Scalar × Store)
  | .literal value _, store => do return (← value.scalar?, store)
  | .name identifier _, store => do return (← store identifier, store)
  | .assign (.name identifier _) none value _, store => do
    let (result, store) ← value.eval types store
    let stored := result.convert (← types identifier)
    return (stored, store.set identifier stored)
  | .assign (.name identifier _) (some op) value _, store => do
    let old ← store identifier
    let (result, store) ← value.eval types store
    let stored := (← Scalar.compute op old result).convert (← types identifier)
    return (stored, store.set identifier stored)
  | .update op before (.name identifier _) _, store => do
    let old ← store identifier
    let new ← old.updated op
    return (if before then new else old, store.set identifier new)
  | .unary .not operand _, store => do
    let (result, store) ← operand.eval types store
    return (.boolean !(← result.truth?), store)
  | .unary op operand _, store => do
    let (result, store) ← operand.eval types store
    return (← result.unary op, store)
  | .binary (.compute op) left right _, store => do
    let (first, store) ← left.eval types store
    let (second, store) ← right.eval types store
    return (← Scalar.compute op first second, store)
  | .binary (.compare comparison) left right _, store => do
    let (first, store) ← left.eval types store
    let (second, store) ← right.eval types store
    return (.boolean (← Scalar.compare comparison first second), store)
  | .logical op left right _, store => do
    let (first, store) ← left.eval types store
    let decision ← first.truth?
    if decision = op.decisive then some (first, store) else right.eval types store
  | .conditional test first second position, store => do
    let type ← (conditional test first second position).scalarType? types
    let (decision, store) ← test.eval types store
    let decision ← decision.truth?
    (if decision then first.eval types store else second.eval types store).map
      fun (result, store) => (result.convert type, store)
  | .cast type operand _, store => do
    let (result, store) ← operand.eval types store
    return (result.convert (← type.integral?), store)
  | _, _ => none

end Expr

theorem TypeRef.isIntegral_of_integral {written : TypeRef} {type : FieldType}
    (isIntegral : written.integral? = some type) : type.isIntegral = true := by
  unfold integral? at isIntegral
  split at isIntegral
  · simp only [Option.ite_none_right_eq_some, Option.some.injEq] at isIntegral
    obtain ⟨isIntegral, rfl⟩ := isIntegral
    exact isIntegral
  · cases isIntegral

theorem TypeRef.isScalar_of_integral {written : TypeRef} {type : FieldType}
    (isIntegral : written.integral? = some type) : type.isScalar = true := by
  rw [FieldType.isScalar, isIntegral_of_integral isIntegral, Bool.or_true]

/-! ### Types of stored values -/

/-- The values of the names have their types. -/
def Store.Agrees (store : Store) (types : Types) : Prop :=
  ∀ (name : String) (value : Scalar), store name = some value → types name = some value.type

/-- Every name that has a type has a value. -/
def Store.IsTotal (store : Store) (types : Types) : Prop :=
  ∀ name : String, (types name).isSome = true → (store name).isSome = true

namespace Store

variable {store : Store} {types : Types} {name : String} {value : Scalar}

theorem set_self : store.set name value name = some value := if_pos rfl

theorem set_other {other : String} (different : other ≠ name) :
    store.set name value other = store other := if_neg different

theorem set_set {again : Scalar} : (store.set name value).set name again = store.set name again := by
  funext other
  unfold set
  split <;> rfl

theorem Agrees.set (agrees : store.Agrees types) (typed : types name = some value.type) :
    (store.set name value).Agrees types := by
  intro other found isFound
  by_cases same : other = name
  · subst same
    rw [set_self] at isFound
    cases isFound
    exact typed
  · rw [set_other same] at isFound
    exact agrees other found isFound

theorem Agrees.type_eq {type : FieldType} (agrees : store.Agrees types)
    (typed : types name = some type) (isValue : store name = some value) : value.type = type := by
  have same := agrees name value isValue
  rw [typed] at same
  exact (Option.some.inj same).symm

theorem IsTotal.eq_some {type : FieldType} (total : store.IsTotal types)
    (typed : types name = some type) : ∃ value, store name = some value :=
  Option.isSome_iff_exists.mp (total name (by rw [typed]; rfl))

theorem IsTotal.set (total : store.IsTotal types) : (store.set name value).IsTotal types := by
  intro other isTyped
  by_cases same : other = name
  · subst same
    rw [set_self]
    rfl
  · rw [set_other same]
    exact total other isTyped

end Store

namespace Expr

/-! ### Rules

One rule for each kind of expression, for its type and for its value. Proofs use the rules and unfold
neither definition. -/

section Rules

variable {types : Types} {identifier : String} {place position : Position} {isBefore : Bool}
  {source operand left right test first second : Expr} {type : FieldType} {store after : Store}
  {value : Scalar}

theorem scalarType?_literal {literal : Literal} {constant : Scalar}
    (isConstant : literal.scalar? = some constant) :
    (Expr.literal literal position).scalarType? types = some constant.type := by
  show Option.map _ _ = _
  rw [isConstant, Option.map_some]

theorem scalarType?_assign :
    (assign (.name identifier place) none source position).scalarType? types = some type ↔
      ∃ sourceType, types identifier = some type ∧ source.scalarType? types = some sourceType ∧
        source.isStorable sourceType type = true := by
  show Option.bind _ _ = _ ↔ _
  simp only [Option.bind_eq_bind, Option.bind_eq_some_iff,
    Option.ite_none_right_eq_some, Option.some.injEq]
  constructor
  · rintro ⟨_, isTarget, sourceType, typed, storable, rfl⟩
    exact ⟨sourceType, isTarget, typed, storable⟩
  · rintro ⟨sourceType, isTarget, typed, storable⟩
    exact ⟨type, isTarget, sourceType, typed, storable, rfl⟩

theorem scalarType?_compound {op : ComputeOp} :
    (assign (.name identifier place) (some op) source position).scalarType? types = some type ↔
      ∃ sourceType result, types identifier = some type ∧
        source.scalarType? types = some sourceType ∧ op.type? type sourceType = some result := by
  show Option.bind _ _ = _ ↔ _
  simp only [Option.bind_eq_bind, Option.bind_eq_some_iff, Option.some.injEq]
  constructor
  · rintro ⟨_, isTarget, sourceType, typed, result, computes, rfl⟩
    exact ⟨sourceType, result, isTarget, typed, computes⟩
  · rintro ⟨sourceType, result, isTarget, typed, computes⟩
    exact ⟨type, isTarget, sourceType, typed, result, computes, rfl⟩

theorem scalarType?_update {op : UpdateOp} :
    (update op isBefore (.name identifier place) position).scalarType? types = some type ↔
      ∃ integral, types identifier = some type ∧ type.promoted? = some integral := by
  show Option.bind _ _ = _ ↔ _
  simp only [Option.bind_eq_bind, Option.bind_eq_some_iff, Option.some.injEq]
  constructor
  · rintro ⟨_, isTarget, integral, promoted, rfl⟩
    exact ⟨integral, isTarget, promoted⟩
  · rintro ⟨integral, isTarget, promoted⟩
    exact ⟨type, isTarget, integral, promoted, rfl⟩

theorem scalarType?_not :
    (unary .not operand position).scalarType? types = some type ↔
      operand.scalarType? types = some .boolean ∧ type = .boolean := by
  show ite _ _ _ = _ ↔ _
  rw [Option.ite_none_right_eq_some, Option.some.injEq, eq_comm (a := type)]

theorem scalarType?_unary {op : UnaryOp} (isNumeric : op ≠ .not) :
    (unary op operand position).scalarType? types = some type ↔
      ∃ sourceType integral, operand.scalarType? types = some sourceType ∧
        sourceType.promoted? = some integral ∧ type = integral.type := by
  have unfolded : (unary op operand position).scalarType? types =
      (operand.scalarType? types).bind fun source => source.promoted?.map Integral.type := by
    cases op with
    | not => exact absurd rfl isNumeric
    | _ => rfl
  rw [unfolded]
  simp only [Option.bind_eq_some_iff, Option.map_eq_some_iff]
  constructor
  · rintro ⟨sourceType, typed, integral, promoted, rfl⟩
    exact ⟨sourceType, integral, typed, promoted, rfl⟩
  · rintro ⟨sourceType, integral, typed, promoted, rfl⟩
    exact ⟨sourceType, typed, integral, promoted, rfl⟩

theorem scalarType?_compute {op : ComputeOp} :
    (binary (.compute op) left right position).scalarType? types = some type ↔
      ∃ firstType secondType, left.scalarType? types = some firstType ∧
        right.scalarType? types = some secondType ∧ op.type? firstType secondType = some type := by
  show Option.bind _ _ = _ ↔ _
  simp only [Option.bind_eq_bind, Option.bind_eq_some_iff, exists_and_left]

theorem scalarType?_compare {comparison : Comparison} :
    (binary (.compare comparison) left right position).scalarType? types = some type ↔
      ∃ firstType secondType, left.scalarType? types = some firstType ∧
        right.scalarType? types = some secondType ∧
          comparable comparison firstType secondType = true ∧ type = .boolean := by
  show Option.bind _ _ = _ ↔ _
  simp only [Option.bind_eq_bind, Option.bind_eq_some_iff, exists_and_left,
    Option.ite_none_right_eq_some, Option.some.injEq, eq_comm (a := type)]

theorem scalarType?_logical {op : LogicalOp} :
    (logical op left right position).scalarType? types = some type ↔
      left.scalarType? types = some .boolean ∧ right.scalarType? types = some .boolean ∧
        type = .boolean := by
  show ite _ _ _ = _ ↔ _
  rw [Option.ite_none_right_eq_some, Option.some.injEq, and_assoc, eq_comm (a := type)]

theorem scalarType?_conditional :
    (conditional test first second position).scalarType? types = some type ↔
      ∃ firstType secondType, test.scalarType? types = some .boolean ∧
        first.scalarType? types = some firstType ∧ second.scalarType? types = some secondType ∧
          outcomeType? firstType secondType = some type := by
  show Option.bind _ _ = _ ↔ _
  simp only [Option.bind_eq_bind, Option.bind_eq_some_iff,
    Option.ite_none_right_eq_some]
  constructor
  · rintro ⟨firstType, firstTyped, secondType, secondTyped, testTyped, isOutcome⟩
    exact ⟨firstType, secondType, testTyped, firstTyped, secondTyped, isOutcome⟩
  · rintro ⟨firstType, secondType, testTyped, firstTyped, secondTyped, isOutcome⟩
    exact ⟨firstType, firstTyped, secondType, secondTyped, testTyped, isOutcome⟩

theorem scalarType?_cast {written : TypeRef} {target : FieldType}
    (isIntegral : written.integral? = some target) :
    (cast written operand position).scalarType? types = some type ↔
      ∃ sourceType, operand.scalarType? types = some sourceType ∧ sourceType.isIntegral = true ∧
        type = target := by
  show Option.bind _ _ = _ ↔ _
  simp only [isIntegral, Option.bind_some, Option.bind_eq_bind, Option.bind_eq_some_iff,
    Option.ite_none_right_eq_some, Option.some.injEq, eq_comm (a := type)]

theorem eval_literal {literal : Literal} {constant : Scalar}
    (isConstant : literal.scalar? = some constant) :
    (Expr.literal literal position).eval types store = some (constant, store) := by
  show Option.bind _ _ = _
  rw [isConstant]
  rfl

theorem eval_name :
    (name identifier position).eval types store = some (value, after) ↔
      store identifier = some value ∧ after = store := by
  show Option.bind _ _ = _ ↔ _
  simp only [Option.bind_eq_some_iff, Option.pure_def, Option.some.injEq, Prod.mk.injEq]
  constructor
  · rintro ⟨_, isValue, rfl, rfl⟩
    exact ⟨isValue, rfl⟩
  · rintro ⟨isValue, rfl⟩
    exact ⟨value, isValue, rfl, rfl⟩

theorem eval_assign :
    (assign (.name identifier place) none source position).eval types store = some (value, after) ↔
      ∃ result middle target, source.eval types store = some (result, middle) ∧
        types identifier = some target ∧ value = result.convert target ∧
          after = middle.set identifier value := by
  show Option.bind _ _ = _ ↔ _
  simp only [Option.bind_eq_bind, Option.bind_eq_some_iff, Option.pure_def,
    Option.some.injEq, Prod.mk.injEq, Prod.exists]
  constructor
  · rintro ⟨result, middle, evaluated, target, isTarget, rfl, rfl⟩
    exact ⟨result, middle, target, evaluated, isTarget, rfl, rfl⟩
  · rintro ⟨result, middle, target, evaluated, isTarget, rfl, rfl⟩
    exact ⟨result, middle, evaluated, target, isTarget, rfl, rfl⟩

theorem eval_compound {op : ComputeOp} :
    (assign (.name identifier place) (some op) source position).eval types store =
        some (value, after) ↔
      ∃ old result middle computed target, store identifier = some old ∧
        source.eval types store = some (result, middle) ∧
          Scalar.compute op old result = some computed ∧ types identifier = some target ∧
            value = computed.convert target ∧ after = middle.set identifier value := by
  show Option.bind _ _ = _ ↔ _
  simp only [Option.bind_eq_bind, Option.bind_eq_some_iff, Option.pure_def,
    Option.some.injEq, Prod.mk.injEq, Prod.exists]
  constructor
  · rintro ⟨old, isOld, result, middle, evaluated, computed, isComputed, target, isTarget, rfl, rfl⟩
    exact ⟨old, result, middle, computed, target, isOld, evaluated, isComputed, isTarget, rfl, rfl⟩
  · rintro ⟨old, result, middle, computed, target, isOld, evaluated, isComputed, isTarget, rfl, rfl⟩
    exact ⟨old, isOld, result, middle, evaluated, computed, isComputed, target, isTarget, rfl, rfl⟩

theorem eval_update {op : UpdateOp} :
    (update op isBefore (.name identifier place) position).eval types store = some (value, after) ↔
      ∃ old new, store identifier = some old ∧ old.updated op = some new ∧
        value = (if isBefore then new else old) ∧ after = store.set identifier new := by
  show Option.bind _ _ = _ ↔ _
  simp only [Option.bind_eq_bind, Option.bind_eq_some_iff, Option.pure_def,
    Option.some.injEq, Prod.mk.injEq, exists_and_left, eq_comm (a := value), eq_comm (a := after)]

theorem eval_not :
    (unary .not operand position).eval types store = some (value, after) ↔
      ∃ result truth, operand.eval types store = some (result, after) ∧
        result.truth? = some truth ∧ value = .boolean !truth := by
  show Option.bind _ _ = _ ↔ _
  simp only [Option.bind_eq_bind, Option.bind_eq_some_iff, Option.pure_def,
    Option.some.injEq, Prod.mk.injEq, Prod.exists]
  constructor
  · rintro ⟨result, _, evaluated, truth, isTruth, rfl, rfl⟩
    exact ⟨result, truth, evaluated, isTruth, rfl⟩
  · rintro ⟨result, truth, evaluated, isTruth, rfl⟩
    exact ⟨result, after, evaluated, truth, isTruth, rfl, rfl⟩

theorem eval_unary {op : UnaryOp} (isNumeric : op ≠ .not) :
    (unary op operand position).eval types store = some (value, after) ↔
      ∃ result, operand.eval types store = some (result, after) ∧ result.unary op = some value := by
  have unfolded : (unary op operand position).eval types store =
      (operand.eval types store).bind fun outcome =>
        (outcome.1.unary op).bind fun result => some (result, outcome.2) := by
    cases op with
    | not => exact absurd rfl isNumeric
    | _ => rfl
  rw [unfolded]
  simp only [Option.bind_eq_some_iff, Option.some.injEq, Prod.mk.injEq, Prod.exists]
  constructor
  · rintro ⟨result, _, evaluated, _, computed, rfl, rfl⟩
    exact ⟨result, evaluated, computed⟩
  · rintro ⟨result, evaluated, computed⟩
    exact ⟨result, after, evaluated, value, computed, rfl, rfl⟩

theorem eval_compute {op : ComputeOp} :
    (binary (.compute op) left right position).eval types store = some (value, after) ↔
      ∃ first middle second, left.eval types store = some (first, middle) ∧
        right.eval types middle = some (second, after) ∧
          Scalar.compute op first second = some value := by
  show Option.bind _ _ = _ ↔ _
  simp only [Option.bind_eq_bind, Option.bind_eq_some_iff, Option.pure_def,
    Option.some.injEq, Prod.mk.injEq, Prod.exists]
  constructor
  · rintro ⟨first, middle, isFirst, second, _, isSecond, _, computed, rfl, rfl⟩
    exact ⟨first, middle, second, isFirst, isSecond, computed⟩
  · rintro ⟨first, middle, second, isFirst, isSecond, computed⟩
    exact ⟨first, middle, isFirst, second, after, isSecond, value, computed, rfl, rfl⟩

theorem eval_compare {comparison : Comparison} :
    (binary (.compare comparison) left right position).eval types store = some (value, after) ↔
      ∃ first middle second holds, left.eval types store = some (first, middle) ∧
        right.eval types middle = some (second, after) ∧
          Scalar.compare comparison first second = some holds ∧ value = .boolean holds := by
  show Option.bind _ _ = _ ↔ _
  simp only [Option.bind_eq_bind, Option.bind_eq_some_iff, Option.pure_def,
    Option.some.injEq, Prod.mk.injEq, Prod.exists]
  constructor
  · rintro ⟨first, middle, isFirst, second, _, isSecond, holds, compared, rfl, rfl⟩
    exact ⟨first, middle, second, holds, isFirst, isSecond, compared, rfl⟩
  · rintro ⟨first, middle, second, holds, isFirst, isSecond, compared, rfl⟩
    exact ⟨first, middle, isFirst, second, after, isSecond, holds, compared, rfl, rfl⟩

theorem eval_logical {op : LogicalOp} :
    (logical op left right position).eval types store = some (value, after) ↔
      ∃ first middle decision, left.eval types store = some (first, middle) ∧
        first.truth? = some decision ∧
          (decision = op.decisive ∧ value = first ∧ after = middle ∨
            decision ≠ op.decisive ∧ right.eval types middle = some (value, after)) := by
  show Option.bind _ _ = _ ↔ _
  simp only [Option.bind_eq_bind, Option.bind_eq_some_iff, Prod.exists, exists_and_left]
  refine exists_congr fun first => exists_congr fun middle => and_congr_right fun _ =>
    exists_congr fun decision => and_congr_right fun _ => ?_
  by_cases decides : decision = op.decisive
  · simp only [decides, if_true, true_and, not_true_eq_false, ne_eq, false_and, or_false,
      Option.some.injEq, Prod.mk.injEq, eq_comm]
  · simp only [decides, if_false, false_and, not_false_eq_true, ne_eq, true_and, false_or]

theorem eval_conditional :
    (conditional test first second position).eval types store = some (value, after) ↔
      ∃ type tested middle decision result,
        (conditional test first second position).scalarType? types = some type ∧
          test.eval types store = some (tested, middle) ∧ tested.truth? = some decision ∧
            (if decision then first else second).eval types middle = some (result, after) ∧
              value = result.convert type := by
  show Option.bind _ _ = _ ↔ _
  simp only [Option.bind_eq_bind, Option.bind_eq_some_iff, Option.map_eq_some_iff,
    Prod.mk.injEq, Prod.exists]
  constructor
  · rintro ⟨type, typed, tested, middle, isTested, decision, isDecision, result, _, evaluated, rfl,
      rfl⟩
    exact ⟨type, tested, middle, decision, result, typed, isTested, isDecision,
      by cases decision <;> exact evaluated, rfl⟩
  · rintro ⟨type, tested, middle, decision, result, typed, isTested, isDecision, evaluated, rfl⟩
    exact ⟨type, typed, tested, middle, isTested, decision, isDecision, result, after,
      by cases decision <;> exact evaluated, rfl, rfl⟩

theorem eval_cast {written : TypeRef} {target : FieldType}
    (isIntegral : written.integral? = some target) :
    (cast written operand position).eval types store = some (value, after) ↔
      ∃ result, operand.eval types store = some (result, after) ∧ value = result.convert target := by
  show Option.bind _ _ = _ ↔ _
  simp only [isIntegral, Option.bind_eq_bind, Option.bind_eq_some_iff, Option.bind_some,
    Option.pure_def, Option.some.injEq, Prod.mk.injEq, Prod.exists]
  constructor
  · rintro ⟨result, _, evaluated, rfl, rfl⟩
    exact ⟨result, evaluated, rfl⟩
  · rintro ⟨result, evaluated, rfl⟩
    exact ⟨result, after, evaluated, rfl, rfl⟩

end Rules

end Expr

end MethodPatch
