/-
**Types that convert to one another.**

A value is converted between equal types, between two numbers, or between two references; nothing
else is ever asked for. `StaticType.Converts` is this relation. Every plan for the operands of an
operator, every coercion of an assignment and every cast has it between the types involved.

* `ComputePlan.converts`, `conditionalType_becomes`: the operands of plans;
* `Host.coercion?_eq`: what an assignment asks for.
-/

import MethodPatch.Typing.Call
import MethodPatch.Typing.Operands

namespace MethodPatch

theorem bind_eq_ok {ε α β : Type} {first : Except ε α} {next : α → Except ε β} {answer : β} :
    first >>= next = .ok answer ↔ ∃ middle, first = .ok middle ∧ next middle = .ok answer := by
  cases first with
  | error error =>
    constructor
    · intro failed
      cases failed
    · rintro ⟨_, failed, _⟩
      cases failed
  | ok value =>
    constructor
    · intro rest
      exact ⟨value, rfl, rest⟩
    · rintro ⟨_, same, rest⟩
      cases same
      exact rest

theorem pure_eq_ok {ε α : Type} {value answer : α} :
    (pure value : Except ε α) = .ok answer ↔ answer = value := by
  constructor
  · intro same
    exact (Except.ok.inj same).symm
  · rintro rfl
    rfl

/-- A step that succeeds gives an answer beside its state. -/
theorem eq_ok_of_isOk {ε α β : Type} {result : Except ε α × β} (succeeds : result.1.isOk = true) :
    ∃ answer, result = (.ok answer, result.2) := by
  obtain ⟨_ | answer, state⟩ := result
  · cases succeeds
  · exact ⟨answer, rfl⟩

/-- Types between which values are converted. -/
def FieldType.Converts (source target : FieldType) : Prop :=
  source = target ∨ (source.numeric?.isSome ∧ target.numeric?.isSome) ∨
    (source.isReference ∧ target.isReference)

/-- Types of values that are converted to a type. -/
def StaticType.Converts (source : StaticType) (target : FieldType) : Prop :=
  match source with
  | .void => False
  | .null => target.isReference
  | .value type => type.Converts target

/-- Types of values that become one possibility of a result of a type. -/
def StaticType.Becomes (source type : StaticType) : Prop :=
  match type with
  | .value target => source.Converts target
  | other => source = other

section Types

variable {source target left right : FieldType} {numeric : Numeric}

theorem FieldType.width_of_reference (reference : source.isReference = true) :
    source.width = 1 := by
  cases source <;> simp_all [isReference, width, storage, Storage.width]

theorem FieldType.width_of_numeric (isNumber : source.numeric? = some numeric) :
    source.width = numeric.width := by
  cases source <;> cases isNumber <;> rfl

theorem FieldType.width_numeric (numeric : Numeric) : numeric.type.width = numeric.width := by
  cases numeric <;> rfl

theorem Integral.width_type (integral : Integral) : integral.type.width = integral.width := by
  cases integral <;> rfl

theorem converts_numeric (numeric : Numeric) (isNumber : source.numeric?.isSome) :
    source.Converts numeric.type := by
  refine .inr (.inl ⟨isNumber, ?_⟩)
  rw [Numeric.numeric?_type]
  rfl

theorem converts_integral {integral : Integral} (isNumber : source.numeric?.isSome) :
    source.Converts integral.type := by
  cases integral
  · exact converts_numeric .int isNumber
  · exact converts_numeric .long isNumber

theorem promotion_isSome (promoted : promotion? left right = some numeric) :
    left.numeric?.isSome ∧ right.numeric?.isSome := by
  unfold promotion? at promoted
  cases first : left.numeric? <;> cases second : right.numeric? <;> simp_all

theorem widens_isNumber (wider : widens source target = true) :
    source.numeric?.isSome ∧ target.numeric?.isSome := by
  cases source <;> cases target <;> simp_all [widens, FieldType.numeric?]

end Types

/-! ### Operators -/

section Operators

variable {left right : StaticType}

/-- The operands of an operator convert to what its plan says. -/
theorem ComputePlan.converts {op : ComputeOp} {plan : ComputePlan}
    (planned : ComputePlan.of? op left right = some plan) :
    left.Converts plan.result ∧ right.Converts plan.right := by
  cases left <;> cases right <;> simp only [of?, reduceCtorEq] at planned
  rename_i left right
  cases op with
  | arithmetic op =>
    simp only [ofTypes?, Option.map_eq_some_iff] at planned
    obtain ⟨type, promoted, rfl⟩ := planned
    obtain ⟨first, second⟩ := promotion_isSome promoted
    exact ⟨converts_numeric _ first, converts_numeric _ second⟩
  | shift op =>
    simp only [ofTypes?, Option.bind_eq_bind, Option.bind_eq_some_iff, Option.pure_def,
      Option.some.injEq] at planned
    obtain ⟨first, isFirst, type, _, second, isSecond, _, _, rfl⟩ := planned
    exact ⟨converts_integral (by rw [isFirst]; rfl),
      converts_numeric .int (by rw [isSecond]; rfl)⟩
  | bitwise op =>
    simp only [ofTypes?] at planned
    split at planned
    · next booleans =>
      cases planned
      exact ⟨.inl booleans.1, .inl booleans.2⟩
    · simp only [Option.bind_eq_bind, Option.bind_eq_some_iff, Option.pure_def,
        Option.some.injEq] at planned
      obtain ⟨numeric, promoted, type, _, rfl⟩ := planned
      obtain ⟨first, second⟩ := promotion_isSome promoted
      exact ⟨converts_integral first, converts_integral second⟩

/-- The two numbers of a relation convert to the type in which they are compared. -/
theorem ComparisonPlan.converts {wanted : Comparison} {type : Numeric}
    (planned : ComparisonPlan.of? wanted left right = some (.numbers type)) :
    left.Converts type.type ∧ right.Converts type.type := by
  unfold ComparisonPlan.of? at planned
  split at planned
  · split at planned
    · cases planned
    · split at planned
      · cases planned
      · split at planned <;> cases planned
  · split at planned
    · cases planned
    · split at planned
      · simp only [Option.map_eq_some_iff] at planned
        obtain ⟨_, promoted, same⟩ := planned
        cases same
        obtain ⟨first, second⟩ := promotion_isSome promoted
        exact ⟨converts_numeric _ first, converts_numeric _ second⟩
      · cases planned

theorem StaticType.width_of_reference {type : StaticType} (reference : type.isReference = true) :
    type.width = 1 := by
  cases type with
  | void => cases reference
  | null => rfl
  | value type => exact FieldType.width_of_reference reference

/-- Operands that are not compared as numbers take one slot each. -/
theorem ComparisonPlan.width_operands {wanted : Comparison} {plan : ComparisonPlan}
    (planned : ComparisonPlan.of? wanted left right = some plan)
    (notNumbers : ∀ type, plan ≠ .numbers type) : left.width = 1 ∧ right.width = 1 := by
  unfold ComparisonPlan.of? at planned
  split at planned
  · split at planned
    · cases planned
    · next references =>
      simp only [Bool.not_eq_true', Bool.not_eq_false, Bool.and_eq_true] at references
      exact ⟨StaticType.width_of_reference references.1,
        StaticType.width_of_reference references.2⟩
  · split at planned
    · next booleans =>
      rw [booleans.2.1, booleans.2.2]
      exact ⟨rfl, rfl⟩
    · split at planned
      · simp only [Option.map_eq_some_iff] at planned
        obtain ⟨type, _, same⟩ := planned
        exact absurd same.symm (notNumbers type)
      · cases planned

theorem unaryType_converts {op : UnaryOp} {operand : StaticType} {position : Position}
    {type : Numeric} (typed : unaryType op operand position = .ok type) :
    operand.Converts type.type := by
  unfold unaryType unaryType? at typed
  cases operand with
  | value source =>
    refine converts_numeric _ ?_
    cases isNumber : source.numeric? with
    | none => simp [isNumber] at typed
    | some _ => rfl
  | void => simp at typed
  | null => simp at typed

/-- The complement is taken of whole numbers. -/
theorem unaryType_complement {operand : StaticType} {position : Position} {type : Numeric}
    (typed : unaryType .complement operand position = .ok type) : type = .int ∨ type = .long := by
  have filtered : unaryType? .complement operand = some type := by
    unfold unaryType at typed
    split at typed
    · next found => exact found.trans (congrArg some (Except.ok.inj typed))
    · cases typed
  cases operand with
  | value source =>
    have whole := (Option.filter_eq_some_iff.mp filtered).2
    cases type with
    | int => exact .inl rfl
    | long => exact .inr rfl
    | float => cases whole
    | double => cases whole
  | void => cases filtered
  | null => cases filtered

theorem updateType_numeric {op : UpdateOp} {operand : FieldType} {position : Position}
    {type : Numeric} (typed : updateType op operand position = .ok type) :
    operand.numeric? = some type := by
  unfold updateType at typed
  split at typed
  · next found => exact found.trans (congrArg some (Except.ok.inj typed))
  · cases typed

/-- The branches of a conditional become a value of its type. -/
theorem conditionalType_becomes {host : Host} {type : StaticType}
    (typed : host.conditionalType? left right = some type) :
    left.Becomes type ∧ right.Becomes type := by
  unfold Host.conditionalType? at typed
  split at typed
  · next first second =>
    split at typed
    · next same =>
      cases typed
      exact ⟨.inl rfl, .inl same.symm⟩
    · split at typed
      · next promoted =>
        cases typed
        obtain ⟨isFirst, isSecond⟩ := promotion_isSome promoted
        exact ⟨converts_numeric _ isFirst, converts_numeric _ isSecond⟩
      · split at typed
        · next references =>
          cases typed
          simp only [Bool.and_eq_true] at references
          have common : (host.commonReference first second).isReference = true := by
            unfold Host.commonReference
            split
            · exact references.2
            · split
              · exact references.1
              · rfl
          exact ⟨.inr (.inr ⟨references.1, common⟩), .inr (.inr ⟨references.2, common⟩)⟩
        · cases typed
  · cases typed
    exact ⟨rfl, rfl⟩
  · split at typed
    · next reference =>
      cases typed
      exact ⟨reference, .inl rfl⟩
    · cases typed
  · split at typed
    · next reference =>
      cases typed
      exact ⟨.inl rfl, reference⟩
    · cases typed
  · cases typed

end Operators

/-! ### Plans that were found -/

section Plans

variable {left right type : StaticType} {position : Position}

theorem computePlan_eq {op : ComputeOp} {plan : ComputePlan}
    (planned : computePlan op left right position = .ok plan) :
    ComputePlan.of? op left right = some plan := by
  unfold computePlan at planned
  split at planned
  · next found => exact found.trans (congrArg some (Except.ok.inj planned))
  · cases planned

theorem comparisonPlan_eq {wanted : Comparison} {plan : ComparisonPlan}
    (planned : comparisonPlan wanted left right position = .ok plan) :
    ComparisonPlan.of? wanted left right = some plan := by
  unfold comparisonPlan at planned
  split at planned
  · next found => exact found.trans (congrArg some (Except.ok.inj planned))
  · cases planned

theorem conditionalType_eq {host : Host}
    (typed : host.conditionalType left right position = .ok type) :
    host.conditionalType? left right = some type := by
  unfold Host.conditionalType at typed
  split at typed
  · next found => exact found.trans (congrArg some (Except.ok.inj typed))
  · cases typed

end Plans

/-! ### Assignments and casts -/

section Assignments

variable {host : Host} {source : StaticType} {target : FieldType}

theorem Host.accepts_converts {strict : Bool} (accepted : host.accepts strict source target = true) :
    source.Converts target := by
  cases source with
  | void => cases accepted
  | null => exact accepted
  | value type =>
    simp only [accepts, Bool.or_eq_true, decide_eq_true_eq] at accepted
    rcases accepted with same | accepted
    · exact .inl same
    · split at accepted
      · simp only [Bool.and_eq_true] at accepted
        exact .inr (.inl (widens_isNumber accepted.2))
      · next reference =>
        simp only [Bool.and_eq_true] at accepted
        refine .inr (.inr ⟨?_, accepted.1⟩)
        simpa [FieldType.isPrimitive] using reference

/-- An assignment asks for a conversion, or takes a constant that fits without one. -/
theorem Host.coercion?_eq {constant : Option Int32} {instrs : List Instr}
    (coerced : host.coercion? source target constant = some instrs) :
    (source.Converts target ∧ instrs = source.conversion target) ∨
      (instrs = [] ∧ ∃ type value, source = .value type ∧ constant = some value ∧
        type.numeric? = some .int ∧ constantFits value target = true) := by
  unfold coercion? at coerced
  split at coerced
  · next accepted => exact .inl ⟨accepts_converts accepted, (Option.some.inj coerced).symm⟩
  · split at coerced
    · next type value _ =>
      split at coerced
      · next fits => exact .inr ⟨(Option.some.inj coerced).symm, type, value, rfl, rfl, fits⟩
      · cases coerced
    · cases coerced

theorem Host.coercion_eq {value : Expr} {instrs : List Instr}
    (coerced : host.coercion source target value = .ok instrs) :
    host.coercion? source target value.intConstant? = some instrs := by
  unfold coercion at coerced
  split at coerced
  · next found => exact found.trans (congrArg some (Except.ok.inj coerced))
  · cases coerced

theorem FieldType.width_of_constantFits {value : Int32} (fits : constantFits value target = true) :
    target.width = 1 := by
  cases target <;> first | rfl | cases fits

/-- A cast asks for the conversion between two types, or checks an object. -/
theorem Host.castPlan?_eq {plan : CastPlan} (planned : host.castPlan? source target = some plan) :
    (source.Converts target ∧ plan = .convert (source.conversion target)) ∨
      ∃ className, plan = .check className ∧ source.width = 1 ∧ target.width = 1 := by
  cases source with
  | void => cases planned
  | null =>
    simp only [castPlan?] at planned
    split at planned
    · next reference => exact .inl ⟨reference, (Option.some.inj planned).symm⟩
    · cases planned
  | value type =>
    simp only [castPlan?] at planned
    split at planned
    · next convertible =>
      simp only [Bool.or_eq_true, decide_eq_true_eq, Bool.and_eq_true,
        ← FieldType.numeric?_isSome] at convertible
      refine .inl ⟨?_, (Option.some.inj planned).symm⟩
      rcases convertible with same | numbers
      · exact .inl same
      · exact .inr (.inl numbers)
    · split at planned
      · next references =>
        simp only [Bool.and_eq_true] at references
        split at planned
        · refine .inl ⟨.inr (.inr references), ?_⟩
          have none : conversion type target = [] := by
            obtain ⟨reference, _⟩ := references
            cases type <;> simp_all [FieldType.isReference, conversion, FieldType.numeric?]
          simp only [StaticType.conversion, none]
          exact (Option.some.inj planned).symm
        · simp only [Option.map_eq_some_iff] at planned
          obtain ⟨className, _, rfl⟩ := planned
          exact .inr ⟨className, rfl, FieldType.width_of_reference references.1,
            FieldType.width_of_reference references.2⟩
      · cases planned

end Assignments

end MethodPatch
