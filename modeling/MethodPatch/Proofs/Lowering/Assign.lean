/-
**What lowered assignments are meant to do.**

A variable has no operands on the stack. Its old value is read before the right side is evaluated,
and what is stored is converted to its type. Adding a constant to an `int` variable in place, and
`++` and `--` in place, come to the same as the plain way.

* `Host.coercion_scalar`: what is assigned is converted, or is a constant that fits;
* `Lowered.performs_coercion`: the code of a value that is assigned;
* `leaves_assign`, `leaves_compound`, `leaves_update`: the plain way;
* `leaves_increment`, `leaves_updateVariable`: in place.
-/

import MethodPatch.Proofs.Lowering.Operators

namespace MethodPatch

variable {frame : Frame} {known : String → Prop} {position place : Position} {wanted : Bool}
  {identifier : String} {slot : Slot} {type : FieldType} {site : Site} {scope : Scope}

/-! ### Numbers in `int` variables -/

theorem Scalar.compute_int {op : Arithmetic} {first second : Scalar}
    (isFirst : first.type.promoted? = some .int) (isSecond : second.type.promoted? = some .int) :
    compute (.arithmetic op) first second =
      (op.result? first.toInt second.toInt).map fun number => .int (.ofInt number) := by
  have joined : joined? first.type second.type = some .int := by
    rw [joined?, isFirst, isSecond]
  simp only [compute, joined, Option.bind_eq_bind, Option.bind_some, Word.arithmetic,
    Word.type_ofInt, if_true, toInt_promoted (.inr isFirst), toInt_promoted (.inr isSecond)]
  cases op.result? first.toInt second.toInt <;> rfl

@[simp] theorem Scalar.convert_int (number : Int) :
    (Scalar.int (.ofInt number)).convert .int = .int (.ofInt number) :=
  Scalar.convert_type (.int (.ofInt number))

/-- A constant that is added in place is an `int` or a `char`. -/
theorem incrementBy?_eq {op : Option ComputeOp} {source : Expr} {delta : Int16}
    (found : incrementBy? op source = some delta) :
    ∃ amount arithmetic, source.intConstant? = some amount ∧ op = some (.arithmetic arithmetic) ∧
      ∀ number : Int, arithmetic.result? number amount.toInt = some (number + delta.toInt) := by
  have fits : ∀ {number : Int} {delta : Int16},
      (if -32768 ≤ number ∧ number ≤ 32767 then some (Int16.ofInt number) else none) = some delta →
        delta.toInt = number := by
    intro number delta found
    obtain ⟨⟨above, below⟩, same⟩ := Option.ite_none_right_eq_some.mp found
    rw [← Option.some.inj same]
    exact Int16.toInt_ofInt_of_le (by omega) (by omega)
  simp only [incrementBy?, Option.bind_eq_bind, Option.bind_eq_some_iff] at found
  obtain ⟨amount, isConstant, found⟩ := found
  split at found
  · exact ⟨amount, .add, isConstant, rfl, fun _ => by rw [fits found]; rfl⟩
  · exact ⟨amount, .sub, isConstant, rfl, fun _ => by rw [fits found]; rfl⟩
  · cases found

/-- A constant that is added in place may be added to an `int`. -/
theorem Expr.scalarType?_constant (types : Types) {source : Expr} {amount : Int32}
    {arithmetic : Arithmetic} {delta : Int}
    (isConstant : source.intConstant? = some amount)
    (adds : ∀ number : Int, arithmetic.result? number amount.toInt = some (number + delta)) :
    ∃ type, source.scalarType? types = some type ∧
      (ComputeOp.arithmetic arithmetic).type? .int type = some .int := by
  have computes : ∀ type, type = .int ∨ type = .char →
      (ComputeOp.arithmetic arithmetic).type? .int type = some .int := by
    rintro type isSmall
    cases arithmetic with
    | div | rem => cases adds 0
    | add | sub | mul => rcases isSmall with rfl | rfl <;> rfl
  unfold Expr.intConstant? at isConstant
  split at isConstant
  · exact ⟨.int, rfl, computes _ (.inl rfl)⟩
  · exact ⟨.char, rfl, computes _ (.inr rfl)⟩
  · cases isConstant

/-! ### Variables -/

/-- A name stands for a variable of a frame. -/
def Site.Names (site : Site) (scope : Scope) (identifier : String) (slot : Slot)
    (type : FieldType) : Prop :=
  site.nameUse? scope identifier = some (.variable slot type)

theorem yields_namePlace {before after : Generator} {found : Place}
    (names : site.Names scope identifier slot type)
    (yields : Yields (Emit.namePlace site scope identifier place) before found after) :
    found = .variable slot type ∧ after = before := by
  have isPlace : site.namePlace scope identifier place = .ok (.variable slot type) := by
    rw [Site.namePlace, show site.nameUse? scope identifier = _ from names]
  simp only [Emit.namePlace, isPlace, yields_bind, yields_liftExcept, yields_ite,
    yields_pure] at yields
  obtain ⟨_, _, ⟨same, rfl⟩, ⟨one, _⟩ | ⟨_, rfl, rfl⟩⟩ := yields
  · cases same
    cases one
  · cases same
    exact ⟨rfl, rfl⟩

/-- A value is stored in a variable, and copied if it is wanted. -/
def Situation.Stores (identifier : String) (type : FieldType) (copies : Bool)
    (situation final : Situation) : Prop :=
  ∃ value rest, value.type = type ∧ situation.stack = value.word :: rest ∧
    final = ⟨if copies then value.word :: rest else rest, situation.store.set identifier value⟩

theorem performs_write {before after : Generator} {found : StaticType} {copies : Bool}
    (separate : frame.Separate) (isVariable : frame identifier = some (slot, type))
    (stored : (copies = true ∧ ∃ (_ : Unit) (middle : Generator),
        middle = before.push (Place.variable slot type).copyValue ∧
          ∃ (done : Unit) (written : Generator),
            Yields (Emit.write (.variable slot type)) middle done written ∧
              found = .value (Place.variable slot type).type ∧ after = written) ∨
      (¬ copies = true ∧ ∃ (done : Unit) (written : Generator),
        Yields (Emit.write (.variable slot type)) before done written ∧
          found = .value (Place.variable slot type).type ∧ after = written)) :
    found = .value type ∧
      before.Performs frame (Situation.Stores identifier type copies) after := by
  simp only [Emit.write, Emit.yields_instr] at stored
  obtain ⟨rfl, _, _, rfl, _, _, rfl, rfl, rfl⟩ | ⟨notCopied, _, _, rfl, rfl, rfl⟩ := stored
  · refine ⟨rfl, ((Generator.Performs.push before _).trans
      (performs_store separate isVariable _)).mono ?_⟩
    rintro ⟨stack, store⟩ _ _ ⟨value, rest, rfl, isTop, rfl⟩
    rw [show stack = _ from isTop]
    exact ⟨⟨value.word :: value.word :: rest, store⟩, Instr.changes_copyValue value slot,
      value, _, rfl, rfl, rfl⟩
  · refine ⟨rfl, (performs_store separate isVariable _).mono ?_⟩
    rintro situation _ _ ⟨value, rest, typed, isTop, rfl⟩
    exact ⟨value, rest, typed, isTop, by rw [if_neg notCopied]⟩

/-! ### Assignments -/

namespace Lowered

variable {value : Lowered} {source : Expr}

/-- What is assigned is converted, or is a constant that fits. -/
theorem coercion_scalar {host : Host} {sourceType : FieldType} {instrs : List Instr}
    (isSource : sourceType.isScalar = true) (isTarget : type.isScalar = true)
    (coerced : host.coercion (.value sourceType) type source = .ok instrs) :
    source.isStorable sourceType type = true ∧
      ((instrs = conversion sourceType type ∧ Convertible sourceType type) ∨
        (instrs = [] ∧ ∃ constant, source.intConstant? = some constant ∧
          constantFits constant type = true)) := by
  have coerced := Host.coercion_eq coerced
  unfold Host.coercion? at coerced
  split at coerced
  · next accepted =>
    cases coerced
    simp only [Host.accepts, Bool.or_eq_true, decide_eq_true_eq] at accepted
    rcases accepted with rfl | accepted
    · exact ⟨by simp [Expr.isStorable], .inl ⟨rfl, .inl rfl⟩⟩
    · have isPrimitive : sourceType.isPrimitive = true := by
        cases sourceType <;> first | rfl | simp [FieldType.isScalar, FieldType.isIntegral] at isSource
      simp only [isPrimitive, if_true, Bool.and_eq_true] at accepted
      refine ⟨by simp [Expr.isStorable, accepted.2], .inl ⟨rfl, .inr ?_⟩⟩
      obtain ⟨isNumber, isNumber'⟩ := widens_isNumber accepted.2
      obtain ⟨_, isNumber⟩ := Option.isSome_iff_exists.mp isNumber
      obtain ⟨_, isNumber'⟩ := Option.isSome_iff_exists.mp isNumber'
      obtain ⟨first, isFirst, _⟩ := FieldType.promoted?_of_numeric isSource isNumber
      obtain ⟨second, isSecond, _⟩ := FieldType.promoted?_of_numeric isTarget isNumber'
      exact ⟨first, second, isFirst, isSecond⟩
  · split at coerced
    · next constant same isConstant =>
      cases same
      split at coerced
      · next fits =>
        cases coerced
        obtain ⟨isNumber, fits⟩ := fits
        obtain ⟨integral, promoted, isInt⟩ := FieldType.promoted?_of_numeric isSource isNumber
        have isInt : integral = .int := by cases integral <;> first | rfl | cases isInt
        subst isInt
        exact ⟨by simp [Expr.isStorable, promoted, isConstant, fits], .inr ⟨rfl, _, isConstant, fits⟩⟩
      · cases coerced
    · cases coerced

/-- The value of an expression becomes one that a variable of a type can hold. -/
theorem performs_coercion {before middle : Generator} {found : StaticType} {instrs : List Instr}
    (separate : frame.Separate) (isSource : source.IsScalar known)
    (isTarget : type.isScalar = true) (means : value.Means frame source)
    (yields : Yields value.value before found middle)
    (coerced : site.host.coercion found type source = .ok instrs) :
    ∃ sourceType, source.scalarType? frame.types = some sourceType ∧
      source.isStorable sourceType type = true ∧
        before.Performs frame (source.PushesAs frame.types type) (middle.pushAll instrs) := by
  obtain ⟨sourceType, rfl, typed, performs⟩ := means.value yields
  have sourceScalar := separate.isScalar_type isSource typed
  obtain ⟨storable, coerces⟩ := coercion_scalar sourceScalar isTarget coerced
  refine ⟨sourceType, typed, storable, ?_⟩
  rcases coerces with ⟨rfl, converts⟩ | ⟨rfl, constant, isConstant, fits⟩
  · exact performs.converted separate isSource typed converts
  · refine Generator.Performs.mono performs ?_
    rintro situation ⟨stack, store⟩ agrees ⟨result, evaluated, same⟩
    obtain ⟨rfl, isNumber, promoted⟩ := Expr.eval_intConstant isConstant evaluated
    exact ⟨result, evaluated, by rw [same, Instr.word_convert_of_fits promoted isNumber fits]⟩

/-- The place that a variable is lowered to. -/
structure IsVariable (target : Lowered) (frame : Frame) (identifier : String) (slot : Slot)
    (type : FieldType) : Prop where
  inFrame : frame identifier = some (slot, type)
  place : ∀ {before found after}, Yields target.place before found after →
    found = .variable slot type ∧ after = before

variable {target : Lowered} {valueType : Except SourceError StaticType}

/-- A variable is given the value of an expression. -/
theorem leaves_assign (separate : frame.Separate) (isSource : source.IsScalar known)
    (isVariable : target.IsVariable frame identifier slot type) (means : value.Means frame source) :
    Leaves frame (.assign (.name identifier place) none source position) wanted
      (Lowered.assign site target none source valueType value position wanted) := by
  intro before found after yields
  simp only [Lowered.assign, yields_bind, yields_liftExcept, Emit.yields_instrs,
    Emit.yields_instr, yields_ite, yields_pure] at yields
  obtain ⟨_, _, isPlace, _, _, isValue, instrs, _, ⟨coerced, rfl⟩, _, _, rfl, stored⟩ := yields
  obtain ⟨rfl, rfl⟩ := isVariable.place isPlace
  obtain ⟨rfl, writes⟩ := performs_write separate isVariable.inFrame stored
  have isTarget := Frame.types_eq isVariable.inFrame
  have targetScalar := separate.isScalar isTarget
  obtain ⟨_, typed, storable, performs⟩ :=
    performs_coercion separate isSource targetScalar means isValue coerced
  refine ⟨type, rfl, Expr.scalarType?_assign.mpr ⟨_, isTarget, typed, storable⟩,
    (performs.trans writes).leaves ?_⟩
  intro situation _ _ agrees evaluated
  obtain ⟨result, store, _, isResult, isType, rfl, rfl⟩ := Expr.eval_assign.mp evaluated
  cases isTarget.symm.trans isType
  exact ⟨⟨(result.convert type).word :: situation.stack, store⟩, ⟨result, isResult, rfl⟩,
    result.convert type, situation.stack, Scalar.type_ofInt targetScalar _, rfl, rfl⟩

/-- An operator is applied to a variable and the value of an expression. -/
theorem leaves_compound {op : ComputeOp} (separate : frame.Separate)
    (isSource : source.IsScalar known) (total : op.isTotal = true)
    (isVariable : target.IsVariable frame identifier slot type) (means : value.Means frame source)
    (statically : ∀ found, valueType = .ok found →
      ∃ result, found = .value result ∧ source.scalarType? frame.types = some result) :
    Leaves frame (.assign (.name identifier place) (some op) source position) wanted
      (Lowered.assign site target (some op) source valueType value position wanted) := by
  intro before found after yields
  simp only [Lowered.assign, yields_bind, yields_liftExcept, Emit.yields_instrs,
    Emit.yields_instr, yields_ite, yields_pure] at yields
  obtain ⟨_, _, isPlace, _, _, rfl, _, _, read, _, _, ⟨isKnown, rfl⟩, _, _, combined, stored⟩ :=
    yields
  obtain ⟨rfl, rfl⟩ := isVariable.place isPlace
  obtain ⟨sourceType, rfl, typed⟩ := statically _ isKnown
  obtain ⟨rfl, writes⟩ := performs_write separate isVariable.inFrame stored
  have isTarget := Frame.types_eq isVariable.inFrame
  have targetScalar := separate.isScalar isTarget
  have sourceScalar := separate.isScalar_type isSource typed
  simp only [Lowered.combine, Place.type, FieldType.isString_of_isScalar targetScalar,
    Bool.false_eq_true, and_false, if_false, yields_bind, yields_liftExcept, Emit.yields_instrs, Emit.yields_instr] at combined
  obtain ⟨plan, _, ⟨planned, rfl⟩, _, _, rfl, _, _, operand, _, computed, rfl, rfl⟩ := combined
  have planned : ComputePlan.ofTypes? op type sourceType = some plan := computePlan_eq planned
  obtain ⟨computes, convertsLeft, convertsRight⟩ :=
    ComputePlan.type?_eq total targetScalar sourceScalar planned
  simp only [Emit.read, Emit.yields_instr] at read
  subst read
  have converts := means.convertedTo separate isSource typed convertsRight operand
  refine ⟨type, rfl, Expr.scalarType?_compound.mpr ⟨_, _, isTarget, typed, computes⟩,
    ((((((performs_load separate isVariable.inFrame _).trans (.pushAll _ _)).trans converts).trans
      (.push _ plan.instr)).trans (.pushAll _ _)).trans writes).leaves ?_⟩
  intro situation _ _ agrees evaluated
  obtain ⟨old, result, store, computed, _, isOld, isResult, isComputed, isType, rfl, rfl⟩ :=
    Expr.eval_compound.mp evaluated
  cases isTarget.symm.trans isType
  obtain rfl := agrees.type_eq isTarget isOld
  obtain ⟨rfl, _⟩ := separate.eval_type isSource isResult typed agrees
  obtain ⟨_, same, hasType⟩ := Scalar.compute_eq_some computes
  cases isComputed.symm.trans same
  have back : Convertible computed.type old.type := by
    rw [hasType]
    exact convertsLeft.symm
  refine ⟨⟨(computed.convert old.type).word :: situation.stack, store⟩,
    ⟨⟨computed.word :: situation.stack, store⟩,
    ⟨⟨(result.convert plan.right).word :: (old.convert plan.result).word :: situation.stack, store⟩,
    ⟨⟨(old.convert plan.result).word :: situation.stack, situation.store⟩,
    ⟨⟨old.word :: situation.stack, situation.store⟩, ⟨old, isOld, rfl⟩,
    Instr.changes_conversion old convertsLeft⟩, ⟨result, isResult, rfl⟩⟩,
    Instr.changes_plan planned isComputed⟩, ?_⟩,
    computed.convert old.type, situation.stack, Scalar.type_ofInt targetScalar _, rfl, rfl⟩
  rw [← hasType]
  exact Instr.changes_conversion computed back

/-! ### In place -/

/-- A constant is added to an `int` variable in place. -/
theorem leaves_increment {op : Option ComputeOp} {delta : Int16} (separate : frame.Separate)
    (isVariable : frame identifier = some (slot, .int))
    (isConstant : incrementBy? op source = some delta) :
    Leaves frame (.assign (.name identifier place) op source position) wanted
      (Lowered.increment slot delta wanted) := by
  obtain ⟨amount, arithmetic, isAmount, rfl, adds⟩ := incrementBy?_eq isConstant
  have isTarget := Frame.types_eq isVariable
  intro before found after yields
  have typed : (Expr.assign (.name identifier place) (some (.arithmetic arithmetic)) source
      position).scalarType? frame.types = some .int := by
    obtain ⟨_, typed, computes⟩ := Expr.scalarType?_constant frame.types isAmount adds
    exact Expr.scalarType?_compound.mpr ⟨_, _, isTarget, typed, computes⟩
  have evaluates : ∀ {situation : Situation} {value : Scalar} {store : Store},
      situation.store.Agrees frame.types →
      (Expr.assign (.name identifier place) (some (.arithmetic arithmetic)) source position).eval
        frame.types situation.store = some (value, store) →
      ∃ old, situation.store identifier = some old ∧
        value = .int (.ofInt (old.toInt + delta.toInt)) ∧
          store = situation.store.set identifier value := by
    intro situation value store agrees evaluated
    obtain ⟨old, _, _, computed, _, isOld, isResult, isComputed, isType, rfl, rfl⟩ :=
      Expr.eval_compound.mp evaluated
    cases isTarget.symm.trans isType
    obtain ⟨rfl, isNumber, promoted⟩ := Expr.eval_intConstant isAmount isResult
    rw [Scalar.compute_int (by rw [agrees.type_eq isTarget isOld]; rfl) promoted, isNumber,
      adds] at isComputed
    cases isComputed
    exact ⟨old, isOld, Scalar.convert_int _, rfl⟩
  simp only [Lowered.increment, yields_bind, Emit.yields_instr, yields_ite, yields_pure] at yields
  have changes := performs_increment separate isVariable delta before
  obtain ⟨_, _, rfl, ⟨rfl, _, _, rfl, rfl, rfl⟩ | ⟨notWanted, rfl, rfl⟩⟩ := yields
  · refine ⟨_, rfl, typed, (changes.trans (performs_load separate isVariable _)).leaves ?_⟩
    intro situation value _ agrees evaluated
    obtain ⟨old, isOld, rfl, rfl⟩ := evaluates agrees evaluated
    exact ⟨⟨situation.stack, _⟩, ⟨old, isOld, rfl⟩, _, Store.set_self, rfl⟩
  · refine ⟨_, rfl, typed, changes.leaves ?_⟩
    intro situation value _ agrees evaluated
    obtain ⟨old, isOld, rfl, rfl⟩ := evaluates agrees evaluated
    exact ⟨old, isOld, by rw [if_neg notWanted]⟩

/-- The number that is one more or less. -/
theorem updated_int {op : UpdateOp} {old new : Scalar} (isInt : old.type = .int)
    (isNew : old.updated op = some new) :
    new = .int (.ofInt (old.toInt +
      (if op = .increment then (1 : Int16) else -1).toInt)) := by
  unfold Scalar.updated at isNew
  dsimp only at isNew
  rw [Scalar.compute_int (by rw [isInt]; rfl) rfl, isInt] at isNew
  cases op <;> cases isNew <;> exact Scalar.convert_int _

theorem leaves_updateVariable {op : UpdateOp} {isBefore : Bool} (separate : frame.Separate)
    (isVariable : frame identifier = some (slot, .int)) :
    Leaves frame (.update op isBefore (.name identifier place) position) wanted
      (Lowered.updateVariable op isBefore slot wanted) := by
  have isTarget := Frame.types_eq isVariable
  intro before found after yields
  have typed : (Expr.update op isBefore (.name identifier place) position).scalarType? frame.types =
      some .int := Expr.scalarType?_update.mpr ⟨_, isTarget, rfl⟩
  have evaluates : ∀ {situation : Situation} {value : Scalar} {store : Store},
      situation.store.Agrees frame.types →
      (Expr.update op isBefore (.name identifier place) position).eval frame.types
        situation.store = some (value, store) →
      ∃ old new, situation.store identifier = some old ∧ value = (if isBefore then new else old) ∧
        store = situation.store.set identifier new ∧ new = .int (.ofInt (old.toInt +
          (if op = .increment then (1 : Int16) else -1).toInt)) := by
    intro situation value store agrees evaluated
    obtain ⟨old, new, isOld, isNew, rfl, rfl⟩ := Expr.eval_update.mp evaluated
    exact ⟨old, new, isOld, rfl, rfl, updated_int (agrees.type_eq isTarget isOld) isNew⟩
  simp only [Lowered.updateVariable, yields_bind, Emit.yields_instr, yields_ite, yields_pure]
    at yields
  cases wanted <;> cases isBefore <;>
    simp only [Bool.and_true, Bool.and_false, Bool.not_true, Bool.not_false, Bool.false_eq_true,
      not_true_eq_false, not_false_eq_true, true_and, false_and, or_false, false_or, if_true,
      if_false] at yields evaluates
  case false.false | false.true =>
    obtain ⟨_, _, rfl, rfl, rfl⟩ := yields
    refine ⟨_, rfl, typed, (performs_increment separate isVariable _ before).leaves ?_⟩
    intro situation value _ agrees evaluated
    obtain ⟨old, new, isOld, _, rfl, rfl⟩ := evaluates agrees evaluated
    exact ⟨old, isOld, rfl⟩
  case true.false =>
    obtain ⟨_, _, rfl, _, _, rfl, rfl, rfl⟩ := yields
    refine ⟨_, rfl, typed, ((performs_load separate isVariable before).trans
      (performs_increment separate isVariable _ _)).leaves ?_⟩
    intro situation value _ agrees evaluated
    obtain ⟨old, new, isOld, rfl, rfl, rfl⟩ := evaluates agrees evaluated
    exact ⟨_, ⟨value, isOld, rfl⟩, value, isOld, rfl⟩
  case true.true =>
    obtain ⟨_, _, rfl, _, _, rfl, rfl, rfl⟩ := yields
    refine ⟨_, rfl, typed, ((performs_increment separate isVariable _ before).trans
      (performs_load separate isVariable _)).leaves ?_⟩
    intro situation value _ agrees evaluated
    obtain ⟨old, new, isOld, rfl, rfl, rfl⟩ := evaluates agrees evaluated
    exact ⟨⟨situation.stack, _⟩, ⟨old, isOld, rfl⟩, _, Store.set_self, rfl⟩

/-! ### `++` and `--` -/

/-- The value on the stack becomes the one that is one more or less. -/
theorem performs_step {op : UpdateOp} {integral : Integral}
    (promoted : type.promoted? = some integral) (start : Generator) :
    start.Performs frame
      (fun situation final => ∃ (old new : Scalar) (rest : List Word), old.type = type ∧
        old.updated op = some new ∧ situation.stack = old.word :: rest ∧
          final = ⟨new.word :: rest, situation.store⟩)
      ((((start.pushAll (conversion type integral.numeric.type)).push (oneOf integral.numeric)).push
        (.arithmetic (if op = .increment then .add else .sub) integral.numeric)).pushAll
          (conversion integral.numeric.type type)) := by
  refine ((((Generator.Performs.pushAll start _).trans (.push _ _)).trans (.push _ _)).trans
    (.pushAll _ _)).mono ?_
  rintro ⟨stack, store⟩ _ _ ⟨old, new, rest, rfl, isNew, isTop, rfl⟩
  rw [show stack = _ from isTop, Integral.type_numeric]
  have joined : joined? old.type (Scalar.int 1).type = some integral := by
    rw [joined?, promoted]
    cases integral <;> rfl
  simp only [Scalar.updated, Scalar.compute, joined, Option.bind_eq_bind, Option.bind_some,
    Option.bind_eq_some_iff, Option.pure_def, Option.some.injEq] at isNew
  obtain ⟨_, ⟨word, computed, rfl⟩, rfl⟩ := isNew
  have converts : Convertible old.type integral.type := .ofPromoted promoted
  have one : (oneOf integral.numeric).Changes ⟨(old.convert integral.type).word :: rest, store⟩
      ⟨.ofInt integral 1 :: (old.convert integral.type).word :: rest, store⟩ := by
    cases integral <;> exact ⟨rfl, fun _ _ => rfl⟩
  have changes : (Instr.arithmetic (if op = .increment then .add else .sub)
      integral.numeric).Changes ⟨.ofInt integral 1 :: (old.convert integral.type).word :: rest, store⟩
      ⟨word :: rest, store⟩ := by
    rw [Scalar.word_convert]
    refine Instr.changes_combine (fun pool data => ?_) (Word.type_ofInt _ _) (Word.type_ofInt _ _)
      computed
    simp [Instr.apply]
  have back : Instr.ChangesAll (conversion integral.type old.type) ⟨word :: rest, store⟩
      ⟨((Scalar.ofWord word).convert old.type).word :: rest, store⟩ := by
    have isResult : word.type = integral := by
      unfold Word.arithmetic at computed
      simp only [Word.type_ofInt, if_true, Option.map_eq_some_iff] at computed
      obtain ⟨_, _, rfl⟩ := computed
      exact Word.type_ofInt _ _
    have resultType : (Scalar.ofWord word).type = integral.type := by
      rw [Scalar.type_ofWord, isResult]
    have changes : Instr.ChangesAll _ ⟨_ :: rest, store⟩ _ :=
      Instr.changes_conversion (Scalar.ofWord word) (resultType ▸ converts.symm)
    rwa [resultType, Scalar.word_ofWord] at changes
  exact ⟨_, ⟨_, ⟨_, Instr.changes_conversion old converts, one⟩, changes⟩, back⟩

/-- One is added to a variable or taken away. The value that is wanted is the one before or after. -/
theorem leaves_update {op : UpdateOp} {isBefore : Bool} (separate : frame.Separate)
    (isVariable : target.IsVariable frame identifier slot type) :
    Leaves frame (.update op isBefore (.name identifier place) position) wanted
      (Lowered.update op isBefore target position wanted) := by
  intro before found after yields
  simp only [Lowered.update, yields_bind, yields_liftExcept, Emit.yields_instrs,
    Emit.yields_instr, yields_ite, yields_pure] at yields
  obtain ⟨_, _, isPlace, numeric, _, ⟨isNumber, rfl⟩, _, _, rfl, _, _, read, yields⟩ := yields
  obtain ⟨rfl, rfl⟩ := isVariable.place isPlace
  have isTarget := Frame.types_eq isVariable.inFrame
  obtain ⟨integral, promoted, rfl⟩ :=
    FieldType.promoted?_of_numeric (separate.isScalar isTarget) (updateType_numeric isNumber)
  have typed : (Expr.update op isBefore (.name identifier place) position).scalarType? frame.types =
      some type := Expr.scalarType?_update.mpr ⟨_, isTarget, promoted⟩
  have evaluates : ∀ {situation : Situation} {value : Scalar} {store : Store},
      situation.store.Agrees frame.types →
      (Expr.update op isBefore (.name identifier place) position).eval frame.types
        situation.store = some (value, store) →
      ∃ old new, situation.store identifier = some old ∧ old.updated op = some new ∧
        old.type = type ∧ new.type = type ∧ value = (if isBefore then new else old) ∧
          store = situation.store.set identifier new := by
    intro situation value store agrees evaluated
    obtain ⟨old, new, isOld, isNew, rfl, rfl⟩ := Expr.eval_update.mp evaluated
    obtain rfl := agrees.type_eq isTarget isOld
    exact ⟨old, new, isOld, isNew, rfl, Scalar.type_updated isNew, rfl, rfl⟩
  simp only [Emit.read, Emit.yields_instr] at read
  subst read
  obtain ⟨copies, _, _, rfl, _, _, rfl, _, _, rfl, _, _, rfl, _, _, rfl, stored⟩ |
    ⟨keeps, _, _, rfl, _, _, rfl, _, _, rfl, _, _, rfl, stored⟩ := yields
  · simp only [Bool.and_eq_true, Bool.not_eq_true'] at copies
    obtain ⟨rfl, rfl⟩ := copies
    obtain ⟨rfl, writes⟩ := performs_write separate isVariable.inFrame stored
    refine ⟨_, rfl, typed, ((((performs_load separate isVariable.inFrame _).trans
      (.push _ (Place.variable slot type).copyValue)).trans (performs_step promoted _)).trans
        writes).leaves ?_⟩
    intro situation value _ agrees evaluated
    obtain ⟨old, new, isOld, isNew, rfl, newTyped, isValue, rfl⟩ := evaluates agrees evaluated
    rw [show value = old from isValue]
    exact ⟨⟨new.word :: old.word :: situation.stack, situation.store⟩,
      ⟨⟨old.word :: old.word :: situation.stack, situation.store⟩,
      ⟨⟨old.word :: situation.stack, situation.store⟩, ⟨old, isOld, rfl⟩,
      Instr.changes_copyValue old slot⟩, old, new, _, rfl, isNew, rfl, rfl⟩,
      new, _, newTyped, rfl, rfl⟩
  · obtain ⟨rfl, writes⟩ := performs_write separate isVariable.inFrame stored
    refine ⟨_, rfl, typed, (((performs_load separate isVariable.inFrame _).trans
      (performs_step promoted _)).trans writes).leaves ?_⟩
    intro situation value _ agrees evaluated
    obtain ⟨old, new, isOld, isNew, rfl, newTyped, rfl, rfl⟩ := evaluates agrees evaluated
    refine ⟨⟨new.word :: situation.stack, situation.store⟩,
      ⟨⟨old.word :: situation.stack, situation.store⟩, ⟨old, isOld, rfl⟩,
      old, new, _, rfl, isNew, rfl, rfl⟩, new, _, newTyped, rfl, ?_⟩
    cases wanted <;> cases isBefore <;> first | rfl | exact absurd rfl keeps

end Lowered

end MethodPatch
