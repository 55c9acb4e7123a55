/-
**How lowered expressions move the stack.**

`Lowered.Sound` relates the ways in which an expression is lowered to what is known of its types: code
that is generated for the value of an expression leaves a value of its type, a condition leaves the
stack alone, and so on. Each shape of lowered expressions is sound if
the code that it is made from is.

* `Sound.ofValue`, `Sound.ofCondition`, `Sound.ofQualifier`: the shapes of lowered expressions;
* `decides_branchesOf`: conditions of which the second may be skipped.
-/

import MethodPatch.Proofs.Stack.Name

namespace MethodPatch

open Generator

/-- Code that leaves a value of the type that is known, or nothing if the value is not wanted. -/
def Emits (wanted : Bool) (action : Emit StaticType) (typed : Except SourceError StaticType) :
    Prop :=
  ∀ {base : Generator} {slots before type after}, base.Raises slots before → Yields action before type after →
    typed = .ok type ∧ base.Raises (slots + if wanted then type.width else 0) after

/-- Branches of a condition that leave the stack alone. -/
def Decides (branches : Bool → Emit (List Nat)) (typed : Except SourceError StaticType) : Prop :=
  ∀ {outcome jumps} {before after : Generator}, Yields (branches outcome) before jumps after →
    typed = .ok (.value .boolean) ∧ before.Splits jumps after

/-- What the ways of lowering an expression leave on the stack, given what is known of its types. -/
structure Lowered.Sound (lowered : Lowered) (typed : Typed) : Prop where
  value : Emits true lowered.value typed.value
  qualifier : ∀ {base : Generator} {slots before qualifier after}, base.Raises slots before →
    Yields lowered.qualifier before qualifier after →
      typed.qualifier = .ok qualifier ∧ base.Raises (slots + qualifier.width) after
  branches : Decides lowered.branches typed.value
  place : ∀ {base : Generator} {slots before place after}, base.Raises slots before →
    Yields lowered.place before place after →
      typed.place = .ok place ∧ base.Raises (slots + place.operands) after
  effect : ∀ {base : Generator} {slots before done after}, base.Raises slots before →
    Yields lowered.effect before done after → base.Raises slots after
  append : ∀ {base : Generator} {slots before done after}, base.Raises (slots + 1) before →
    Yields lowered.append before done after → base.Raises (slots + 1) after

variable {base before after : Generator} {slots : Nat} {done : Unit} {position : Position}
  {site : Site} {type : StaticType} {typed : Except SourceError StaticType}

theorem requireBoolean_eq {found : StaticType} {checked : Unit}
    (required : requireBoolean found position = .ok checked) : found = .value .boolean := by
  unfold requireBoolean at required
  split at required
  · assumption
  · cases required

theorem width_of_requireInt {found : StaticType} {checked : Unit}
    (required : requireInt found position = .ok checked) : found.width = 1 := by
  unfold requireInt at required
  split at required
  · split at required
    · next isNumber => exact FieldType.width_of_numeric isNumber
    · cases required
  · cases required

theorem Typed.condition_eq {operand : Typed} (typed : operand.value = .ok (.value .boolean)) :
    operand.condition position = .ok () := by
  unfold Typed.condition
  rw [typed]
  rfl

/-! ### Conditions -/

theorem emits_booleanOf {branches : Emit (List Nat)}
    (splits : ∀ {jumps} {before after : Generator}, Yields branches before jumps after →
      before.Splits jumps after)
    (raises : base.Raises slots before)
    (yields : Yields (Emit.booleanOf branches) before type after) :
    type = .value .boolean ∧ base.Raises (slots + 1) after := by
  simp only [Emit.booleanOf, yields_bind, Emit.yields_depth, Emit.yields_instr,
    Emit.yields_branch, Emit.yields_landHere, Emit.yields_setDepth, yields_pure] at yields
  obtain ⟨skips, tested, condition, _, _, ⟨rfl, rfl⟩, _, _, rfl, _, _, ⟨rfl, rfl⟩, _, _, rfl,
    _, _, rfl, _, _, rfl, _, _, rfl, rfl, rfl⟩ := yields
  have constant : ∀ (start : Generator) (value : Int8), start.Raises 1 (start.push (.iconst value)) :=
    fun start _ => (Raises.refl start).push rfl (Nat.zero_le _) rfl
  exact ⟨rfl, raises.choice (splits condition) (constant _ 1) (constant _ 0)⟩

theorem decides_branchOnValue {value : Emit StaticType} (emits : Emits true value typed) :
    Decides (fun outcome => do Emit.branchOnValue (← value) position outcome) typed := by
  intro outcome jumps before after yields
  simp only [yields_bind, Emit.branchOnValue, yields_liftExcept, Emit.yields_branch,
    yields_pure] at yields
  obtain ⟨type, middle, yields, _, _, ⟨required, rfl⟩, _, _, ⟨rfl, rfl⟩, rfl, rfl⟩ := yields
  obtain ⟨known, raises⟩ := emits (.refl before) yields
  cases requireBoolean_eq required
  rw [Nat.zero_add] at raises
  exact ⟨known, .branch raises⟩

theorem decides_branchesOf {op : LogicalOp} {left right : Bool → Emit (List Nat)}
    {first second : Typed} {leftPosition rightPosition : Position}
    (decidesLeft : Decides left first.value) (decidesRight : Decides right second.value) :
    Decides (Emit.branchesOf op left right) (do
      first.condition leftPosition
      second.condition rightPosition
      return .value .boolean) := by
  intro outcome jumps before after yields
  simp only [Emit.branchesOf, yields_ite, yields_bind, Emit.yields_landHere, yields_pure] at yields
  obtain ⟨_, jumps, _, isLeft, others, _, isRight, rfl, rfl⟩ |
    ⟨_, skips, _, isLeft, others, _, isRight, _, _, rfl, rfl, rfl⟩ := yields
  · obtain ⟨leftTyped, splits⟩ := decidesLeft isLeft
    obtain ⟨rightTyped, behind⟩ := decidesRight isRight
    rw [Typed.condition_eq leftTyped, Typed.condition_eq rightTyped]
    exact ⟨rfl, splits.either behind⟩
  · obtain ⟨leftTyped, splits⟩ := decidesLeft isLeft
    obtain ⟨rightTyped, behind⟩ := decidesRight isRight
    rw [Typed.condition_eq leftTyped, Typed.condition_eq rightTyped]
    exact ⟨rfl, splits.skipping behind⟩

namespace Lowered

/-! ### Shapes -/

theorem Sound.ofValue (position : Position) {value : Emit StaticType} (emits : Emits true value typed) :
    (Lowered.ofValue position value).Sound (.ofValue position typed) where
  value := emits
  qualifier := by
    intro base slots before qualifier after raises yields
    simp only [Lowered.ofValue, yields_bind, yields_pure] at yields
    obtain ⟨type, _, yields, rfl, rfl⟩ := yields
    obtain ⟨known, raises⟩ := emits raises yields
    exact ⟨by rw [Typed.ofValue, known]; rfl, raises⟩
  branches := decides_branchOnValue emits
  place := fun _ yields => absurd yields yields_throw
  effect := by
    intro base slots before done after raises yields
    simp only [Lowered.ofValue, yields_bind, Emit.yields_instrs] at yields
    obtain ⟨type, _, yields, rfl⟩ := yields
    exact raises_drop (emits raises yields).2
  append := by
    intro base slots before done after raises yields
    simp only [Lowered.ofValue, yields_bind] at yields
    obtain ⟨type, _, yields, appended⟩ := yields
    exact raises_append (emits raises yields).2 appended

theorem Sound.ofCondition {branches : Bool → Emit (List Nat)} (decides : Decides branches typed) :
    (Lowered.ofCondition position branches).Sound (.ofValue position typed) := by
  have emits : Emits true (Emit.booleanOf (branches false)) typed := by
    intro base slots before type after raises yields
    have known : typed = .ok (.value .boolean) := by
      simp only [Emit.booleanOf, yields_bind] at yields
      obtain ⟨_, _, yields, _⟩ := yields
      exact (decides yields).1
    obtain ⟨rfl, raises⟩ := emits_booleanOf (fun yields => (decides yields).2) raises yields
    exact ⟨known, raises⟩
  exact { Sound.ofValue position emits with branches := decides }

theorem Sound.ofQualifier {unknown : String → ReferenceFault} {qualifier : Emit Qualifier}
    {place : Emit Place} {typedQualifier : Except SourceError Qualifier}
    {typedPlace : Except SourceError Place}
    (stands : ∀ {base : Generator} {slots before answer after}, base.Raises slots before →
      Yields qualifier before answer after →
        typedQualifier = .ok answer ∧ base.Raises (slots + answer.width) after)
    (places : ∀ {base : Generator} {slots before answer after}, base.Raises slots before →
      Yields place before answer after →
        typedPlace = .ok answer ∧ base.Raises (slots + answer.operands) after) :
    (Lowered.ofQualifier position unknown qualifier place).Sound
      ⟨do (← typedQualifier).asValue unknown position, typedQualifier, typedPlace⟩ := by
  have emits : Emits true (do liftExcept ((← qualifier).asValue unknown position))
      (do (← typedQualifier).asValue unknown position) := by
    intro base slots before type after raises yields
    simp only [yields_bind, yields_liftExcept] at yields
    obtain ⟨answer, _, yields, isValue, rfl⟩ := yields
    obtain ⟨known, raises⟩ := stands raises yields
    refine ⟨by rw [known]; exact isValue, ?_⟩
    cases answer <;> cases isValue
    exact raises
  exact { Sound.ofValue position emits with qualifier := stands, place := places }

theorem Sound.boolean (value : Bool) :
    (Lowered.boolean position value).Sound (.ofValue position (.ok (.value .boolean))) := by
  have emits : Emits true
      (do
        Emit.literal (.boolean value)
        return .value .boolean) (.ok (.value .boolean)) := by
    intro base slots before type after raises yields
    simp only [yields_bind, yields_pure] at yields
    obtain ⟨_, _, yields, rfl, rfl⟩ := yields
    exact ⟨rfl, raises_literal raises yields⟩
  refine { Sound.ofValue position emits with branches := ?_ }
  intro outcome jumps before after yields
  simp only [Lowered.boolean, yields_ite, yields_bind, Emit.yields_branch, yields_pure] at yields
  obtain ⟨_, _, _, ⟨rfl, rfl⟩, rfl, rfl⟩ | ⟨_, rfl, rfl⟩ := yields
  · exact ⟨rfl, .always before⟩
  · exact ⟨rfl, .never after⟩

theorem Sound.ofWanted {value : Bool → Emit StaticType}
    (emits : ∀ wanted, Emits wanted (value wanted) typed) :
    (Lowered.ofWanted position value).Sound (.ofValue position typed) := by
  refine { Sound.ofValue position (emits true) with effect := ?_ }
  intro base slots before done after raises yields
  simp only [Lowered.ofWanted, yields_bind, yields_pure] at yields
  obtain ⟨type, _, yields, _, rfl⟩ := yields
  exact (emits false raises yields).2

/-! ### Elements of arrays -/

section Elements

variable {first second : Lowered} {firstTyped secondTyped : Typed}

theorem Sound.element {indexPosition : Position} (array : first.Sound firstTyped)
    (index : second.Sound secondTyped) :
    (Lowered.element first second indexPosition position).Sound
      (.element firstTyped secondTyped indexPosition position) := by
  have found : ∀ {base : Generator} {slots before answer after}, base.Raises slots before →
      Yields (elementPlace first second indexPosition position) before answer after →
        (do
          let type ← elementType (← firstTyped.value) position
          requireInt (← secondTyped.value) indexPosition
          return type) = .ok answer ∧ base.Raises (slots + 2) after := by
    intro base slots before answer after raises yields
    simp only [elementPlace, yields_bind, yields_liftExcept, yields_pure] at yields
    obtain ⟨arrayType, _, isArray, _, _, ⟨isElement, rfl⟩, indexType, _, isIndex, _, _,
      ⟨isInt, rfl⟩, rfl, rfl⟩ := yields
    obtain ⟨arrayTyped, raises⟩ := array.value raises isArray
    obtain ⟨indexTyped, raises⟩ := index.value raises isIndex
    refine ⟨?_, ?_⟩
    · rw [arrayTyped, indexTyped]
      show (do
        let type ← elementType arrayType position
        requireInt indexType indexPosition
        return type) = _
      rw [isElement]
      show (do
        requireInt indexType indexPosition
        return answer) = _
      rw [isInt]
      rfl
    · have one : arrayType.width = 1 := by
        unfold elementType at isElement
        split at isElement
        · rfl
        · cases isElement
      simpa [one, width_of_requireInt isInt] using raises
  have emits : Emits true (do
      let type ← elementPlace first second indexPosition position
      Emit.read (.element type)
      return .value type) (Typed.element firstTyped secondTyped indexPosition position).value := by
    intro base slots before type after raises yields
    simp only [yields_bind, yields_pure] at yields
    obtain ⟨element, _, isElement, _, _, read, rfl, rfl⟩ := yields
    obtain ⟨known, raises⟩ := found raises isElement
    exact ⟨by rw [Typed.element, known]; rfl, raises_read (raises : base.Raises (slots + (Place.element element).operands) _) read⟩
  refine { Sound.ofValue position emits with qualifier := ?_, place := ?_ }
  · intro base slots before qualifier after raises yields
    obtain ⟨known, raises⟩ := (Sound.ofValue position emits).qualifier raises yields
    refine ⟨?_, raises⟩
    rw [← known]
    simp only [Typed.element, Typed.ofValue, Except.map]
    split <;> rfl
  · intro base slots before place after raises yields
    simp only [Lowered.element, yields_bind, yields_pure] at yields
    obtain ⟨element, _, isElement, rfl, rfl⟩ := yields
    obtain ⟨known, raises⟩ := found raises isElement
    exact ⟨by rw [Typed.element, known]; rfl, raises⟩

end Elements

end Lowered

end MethodPatch
