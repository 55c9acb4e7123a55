/-
**Expressions keep the discipline of the stack.**

* `Expr.sound`: lowering an expression is sound for what is known of its types. The only thing asked
  of the host is that constructors are called on an object and return nothing, since the code of
  `new` keeps a second reference to the object and has no other result.

The induction is on expressions and lists of arguments together.
-/

import MethodPatch.Proofs.Stack.Assign
import MethodPatch.Proofs.Typing.Selection

namespace MethodPatch

open Generator

/-- Constructors are called on an object and return nothing. -/
def Host.PlainConstructors (host : Host) : Prop :=
  ∀ owner, ∀ method ∈ host.methods owner constructorName,
    method.isStatic = false ∧ method.signature.result = none

variable {base before after : Generator} {slots : Nat} {done : Unit} {position : Position}
  {site : Site} {scope : Scope}

/-! ### Methods that are selected -/

/-- A selected method is a candidate that takes as many arguments as there are. -/
theorem Host.select_eq {host : Host} {candidates : List MethodRef} {name : String}
    {arguments : List StaticType} {method : MethodRef}
    (selected : host.select candidates name arguments position = .ok method) :
    method ∈ candidates ∧ method.signature.parameters.length = arguments.length := by
  obtain ⟨strict, phase⟩ := host.exists_phase candidates arguments
  obtain ⟨isCandidate, applicable⟩ := phase.of_select selected
  exact ⟨isCandidate, (List.Forall₂.length_eq applicable).symm⟩

theorem Site.mem_of_calledMethod {owner name : String} {receiver : Receiver}
    {arguments : List StaticType} {method : MethodRef}
    (called : site.calledMethod owner receiver name arguments position = .ok method) :
    method ∈ site.host.methods owner name := by
  unfold calledMethod at called
  obtain ⟨found, selected, accepted⟩ := bind_eq_ok.mp called
  split at accepted <;> cases accepted
  exact (Host.select_eq selected).1

theorem Site.calledMethod_eq {owner name : String} {receiver : Receiver}
    {arguments : List StaticType} {method : MethodRef}
    (called : site.calledMethod owner receiver name arguments position = .ok method) :
    method.signature.parameters.length = arguments.length ∧
      (method.isStatic = false → receiver ≠ .classRef) := by
  unfold calledMethod at called
  cases selected : site.host.select (site.host.methods owner name) name arguments position with
  | error error =>
    rw [selected] at called
    cases called
  | ok found =>
    rw [selected] at called
    simp only [bind, Except.bind] at called
    split at called
    · cases called
    · next allowed =>
      cases called
      refine ⟨(Host.select_eq selected).2, ?_⟩
      rintro isInstance rfl
      simp [isInstance] at allowed

theorem Site.constructor_eq {className : String} {arguments : List StaticType} {method : MethodRef}
    (plain : site.host.PlainConstructors)
    (found : site.constructor className arguments position = .ok method) :
    method.isStatic = false ∧ method.signature.result = none ∧
      method.signature.parameters.length = arguments.length := by
  unfold constructor at found
  split at found
  · cases found
    exact ⟨rfl, rfl, List.length_map _⟩
  · obtain ⟨isCandidate, length⟩ := Host.select_eq found
    obtain ⟨isInstance, noResult⟩ := plain className method isCandidate
    exact ⟨isInstance, noResult, length⟩

theorem Qualifier.receiver_eq {qualifier : Qualifier} {owner : String} {receiver : Receiver}
    (found : qualifier.receiver position = .ok (owner, receiver)) :
    receiver.width = qualifier.width := by
  unfold Qualifier.receiver at found
  split at found <;> cases found <;> rfl

theorem argumentTypes_length {arguments : List Expr} {types : List StaticType}
    (typed : argumentTypes site scope arguments = .ok types) :
    types.length = arguments.length := by
  induction arguments generalizing types with
  | nil =>
    rw [argumentTypes] at typed
    cases typed
    rfl
  | cons first rest ih =>
    rw [argumentTypes] at typed
    cases isFirst : (first.typed site scope).value with
    | error error =>
      rw [isFirst] at typed
      cases typed
    | ok type =>
      rw [isFirst] at typed
      simp only [bind, Except.bind] at typed
      split at typed
      · cases typed
      · split at typed
        · cases typed
        · next others isRest =>
          cases typed
          rw [List.length_cons, List.length_cons, ih isRest]

/-! ### Expressions -/

mutual

/-- **Lowered expressions keep the discipline of the stack**, and have the types that are known
without generating code. -/
theorem Expr.sound (plain : site.host.PlainConstructors) (scope : Scope) :
    (expression : Expr) → (expression.lower site scope).Sound (expression.typed site scope)
  | .literal (.boolean value) position => .boolean value
  | .literal (.int value) position | .literal (.long value) position
  | .literal (.float value) position | .literal (.double value) position
  | .literal (.char value) position | .literal (.string value) position
  | .literal .null position => by
    refine .ofValue position ?_
    intro base slots before type after raises yields
    simp only [yields_bind, yields_pure] at yields
    obtain ⟨_, _, yields, rfl, rfl⟩ := yields
    exact ⟨rfl, raises_literal raises yields⟩
  | .name name position =>
    .ofQualifier (fun raises yields => raises_name raises yields)
      (fun raises yields => raises_namePlace raises yields)
  | .this position => by
    refine .ofValue position ?_
    intro base slots before type after raises yields
    simp only [yields_bind, yields_liftExcept, yields_pure] at yields
    obtain ⟨_, _, ⟨known, rfl⟩, _, _, yields, rfl, rfl⟩ := yields
    have width : type.width = 1 := by
      unfold Site.thisType at known
      split at known <;> cases known
      rfl
    exact ⟨known, width ▸ raises_this raises yields⟩
  | .member object name position => by
    have sound := object.sound plain scope
    refine .ofQualifier ?_ ?_
    · intro base slots before answer after raises yields
      simp only [yields_bind] at yields
      obtain ⟨front, _, stands, yields⟩ := yields
      obtain ⟨known, raises⟩ := sound.qualifier raises stands
      obtain ⟨⟨member, found, rfl⟩, raises⟩ := raises_member raises yields
      refine ⟨?_, raises⟩
      rw [known]
      show (do return (← site.member front name position).qualifier) = _
      rw [found]
      rfl
    · intro base slots before answer after raises yields
      simp only [yields_bind] at yields
      obtain ⟨front, _, stands, yields⟩ := yields
      obtain ⟨known, raises⟩ := sound.qualifier raises stands
      obtain ⟨⟨field, found, rfl⟩, raises⟩ := raises_memberPlace raises yields
      refine ⟨?_, raises⟩
      rw [known]
      show (do return Place.field (← site.memberPlace front name position).1) = _
      rw [found]
      rfl
  | .call none name arguments position => by
    refine .ofValue position ?_
    intro base slots before type after raises yields
    simp only [yields_bind, yields_liftExcept] at yields
    obtain ⟨types, _, ⟨typed, rfl⟩, method, _, ⟨called, rfl⟩, yields⟩ := yields
    obtain ⟨length, allowed⟩ := Site.calledMethod_eq called
    have same : arguments.length = method.signature.parameters.length := by
      rw [length, argumentTypes_length typed]
    obtain ⟨rfl, raises⟩ := Lowered.raises_call allowed
      (fun raises yields => lowerArguments_raises plain scope arguments _ same raises yields)
      raises yields
    refine ⟨?_, raises⟩
    rw [typed]
    show (do
      let method ← site.calledMethod site.method.className .implicit name types position
      return method.resultType) = _
    rw [called]
    rfl
  | .call (some callee) name arguments position => by
    have sound := callee.sound plain scope
    refine .ofValue position ?_
    intro base slots before type after raises yields
    simp only [yields_bind, yields_liftExcept] at yields
    obtain ⟨front, _, stands, ⟨owner, receiver⟩, _, ⟨found, rfl⟩, types, _, ⟨typed, rfl⟩,
      method, _, ⟨called, rfl⟩, yields⟩ := yields
    obtain ⟨known, raises⟩ := sound.qualifier raises stands
    obtain ⟨length, allowed⟩ := Site.calledMethod_eq called
    have same : arguments.length = method.signature.parameters.length := by
      rw [length, argumentTypes_length typed]
    rw [← Qualifier.receiver_eq found] at raises
    obtain ⟨rfl, raises⟩ := Lowered.raises_call allowed
      (fun raises yields => lowerArguments_raises plain scope arguments _ same raises yields)
      raises yields
    refine ⟨?_, raises⟩
    rw [known]
    show (do
      let (owner, receiver) ← front.receiver callee.position
      let types ← argumentTypes site scope arguments
      let method ← site.calledMethod owner receiver name types position
      return method.resultType) = _
    rw [found, typed]
    show (do
      let method ← site.calledMethod owner receiver name types position
      return method.resultType) = _
    rw [called]
    rfl
  | .new type arguments position => by
    refine .ofValue position ?_
    intro base slots before answer after raises yields
    simp only [yields_bind, yields_liftExcept, yields_pure] at yields
    obtain ⟨className, _, ⟨isClass, rfl⟩, types, _, ⟨typed, rfl⟩, method, _, ⟨found, rfl⟩,
      _, _, made, _, _, passed, _, _, called, rfl, rfl⟩ := yields
    obtain ⟨isInstance, noResult, length⟩ := Site.constructor_eq plain found
    have same : arguments.length = method.signature.parameters.length := by
      rw [length, argumentTypes_length typed]
    have raises := lowerArguments_raises plain scope arguments _ same
      (raises_newObject raises made) passed
    have receiver : (site.host.dispatch method).receiver = 1 := by
      rw [Host.receiver_dispatch, isInstance]
      rfl
    have result : method.signature.resultSlots = 0 := by
      rw [Signature.resultSlots, noResult]
    rw [show slots + 2 = slots + 1 + (site.host.dispatch method).receiver by rw [receiver]] at raises
    have raises := raises_invoke (slots + 1) raises called
    rw [result] at raises
    refine ⟨?_, raises⟩
    rw [isClass, typed]
    show (do
      let _ ← site.constructor className types position
      return StaticType.value (.object className)) = _
    rw [found]
    rfl
  | .newArray element length position => by
    refine .ofValue position ?_
    intro base slots before type after raises yields
    simp only [yields_bind, yields_liftExcept] at yields
    obtain ⟨target, _, ⟨isType, rfl⟩, yields⟩ := yields
    obtain ⟨known, raises⟩ :=
      Lowered.emits_newArray (length.sound plain scope) raises yields
    refine ⟨?_, raises⟩
    rw [isType, ← known]
    rfl
  | .index array index position =>
    .element (array.sound plain scope) (index.sound plain scope)
  | .assign target op value position => by
    refine .ofWanted fun wanted => ?_
    cases site.intVariable? scope target with
    | none => exact Lowered.emits_assign (target.sound plain scope) (value.sound plain scope)
    | some slot =>
      cases incrementBy? op value with
      | none => exact Lowered.emits_assign (target.sound plain scope) (value.sound plain scope)
      | some delta => exact Lowered.emits_increment
  | .update op isBefore target position => by
    refine .ofWanted fun wanted => ?_
    cases site.intVariable? scope target with
    | none => exact Lowered.emits_update (target.sound plain scope)
    | some slot => exact Lowered.emits_updateVariable
  | .unary .not operand position => by
    refine .ofCondition ?_
    intro outcome jumps before after yields
    obtain ⟨known, splits⟩ := (operand.sound plain scope).branches yields
    refine ⟨?_, splits⟩
    rw [Typed.condition_eq known]
    rfl
  | .unary .minus operand position | .unary .plus operand position
  | .unary .complement operand position =>
    .ofValue position (Lowered.emits_unary (operand.sound plain scope))
  | .binary (.compare wanted) left right position => by
    refine .ofCondition ?_
    intro outcome jumps before after yields
    simp only [yields_bind, yields_liftExcept, yields_pure] at yields
    obtain ⟨leftType, _, ⟨isLeft, rfl⟩, rightType, _, ⟨isRight, rfl⟩, plan, _, ⟨planned, rfl⟩,
      branch, _, compared, rfl, rfl⟩ := yields
    refine ⟨?_, Lowered.splits_comparison (left.sound plain scope) (right.sound plain scope)
      isLeft isRight (comparisonPlan_eq planned) compared⟩
    rw [show (left.typed site scope).value = _ from isLeft,
      show (right.typed site scope).value = _ from isRight]
    show (do
      let _ ← comparisonPlan wanted leftType rightType position
      return StaticType.value .boolean) = _
    rw [planned]
    rfl
  | .binary (.compute op) left right position =>
    .compute (left.sound plain scope) (right.sound plain scope)
  | .logical op left right position =>
    .ofCondition (decides_branchesOf (left.sound plain scope).branches
      (right.sound plain scope).branches)
  | .conditional test first second position => by
    refine .ofValue position ?_
    intro base slots before type after raises yields
    simp only [yields_bind, yields_liftExcept] at yields
    obtain ⟨firstType, _, ⟨isFirst, rfl⟩, secondType, _, ⟨isSecond, rfl⟩, result, _,
      ⟨typed, rfl⟩, yields⟩ := yields
    obtain ⟨firstBecomes, secondBecomes⟩ := conditionalType_becomes (conditionalType_eq typed)
    obtain ⟨isTest, rfl, raises⟩ := Lowered.raises_conditional (test.sound plain scope)
      (first.sound plain scope) (second.sound plain scope)
      (fun _ known => Except.ok.inj (isFirst.symm.trans known) ▸ firstBecomes)
      (fun _ known => Except.ok.inj (isSecond.symm.trans known) ▸ secondBecomes) raises yields
    refine ⟨?_, raises⟩
    rw [show (first.typed site scope).value = _ from isFirst,
      show (second.typed site scope).value = _ from isSecond, Typed.condition_eq isTest]
    show (do
      let result ← site.host.conditionalType firstType secondType position
      let _ ← (.ok () : Except SourceError Unit)
      return result) = _
    rw [typed]
    rfl
  | .cast type operand position => by
    refine .ofValue position ?_
    intro base slots before answer after raises yields
    simp only [yields_bind, yields_liftExcept] at yields
    obtain ⟨target, _, ⟨isType, rfl⟩, yields⟩ := yields
    obtain ⟨known, raises⟩ := Lowered.emits_cast (operand.sound plain scope) raises yields
    refine ⟨?_, raises⟩
    rw [isType, ← known]
    rfl
  | .instanceOf operand type position => by
    refine .ofValue position ?_
    intro base slots before answer after raises yields
    simp only [yields_bind, yields_liftExcept] at yields
    obtain ⟨target, _, ⟨isType, rfl⟩, yields⟩ := yields
    obtain ⟨known, raises⟩ := Lowered.emits_instanceOf (operand.sound plain scope) raises yields
    refine ⟨?_, raises⟩
    rw [isType, ← known]
    rfl

/-- Arguments leave the slots of their parameters. -/
theorem lowerArguments_raises (plain : site.host.PlainConstructors) (scope : Scope) :
    (arguments : List Expr) → (parameters : List FieldType) →
      arguments.length = parameters.length →
      ∀ {base : Generator} {slots before done after}, base.Raises slots before →
        Yields (lowerArguments site scope arguments parameters) before done after →
          base.Raises (slots + total FieldType.width parameters) after
  | [], [], _, _, _, _, _, _, raises, yields => by
    simp only [lowerArguments, yields_pure] at yields
    obtain ⟨_, rfl⟩ := yields
    exact raises
  | first :: rest, parameter :: parameters, length, _, _, _, _, _, raises, yields => by
    simp only [lowerArguments, yields_bind] at yields
    obtain ⟨_, _, passed, others⟩ := yields
    have raises := Lowered.raises_argument (first.sound plain scope) raises passed
    have raises := lowerArguments_raises plain scope rest parameters
      (Nat.succ.inj length) raises others
    rw [Nat.add_assoc] at raises
    exact raises

end

end MethodPatch
