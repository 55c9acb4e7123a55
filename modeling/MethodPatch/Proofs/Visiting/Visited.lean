/-
**Visited expressions beside lowered ones.**

`Visited.Agrees` relates the ways in which an expression is visited to those in which it is lowered
and to what is known of its types: visits that generate are the lowered ways, and visits that probe
answer as known. Each shape of expressions agrees if the visits that it is made from do.

* `agrees_name`, `agrees_member`, …: names, members and conditions;
* `Agrees.ofValue`, `Agrees.ofCondition`, `Agrees.ofQualifier`: the shapes.
-/

import MethodPatch.Visit.Expr
import MethodPatch.Proofs.Visiting.Agrees
import MethodPatch.Proofs.Probing.Lowered

namespace MethodPatch

/-- The ways in which an expression is visited agree with those in which it is lowered. Only visits
that generate append operands. -/
structure Visited.Agrees (visited : Visited) (lowered : Lowered) (typed : Typed)
    (position : Position) : Prop where
  value : Visit.Agrees id visited.value lowered.value typed.value
  qualifier : Visit.Agrees id visited.qualifier lowered.qualifier typed.qualifier
  branches : ∀ outcome, Visit.Agrees (fun _ => ()) (visited.branches outcome)
    (lowered.branches outcome) (typed.condition position)
  place : Visit.Agrees id visited.place lowered.place typed.place
  append : Visit.Generates visited.append lowered.append

variable {site : Site} {scope : Scope} {position : Position}

namespace Visit

/-! ### Constants, members and calls -/

theorem inert_number (small : Option Instr) (load : PoolIndex → Instr) (value : Constant) :
    Inert (Visit.number small load value) (Emit.number small load value) := by
  cases small with
  | some instr => exact .instr instr
  | none => exact (Agrees.constant _).bind fun _ => .instr _

theorem inert_literal (value : Literal) : Inert (Visit.literal value) (Emit.literal value) := by
  cases value with
  | string text => exact (Agrees.constant _).bind fun _ => .instr _
  | boolean _ | null => exact .instr _
  | _ => exact inert_number _ _ _

theorem inert_field (ofClass ofObject : FieldAccess) (found : FieldRef) :
    Inert (Visit.field ofClass ofObject found) (Emit.field ofClass ofObject found) :=
  .after (.constant _) fun _ => .instr _

theorem inert_read (place : Place) : Inert (Visit.read place) (Emit.read place) := by
  cases place with
  | «variable» slot type => exact .instr _
  | field found => exact inert_field _ _ found
  | element type => exact .instr _

theorem inert_write (place : Place) : Inert (Visit.write place) (Emit.write place) := by
  cases place with
  | «variable» slot type => exact .instr _
  | field found => exact inert_field _ _ found
  | element type => exact .instr _

theorem generates_fail {α : Type} (fault : InternalFault) :
    Generates (Visit.fail fault : Visit α) (Emit.fail fault) := fun _ _ => rfl

theorem generates_invoke (dispatch : Dispatch) (method : MethodRef) :
    Generates (Visit.invoke dispatch method) (Emit.invoke dispatch method) := by
  refine .after (.constant _) fun index => ?_
  dsimp only
  split
  · exact (generates_fail _).bind fun _ => (Agrees.instr _).generates
  · exact (Agrees.instr _).generates

/-- A call with few arguments does nothing while probing. -/
theorem inert_invoke (dispatch : Dispatch) {method : MethodRef}
    (few : method.signature.parameterSlots ≤ 255) :
    Inert (Visit.invoke dispatch method) (Emit.invoke dispatch method) := by
  refine .after (.constant _) fun index => ?_
  dsimp only
  rw [if_neg (UInt16.not_lt.mpr few), if_neg (UInt16.not_lt.mpr few)]
  exact .instr _

theorem inert_newObject (className : String) :
    Inert (Visit.newObject className) (Emit.newObject className) :=
  .after (.constant _) fun _ => .after (.instr _) fun _ => .instr _

/-! ### Names -/

theorem agrees_name (site : Site) (scope : Scope) (name : String) (position : Position) :
    Agrees id (Visit.name site scope name position) (Emit.name site scope name position)
      (site.nameQualifier scope name position) := by
  unfold Visit.name Emit.name Site.nameQualifier
  cases site.nameUse? scope name with
  | none => exact .pure _
  | some use =>
    cases use with
    | «variable» slot type => exact .after (.instr _) fun _ => .pure _
    | classRef className => exact .pure _
    | field found =>
      refine .checked fun _ => .maybe (.instr _) ?_
      exact .after (inert_field _ _ found) fun _ => .pure _

theorem agrees_namePlace (site : Site) (scope : Scope) (name : String) (position : Position) :
    Agrees id (Visit.namePlace site scope name position)
      (Emit.namePlace site scope name position) (site.namePlace scope name position) := by
  unfold Visit.namePlace Emit.namePlace
  cases site.namePlace scope name position with
  | error error => exact .throw error
  | ok place => exact .maybe (.instr _) (.pure place)

theorem agrees_member (site : Site) (front : Qualifier) (name : String) (position : Position) :
    Agrees id (Visit.member site front name position) (Emit.member site front name position)
      (do return (← site.member front name position).qualifier) := by
  refine .check fun member _ => ?_
  cases member with
  | package name => exact .pure _
  | classRef className => exact .pure _
  | length => exact .after (.instr _) fun _ => .pure _
  | field found dropsValue =>
    exact .maybe (.instr _) (.after (inert_field _ _ found) fun _ => .pure _)

theorem agrees_memberPlace (site : Site) (front : Qualifier) (name : String)
    (position : Position) :
    Agrees id (Visit.memberPlace site front name position)
      (Emit.memberPlace site front name position)
      (do return .field (← site.memberPlace front name position).1) := by
  refine .check fun (found, dropsValue) _ => ?_
  exact .maybe (.instr _) (.pure _)

/-! ### Operands of joined strings -/

theorem generates_emptyBuilder : Generates Visit.emptyBuilder Emit.emptyBuilder :=
  .after (inert_newObject _) fun _ => generates_invoke _ _

theorem inert_builtString : Inert Visit.builtString Emit.builtString :=
  inert_invoke _ (by decide)

theorem inert_builderOfString : Inert Visit.builderOfString Emit.builderOfString :=
  .after (inert_invoke _ (by decide)) fun _ => .after (.constant _) fun _ =>
    .after (.instr _) fun _ => .after (.instrs _) fun _ => inert_invoke _ (by decide)

/-- A value is appended if there is one. -/
theorem agrees_append (type : StaticType) (position : Position) :
    Agrees id (Visit.append type position) (Emit.append type position)
      (requireValue type position) := by
  unfold Visit.append Emit.append requireValue
  cases appended : appendedType? type with
  | none =>
    rw [if_pos (Emit.appendedType?_eq_none.mp appended)]
    exact .throw _
  | some parameter =>
    rw [if_neg fun isVoid => by cases isVoid; cases appended]
    refine inert_invoke _ ?_
    show (0 : UInt16) + UInt16.ofNat parameter.width ≤ 255
    rw [FieldType.width_eq]
    split <;> decide

/-! ### Conditions -/

theorem inert_compareNumbers (type : Numeric) (wanted taken : Comparison) :
    Inert (Visit.compareNumbers type wanted taken) (Emit.compareNumbers type wanted taken) := by
  cases type with
  | int => exact .branch _
  | _ => exact .after (.instr _) fun _ => .branch _

theorem agrees_booleanOf {branches : Visit (List Nat)} {lowered : Emit (List Nat)}
    {known : Except SourceError Unit} (agrees : Agrees (fun _ => ()) branches lowered known) :
    Agrees id (Visit.booleanOf branches) (Emit.booleanOf lowered) (do
      known
      return .value .boolean) :=
  agrees.bind fun _ => .after .depth fun _ => .after (.instr _) fun _ =>
    .after (.branch _) fun _ => .after (.landHere _) fun _ => .after (.setDepth _) fun _ =>
      .after (.instr _) fun _ => .after (.landHere _) fun _ => .pure _

theorem agrees_branchOnValue (type : StaticType) (position : Position) (outcome : Bool) :
    Agrees (fun _ => ()) (Visit.branchOnValue type position outcome)
      (Emit.branchOnValue type position outcome) (requireBoolean type position) := by
  have same : requireBoolean type position = (requireBoolean type position).map fun _ => () := by
    cases requireBoolean type position <;> rfl
  rw [same]
  exact .checked fun _ => .after (.branch _) fun branch => .pure [branch]

theorem agrees_branchesOf (op : LogicalOp) {left right : Bool → Visit (List Nat)}
    {leftLowered rightLowered : Bool → Emit (List Nat)} {first second : Except SourceError Unit}
    (isLeft : ∀ outcome, Agrees (fun _ => ()) (left outcome) (leftLowered outcome) first)
    (isRight : ∀ outcome, Agrees (fun _ => ()) (right outcome) (rightLowered outcome) second)
    (outcome : Bool) :
    Agrees (fun _ => ()) (Visit.branchesOf op left right outcome)
      (Emit.branchesOf op leftLowered rightLowered outcome) (do
        first
        second) := by
  have same : second = (do second; return ()) := by cases second <;> rfl
  unfold Visit.branchesOf Emit.branchesOf
  rw [same]
  split
  · exact (isLeft outcome).bind fun skips => (isRight outcome).bind fun jumps => .pure _
  · exact (isLeft _).bind fun skips => (isRight outcome).bind fun jumps =>
      .after (.landHere _) fun _ => .pure _

end Visit

namespace Visited

open Visit

/-! ### Shapes -/

section Shapes

variable {typed : Except SourceError StaticType}

theorem Agrees.ofValue (position : Position) {value : Visit StaticType}
    {lowered : Emit StaticType} (agrees : Visit.Agrees id value lowered typed) :
    (Visited.ofValue position value).Agrees (.ofValue position lowered) (.ofValue position typed)
      position where
  value := agrees
  qualifier := agrees.made fun _ => .pure _
  branches := fun outcome => agrees.bind fun type => agrees_branchOnValue type position outcome
  place := .throw _
  append := agrees.generates.bind fun type => (agrees_append type position).generates

theorem Agrees.ofWanted (position : Position) {value : Visit StaticType}
    {lowered : Bool → Emit StaticType} (agrees : Visit.Agrees id value (lowered true) typed) :
    (Visited.ofValue position value).Agrees (.ofWanted position lowered) (.ofValue position typed)
      position :=
  { Agrees.ofValue position agrees with }

theorem Agrees.ofCondition (position : Position) {branches : Bool → Visit (List Nat)}
    {lowered : Bool → Emit (List Nat)} {known : Except SourceError Unit}
    (agrees : ∀ outcome, Visit.Agrees (fun _ => ()) (branches outcome) (lowered outcome) known) :
    (Visited.ofCondition position branches).Agrees (.ofCondition position lowered)
      (.ofValue position (do
        known
        return .value .boolean)) position :=
  { Agrees.ofValue position (agrees_booleanOf (agrees false)) with
    branches := fun outcome => by
      rw [Lowered.condition_ofCondition]
      exact agrees outcome }

theorem Agrees.ofQualifier {unknown : String → ReferenceFault} {qualifier : Visit Qualifier}
    {place : Visit Place} {front : Emit Qualifier} {stored : Emit Place}
    {knownFront : Except SourceError Qualifier} {knownPlace : Except SourceError Place}
    (isFront : Visit.Agrees id qualifier front knownFront)
    (isPlace : Visit.Agrees id place stored knownPlace) :
    (Visited.ofQualifier position unknown qualifier place).Agrees
      (.ofQualifier position unknown front stored)
      ⟨do (← knownFront).asValue unknown position, knownFront, knownPlace⟩ position := by
  have value : Visit.Agrees id (do liftExcept ((← qualifier).asValue unknown position))
      (do liftExcept ((← front).asValue unknown position))
      (do (← knownFront).asValue unknown position) :=
    isFront.bind fun found => .lift (found.asValue unknown position)
  exact { Agrees.ofValue position value with
    qualifier := isFront
    place := isPlace }

theorem Agrees.boolean (position : Position) (value : Bool) :
    (Visited.boolean position value).Agrees (.boolean position value)
      (.ofValue position (.ok (.value .boolean))) position :=
  { Agrees.ofValue position (.after (inert_literal (.boolean value)) fun _ => .pure _) with
    branches := fun outcome => by
      show Visit.Agrees _ (if value = outcome then _ else _) (if value = outcome then _ else _) _
      split
      · exact .after (.branch _) fun branch => .pure [branch]
      · exact .pure [] }

/-- A value that is read from an element. -/
theorem Agrees.ofElement (position : Position) {place : Visit FieldType} {lowered : Emit FieldType}
    {known : Except SourceError FieldType} (agrees : Visit.Agrees id place lowered known) :
    Visited.Agrees
      { Visited.ofValue position do
          let type ← place
          Visit.read (.element type)
          return .value type
        with place := return .element (← place) }
      { Lowered.ofValue position do
          let type ← lowered
          Emit.read (.element type)
          return .value type
        with place := return .element (← lowered) }
      ⟨known.map .value, known.map fun type => .value (.value type), known.map .element⟩
      position := by
  have value : Visit.Agrees id (do
      let type ← place
      Visit.read (.element type)
      return .value type) (do
      let type ← lowered
      Emit.read (.element type)
      return .value type) (known.map StaticType.value) :=
    agrees.made fun type => .after (inert_read _) fun _ => .pure _
  have whole := Agrees.ofValue position value
  have twice : known.map (fun type => Qualifier.value (.value type)) =
      (known.map StaticType.value).map Qualifier.value := by
    cases known <;> rfl
  exact { whole with
    qualifier := twice ▸ whole.qualifier
    place := agrees.made fun type => .pure _ }

theorem Agrees.element {first second : Visited} {firstLowered secondLowered : Lowered}
    {firstTyped secondTyped : Typed} {firstPosition secondPosition : Position}
    (isArray : first.Agrees firstLowered firstTyped firstPosition)
    (isIndex : second.Agrees secondLowered secondTyped secondPosition) (position : Position) :
    (Visited.element first second secondPosition position).Agrees
      (.element firstLowered secondLowered secondPosition position)
      (.element firstTyped secondTyped secondPosition position) position :=
  .ofElement position (isArray.value.bind fun _ => .check fun type _ =>
    isIndex.value.bind fun _ => .check fun _ _ => .pure type)

end Shapes

end Visited

end MethodPatch
