/-
**What types foretell of lowered expressions.**

`Lowered.Foretold` relates the ways in which an expression is lowered to what is known of its types:
all of them come out as known, but for limits that are reached and operands without a value. Each
shape of lowered expressions is foretold if the code that it is made from is.

* `Foretold.ofValue`, `Foretold.ofCondition`, `Foretold.ofQualifier`: the shapes;
* `foretold_name`, `foretold_member`, …: names and members;
* `proceeds_invoke`, `foretold_append`: calls, and operands that are appended.
-/

import MethodPatch.Proofs.Probing.Foretold
import MethodPatch.Generator.Expr

namespace MethodPatch

open Emit

/-- The operand itself, if it has no value at all. -/
def Typed.voidAt (typed : Typed) (position : Position) : List Position :=
  match typed.value with
  | .ok .void => [position]
  | _ => []

/-- The ways in which an expression is lowered come out as known of its types. A condition comes out
with branches, whichever they are. An operand that is appended has to have a value. -/
structure Lowered.Foretold (lowered : Lowered) (typed : Typed) (position : Position)
    (voids : List Position) : Prop where
  value : Emit.Foretold voids lowered.value typed.value
  qualifier : Emit.Foretold voids lowered.qualifier typed.qualifier
  branches : ∀ outcome, ForetoldBy (fun _ => ()) voids (lowered.branches outcome)
    (typed.condition position)
  place : Emit.Foretold voids lowered.place typed.place
  append : Emit.Foretold (voids ++ typed.voidAt position) lowered.append
    (typed.value.map fun _ => ())

variable {site : Site} {scope : Scope} {position : Position} {voids more : List Position}
  {typed : Except SourceError StaticType}

namespace Emit

/-! ### Constants, members and calls -/

theorem proceeds_number (small : Option Instr) (load : PoolIndex → Instr) (value : Constant) :
    Proceeds (Emit.number small load value) := by
  cases small with
  | some instr => exact .instr instr
  | none => exact .after (.constant _) fun _ => .instr _

theorem proceeds_literal (value : Literal) : Proceeds (Emit.literal value) := by
  cases value with
  | string text => exact .after (.constant _) fun _ => .instr _
  | boolean _ | null => exact .instr _
  | _ => exact proceeds_number _ _ _

theorem proceeds_field (ofClass ofObject : FieldAccess) (found : FieldRef) :
    Proceeds (Emit.field ofClass ofObject found) :=
  .after (.constant _) fun _ => .instr _

theorem proceeds_read (place : Place) : Proceeds (Emit.read place) := by
  cases place with
  | «variable» slot type => exact .instr _
  | field found => exact proceeds_field _ _ found
  | element type => exact .instr _

theorem proceeds_write (place : Place) : Proceeds (Emit.write place) := by
  cases place with
  | «variable» slot type => exact .instr _
  | field found => exact proceeds_field _ _ found
  | element type => exact .instr _

theorem proceeds_invoke (dispatch : Dispatch) (method : MethodRef) :
    Proceeds (Emit.invoke dispatch method) := by
  refine .after (.constant _) fun index => ?_
  dsimp only
  split
  · exact .after (.fail rfl) fun _ => .instr _
  · exact .instr _

theorem proceeds_newObject (className : String) : Proceeds (Emit.newObject className) :=
  .after (.constant _) fun _ => .after (.instr _) fun _ => .instr _

/-! ### Names -/

theorem foretold_name (site : Site) (scope : Scope) (name : String) (position : Position) :
    Emit.Foretold [] (Emit.name site scope name position)
      (site.nameQualifier scope name position) := by
  unfold Emit.name Site.nameQualifier
  cases site.nameUse? scope name with
  | none => exact .pure _
  | some use =>
    cases use with
    | «variable» slot type => exact .after (.instr _) fun _ => .pure _
    | classRef className => exact .pure _
    | field found =>
      refine .checked fun _ _ => .maybe (.instr _) ?_
      exact .after (proceeds_field _ _ found) fun _ => .pure _

theorem foretold_namePlace (site : Site) (scope : Scope) (name : String) (position : Position) :
    Emit.Foretold [] (Emit.namePlace site scope name position)
      (site.namePlace scope name position) := by
  unfold Emit.namePlace
  cases site.namePlace scope name position with
  | error error => exact .throw error
  | ok place => exact .maybe (.instr _) (.pure place)

theorem foretold_member (site : Site) (front : Qualifier) (name : String) (position : Position) :
    Emit.Foretold [] (Emit.member site front name position)
      (do return (← site.member front name position).qualifier) := by
  refine .check fun member _ => ?_
  cases member with
  | package name => exact .pure _
  | classRef className => exact .pure _
  | length => exact .after (.instr _) fun _ => .pure _
  | field found dropsValue =>
    exact .maybe (.instr _) (.after (proceeds_field _ _ found) fun _ => .pure _)

theorem foretold_memberPlace (site : Site) (front : Qualifier) (name : String)
    (position : Position) :
    Emit.Foretold [] (Emit.memberPlace site front name position)
      (do return .field (← site.memberPlace front name position).1) := by
  refine .check fun (found, dropsValue) _ => ?_
  exact .maybe (.instr _) (.pure _)

/-! ### Operands of joined strings -/

theorem proceeds_emptyBuilder : Proceeds Emit.emptyBuilder :=
  .after (proceeds_newObject _) fun _ => proceeds_invoke _ _

theorem proceeds_builderOfString : Proceeds Emit.builderOfString :=
  .after (proceeds_invoke _ _) fun _ => .after (.constant _) fun _ => .after (.instr _) fun _ =>
    .after (.instrs _) fun _ => proceeds_invoke _ _

/-- Whatever is not `void` has a type as which it is appended. -/
theorem appendedType?_eq_none {type : StaticType} : appendedType? type = none ↔ type = .void := by
  constructor
  · intro none
    unfold appendedType? at none
    split at none
    · rfl
    · cases none
    · cases none
    · cases none
    · split at none <;> cases none
  · rintro rfl
    rfl

/-- A value is appended if there is one. -/
theorem foretold_append (type : StaticType) (position : Position) :
    Emit.Foretold [] (Emit.append type position) (requireValue type position) := by
  unfold Emit.append requireValue
  split
  · next none =>
    rw [if_pos (appendedType?_eq_none.mp none)]
    exact .throw _
  · next some =>
    rw [if_neg fun isVoid => by cases isVoid; cases some]
    exact proceeds_invoke _ _

/-! ### Conditions -/

theorem proceeds_compareNumbers (type : Numeric) (wanted taken : Comparison) :
    Proceeds (Emit.compareNumbers type wanted taken) := by
  cases type with
  | int => exact .branch _
  | _ => exact .after (.instr _) fun _ => .branch _

theorem foretold_booleanOf {branches : Emit (List Nat)} {known : Except SourceError Unit}
    (foretold : ForetoldBy (fun _ => ()) voids branches known) :
    Emit.Foretold voids (Emit.booleanOf branches) (do
      known
      return .value .boolean) :=
  foretold.last fun _ _ => .after .depth fun _ => .after (.instr _) fun _ =>
    .after (.branch _) fun _ => .after (.landHere _) fun _ => .after (.setDepth _) fun _ =>
      .after (.instr _) fun _ => .after (.landHere _) fun _ => .pure _

theorem foretold_branchOnValue (type : StaticType) (position : Position) (outcome : Bool) :
    ForetoldBy (fun _ => ()) [] (Emit.branchOnValue type position outcome)
      (requireBoolean type position) := by
  have same : requireBoolean type position = (requireBoolean type position).map fun _ => () := by
    cases requireBoolean type position <;> rfl
  rw [same]
  exact .checked fun _ _ => .after (.branch _) fun branch => .pure [branch]

theorem foretold_branchesOf (op : LogicalOp) {left right : Bool → Emit (List Nat)}
    {first second : Except SourceError Unit}
    (isLeft : ∀ outcome, ForetoldBy (fun _ => ()) voids (left outcome) first)
    (isRight : ∀ outcome, ForetoldBy (fun _ => ()) more (right outcome) second) (outcome : Bool) :
    ForetoldBy (fun _ => ()) (voids ++ more) (Emit.branchesOf op left right outcome) (do
      first
      second) := by
  have same : second = (do second; return ()) := by cases second <;> rfl
  unfold Emit.branchesOf
  rw [same]
  split
  · exact (isLeft outcome).bind fun skips _ => (isRight outcome).last fun jumps _ => .pure _
  · exact (isLeft _).bind fun skips _ => (isRight outcome).last fun jumps _ =>
      .after (.landHere _) fun _ => .pure _

end Emit

namespace Lowered

/-- The value of an operand of known type. -/
theorem Foretold.value_of {lowered : Lowered} {typed : Typed} {type : StaticType}
    (foretold : lowered.Foretold typed position voids) (known : typed.value = .ok type) :
    Emit.Foretold voids lowered.value (.ok type) :=
  known ▸ foretold.value

theorem Foretold.append_of {lowered : Lowered} {typed : Typed} {type : StaticType}
    (foretold : lowered.Foretold typed position voids) (known : typed.value = .ok type) :
    Emit.Foretold (voids ++ typed.voidAt position) lowered.append (.ok ()) := by
  have append := foretold.append
  rw [known] at append
  exact append

/-! ### Shapes -/

/-- A value is appended, or it is the operand that has none. -/
theorem foretold_appended {value : Emit StaticType} (foretold : Emit.Foretold voids value typed)
    (position : Position) :
    Emit.Foretold (voids ++ (Typed.ofValue position typed).voidAt position)
      (do Emit.append (← value) position) (typed.map fun _ => ()) := by
  have appended : Emit.Foretold voids (do Emit.append (← value) position) (do
      requireValue (← typed) position) :=
    foretold.last fun type _ => foretold_append type position
  cases typed with
  | error error => exact (List.append_nil voids).symm ▸ appended
  | ok type =>
    cases type with
    | void =>
      exact appended.excused (List.subset_append_left _ _) (.void (List.mem_append_right _ (by
        exact List.mem_singleton_self position)))
    | null => exact (List.append_nil voids).symm ▸ appended
    | value type => exact (List.append_nil voids).symm ▸ appended

theorem Foretold.ofValue (position : Position) {value : Emit StaticType}
    (foretold : Emit.Foretold voids value typed) :
    (Lowered.ofValue position value).Foretold (.ofValue position typed) position voids where
  value := foretold
  qualifier := foretold.made fun _ _ => .pure _
  branches := fun outcome =>
    foretold.last fun type _ => foretold_branchOnValue type position outcome
  place := .throw _
  append := foretold_appended foretold position

theorem Foretold.ofWanted (position : Position) {value : Bool → Emit StaticType}
    (foretold : Emit.Foretold voids (value true) typed) :
    (Lowered.ofWanted position value).Foretold (.ofValue position typed) position voids :=
  { Foretold.ofValue position foretold with }

/-- A condition is `boolean`, if it is in order at all. -/
theorem condition_ofCondition (known : Except SourceError Unit) (position place : Position) :
    (Typed.ofValue place (do
      known
      return .value .boolean)).condition position = known := by
  cases known <;> rfl

theorem Foretold.ofCondition (position : Position) {branches : Bool → Emit (List Nat)}
    {known : Except SourceError Unit}
    (foretold : ∀ outcome, ForetoldBy (fun _ => ()) voids (branches outcome) known) :
    (Lowered.ofCondition position branches).Foretold (.ofValue position (do
      known
      return .value .boolean)) position voids :=
  { Foretold.ofValue position (foretold_booleanOf (foretold false)) with
    branches := fun outcome => by
      rw [condition_ofCondition]
      exact foretold outcome }

theorem Foretold.ofQualifier {unknown : String → ReferenceFault} {qualifier : Emit Qualifier}
    {place : Emit Place} {front : Except SourceError Qualifier} {stored : Except SourceError Place}
    (isFront : Emit.Foretold voids qualifier front) (isPlace : Emit.Foretold voids place stored) :
    (Lowered.ofQualifier position unknown qualifier place).Foretold
      ⟨do (← front).asValue unknown position, front, stored⟩ position voids := by
  have value : Emit.Foretold voids (do liftExcept ((← qualifier).asValue unknown position))
      (do (← front).asValue unknown position) :=
    isFront.last fun found _ => .lift _
  exact { Foretold.ofValue position value with
    qualifier := isFront
    place := isPlace }

theorem Foretold.boolean (position : Position) (value : Bool) :
    (Lowered.boolean position value).Foretold (.ofValue position (.ok (.value .boolean))) position
      [] :=
  { Foretold.ofValue position (.after (proceeds_literal (.boolean value)) fun _ => .pure _) with
    branches := fun outcome => by
      show ForetoldBy _ [] (if value = outcome then _ else _) _
      split
      · exact .after (.branch _) fun branch => .pure [branch]
      · exact .pure [] }

/-- A value that is read from an element is in order if the array and the index are. -/
theorem Foretold.ofElement (position : Position) {place : Emit FieldType}
    {known : Except SourceError FieldType} (foretold : Emit.Foretold voids place known) :
    Lowered.Foretold
      { Lowered.ofValue position do
          let type ← place
          Emit.read (.element type)
          return .value type
        with place := return .element (← place) }
      ⟨known.map .value, known.map fun type => .value (.value type), known.map .element⟩ position
      voids := by
  have value : Emit.Foretold voids (do
      let type ← place
      Emit.read (.element type)
      return .value type) (known.map StaticType.value) :=
    foretold.made fun type _ => .after (proceeds_read _) fun _ => .pure _
  have whole := Foretold.ofValue position value
  have twice : known.map (fun type => Qualifier.value (.value type)) =
      (known.map StaticType.value).map Qualifier.value := by
    cases known <;> rfl
  exact { whole with
    qualifier := twice ▸ whole.qualifier
    place := foretold.made fun type _ => .pure _ }

theorem Foretold.element {array index : Lowered} {arrayTyped indexTyped : Typed}
    {arrayPosition indexPosition : Position}
    (isArray : array.Foretold arrayTyped arrayPosition voids)
    (isIndex : index.Foretold indexTyped indexPosition more) :
    (Lowered.element array index indexPosition position).Foretold
      (.element arrayTyped indexTyped indexPosition position) position (voids ++ more) :=
  .ofElement position (isArray.value.bind fun _ _ => .check fun type _ =>
    isIndex.value.last fun _ _ => .check fun _ _ => .pure type)

end Lowered

end MethodPatch
