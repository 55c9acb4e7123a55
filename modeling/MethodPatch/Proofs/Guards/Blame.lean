/-
**What errors blame.**

While the types of an expression are found, what goes wrong is a mistake of the text: its types do not
agree, or a name stands for nothing. None of this is internal.

* `BlamesText`: what goes wrong is not internal, and how such answers are put together;
* `Expr.typed_blames`: **the types of an expression blame the text**, by induction.
-/

import MethodPatch.Proofs.Probing.Expr
import MethodPatch.Proofs.Guards.Expr

namespace MethodPatch

/-! ### Mistakes of the text -/

section BlamesText

variable {α β : Type} {site : Site} {host : Host} {position : Position}

/-- Whatever goes wrong, it is not internal. -/
def BlamesText (known : Except SourceError α) : Prop :=
  ∀ error, known = .error error → error.kind ≠ .internalError

theorem BlamesText.ok (answer : α) : BlamesText (.ok answer : Except SourceError α) := nofun

theorem BlamesText.mistyped (fault : TypeFault) (position : Option Position) :
    BlamesText (.error (mistyped fault position) : Except SourceError α) := by
  rintro _ ⟨⟩
  exact nofun

theorem BlamesText.unresolved (fault : ReferenceFault) (position : Option Position) :
    BlamesText (.error (unresolved fault position) : Except SourceError α) := by
  rintro _ ⟨⟩
  exact nofun

theorem BlamesText.bind {known : Except SourceError α} {next : α → Except SourceError β}
    (here : BlamesText known) (behind : ∀ answer, BlamesText (next answer)) :
    BlamesText (known >>= next) := by
  cases known with
  | error error => exact fun other failed => here other (by cases failed; rfl)
  | ok answer => exact behind answer

theorem BlamesText.map {known : Except SourceError α} (here : BlamesText known) (make : α → β) :
    BlamesText (known.map make) := by
  cases known with
  | error error => exact fun other failed => here other (by cases failed; rfl)
  | ok answer => exact .ok _

/-! ### Names and members -/

theorem Site.thisType_blames (what : String) : BlamesText (site.thisType what position) := by
  unfold Site.thisType
  split
  · exact .mistyped _ _
  · exact .ok _

theorem Site.checkImplicit_blames (field : FieldRef) (name : String) :
    BlamesText (site.checkImplicit field name position) := by
  unfold Site.checkImplicit
  split
  · exact .ok _
  · exact (Site.thisType_blames _).map _

theorem Site.nameQualifier_blames (scope : Scope) (name : String) :
    BlamesText (site.nameQualifier scope name position) := by
  unfold Site.nameQualifier
  split
  · exact .ok _
  · exact (Site.checkImplicit_blames _ _).map _
  · exact .ok _
  · exact .ok _

theorem Site.namePlace_blames (scope : Scope) (name : String) :
    BlamesText (site.namePlace scope name position) := by
  unfold Site.namePlace
  split
  · exact .ok _
  · exact (Site.checkImplicit_blames _ _).map _
  · exact .unresolved _ _

theorem Site.staticField_blames (owner name : String) (missing : ReferenceFault) :
    BlamesText (site.staticField owner name missing position) := by
  unfold Site.staticField
  split
  · split
    · exact .ok _
    · exact .mistyped _ _
  · exact .unresolved _ _

theorem Site.member_blames (front : Qualifier) (name : String) :
    BlamesText (site.member front name position) := by
  unfold Site.member
  split
  · dsimp only
    split <;> exact .ok _
  · exact (Site.staticField_blames _ _ _).map _
  · split
    · exact .ok _
    · exact .unresolved _ _
  · split
    · exact .ok _
    · exact .unresolved _ _
  · exact .mistyped _ _

theorem Site.memberPlace_blames (front : Qualifier) (name : String) :
    BlamesText (site.memberPlace front name position) := by
  unfold Site.memberPlace
  split
  · exact .unresolved _ _
  · exact (Site.staticField_blames _ _ _).map _
  · split
    · exact .ok _
    · exact .unresolved _ _
  · exact .mistyped _ _

theorem Qualifier.asValue_blames (qualifier : Qualifier) (unknown : String → ReferenceFault) :
    BlamesText (qualifier.asValue unknown position) := by
  cases qualifier with
  | value type => exact .ok _
  | classRef className => exact .unresolved _ _
  | package name => exact .unresolved _ _

theorem Qualifier.receiver_blames (qualifier : Qualifier) :
    BlamesText (qualifier.receiver position) := by
  unfold Qualifier.receiver
  split
  · exact .unresolved _ _
  · exact .ok _
  · exact .ok _
  · exact .ok _
  · exact .mistyped _ _

/-! ### Calls -/

theorem Host.select_blames (candidates : List MethodRef) (name : String) (arguments : List StaticType) :
    BlamesText (host.select candidates name arguments position) := by
  unfold Host.select
  split
  · exact .unresolved _ _
  · split
    · exact .ok _
    · exact .mistyped _ _

theorem Site.calledMethod_blames (owner : String) (receiver : Receiver) (name : String)
    (arguments : List StaticType) :
    BlamesText (site.calledMethod owner receiver name arguments position) := by
  refine (Host.select_blames _ _ _).bind fun method => ?_
  split
  · exact (BlamesText.mistyped _ _).bind fun _ => .ok _
  · exact .ok _

theorem Host.typeOf_blames (type : TypeRef) : BlamesText (host.typeOf type) := by
  unfold Host.typeOf
  split
  · exact .ok _
  · split
    · exact .ok _
    · exact .unresolved _ _

theorem Site.instantiated_blames (type : TypeRef) : BlamesText (site.instantiated type position) := by
  refine (Host.typeOf_blames _).bind fun type => ?_
  split
  · split
    · exact (BlamesText.mistyped _ _).bind fun _ => .ok _
    · exact .ok _
  · exact .mistyped _ _

theorem Site.constructor_blames (className : String) (arguments : List StaticType) :
    BlamesText (site.constructor className arguments position) := by
  unfold Site.constructor
  split
  · exact .ok _
  · exact Host.select_blames _ _ _

/-! ### Operators -/

theorem elementType_blames (array : StaticType) : BlamesText (elementType array position) := by
  unfold elementType
  split
  · exact .ok _
  · exact .mistyped _ _

theorem requireInt_blames (found : StaticType) : BlamesText (requireInt found position) := by
  unfold requireInt
  split
  · split
    · exact .ok _
    · exact .mistyped _ _
  · exact .mistyped _ _

theorem requireBoolean_blames (found : StaticType) : BlamesText (requireBoolean found position) := by
  unfold requireBoolean
  split
  · exact .ok _
  · exact .mistyped _ _

theorem requireValue_blames (found : StaticType) : BlamesText (requireValue found position) := by
  unfold requireValue
  split
  · exact .mistyped _ _
  · exact .ok _

theorem Host.coercion_blames (source : StaticType) (target : FieldType) (value : Expr) :
    BlamesText (host.coercion source target value) := by
  unfold Host.coercion
  split
  · exact .ok _
  · exact .mistyped _ _

theorem computePlan_blames (op : ComputeOp) (left right : StaticType) :
    BlamesText (computePlan op left right position) := by
  unfold computePlan
  split
  · exact .ok _
  · exact .mistyped _ _

theorem comparisonPlan_blames (wanted : Comparison) (left right : StaticType) :
    BlamesText (comparisonPlan wanted left right position) := by
  unfold comparisonPlan
  split
  · exact .ok _
  · exact .mistyped _ _

theorem unaryType_blames (op : UnaryOp) (operand : StaticType) :
    BlamesText (unaryType op operand position) := by
  unfold unaryType
  split
  · exact .ok _
  · exact .mistyped _ _

theorem updateType_blames (op : UpdateOp) (operand : FieldType) :
    BlamesText (updateType op operand position) := by
  unfold updateType
  split
  · exact .ok _
  · exact .mistyped _ _

theorem Host.conditionalType_blames (first second : StaticType) :
    BlamesText (host.conditionalType first second position) := by
  unfold Host.conditionalType
  split
  · exact .ok _
  · exact .mistyped _ _

end BlamesText

/-! ### Expressions -/

/-- In each of its uses an expression blames the text. -/
structure Typed.BlamesText (typed : Typed) : Prop where
  value : MethodPatch.BlamesText typed.value
  qualifier : MethodPatch.BlamesText typed.qualifier
  place : MethodPatch.BlamesText typed.place

namespace Typed

variable {site : Site} {typed index : Typed} {position : Position}

theorem BlamesText.ofValue (position : Position) {value : Except SourceError StaticType}
    (blames : MethodPatch.BlamesText value) : (Typed.ofValue position value).BlamesText :=
  ⟨blames, blames.map _, .mistyped _ _⟩

theorem BlamesText.condition (blames : typed.BlamesText) (position : Position) :
    MethodPatch.BlamesText (typed.condition position) :=
  blames.value.bind fun _ => requireBoolean_blames _

theorem BlamesText.name (site : Site) (scope : Scope) (name : String) (position : Position) :
    (Typed.name site scope name position).BlamesText where
  value := (Site.nameQualifier_blames _ _).bind fun _ => Qualifier.asValue_blames _ _
  qualifier := Site.nameQualifier_blames _ _
  place := Site.namePlace_blames _ _

theorem BlamesText.member (blames : typed.BlamesText) (name : String) (position : Position) :
    (Typed.member site typed name position).BlamesText := by
  have qualifier : MethodPatch.BlamesText (Typed.member site typed name position).qualifier :=
    blames.qualifier.bind fun _ => (Site.member_blames _ _).bind fun _ => .ok _
  exact ⟨qualifier.bind fun _ => Qualifier.asValue_blames _ _, qualifier,
    blames.qualifier.bind fun _ => (Site.memberPlace_blames _ _).bind fun _ => .ok _⟩

theorem BlamesText.element (isArray : typed.BlamesText) (isIndex : index.BlamesText)
    (indexPosition position : Position) :
    (Typed.element typed index indexPosition position).BlamesText := by
  have type : MethodPatch.BlamesText (do
      let type ← elementType (← typed.value) position
      requireInt (← index.value) indexPosition
      return type) :=
    isArray.value.bind fun _ => (elementType_blames _).bind fun _ => isIndex.value.bind fun _ =>
      (requireInt_blames _).bind fun _ => .ok _
  exact ⟨type.map _, type.map _, type.map _⟩

theorem assignment_blames (place : Place) (op : Option ComputeOp) (value : Expr) (valueType : StaticType)
    (position : Position) :
    MethodPatch.BlamesText (Typed.assignment site place op value valueType position) := by
  cases op with
  | none => exact (Host.coercion_blames _ _ _).bind fun _ => .ok _
  | some op =>
    rw [assignment_combined]
    refine MethodPatch.BlamesText.map ?_ _
    split
    · exact requireValue_blames _
    · exact (computePlan_blames _ _ _).bind fun _ => .ok _

end Typed

mutual

/-- **The types of an expression blame the text.** -/
theorem Expr.typed_blames (site : Site) (scope : Scope) : (expression : Expr) →
    (expression.typed site scope).BlamesText
  | .literal value position => .ofValue position (.ok _)
  | .name name position => .name site scope name position
  | .this position => .ofValue position (Site.thisType_blames _)
  | .member object name position => (object.typed_blames site scope).member name position
  | .call none name arguments position =>
    .ofValue position ((argumentTypes_blames site scope arguments).bind fun _ =>
      (Site.calledMethod_blames _ _ _ _).bind fun _ => .ok _)
  | .call (some callee) name arguments position =>
    .ofValue position ((callee.typed_blames site scope).qualifier.bind fun _ =>
      (Qualifier.receiver_blames _).bind fun _ => (argumentTypes_blames site scope arguments).bind fun _ =>
        (Site.calledMethod_blames _ _ _ _).bind fun _ => .ok _)
  | .new type arguments position =>
    .ofValue position ((Site.instantiated_blames _).bind fun _ =>
      (argumentTypes_blames site scope arguments).bind fun _ =>
        (Site.constructor_blames _ _).bind fun _ => .ok _)
  | .newArray element length position =>
    .ofValue position ((Host.typeOf_blames _).bind fun _ =>
      (length.typed_blames site scope).value.bind fun _ => (requireInt_blames _).bind fun _ => .ok _)
  | .index array index position =>
    .element (array.typed_blames site scope) (index.typed_blames site scope) index.position position
  | .assign target op value position => by
    refine .ofValue position ?_
    split
    · exact .ok _
    · exact (target.typed_blames site scope).place.bind fun _ =>
        (value.typed_blames site scope).value.bind fun _ => Typed.assignment_blames _ _ _ _ _
  | .update op isBefore target position => by
    refine .ofValue position ?_
    split
    · exact .ok _
    · exact (target.typed_blames site scope).place.bind fun _ => (updateType_blames _ _).bind fun _ => .ok _
  | .unary .not operand position =>
    .ofValue position (((operand.typed_blames site scope).condition _).bind fun _ => .ok _)
  | .unary .minus operand position | .unary .plus operand position
  | .unary .complement operand position =>
    .ofValue position ((operand.typed_blames site scope).value.bind fun _ =>
      (unaryType_blames _ _).bind fun _ => .ok _)
  | .binary (.compare wanted) left right position =>
    .ofValue position ((left.typed_blames site scope).value.bind fun _ =>
      (right.typed_blames site scope).value.bind fun _ =>
        (comparisonPlan_blames _ _ _).bind fun _ => .ok _)
  | .binary (.compute op) left right position => by
    refine .ofValue position ((left.typed_blames site scope).value.bind fun _ =>
      (right.typed_blames site scope).value.bind fun _ => ?_)
    split
    · exact .ok _
    · exact (computePlan_blames _ _ _).bind fun _ => .ok _
  | .logical op left right position =>
    .ofValue position (((left.typed_blames site scope).condition _).bind fun _ =>
      ((right.typed_blames site scope).condition _).bind fun _ => .ok _)
  | .conditional test first second position =>
    .ofValue position ((first.typed_blames site scope).value.bind fun _ =>
      (second.typed_blames site scope).value.bind fun _ => (Host.conditionalType_blames _ _).bind fun _ =>
        ((test.typed_blames site scope).condition _).bind fun _ => .ok _)
  | .cast type operand position => by
    refine .ofValue position ((Host.typeOf_blames _).bind fun target =>
      (operand.typed_blames site scope).value.bind fun source => ?_)
    split
    · exact .ok _
    · exact .mistyped _ _
  | .instanceOf operand type position => by
    refine .ofValue position ((Host.typeOf_blames _).bind fun target =>
      (operand.typed_blames site scope).value.bind fun source => ?_)
    dsimp only
    split
    · exact (BlamesText.mistyped _ _).bind fun _ => .ok _
    · exact .ok _

theorem argumentTypes_blames (site : Site) (scope : Scope) : (arguments : List Expr) →
    BlamesText (argumentTypes site scope arguments)
  | [] => .ok _
  | first :: rest =>
    (first.typed_blames site scope).value.bind fun _ => (requireValue_blames _).bind fun _ =>
      (argumentTypes_blames site scope rest).bind fun _ => .ok _

end

end MethodPatch
