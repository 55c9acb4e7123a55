/-
**The types that code mentions.**

The type of an expression comes from the variables of the scope, from the members that the host
knows, and from the types that are written in the expression. A vocabulary is a set of types that has
all primitive types and with a type its arrays; where variables, members and written types are from a
vocabulary, so are the types of expressions.

* `Vocabulary`, `Site.Speaks`, `Covers`: a set of types, and what has to be from it;
* `Expr.written`: the types that are written in an expression;
* `Expr.typed_over`: **the types of expressions are from the vocabulary**.
-/

import MethodPatch.Proofs.Stack.Expr

namespace MethodPatch

/-! ### Types from a set -/

/-- The types of a signature are from a set. -/
structure Signature.Over (types : FieldType → Prop) (signature : Signature) : Prop where
  parameters : ∀ type ∈ signature.parameters, types type
  result : ∀ type ∈ signature.result, types type

/-- The type of a value, if it has one, is from a set. -/
def StaticType.Over (types : FieldType → Prop) : StaticType → Prop
  | .value type => types type
  | _ => True

/-- The type of a value in front of a point is from a set. -/
def Qualifier.Over (types : FieldType → Prop) : Qualifier → Prop
  | .value type => type.Over types
  | _ => True

/-- The type of a place is from a set, and a variable is one of the given locals. -/
def Place.Over (types : FieldType → Prop) (slots : Storage → Slot → Prop) (place : Place) : Prop :=
  types place.type ∧ ∀ slot type, place = .variable slot type → slots type.storage slot

/-- A set of types that code can go on with. -/
structure Vocabulary (types : FieldType → Prop) : Prop where
  primitive : ∀ {type : FieldType}, type.isPrimitive = true → types type
  array : ∀ {component : FieldType}, types (.array component) ↔ types component
  object : types (.object objectClass)
  string : types .string
  builder : types (.object builderClass)

/-- What a site knows is from a vocabulary. -/
structure Site.Speaks (types : FieldType → Prop) (site : Site) : Prop extends Vocabulary types where
  named : ∀ {name className : String}, site.host.classNamed? name = some className →
    types (.object className)
  this : site.method.isStatic = false → types (.object site.method.className)
  field : ∀ {owner name : String} {field : FieldRef}, site.host.field? owner name = some field →
    types field.type
  method : ∀ {owner name : String}, ∀ method ∈ site.host.methods owner name,
    method.signature.Over types

/-- The variables of a scope are from a vocabulary and are among given locals. -/
structure Covers (types : FieldType → Prop) (slots : Storage → Slot → Prop) (site : Site)
    (scope : Scope) : Prop where
  bound : ∀ {name : String} {slot : Slot} {type : FieldType},
    scope.binding? name = some (slot, type) → types type ∧ slots type.storage slot

/-- All types are a vocabulary, of which every site is. -/
theorem Site.speaks_all (site : Site) : site.Speaks fun _ => True where
  primitive _ := trivial
  array := Iff.rfl
  object := trivial
  string := trivial
  builder := trivial
  named _ := trivial
  this _ := trivial
  field _ := trivial
  method _ _ := ⟨fun _ _ => trivial, fun _ _ => trivial⟩

/-! ### Written types -/

mutual

/-- The types that are written in an expression. -/
def Expr.written : Expr → List TypeRef
  | .literal _ _ | .name _ _ | .this _ => []
  | .member object _ _ => object.written
  | .call none _ arguments _ => writtenAll arguments
  | .call (some callee) _ arguments _ => callee.written ++ writtenAll arguments
  | .new type arguments _ => type :: writtenAll arguments
  | .newArray element length _ => element :: length.written
  | .index array index _ => array.written ++ index.written
  | .assign target _ value _ => target.written ++ value.written
  | .update _ _ target _ => target.written
  | .unary _ operand _ => operand.written
  | .binary _ left right _ | .logical _ left right _ => left.written ++ right.written
  | .conditional test first second _ => test.written ++ first.written ++ second.written
  | .cast type operand _ | .instanceOf operand type _ => type :: operand.written

/-- The types that are written in a list of expressions. -/
def writtenAll : List Expr → List TypeRef
  | [] => []
  | first :: rest => first.written ++ writtenAll rest

end

/-- A written type means a type from a set, if it means one. -/
def TypeRef.Means (types : FieldType → Prop) (host : Host) (written : TypeRef) : Prop :=
  ∀ type, host.typeOf written = .ok type → types type

/-- The types that are written in an expression mean types from a set. -/
def Expr.Means (types : FieldType → Prop) (host : Host) (expression : Expr) : Prop :=
  ∀ type ∈ expression.written, type.Means types host

/-- A written type begins with a name, or with a primitive type. -/
def TypeRef.Plain (type : TypeRef) : Prop :=
  ∀ element, type.base = .primitive element → element.isPrimitive = true

variable {types : FieldType → Prop} {slots : Storage → Slot → Prop} {site : Site} {scope : Scope}
  {position : Position} {name : String}

theorem Vocabulary.arrayType (vocabulary : Vocabulary types) {element : FieldType}
    (isElement : types element) : ∀ dimensions, types (TypeRef.arrayType element dimensions)
  | 0 => isElement
  | dimensions + 1 => vocabulary.array.mpr (vocabulary.arrayType isElement dimensions)

theorem Vocabulary.numeric (vocabulary : Vocabulary types) (numeric : Numeric) :
    types numeric.type :=
  vocabulary.primitive (by cases numeric <;> rfl)

theorem TypeRef.Plain.means {written : TypeRef} (plain : written.Plain) (speaks : site.Speaks types) :
    written.Means types site.host := by
  intro type resolved
  unfold Host.typeOf at resolved
  split at resolved
  · next element isBase =>
    cases resolved
    exact speaks.arrayType (speaks.primitive (plain element isBase)) _
  · split at resolved <;> cases resolved
    next className isNamed => exact speaks.arrayType (speaks.named isNamed) _

/-! ### Names and members -/

theorem Site.thisType_over (speaks : site.Speaks types) {what : String} {type : StaticType}
    (found : site.thisType what position = .ok type) : type.Over types := by
  unfold Site.thisType at found
  split at found <;> cases found
  next isInstance => exact speaks.this (Bool.eq_false_iff.mpr isInstance)

theorem Site.field_of_nameUse? {field : FieldRef}
    (found : site.nameUse? scope name = some (.field field)) :
    site.host.field? site.method.className name = some field := by
  unfold Site.nameUse? at found
  split at found
  · cases found
  · split at found
    · next isField =>
      cases found
      exact isField
    · rcases named : site.host.classNamed? name with _ | className <;> rw [named] at found <;>
        cases found

theorem Site.binding_of_nameUse? {slot : Slot} {type : FieldType}
    (found : site.nameUse? scope name = some (.variable slot type)) :
    scope.binding? name = some (slot, type) := by
  unfold Site.nameUse? at found
  split at found
  · next bound =>
    cases found
    exact bound
  · split at found
    · cases found
    · rcases named : site.host.classNamed? name with _ | className <;> rw [named] at found <;>
        cases found

theorem Site.nameQualifier_over (speaks : site.Speaks types) (covers : Covers types slots site scope)
    {qualifier : Qualifier} (found : site.nameQualifier scope name position = .ok qualifier) :
    qualifier.Over types := by
  unfold Site.nameQualifier at found
  split at found
  · next isVariable =>
    cases found
    exact (covers.bound (Site.binding_of_nameUse? isVariable)).1
  · next field isField =>
    rcases checked : site.checkImplicit field field.name position with _ | _ <;>
      rw [checked] at found <;> cases found
    exact speaks.field (Site.field_of_nameUse? isField)
  · cases found
    trivial
  · cases found
    trivial

theorem Site.namePlace_over (speaks : site.Speaks types) (covers : Covers types slots site scope)
    {place : Place} (found : site.namePlace scope name position = .ok place) :
    place.Over types slots := by
  unfold Site.namePlace at found
  split at found
  · next isVariable =>
    cases found
    obtain ⟨isType, isSlot⟩ := covers.bound (Site.binding_of_nameUse? isVariable)
    refine ⟨isType, ?_⟩
    rintro _ _ ⟨⟩
    exact isSlot
  · next field isField =>
    rcases checked : site.checkImplicit field name position with _ | _ <;>
      rw [checked] at found <;> cases found
    exact ⟨speaks.field (Site.field_of_nameUse? isField), nofun⟩
  · cases found

theorem Site.staticField_over (speaks : site.Speaks types) {owner : String} {missing : ReferenceFault}
    {field : FieldRef} (found : site.staticField owner name missing position = .ok field) :
    types field.type := by
  unfold Site.staticField at found
  split at found
  · next isField =>
    split at found <;> cases found
    exact speaks.field isField
  · cases found

/-- The type of a field behind a point is from a set. -/
def Member.Over (types : FieldType → Prop) : Member → Prop
  | .field found _ => types found.type
  | _ => True

theorem Site.member_over (speaks : site.Speaks types) {qualifier : Qualifier} {member : Member}
    (found : site.member qualifier name position = .ok member) : member.Over types := by
  unfold Site.member at found
  split at found
  · dsimp only at found
    split at found <;> cases found <;> trivial
  · next owner =>
    rcases isField : site.staticField owner name (.unknownField name owner) position with _ | field <;>
      rw [isField] at found <;> cases found
    exact Site.staticField_over speaks isField
  · split at found <;> cases found
    trivial
  · split at found <;> cases found
    next isField => exact speaks.field isField
  · cases found

theorem Member.qualifier_over (vocabulary : Vocabulary types) {member : Member}
    (isOver : member.Over types) : member.qualifier.Over types := by
  cases member with
  | field field dropsValue => exact isOver
  | length => exact vocabulary.primitive rfl
  | package name => trivial
  | classRef className => trivial

theorem Site.memberPlace_over (speaks : site.Speaks types) {qualifier : Qualifier} {field : FieldRef}
    {dropsValue : Bool} (found : site.memberPlace qualifier name position = .ok (field, dropsValue)) :
    types field.type := by
  unfold Site.memberPlace at found
  split at found
  · cases found
  · next owner =>
    rcases isField : site.staticField owner name (.unknownVariable name) position with _ | field <;>
      rw [isField] at found <;> cases found
    exact Site.staticField_over speaks isField
  · split at found <;> cases found
    next isField => exact speaks.field isField
  · cases found

theorem Qualifier.over_of_asValue {qualifier : Qualifier} {unknown : String → ReferenceFault}
    {type : StaticType} (isOver : qualifier.Over types)
    (isValue : qualifier.asValue unknown position = .ok type) : type.Over types := by
  cases qualifier <;> cases isValue
  exact isOver

/-! ### Calls -/

theorem Site.calledMethod_over (speaks : site.Speaks types) {owner : String} {receiver : Receiver}
    {arguments : List StaticType} {method : MethodRef}
    (called : site.calledMethod owner receiver name arguments position = .ok method) :
    method.signature.Over types :=
  speaks.method method (Site.mem_of_calledMethod called)

theorem Site.parameterFor_over (vocabulary : Vocabulary types) {argument : StaticType}
    (isOver : argument.Over types) : types (Site.parameterFor argument) := by
  cases argument with
  | value type => exact isOver
  | void => exact vocabulary.object
  | null => exact vocabulary.object

theorem Site.constructor_over (speaks : site.Speaks types) {className : String}
    {arguments : List StaticType} {method : MethodRef}
    (isOver : ∀ argument ∈ arguments, argument.Over types)
    (found : site.constructor className arguments position = .ok method) :
    method.signature.Over types := by
  unfold Site.constructor at found
  split at found
  · cases found
    refine ⟨fun type isParameter => ?_, nofun⟩
    obtain ⟨argument, isArgument, rfl⟩ := List.mem_map.mp isParameter
    exact Site.parameterFor_over speaks.toVocabulary (isOver argument isArgument)
  · exact speaks.method method (Host.select_eq found).1

theorem Site.instantiated_over {written : TypeRef} {className : String}
    (meant : written.Means types site.host) (found : site.instantiated written position = .ok className) :
    types (.object className) := by
  unfold Site.instantiated at found
  obtain ⟨type, resolved, accepted⟩ := bind_eq_ok.mp found
  split at accepted
  · dsimp only at accepted
    split at accepted <;> cases accepted
    exact meant _ resolved
  · cases accepted

theorem MethodRef.resultType_over {method : MethodRef} (isOver : method.signature.Over types) :
    method.resultType.Over types := by
  unfold MethodRef.resultType
  split
  · next type isResult => exact isOver.result type isResult
  · trivial

/-! ### Operators -/

theorem elementType_over (vocabulary : Vocabulary types) {array : StaticType} {element : FieldType}
    (isOver : array.Over types) (found : elementType array position = .ok element) : types element := by
  unfold elementType at found
  split at found <;> cases found
  exact vocabulary.array.mp isOver

theorem ComputePlan.result_over (vocabulary : Vocabulary types) (plan : ComputePlan) :
    types plan.result :=
  vocabulary.primitive (by
    cases plan with
    | arithmetic op numeric => cases numeric <;> rfl
    | shift op integral => cases integral <;> rfl
    | bitwise op integral => cases integral <;> rfl
    | booleans op => rfl)

theorem Host.conditionalType_over (vocabulary : Vocabulary types) {host : Host}
    {first second type : StaticType} (isFirst : first.Over types) (isSecond : second.Over types)
    (found : host.conditionalType first second position = .ok type) : type.Over types := by
  unfold Host.conditionalType at found
  split at found <;> cases found
  next common =>
  unfold Host.conditionalType? at common
  split at common
  · split at common
    · cases common
      exact isFirst
    · split at common
      · cases common
        exact vocabulary.numeric _
      · split at common <;> cases common
        unfold Host.commonReference
        split
        · exact isSecond
        · split
          · exact isFirst
          · exact vocabulary.object
  · cases common
    trivial
  · split at common <;> cases common
    assumption
  · split at common <;> cases common
    assumption
  · cases common

theorem Literal.type_over (vocabulary : Vocabulary types) (value : Literal) :
    value.type.Over types := by
  cases value with
  | string text => exact vocabulary.string
  | null => trivial
  | int | long | float | double | char | boolean => exact vocabulary.primitive rfl

/-! ### Expressions -/

/-- What is known of an expression is from a vocabulary. -/
structure Typed.Over (types : FieldType → Prop) (typed : Typed) : Prop where
  value : ∀ {type : StaticType}, typed.value = .ok type → type.Over types
  qualifier : ∀ {qualifier : Qualifier}, typed.qualifier = .ok qualifier → qualifier.Over types
  place : ∀ {place : Place}, typed.place = .ok place → types place.type

namespace Typed

theorem Over.ofValue {value : Except SourceError StaticType}
    (isOver : ∀ {type : StaticType}, value = .ok type → type.Over types) :
    (Typed.ofValue position value).Over types where
  value := isOver
  qualifier := by
    intro qualifier found
    cases value with
    | error error => cases found
    | ok type =>
      cases found
      exact isOver rfl
  place := nofun

theorem Over.ofName (speaks : site.Speaks types) (covers : Covers types slots site scope) :
    (Typed.name site scope name position).Over types where
  value := by
    intro type found
    obtain ⟨qualifier, known, isValue⟩ := bind_eq_ok.mp found
    exact Qualifier.over_of_asValue (Site.nameQualifier_over speaks covers known) isValue
  qualifier := Site.nameQualifier_over speaks covers
  place found := (Site.namePlace_over speaks covers found).1

theorem Over.member (speaks : site.Speaks types) {object : Typed} :
    (Typed.member site object name position).Over types := by
  have stands : ∀ {qualifier : Qualifier},
      (do return (← site.member (← object.qualifier) name position).qualifier :
        Except SourceError Qualifier) = .ok qualifier → qualifier.Over types := by
    intro qualifier found
    simp only [bind_eq_ok, pure_eq_ok] at found
    obtain ⟨front, _, member, isMember, rfl⟩ := found
    exact Member.qualifier_over speaks.toVocabulary (Site.member_over speaks isMember)
  refine ⟨fun found => ?_, stands, fun found => ?_⟩
  · obtain ⟨qualifier, known, isValue⟩ := bind_eq_ok.mp found
    exact Qualifier.over_of_asValue (stands known) isValue
  · simp only [Typed.member, bind_eq_ok, pure_eq_ok] at found
    obtain ⟨front, _, ⟨field, dropsValue⟩, isPlace, rfl⟩ := found
    exact Site.memberPlace_over speaks isPlace

theorem Over.element (vocabulary : Vocabulary types) {array index : Typed}
    {indexPosition : Position} (isOver : array.Over types) :
    (Typed.element array index indexPosition position).Over types := by
  have found : ∀ {type : FieldType}, (do
      let type ← elementType (← array.value) position
      requireInt (← index.value) indexPosition
      return type : Except SourceError FieldType) = .ok type → types type := by
    intro type isElement
    simp only [bind_eq_ok, pure_eq_ok] at isElement
    obtain ⟨arrayType, known, element, isElement, _, _, _, _, rfl⟩ := isElement
    exact elementType_over vocabulary (isOver.value known) isElement
  unfold Typed.element
  dsimp only
  cases isElement : (do
      let type ← elementType (← array.value) position
      requireInt (← index.value) indexPosition
      return type : Except SourceError FieldType) with
  | error error => exact ⟨nofun, nofun, nofun⟩
  | ok type =>
    have isType := found isElement
    refine ⟨?_, ?_, ?_⟩ <;> rintro _ ⟨⟩ <;> exact isType

theorem assignment_over {place : Place} {op : Option ComputeOp} {value : Expr} {valueType : StaticType}
    {type : StaticType} (isPlace : types place.type)
    (found : Typed.assignment site place op value valueType position = .ok type) :
    type.Over types := by
  have same : type = .value place.type := by
    unfold Typed.assignment at found
    cases op with
    | none =>
      simp only [bind_eq_ok, pure_eq_ok] at found
      obtain ⟨_, _, rfl⟩ := found
      rfl
    | some op =>
      dsimp only at found
      split at found <;> simp only [bind_eq_ok, pure_eq_ok] at found
      · obtain ⟨_, _, rfl⟩ := found
        rfl
      · obtain ⟨_, _, rfl⟩ := found
        rfl
  rw [same]
  exact isPlace

end Typed

mutual

/-- **The types of an expression are from the vocabulary** of its variables, its members and the
types that are written in it. -/
theorem Expr.typed_over (speaks : site.Speaks types) (covers : Covers types slots site scope) :
    (expression : Expr) → expression.Means types site.host → (expression.typed site scope).Over types
  | .literal value position, _ => .ofValue fun found => by
    cases found
    exact value.type_over speaks.toVocabulary
  | .name name position, _ => .ofName speaks covers
  | .this position, _ => .ofValue fun found => Site.thisType_over speaks found
  | .member object name position, _ => .member speaks
  | .call none name arguments position, _ => .ofValue fun found => by
    simp only [bind_eq_ok, pure_eq_ok] at found
    obtain ⟨_, _, method, called, rfl⟩ := found
    exact MethodRef.resultType_over (Site.calledMethod_over speaks called)
  | .call (some callee) name arguments position, _ => .ofValue fun found => by
    simp only [bind_eq_ok, pure_eq_ok] at found
    obtain ⟨_, _, _, _, _, _, method, called, rfl⟩ := found
    exact MethodRef.resultType_over (Site.calledMethod_over speaks called)
  | .new type arguments position, meant => .ofValue fun found => by
    simp only [bind_eq_ok, pure_eq_ok] at found
    obtain ⟨className, isClass, _, _, _, _, rfl⟩ := found
    exact Site.instantiated_over (meant type List.mem_cons_self) isClass
  | .newArray element length position, meant => .ofValue fun found => by
    simp only [bind_eq_ok, pure_eq_ok] at found
    obtain ⟨type, resolved, _, _, _, _, rfl⟩ := found
    exact speaks.array.mpr (meant element List.mem_cons_self _ resolved)
  | .index array index position, meant =>
    .element speaks.toVocabulary (array.typed_over speaks covers fun type isWritten =>
      meant type (List.mem_append_left _ isWritten))
  | .assign target op value position, meant => .ofValue fun found => by
    split at found
    · cases found
      exact speaks.primitive rfl
    · simp only [bind_eq_ok] at found
      obtain ⟨place, isPlace, _, _, found⟩ := found
      have isOver := target.typed_over speaks covers fun type isWritten =>
        meant type (List.mem_append_left _ isWritten)
      exact Typed.assignment_over (isOver.place isPlace) found
  | .update op before target position, meant => .ofValue fun found => by
    split at found
    · cases found
      exact speaks.primitive rfl
    · simp only [bind_eq_ok, pure_eq_ok] at found
      obtain ⟨place, isPlace, _, _, rfl⟩ := found
      exact (target.typed_over speaks covers meant).place isPlace
  | .unary .not operand position, _ => .ofValue fun found => by
    simp only [bind_eq_ok, pure_eq_ok] at found
    obtain ⟨_, _, rfl⟩ := found
    exact speaks.primitive rfl
  | .unary .minus operand position, _ | .unary .plus operand position, _
  | .unary .complement operand position, _ => .ofValue fun found => by
    simp only [bind_eq_ok, pure_eq_ok] at found
    obtain ⟨_, _, numeric, _, rfl⟩ := found
    exact speaks.numeric numeric
  | .binary (.compare comparison) left right position, _ => .ofValue fun found => by
    simp only [bind_eq_ok, pure_eq_ok] at found
    obtain ⟨_, _, _, _, _, _, rfl⟩ := found
    exact speaks.primitive rfl
  | .binary (.compute op) left right position, _ => .ofValue fun found => by
    simp only [bind_eq_ok] at found
    obtain ⟨_, _, _, _, found⟩ := found
    split at found
    · cases found
      exact speaks.string
    · simp only [bind_eq_ok, pure_eq_ok] at found
      obtain ⟨plan, _, rfl⟩ := found
      exact plan.result_over speaks.toVocabulary
  | .logical op left right position, _ => .ofValue fun found => by
    simp only [bind_eq_ok, pure_eq_ok] at found
    obtain ⟨_, _, _, _, rfl⟩ := found
    exact speaks.primitive rfl
  | .conditional test first second position, meant => .ofValue fun found => by
    simp only [bind_eq_ok, pure_eq_ok] at found
    obtain ⟨firstType, isFirst, secondType, isSecond, type, typed, _, _, rfl⟩ := found
    have overFirst := first.typed_over speaks covers fun type isWritten =>
      meant type (List.mem_append_left _ (List.mem_append_right _ isWritten))
    have overSecond := second.typed_over speaks covers fun type isWritten =>
      meant type (List.mem_append_right _ isWritten)
    exact Host.conditionalType_over speaks.toVocabulary (overFirst.value isFirst)
      (overSecond.value isSecond) typed
  | .cast type operand position, meant => .ofValue fun found => by
    simp only [bind_eq_ok] at found
    obtain ⟨target, resolved, _, _, found⟩ := found
    split at found <;> cases found
    exact meant type List.mem_cons_self _ resolved
  | .instanceOf operand type position, _ => .ofValue fun found => by
    simp only [bind_eq_ok] at found
    obtain ⟨_, _, _, _, found⟩ := found
    split at found <;> cases found
    exact speaks.primitive rfl

/-- The types of arguments are from the vocabulary. -/
theorem argumentTypes_over (speaks : site.Speaks types) (covers : Covers types slots site scope) :
    (arguments : List Expr) → (∀ type ∈ writtenAll arguments, type.Means types site.host) →
      ∀ {found : List StaticType}, argumentTypes site scope arguments = .ok found →
        ∀ type ∈ found, type.Over types
  | [], _, _, typed => by
    cases typed
    exact nofun
  | first :: rest, meant, _, typed => by
    simp only [argumentTypes, bind_eq_ok, pure_eq_ok] at typed
    obtain ⟨type, isFirst, _, _, others, isRest, rfl⟩ := typed
    have overFirst := first.typed_over speaks covers fun type isWritten =>
      meant type (List.mem_append_left _ isWritten)
    have overRest := argumentTypes_over speaks covers rest
      (fun type isWritten => meant type (List.mem_append_right _ isWritten)) isRest
    exact List.forall_mem_cons.mpr ⟨overFirst.value isFirst, overRest⟩

end

end MethodPatch
