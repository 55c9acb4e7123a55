/-
**What generated code is composed of.**

Actions that generate code are composed of a few primitive ones: an instruction that uses a given
local or nothing at all, a constant and the instruction that refers to it, the place of a branch, the
depth of the stack, an error. `Emit.Composed` says it of an action, together with what its answers
satisfy. What holds of the primitive actions and is kept by composing them holds of all code; in this
way facts about locals, about constants and about two runs come from one induction each.

* `Site.Calls`: the calls that code at a site makes;
* `Reference`: a constant and the instruction that refers to it;
* `Emit.Composed`: actions that are composed of primitive ones;
* `Emit.composed_name`, `Emit.composed_invoke`, …: names, members, places and calls.
-/

import MethodPatch.Proofs.Composition.Types
import MethodPatch.Proofs.Constants.Again

namespace MethodPatch

/-- The instruction accesses one of the given locals, or no local, and it refers to no constant. -/
def Instr.Accesses (slots : Storage → Slot → Prop) : Instr → Prop
  | .load storage slot | .store storage slot => slots storage slot
  | .iinc slot _ => slots .int slot
  | instr => instr.poolIndex? = none

/-- The calls by which strings are joined. -/
inductive JoinsStrings : Dispatch → MethodRef → Prop
  | empty : JoinsStrings .special (builderMethod constructorName [] none)
  | ofString : JoinsStrings .special (builderMethod constructorName [.string] none)
  | valueOf : JoinsStrings .static valueOfMethod
  | append (parameter : FieldType) :
    JoinsStrings .virtual (builderMethod "append" [parameter] (some (.object builderClass)))
  | built : JoinsStrings .virtual (builderMethod "toString" [] (some .string))

/-- The calls that code at a site makes: those of source text, those by which objects are made of
classes, and those by which strings are joined. -/
inductive Site.Calls (site : Site) : Dispatch → MethodRef → Prop
  | call {owner name : String} {receiver : Receiver} {arguments : List StaticType}
    {position : Position} {method : MethodRef}
    (called : site.calledMethod owner receiver name arguments position = .ok method) :
    site.Calls (site.host.dispatch method) method
  | new {className : String} {arguments : List StaticType} {position : Position} {method : MethodRef}
    (isClass : site.host.isInterface className = false)
    (made : site.constructor className arguments position = .ok method) :
    site.Calls (site.host.dispatch method) method
  | join {dispatch : Dispatch} {method : MethodRef} (joins : JoinsStrings dispatch method) :
    site.Calls dispatch method

/-- An action that adds a constant, and the instruction that refers to it by its index. The types of
members are from a set, and calls are those of a site. -/
inductive Reference (types : FieldType → Prop) (site : Site) :
    Pool.Adding PoolIndex → (PoolIndex → Instr) → Prop
  | int (value : Int32) : Reference types site (Pool.insert (.integer value)) .ldc
  | float (bits : UInt32) : Reference types site (Pool.insert (.float bits)) .ldc
  | long (value : Int64) : Reference types site (Pool.insert (.long value)) .ldc2
  | double (bits : UInt64) : Reference types site (Pool.insert (.double bits)) .ldc2
  | string (text : String) : Reference types site (Pool.addString text) .ldc
  | new (name : String) : Reference types site (Pool.addClass name) .new
  | anewArray (name : String) : Reference types site (Pool.addClass name) .anewArray
  | checkCast (name : String) : Reference types site (Pool.addClass name) .checkCast
  | instanceOf (name : String) : Reference types site (Pool.addClass name) .instanceOf
  | field (access : FieldAccess) (field : FieldRef) (isType : types field.type) :
    Reference types site (Pool.addField field.owner field.name field.type.descriptor)
      (.field access · (UInt8.ofNat field.type.width))
  | call (dispatch : Dispatch) (method : MethodRef) (isOver : method.signature.Over types)
    (isCalled : site.Calls dispatch method) (few : method.signature.parameterSlots ≤ 255) :
    Reference types site
      ((if dispatch = .interface then Pool.addInterfaceMethod else Pool.addMethod) method.owner
        method.name method.signature.descriptor)
      (.invoke dispatch · method.signature.parameterSlots.toUInt8
        (UInt8.ofNat method.signature.resultSlots))

/-- Actions that are composed of primitive ones, with what their answers satisfy. They access given
locals, and members whose types are from a set, and they make the calls of a site. -/
inductive Emit.Composed (types : FieldType → Prop) (slots : Storage → Slot → Prop) (site : Site) :
    {α : Type} → Emit α → (α → Prop) → Prop
  | pure {α : Type} {answers : α → Prop} {answer : α} (holds : answers answer) :
    Composed types slots site (Pure.pure answer) answers
  | bind {α β : Type} {action : Emit α} {next : α → Emit β} {first : α → Prop} {answers : β → Prop}
    (here : Composed types slots site action first)
    (behind : ∀ answer, first answer → Composed types slots site (next answer) answers) :
    Composed types slots site (action >>= next) answers
  | throw {α : Type} {answers : α → Prop} (error : SourceError) :
    Composed types slots site (MonadExcept.throw error) answers
  | fail {α : Type} {answers : α → Prop} (fault : InternalFault) :
    Composed types slots site (Emit.fail fault) answers
  | instr {instr : Instr} (accesses : instr.Accesses slots) :
    Composed types slots site (Emit.instr instr) fun _ => True
  /-- The object of the method, if it has one. -/
  | this (isInstance : site.method.isStatic = false) :
    Composed types slots site Emit.this fun _ => True
  | here : Composed types slots site Emit.here fun _ => True
  | depth : Composed types slots site Emit.depth fun _ => True
  | setDepth (depth : Nat) : Composed types slots site (Emit.setDepth depth) fun _ => True
  | land (branches : List Nat) (target : Nat) :
    Composed types slots site (Emit.land branches target) fun _ => True
  /-- A constant whose index is used by one instruction. -/
  | refer {add : Pool.Adding PoolIndex} {use : PoolIndex → Instr}
    (reference : Reference types site add use) :
    Composed types slots site (Emit.constant add >>= fun index => Emit.instr (use index)) fun _ => True
  /-- A constant whose index is used by nothing. -/
  | leave {add : Pool.Adding PoolIndex} (alike : Pool.Alike add add) :
    Composed types slots site (Emit.constant add >>= fun _ => Pure.pure ()) fun _ => True

variable {types : FieldType → Prop} {slots : Storage → Slot → Prop} {site : Site} {scope : Scope}
  {position : Position}

theorem alike_addMethod (dispatch : Dispatch) (owner name descriptor : String) :
    Pool.Alike
      ((if dispatch = .interface then Pool.addInterfaceMethod else Pool.addMethod) owner name
        descriptor)
      ((if dispatch = .interface then Pool.addInterfaceMethod else Pool.addMethod) owner name
        descriptor) := by
  split
  · exact .addMember (fun _ _ => rfl) ..
  · exact .addMember (fun _ _ => rfl) ..

/-- What is added for a reference is added in the same steps to every pool. -/
theorem Reference.alike {add : Pool.Adding PoolIndex} {use : PoolIndex → Instr}
    (reference : Reference types site add use) : Pool.Alike add add := by
  cases reference with
  | int | float | long | double => exact .insert rfl
  | string text => exact .addString text
  | new name | anewArray name | checkCast name | instanceOf name => exact .addClass name
  | field access field isType => exact .addMember (fun _ _ => rfl) ..
  | call dispatch method isOver isCalled few => exact alike_addMethod ..

namespace Emit

variable {α β : Type} {first : α → Prop} {answers : β → Prop}

/-! ### Composing -/

theorem Composed.seq {action : Emit α} {next : Emit β} (starts : Composed types slots site action first)
    (behind : Composed types slots site next answers) :
    Composed types slots site (action >>= fun _ => next) answers :=
  starts.bind fun _ _ => behind

theorem Composed.emit {instr : Instr} {next : Emit β} (accesses : instr.Accesses slots)
    (behind : Composed types slots site next answers) :
    Composed types slots site (Emit.instr instr >>= fun _ => next) answers :=
  (Composed.instr accesses).seq behind

theorem Composed.lift {result : Except SourceError α}
    (holds : ∀ answer, result = .ok answer → first answer) :
    Composed types slots site (liftExcept result) first := by
  cases result with
  | error error => exact .throw error
  | ok answer => exact .pure (holds answer rfl)

/-- A check that succeeds says what it has found. -/
theorem Composed.check {result : Except SourceError α} {next : α → Emit β}
    (behind : ∀ answer, result = .ok answer → Composed types slots site (next answer) answers) :
    Composed types slots site (liftExcept result >>= next) answers :=
  (Composed.lift fun _ found => found).bind behind

theorem Composed.refers {add : Pool.Adding PoolIndex} {use : PoolIndex → Instr} {next : Unit → Emit β}
    (reference : Reference types site add use) (behind : Composed types slots site (next ()) answers) :
    Composed types slots site
      (Emit.constant add >>= fun index => Emit.instr (use index) >>= next) answers := by
  rw [← bind_assoc]
  exact (Composed.refer reference).bind fun _ _ => behind

theorem composed_instrs {instrs : List Instr} (accesses : ∀ instr ∈ instrs, instr.Accesses slots) :
    Composed types slots site (Emit.instrs instrs) fun _ => True := by
  induction instrs with
  | nil => exact .pure trivial
  | cons first rest ih =>
    obtain ⟨here, behind⟩ := List.forall_mem_cons.mp accesses
    exact (Composed.instr here).seq (ih behind)

theorem composed_branch (test : Test) : Composed types slots site (Emit.branch test) fun _ => True :=
  Composed.here.bind fun _ _ => .emit rfl (.pure trivial)

theorem composed_landHere (branches : List Nat) :
    Composed types slots site (Emit.landHere branches) fun _ => True :=
  Composed.here.bind fun _ _ => .land ..

/-! ### Instructions that use nothing -/

theorem accesses_conversion (source target : FieldType) :
    ∀ instr ∈ conversion source target, instr.Accesses slots := by
  intro instr isIn
  unfold conversion at isIn
  split at isIn
  · cases isIn
  · split at isIn
    · rcases List.mem_append.mp isIn with isFirst | isSecond
      · split at isFirst
        · cases isFirst
        · cases List.mem_singleton.mp isFirst
          rfl
      · rcases narrowing_eq source target with none | ⟨narrow, one, _⟩
        · rw [none] at isSecond
          cases isSecond
        · rw [one] at isSecond
          cases List.mem_singleton.mp isSecond
          rfl
    · cases isIn

theorem accesses_staticConversion (source : StaticType) (target : FieldType) :
    ∀ instr ∈ source.conversion target, instr.Accesses slots := by
  cases source with
  | value type => exact accesses_conversion type target
  | void | null => exact nofun

theorem accesses_coercion {host : Host} {source : StaticType} {target : FieldType} {value : Expr}
    {instrs : List Instr} (coerced : host.coercion source target value = .ok instrs) :
    ∀ instr ∈ instrs, instr.Accesses slots := by
  rcases Host.coercion?_eq (Host.coercion_eq coerced) with ⟨_, rfl⟩ | ⟨rfl, _⟩
  · exact accesses_staticConversion source target
  · exact nofun

theorem accesses_drop (type : StaticType) : ∀ instr ∈ type.drop, instr.Accesses slots := by
  intro instr isIn
  unfold StaticType.drop at isIn
  split at isIn
  · cases isIn
  · cases List.mem_singleton.mp isIn
    rfl
  · cases List.mem_singleton.mp isIn
    rfl

theorem accesses_copyOperands (place : Place) :
    ∀ instr ∈ place.copyOperands, instr.Accesses slots := by
  intro instr isIn
  unfold Place.copyOperands at isIn
  split at isIn
  · cases isIn
  · cases List.mem_singleton.mp isIn
    rfl
  · cases List.mem_singleton.mp isIn
    rfl

theorem accesses_plan (plan : ComputePlan) : plan.instr.Accesses slots := by
  cases plan <;> rfl

theorem accesses_oneOf (numeric : Numeric) : (oneOf numeric).Accesses slots := by
  cases numeric <;> rfl

/-! ### Numbers and literals -/

theorem composed_number {small : Option Instr} {load : PoolIndex → Instr} {value : Constant}
    (isSmall : ∀ instr, small = some instr → instr.Accesses slots)
    (reference : Reference types site (Pool.insert value) load) :
    Composed types slots site (Emit.number small load value) fun _ => True := by
  unfold Emit.number
  cases small with
  | some instr => exact .instr (isSmall instr rfl)
  | none => exact .refer reference

theorem composed_int (value : Int32) : Composed types slots site (Emit.int value) fun _ => True := by
  refine composed_number (fun instr isSmall => ?_) (.int value)
  simp only [smallInt?] at isSmall
  split at isSmall
  · cases isSmall
    rfl
  · split at isSmall
    · cases isSmall
      rfl
    · split at isSmall <;> cases isSmall
      rfl

theorem composed_long (value : Int64) : Composed types slots site (Emit.long value) fun _ => True := by
  refine composed_number (fun instr isSmall => ?_) (.long value)
  unfold smallLong? at isSmall
  split at isSmall
  · cases isSmall
    rfl
  · split at isSmall <;> cases isSmall
    rfl

theorem composed_float (bits : UInt32) : Composed types slots site (Emit.float bits) fun _ => True := by
  refine composed_number (fun instr isSmall => ?_) (.float bits)
  unfold smallFloat? at isSmall
  split at isSmall
  · cases isSmall
    rfl
  · split at isSmall
    · cases isSmall
      rfl
    · split at isSmall <;> cases isSmall
      rfl

theorem composed_double (bits : UInt64) :
    Composed types slots site (Emit.double bits) fun _ => True := by
  refine composed_number (fun instr isSmall => ?_) (.double bits)
  unfold smallDouble? at isSmall
  split at isSmall
  · cases isSmall
    rfl
  · split at isSmall <;> cases isSmall
    rfl

theorem composed_literal (value : Literal) :
    Composed types slots site (Emit.literal value) fun _ => True := by
  cases value with
  | int value => exact composed_int value
  | long value => exact composed_long value
  | float bits => exact composed_float bits
  | double bits => exact composed_double bits
  | char unit => exact composed_int _
  | boolean value => exact .instr rfl
  | string text => exact .refer (.string text)
  | null => exact .instr rfl

/-! ### Members and places -/

theorem composed_field (ofClass ofObject : FieldAccess) {field : FieldRef}
    (isType : types field.type) :
    Composed types slots site (Emit.field ofClass ofObject field) fun _ => True :=
  .refer (.field _ field isType)

theorem composed_read {place : Place} (isOver : place.Over types slots) :
    Composed types slots site (Emit.read place) fun _ => True := by
  cases place with
  | «variable» slot type => exact .instr (isOver.2 slot type rfl)
  | field found => exact composed_field _ _ isOver.1
  | element type => exact .instr rfl

theorem composed_write {place : Place} (isOver : place.Over types slots) :
    Composed types slots site (Emit.write place) fun _ => True := by
  cases place with
  | «variable» slot type => exact .instr (isOver.2 slot type rfl)
  | field found => exact composed_field _ _ isOver.1
  | element type => exact .instr rfl

theorem fail_bind {fault : InternalFault} (next : α → Emit β) :
    Emit.fail fault >>= next = Emit.fail fault := rfl

theorem composed_invoke {dispatch : Dispatch} {method : MethodRef}
    (isOver : method.signature.Over types) (isCalled : site.Calls dispatch method) :
    Composed types slots site (Emit.invoke dispatch method) fun _ => True := by
  unfold Emit.invoke
  dsimp only
  by_cases few : method.signature.parameterSlots ≤ 255
  · simp only [UInt16.not_lt.mpr few, if_false]
    exact .refer (.call dispatch method isOver isCalled few)
  · have alike := alike_addMethod dispatch method.owner method.name method.signature.descriptor
    have refused : Composed types slots site
        ((Emit.constant _ >>= fun _ => Pure.pure ()) >>= fun _ => Emit.fail .tooManyArguments)
        fun _ : Unit => True := (Composed.leave alike).seq (.fail _)
    simp only [bind_assoc, pure_bind] at refused
    simpa only [UInt16.not_le.mp few, if_true, fail_bind] using refused

theorem composed_newObject (className : String) :
    Composed types slots site (Emit.newObject className) fun _ => True :=
  .refers (.new className) (.instr rfl)

/-- The code of a simple name. -/
theorem composed_name (speaks : site.Speaks types) (covers : Covers types slots site scope)
    (name : String) (position : Position) :
    Composed types slots site (Emit.name site scope name position) (Qualifier.Over types) := by
  unfold Emit.name
  split
  · next slot type isVariable =>
    obtain ⟨isType, isSlot⟩ := covers.bound (Site.binding_of_nameUse? isVariable)
    exact .emit isSlot (.pure isType)
  · next field isField =>
    have isType := speaks.field (Site.field_of_nameUse? isField)
    have read : Composed types slots site (do Emit.readField field; return .value (.value field.type))
        (Qualifier.Over types) := (composed_field _ _ isType).seq (.pure isType)
    refine .check fun _ allowed => ?_
    cases isStatic : field.isStatic with
    | true => exact read
    | false =>
      have isInstance : site.method.isStatic = false := by
        unfold Site.checkImplicit Site.thisType at allowed
        rw [isStatic] at allowed
        cases isInstance : site.method.isStatic with
        | false => rfl
        | true =>
          rw [isInstance] at allowed
          cases allowed
      exact (Composed.this isInstance).seq read
  · exact .pure trivial
  · exact .pure trivial

/-- The code of a member of what stands in front of a point. -/
theorem composed_member (speaks : site.Speaks types) (qualifier : Qualifier) (name : String)
    (position : Position) :
    Composed types slots site (Emit.member site qualifier name position) (Qualifier.Over types) := by
  refine .check fun member found => ?_
  have isOver := Site.member_over speaks found
  have isQualifier := Member.qualifier_over speaks.toVocabulary isOver
  cases member with
  | package name => exact .pure isQualifier
  | classRef className => exact .pure isQualifier
  | length => exact .emit rfl (.pure isQualifier)
  | field field dropsValue =>
    have read : Composed types slots site (do Emit.readField field; return .value (.value field.type))
        (Qualifier.Over types) := (composed_field _ _ isOver).seq (.pure isQualifier)
    cases dropsValue with
    | false => exact read
    | true => exact .emit rfl read

/-- The place that a simple name is. -/
theorem composed_namePlace (speaks : site.Speaks types) (covers : Covers types slots site scope)
    (name : String) (position : Position) :
    Composed types slots site (Emit.namePlace site scope name position) (Place.Over types slots) := by
  refine .check fun place found => ?_
  have isOver := Site.namePlace_over speaks covers found
  split
  · next one =>
    have isInstance : site.method.isStatic = false := by
      unfold Site.namePlace at found
      split at found
      · cases found
        cases one
      · next field isField =>
        unfold Site.checkImplicit Site.thisType at found
        cases isStatic : field.isStatic with
        | true =>
          rw [isStatic] at found
          cases found
          simp [Place.operands, isStatic] at one
        | false =>
          rw [isStatic] at found
          cases isInstance : site.method.isStatic with
          | false => rfl
          | true =>
            rw [isInstance] at found
            cases found
      · cases found
    exact (Composed.this isInstance).seq (.pure isOver)
  · exact .pure isOver

/-- The place that a member is. -/
theorem composed_memberPlace (speaks : site.Speaks types) (qualifier : Qualifier) (name : String)
    (position : Position) :
    Composed types slots site (Emit.memberPlace site qualifier name position)
      (Place.Over types slots) := by
  refine .check fun (field, dropsValue) found => ?_
  have isOver : Place.Over types slots (.field field) := ⟨Site.memberPlace_over speaks found, nofun⟩
  cases dropsValue with
  | false => exact .pure isOver
  | true => exact .emit rfl (.pure isOver)

/-! ### Strings from their parts -/

theorem composed_emptyBuilder : Composed types slots site Emit.emptyBuilder fun _ => True :=
  (composed_newObject _).seq (composed_invoke ⟨nofun, nofun⟩ (.join .empty))

theorem composed_builderOfString (vocabulary : Vocabulary types) :
    Composed types slots site Emit.builderOfString fun _ => True := by
  have valueOf : valueOfMethod.signature.Over types := by
    refine ⟨?_, ?_⟩
    · rintro type isParameter
      cases List.mem_singleton.mp isParameter
      exact vocabulary.object
    · rintro type ⟨⟩
      exact vocabulary.string
  have made : (builderMethod constructorName [.string] none).signature.Over types := by
    refine ⟨?_, nofun⟩
    rintro type isParameter
    cases List.mem_singleton.mp isParameter
    exact vocabulary.string
  have copied : ∀ instr ∈ [Instr.stack .dupX1, .stack .swap], instr.Accesses slots := by
    rintro instr isIn
    simp only [List.mem_cons, List.not_mem_nil, or_false] at isIn
    rcases isIn with rfl | rfl <;> rfl
  exact (composed_invoke valueOf (.join .valueOf)).seq
    (.refers (.new _) ((composed_instrs copied).seq (composed_invoke made (.join .ofString))))

theorem appendedType?_over (vocabulary : Vocabulary types) {type : StaticType}
    {parameter : FieldType} (isOver : type.Over types) (found : appendedType? type = some parameter) :
    types parameter := by
  unfold appendedType? at found
  split at found
  · cases found
  · cases found
    exact vocabulary.object
  · cases found
    exact vocabulary.primitive rfl
  · cases found
    exact vocabulary.primitive rfl
  · split at found <;> cases found
    · exact isOver
    · exact vocabulary.object

theorem composed_append (vocabulary : Vocabulary types) {type : StaticType} (isOver : type.Over types)
    (position : Position) : Composed types slots site (Emit.append type position) fun _ => True := by
  unfold Emit.append
  split
  · exact .throw _
  · next parameter found =>
    refine composed_invoke ⟨?_, ?_⟩ (.join (.append parameter))
    · rintro other isParameter
      cases List.mem_singleton.mp isParameter
      exact appendedType?_over vocabulary isOver found
    · rintro other ⟨⟩
      exact vocabulary.builder

theorem composed_builtString (vocabulary : Vocabulary types) :
    Composed types slots site Emit.builtString fun _ => True := by
  refine composed_invoke ⟨nofun, ?_⟩ (.join .built)
  rintro type ⟨⟩
  exact vocabulary.string

end Emit

end MethodPatch
