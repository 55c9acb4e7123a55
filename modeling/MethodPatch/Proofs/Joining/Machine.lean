/-
**A machine for joined strings.**

The part of the virtual machine that builds strings. A builder is an object that holds a text; on the
operand stack it goes by its number. Making a builder, copying a reference to it and calling it is all
that the machine does by itself. Every other instruction is left to a parameter, and so are the values
and what else there is to change, the world.

* `BuilderCall`, `Pool.builderCall?`: the calls of builders, read from the constants;
* `Conversion.appended_eq_text`: a value is appended as its text;
* `Joiner.perform`, `Joiner.step`: what an instruction does, and one step of code.
-/

import Mathlib.Logic.Relation
import MethodPatch.Generator.Member
import MethodPatch.Proofs.Constants.Calls
import MethodPatch.Proofs.Emission.Yields
import MethodPatch.Proofs.Joining.Summands
import MethodPatch.Proofs.Layout.Block

namespace MethodPatch

/-! ### Calls of builders -/

/-- The calls that build a string: a new builder is empty, values are appended to it by the type of
their parameter, and its text becomes a string. -/
inductive BuilderCall where
  | empty
  | append (parameter : FieldType)
  | built
  deriving DecidableEq

namespace BuilderCall

/-- The method that is called. -/
def method : BuilderCall → MethodRef
  | .empty => builderMethod constructorName [] none
  | .append parameter => builderMethod "append" [parameter] (some (.object builderClass))
  | .built => builderMethod "toString" [] (some .string)

/-- The way it is called. -/
def dispatch : BuilderCall → Dispatch
  | .empty => .special
  | .append _ | .built => .virtual

/-- The calls that there are: values are appended as one of eight types. -/
def all : List BuilderCall :=
  [.empty, .built, .append .boolean, .append .char, .append .int, .append .long, .append .float,
    .append .double, .append .string, .append (.object objectClass)]

/-- Whether a call is made in some way of a method with an owner, a name and a descriptor. -/
def isCallOf (dispatch : Dispatch) (member : String × String × String) (call : BuilderCall) : Bool :=
  call.dispatch = dispatch &&
    (call.method.owner, call.method.name, call.method.signature.descriptor) = member

end BuilderCall

/-- The call of a builder with an owner, a name and a descriptor. -/
def builderCall? (dispatch : Dispatch) (member : String × String × String) : Option BuilderCall :=
  BuilderCall.all.find? (·.isCallOf dispatch member)

/-- No two calls of builders look alike. -/
theorem builderCall?_method {call : BuilderCall} (isCall : call ∈ BuilderCall.all) :
    builderCall? call.dispatch
      (call.method.owner, call.method.name, call.method.signature.descriptor) = some call := by
  have distinct : ∀ call ∈ BuilderCall.all, builderCall? call.dispatch
      (call.method.owner, call.method.name, call.method.signature.descriptor) = some call := by
    decide
  exact distinct call isCall

/-- A value is appended as its own type, or as `int`, or as an object. -/
theorem appendedType?_cases {type : FieldType} {parameter : FieldType}
    (isParameter : appendedType? (.value type) = some parameter) :
    (type.isReference = true ∧ (parameter = .string ∨ parameter = .object objectClass)) ∨
      type.isReference = false ∧ parameter = if type = .byte ∨ type = .short then .int else type := by
  cases type with
  | object className =>
    simp only [appendedType?, FieldType.isPrimitive, FieldType.isReference, Bool.not_true,
      Bool.false_or] at isParameter
    split at isParameter <;> cases isParameter
    · next isString => exact .inl ⟨rfl, .inl (eq_of_beq isString)⟩
    · exact .inl ⟨rfl, .inr rfl⟩
  | array component =>
    cases isParameter
    exact .inl ⟨rfl, .inr rfl⟩
  | _ =>
    cases isParameter
    exact .inr ⟨rfl, rfl⟩

/-- The type as which a value is appended is one of those that there is a call for. -/
theorem mem_all_of_appended {type : StaticType} {parameter : FieldType}
    (isParameter : appendedType? type = some parameter) :
    .append parameter ∈ BuilderCall.all := by
  cases type with
  | void => cases isParameter
  | null =>
    cases isParameter
    decide
  | value type =>
    obtain ⟨_, rfl | rfl⟩ | ⟨isPrimitive, rfl⟩ := appendedType?_cases isParameter
    · decide
    · decide
    · cases type with
      | object | array => cases isPrimitive
      | _ => decide

namespace Pool

/-- The text at an index. -/
def text? (pool : Pool) (index : PoolIndex) : Option String :=
  match pool.get? index.toNat with
  | some (.utf8 text) => some text
  | _ => none

/-- The name of the class at an index. -/
def className? (pool : Pool) (index : PoolIndex) : Option String :=
  match pool.get? index.toNat with
  | some (.classRef name) => pool.text? name
  | _ => none

/-- The name and the descriptor at an index. -/
def nameAndType? (pool : Pool) (index : PoolIndex) : Option (String × String) :=
  match pool.get? index.toNat with
  | some (.nameAndType name descriptor) => do
    return (← pool.text? name, ← pool.text? descriptor)
  | _ => none

/-- The owner, the name and the descriptor of the method at an index. -/
def method? (pool : Pool) (index : PoolIndex) : Option (String × String × String) :=
  match pool.get? index.toNat with
  | some (.method owner member) => do return (← pool.className? owner, ← pool.nameAndType? member)
  | _ => none

variable {pool : Pool} {index : PoolIndex}

theorem text?_of_isText {text : String} (isText : IsText text pool index) :
    pool.text? index = some text := by
  rw [text?, isText]

theorem className?_of_isClass {name : String} (isClass : IsClass name pool index) :
    pool.className? index = some name := by
  obtain ⟨text, isText, found⟩ := isClass
  rw [className?, found]
  exact text?_of_isText isText

theorem method?_of_isMember {owner name descriptor : String}
    (isMember : IsMember .method owner name descriptor pool index) :
    pool.method? index = some (owner, name, descriptor) := by
  obtain ⟨first, isClass, second, ⟨_, isName, _, isDescriptor, found⟩, isMethod⟩ := isMember
  simp only [method?, isMethod, className?_of_isClass isClass, nameAndType?, found,
    text?_of_isText isName, text?_of_isText isDescriptor]
  rfl

end Pool

/-! ### The machine -/

/-- What is on the operand stack: a value, or a builder by its number. -/
inductive Item (V : Type) where
  | value (value : V)
  | builder (number : Nat)

/-- The operand stack with the last item first, the texts of the builders, and everything else. -/
structure JoinData (V W : Type) where
  stack : List (Item V)
  builders : List String
  world : W

/-- How values become strings, and what the instructions do that have nothing to do with builders. -/
structure Joiner (V W : Type) where
  conversion : Conversion V
  others : Pool → Instr → Nat × JoinData V W → Option (Nat × JoinData V W)

namespace Conversion

variable {V : Type}

/-- The text that is appended for a value as a type. -/
def appended (conversion : Conversion V) (parameter : FieldType) (value : V) : String :=
  if parameter.isReference then conversion.reference value else conversion.primitive parameter value

/-- **A value is appended as its text**, whichever call it is appended by. -/
theorem appended_eq_text (conversion : Conversion V) {type : StaticType} {parameter : FieldType}
    (isParameter : appendedType? type = some parameter) (value : V) :
    conversion.appended parameter value = conversion.text type value := by
  cases type with
  | void => cases isParameter
  | null =>
    cases isParameter
    rfl
  | value type =>
    obtain ⟨isReference, rfl | rfl⟩ | ⟨isPrimitive, rfl⟩ := appendedType?_cases isParameter
    · rw [text, if_pos isReference]
      rfl
    · rw [text, if_pos isReference]
      rfl
    · cases type with
      | object | array => cases isPrimitive
      | _ => rfl

end Conversion

namespace Joiner

variable {V W : Type}

/-- What a call does to a builder on the stack. -/
def call (joiner : Joiner V W) (data : JoinData V W) : BuilderCall → Option (JoinData V W)
  | .empty =>
    match data.stack with
    | .builder _ :: rest => some { data with stack := rest }
    | _ => none
  | .append parameter =>
    match data.stack with
    | .value value :: .builder number :: rest => do
      let text ← data.builders[number]?
      return { data with
        stack := .builder number :: rest
        builders := data.builders.set number (text ++ joiner.conversion.appended parameter value) }
    | _ => none
  | .built =>
    match data.stack with
    | .builder number :: rest => do
      let text ← data.builders[number]?
      return { data with stack := .value (joiner.conversion.ofString text) :: rest }
    | _ => none

/-- What an instruction does that has to do with builders. -/
def perform (joiner : Joiner V W) (pool : Pool) (instr : Instr) (data : JoinData V W) :
    Option (JoinData V W) :=
  match instr, data.stack with
  | .new index, stack =>
    if pool.className? index = some builderClass then
      some { data with
        stack := .builder data.builders.length :: stack, builders := data.builders ++ [""] }
    else none
  | .stack .dup, .builder number :: rest =>
    some { data with stack := .builder number :: .builder number :: rest }
  | .invoke dispatch index _ _, _ => do
    joiner.call data (← builderCall? dispatch (← pool.method? index))
  | _, _ => none

theorem perform_new {joiner : Joiner V W} {pool : Pool} {index : PoolIndex} {data : JoinData V W}
    (isBuilder : pool.className? index = some builderClass) :
    joiner.perform pool (.new index) data = some { data with
      stack := .builder data.builders.length :: data.stack, builders := data.builders ++ [""] } :=
  if_pos isBuilder

theorem perform_invoke (joiner : Joiner V W) (pool : Pool) (dispatch : Dispatch) (index : PoolIndex)
    (slots results : UInt8) (data : JoinData V W) :
    joiner.perform pool (.invoke dispatch index slots results) data = (do
      joiner.call data (← builderCall? dispatch (← pool.method? index))) := rfl

/-- What an instruction does. One that has nothing to do with builders may go anywhere. -/
def execute (joiner : Joiner V W) (pool : Pool) (instr : Instr) (state : Nat × JoinData V W) :
    Option (Nat × JoinData V W) :=
  match joiner.perform pool instr state.2 with
  | some data => some (state.1 + 1, data)
  | none => joiner.others pool instr state

/-- One step of code. There is none behind its end. -/
def step (joiner : Joiner V W) (code : List Instr) (pool : Pool) (state : Nat × JoinData V W) :
    Option (Nat × JoinData V W) :=
  code[state.1]?.bind fun instr => joiner.execute pool instr state

/-- Steps lead from one state to another. -/
def Leads (joiner : Joiner V W) (code : List Instr) (pool : Pool) :
    Nat × JoinData V W → Nat × JoinData V W → Prop :=
  Relation.ReflTransGen fun state next => joiner.step code pool state = some next

end Joiner

end MethodPatch
