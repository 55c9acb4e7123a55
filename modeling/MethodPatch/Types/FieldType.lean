/-
**Field types and their descriptors.**

A field type is one of the eight primitive types, a class, or an array of a field type. Its
descriptor is the class file's text for it: one letter for a primitive, `L` name `;` for a class,
and `[` before the component of an array.

* `FieldType.ofDescriptor?`: the type that a text describes, with the reason when there is none;
* `FieldType.takeDescriptor_length`: reading one descriptor consumes a character at least;
* `FieldType.width_eq`: a value takes one slot, or two when it is a `long` or a `double`.
-/

namespace MethodPatch

/-- The families of values that local variables and stack instructions tell apart. `boolean`,
`byte`, `char` and `short` are kept as `int`. -/
inductive Storage where
  | int
  | long
  | float
  | double
  | ref
  deriving DecidableEq, Inhabited

/-- The number of slots of a value. -/
def Storage.width : Storage → Nat
  | .long | .double => 2
  | _ => 1

theorem Storage.width_pos (storage : Storage) : 0 < storage.width := by
  cases storage <;> decide

/-- The types of fields, variables, parameters and array components. Classes go by their internal
names, which separate packages with slashes. -/
inductive FieldType where
  | boolean
  | byte
  | char
  | short
  | int
  | long
  | float
  | double
  | object (className : String)
  | array (component : FieldType)
  deriving DecidableEq, Inhabited

/-- What is wrong with the text of a descriptor. -/
inductive DescriptorFault where
  | unexpectedEnd
  | trailingCharacters
  | unterminatedClassName
  | emptyClassName
  | unknownTag (tag : Char)
  | missingParenthesis
  | unterminatedParameters
  deriving DecidableEq

/-- The wording of a fault. -/
def DescriptorFault.reason : DescriptorFault → String
  | .unexpectedEnd => "unexpected end"
  | .trailingCharacters => "trailing characters"
  | .unterminatedClassName => "unterminated class name"
  | .emptyClassName => "empty class name"
  | .unknownTag tag => "unknown type tag '" ++ tag.toString ++ "'"
  | .missingParenthesis => "expected '('"
  | .unterminatedParameters => "unterminated parameter list"

/-- A text that is no descriptor. -/
structure DescriptorError where
  text : String
  fault : DescriptorFault
  deriving DecidableEq

/-- The full message of a descriptor error. -/
def DescriptorError.message (error : DescriptorError) : String :=
  "invalid descriptor '" ++ error.text ++ "': " ++ error.fault.reason

namespace FieldType

/-- The class of strings. -/
def string : FieldType := .object "java/lang/String"

/-- The descriptor of a type. -/
def descriptor : FieldType → String
  | .boolean => "Z"
  | .byte => "B"
  | .char => "C"
  | .short => "S"
  | .int => "I"
  | .long => "J"
  | .float => "F"
  | .double => "D"
  | .object className => "L" ++ className ++ ";"
  | .array component => "[" ++ descriptor component

/-- The primitive type of a descriptor letter. -/
def ofTag? : Char → Option FieldType
  | 'Z' => some .boolean
  | 'B' => some .byte
  | 'C' => some .char
  | 'S' => some .short
  | 'I' => some .int
  | 'J' => some .long
  | 'F' => some .float
  | 'D' => some .double
  | _ => none

/-- One descriptor from the front of a text, and the text behind it. -/
def takeDescriptor : List Char → Except DescriptorFault (FieldType × List Char)
  | [] => .error .unexpectedEnd
  | tag :: rest =>
    if tag = '[' then
      match takeDescriptor rest with
      | .ok (component, behind) => .ok (.array component, behind)
      | .error fault => .error fault
    else if tag = 'L' then
      let name := rest.takeWhile (· != ';')
      match rest.dropWhile (· != ';') with
      | [] => .error .unterminatedClassName
      | _ :: behind =>
        if name = [] then .error .emptyClassName
        else .ok (.object (String.ofList name), behind)
    else
      match ofTag? tag with
      | some type => .ok (type, rest)
      | none => .error (.unknownTag tag)

theorem takeDescriptor_length {text rest : List Char} {type : FieldType}
    (taken : takeDescriptor text = .ok (type, rest)) : rest.length < text.length := by
  induction text generalizing type rest with
  | nil => simp [takeDescriptor] at taken
  | cons tag behind ih =>
    rw [takeDescriptor] at taken
    split at taken
    · split at taken
      · next component remaining inner =>
        simp only [Except.ok.injEq, Prod.mk.injEq] at taken
        have := ih inner
        simp only [List.length_cons, ← taken.2]
        omega
      · simp at taken
    · split at taken
      · have whole := List.takeWhile_append_dropWhile (p := (· != ';')) (l := behind)
        dsimp only at taken
        split at taken
        · simp at taken
        · next semicolon remaining parts =>
          split at taken
          · simp at taken
          · simp only [Except.ok.injEq, Prod.mk.injEq] at taken
            have := congrArg List.length whole
            rw [parts] at this
            simp only [List.length_append, List.length_cons] at this
            simp only [List.length_cons, ← taken.2]
            omega
      · split at taken
        · simp only [Except.ok.injEq, Prod.mk.injEq] at taken
          simp [← taken.2]
        · simp at taken

/-- The type that a text describes. -/
def ofDescriptor? (text : String) : Except DescriptorError FieldType :=
  match takeDescriptor text.toList with
  | .error fault => .error ⟨text, fault⟩
  | .ok (type, []) => .ok type
  | .ok (_, _ :: _) => .error ⟨text, .trailingCharacters⟩

/-- The family that a value of the type belongs to. -/
def storage : FieldType → Storage
  | .boolean | .byte | .char | .short | .int => .int
  | .long => .long
  | .float => .float
  | .double => .double
  | .object _ | .array _ => .ref

/-- The number of slots of a value of the type. -/
def width (type : FieldType) : Nat := type.storage.width

/-- Values of two slots. -/
def isWide (type : FieldType) : Bool := type.width = 2

/-- Classes and arrays. -/
def isReference : FieldType → Bool
  | .object _ | .array _ => true
  | _ => false

/-- The eight primitive types. -/
def isPrimitive (type : FieldType) : Bool := !type.isReference

/-- The primitive types that arithmetic accepts: all but `boolean`. -/
def isNumeric (type : FieldType) : Bool := type.isPrimitive && type != .boolean

/-- The primitive types of whole numbers. -/
def isIntegral : FieldType → Bool
  | .byte | .short | .char | .int | .long => true
  | _ => false

/-- The class of strings and no other type. -/
def isString (type : FieldType) : Bool := type == string

/-- The text of a class constant for the type: a class by its name, an array by its descriptor. -/
def classConstant? : FieldType → Option String
  | .object className => some className
  | .array component => some (descriptor (.array component))
  | _ => none

theorem width_eq (type : FieldType) :
    type.width = if type = .long ∨ type = .double then 2 else 1 := by
  cases type <;> simp [width, storage, Storage.width]

theorem width_pos (type : FieldType) : 0 < type.width := type.storage.width_pos

theorem isReference_iff_storage (type : FieldType) :
    type.isReference = true ↔ type.storage = .ref := by
  cases type <;> simp [isReference, storage]

end FieldType

end MethodPatch
