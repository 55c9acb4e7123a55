/-
**Rejections of source text.**

A rejection of source text is a cause and, as far as it is known, the place in the text.

* `SourceError.orAt_orAt`: the first place that becomes known stays.
-/

import MethodPatch.Class.Pool
import MethodPatch.Source.Position
import MethodPatch.Types.SourceName

namespace MethodPatch

/-! ### Why source text is rejected

The causes of rejection, in four families: the text is malformed, the types of a construct do not
agree, a name stands for nothing, or the code cannot be generated. Each cause has one wording. -/

/-- The families of causes. -/
inductive ErrorKind where
  | syntaxError
  | typeError
  | referenceError
  | internalError
  deriving DecidableEq

/-- The name of a family in messages. -/
def ErrorKind.name : ErrorKind → String
  | .syntaxError => "SyntaxError"
  | .typeError => "TypeError"
  | .referenceError => "ReferenceError"
  | .internalError => "InternalError"

/-- What makes a text malformed. -/
inductive SyntaxFault where
  | unexpectedCharacter (c : Char)
  | unterminatedComment
  | unterminatedString
  | unpairedSurrogate
  | emptyCharacter
  | wideCharacter
  | unterminatedCharacter
  | unterminatedEscape
  | badUnicodeEscape
  | illegalEscape (c : Char)
  | malformedNumber
  | malformedExponent
  | integerTooLarge
  | longTooLarge
  | reservedWord (word : String)
  | unexpectedEnd
  | expected (wanted found : String)
  | arrayInitializer
  | misplacedDeclaration
  | jumpOutsideLoop (word : String)
  | labeledJump
  | notAStatement
  | invalidAssignmentTarget
  | invalidIncrementTarget
  | superUse
  | arrayOfArrays
  | primitiveInstance
  deriving DecidableEq

/-- The wording of a fault of the text. -/
def SyntaxFault.message : SyntaxFault → String
  | .unexpectedCharacter c => "Unexpected character: '" ++ c.toString ++ "'"
  | .unterminatedComment => "Unterminated comment"
  | .unterminatedString => "Unterminated string literal"
  | .unpairedSurrogate => "Unpaired surrogate in string literal"
  | .emptyCharacter => "Empty character literal"
  | .wideCharacter => "Character literal does not fit in a char"
  | .unterminatedCharacter => "Unterminated character literal"
  | .unterminatedEscape => "Unterminated escape sequence"
  | .badUnicodeEscape => "Invalid unicode escape"
  | .illegalEscape c => "Illegal escape character: '\\" ++ c.toString ++ "'"
  | .malformedNumber => "Malformed number literal"
  | .malformedExponent => "Malformed exponent"
  | .integerTooLarge => "Integer number too large"
  | .longTooLarge => "Long number too large"
  | .reservedWord word => "'" ++ word ++ "' is not supported in a statement fragment"
  | .unexpectedEnd => "Unexpected end of input"
  | .expected wanted found => "Expected " ++ wanted ++ ", got " ++ found
  | .arrayInitializer => "Array initializers are not supported"
  | .misplacedDeclaration => "Declaration not allowed here"
  | .jumpOutsideLoop word => "'" ++ word ++ "' outside of loop"
  | .labeledJump => "Labeled jumps are not supported"
  | .notAStatement => "Not a statement"
  | .invalidAssignmentTarget => "Invalid assignment target"
  | .invalidIncrementTarget => "Invalid increment target"
  | .superUse => "'super' is not supported in a statement fragment"
  | .arrayOfArrays => "Multi-dimensional array creation is not supported"
  | .primitiveInstance => "Primitive types cannot be instantiated"

/-- What disagrees about types. -/
inductive TypeFault where
  | unexpectedResult
  | missingResult
  | inconvertible (source target : StaticType)
  | lossy (source target : FieldType)
  | badOperands (symbol : String) (left right : StaticType)
  | badOperand (symbol : String) (operand : StaticType)
  | notTestable (operand : StaticType) (target : FieldType)
  | staticContext (what : String)
  | notDereferenceable (receiver : StaticType)
  | notAnArray (found : StaticType)
  | voidOperand
  | notInstantiable (type : FieldType)
  | noSuitableMethod (name arguments : String)
  | finalLength
  | notAssignable
  | branchesDisagree (first second : StaticType)
  deriving DecidableEq

/-- The wording of a disagreement of types. -/
def TypeFault.message : TypeFault → String
  | .unexpectedResult => "incompatible types: unexpected return value"
  | .missingResult => "missing return value"
  | .inconvertible source target =>
    "incompatible types: " ++ source.sourceName ++ " cannot be converted to " ++ target.sourceName
  | .lossy source target =>
    "incompatible types: possible lossy conversion from " ++ source.sourceName ++ " to " ++
      target.sourceName
  | .badOperands symbol left right =>
    "bad operand types for binary operator '" ++ symbol ++ "': " ++ left.sourceName ++ " and " ++
      right.sourceName
  | .badOperand symbol operand =>
    "bad operand type " ++ operand.sourceName ++ " for unary operator '" ++ symbol ++ "'"
  | .notTestable operand target =>
    "unexpected type: " ++ operand.sourceName ++ " instanceof " ++ target.sourceName
  | .staticContext what => "non-static " ++ what ++ " cannot be referenced from a static context"
  | .notDereferenceable receiver => receiver.sourceName ++ " cannot be dereferenced"
  | .notAnArray found => "array required, but " ++ found.sourceName ++ " found"
  | .voidOperand => "'void' type not allowed here"
  | .notInstantiable type => type.sourceName ++ " cannot be instantiated"
  | .noSuitableMethod name arguments =>
    "no suitable method found for " ++ name ++ "(" ++ arguments ++ ")"
  | .finalLength => "cannot assign a value to final variable length"
  | .notAssignable => "unexpected assignment target"
  | .branchesDisagree first second =>
    "incompatible types in conditional expression: " ++ first.sourceName ++ " and " ++
      second.sourceName

/-- A name that stands for nothing where it is used. Owners are internal class names. -/
inductive ReferenceFault where
  | unknownClass (name : String)
  | unknownVariable (name : String)
  | unknownField (name owner : String)
  | unknownName (name : String)
  | unknownMethod (name arguments : String)
  | classAsValue (className : String)
  deriving DecidableEq

/-- The wording of a failed look-up. -/
def ReferenceFault.message : ReferenceFault → String
  | .unknownClass name => "cannot find symbol: class " ++ name
  | .unknownVariable name => "cannot find symbol: variable " ++ name
  | .unknownField name owner => "cannot find symbol: variable " ++ name ++ " in " ++ dottedName owner
  | .unknownName name => "cannot find symbol: " ++ name
  | .unknownMethod name arguments => "cannot find symbol: method " ++ name ++ "(" ++ arguments ++ ")"
  | .classAsValue className => "cannot use class " ++ dottedName className ++ " as a value"

/-- Why code cannot be generated from a text that is otherwise in order. -/
inductive InternalFault where
  | pool (error : PoolError)
  | jumpOutsideLoop
  | badTypeName (name : String)
  | tooManyLocals
  | noSlot (name : String)
  | tooManyArguments
  deriving DecidableEq

/-- The wording of a failed generation. -/
def InternalFault.message : InternalFault → String
  | .pool error => error.message
  | .jumpOutsideLoop => "jump outside of loop"
  | .badTypeName name => "invalid resolved type '" ++ name ++ "'"
  | .tooManyLocals => "too many local variables"
  | .noSlot name => "too many local variables to place '" ++ name ++ "'"
  | .tooManyArguments => "too many method arguments"

/-- Why a text is rejected. A host may add causes of its own, which bring their wording along. -/
inductive Cause where
  | malformed (fault : SyntaxFault)
  | mistyped (fault : TypeFault)
  | unresolved (fault : ReferenceFault)
  | notGenerated (fault : InternalFault)
  | stated (kind : ErrorKind) (message : String)
  deriving DecidableEq

/-- The family of a cause. -/
def Cause.kind : Cause → ErrorKind
  | .malformed _ => .syntaxError
  | .mistyped _ => .typeError
  | .unresolved _ => .referenceError
  | .notGenerated _ => .internalError
  | .stated kind _ => kind

/-- The wording of a cause. -/
def Cause.message : Cause → String
  | .malformed fault => fault.message
  | .mistyped fault => fault.message
  | .unresolved fault => fault.message
  | .notGenerated fault => fault.message
  | .stated _ message => message

/-! ### Errors with a place

A rejection of source text is a cause and, as far as it is known, the place in the text. -/

/-- A cause and the place it concerns. -/
structure SourceError where
  cause : Cause
  position : Option Position
  deriving DecidableEq

namespace SourceError

/-- The family of the cause. -/
def kind (error : SourceError) : ErrorKind := error.cause.kind

/-- The wording of the cause. -/
def message (error : SourceError) : String := error.cause.message

/-- The error at a place, whatever was known before. -/
def movedTo (error : SourceError) (position : Position) : SourceError :=
  { error with position := some position }

/-- The error at a place, unless it has one. -/
def orAt (error : SourceError) (position : Option Position) : SourceError :=
  { error with position := error.position <|> position }

/-- The whole error as one line. -/
def text (error : SourceError) : String :=
  error.kind.name ++
    (match error.position with
      | some position => " at " ++ position.lineColumn
      | none => "") ++
    ": " ++ error.message

theorem orAt_orAt (error : SourceError) (first second : Position) :
    (error.orAt (some first)).orAt (some second) = error.orAt (some first) := by
  rcases error with ⟨cause, _ | position⟩ <;> rfl

end SourceError

/-- A malformed text. -/
def malformed (fault : SyntaxFault) (position : Option Position) : SourceError :=
  ⟨.malformed fault, position⟩

/-- Types that do not agree. -/
def mistyped (fault : TypeFault) (position : Option Position) : SourceError :=
  ⟨.mistyped fault, position⟩

/-- A name that stands for nothing. -/
def unresolved (fault : ReferenceFault) (position : Option Position) : SourceError :=
  ⟨.unresolved fault, position⟩

/-- Code that cannot be generated. -/
def notGenerated (fault : InternalFault) (position : Option Position) : SourceError :=
  ⟨.notGenerated fault, position⟩

end MethodPatch
