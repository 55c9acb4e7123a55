/-
**Why a patch is refused.**

A patch can fail at every stage: its text is malformed, a statement cannot be compiled, the method
it is for is not there, or what is recorded about the method makes no sense. Each cause has one
wording, and some can be mended by editing the text.
-/

import MethodPatch.Locals.Basic
import MethodPatch.Source.SourceError
import MethodPatch.Code.Body

namespace MethodPatch

/-- Why there is no generator for a method. -/
inductive TargetFault where
  | malformedMethod (text : String)
  | missingClass (className : String)
  | missingMethod (className name descriptor : String)
  | nothingInstalled
  deriving DecidableEq

/-- The wording of a fault. -/
def TargetFault.message : TargetFault → String
  | .malformedMethod text => "method '" ++ text ++ "' must be written as name(descriptor)"
  | .missingClass className => "class " ++ className ++ " is not in the workspace"
  | .missingMethod className name descriptor =>
    "method " ++ className ++ "." ++ name ++ descriptor ++ " is not declared"
  | .nothingInstalled => "no generator installed"

/-- How far a generator is with the statements of a pass. -/
inductive Progress where
  | ready
  | emitting
  | complete
  | failed
  deriving DecidableEq, Inhabited

/-- The word for a progress. -/
def Progress.name : Progress → String
  | .ready => "ready"
  | .emitting => "emitting"
  | .complete => "complete"
  | .failed => "failed"

/-- Why no code can be taken out of a generator. -/
inductive ExtractionFault where
  | nothingInstalled
  | incomplete (progress : Progress)
  | unencodable (error : EncodeError)
  deriving DecidableEq

/-- The wording of a fault. -/
def ExtractionFault.message : ExtractionFault → String
  | .nothingInstalled => "no generator installed"
  | .incomplete progress => "generator is " ++ progress.name ++ ", not complete"
  | .unencodable error => error.message

/-- What makes no sense in the records of a method. -/
inductive RecordFault where
  | localType (name : String) (error : DescriptorError)
  | signature (name : String) (error : DescriptorError)
  deriving DecidableEq

/-- The wording of a fault. -/
def RecordFault.message : RecordFault → String
  | .localType name error => "local '" ++ name ++ "': " ++ error.message
  | .signature name error => "method " ++ name ++ error.text ++ ": " ++ error.message

/-- Why a patch is refused. -/
inductive PatchError where
  | malformed (error : SourceError)
  | alreadyPlaced (name : String) (slot : Slot)
  | noTarget (fault : TargetFault)
  | notCompiled (error : SourceError)
  | notExtracted (fault : ExtractionFault)
  | storageChanged (name : String) (slot : Slot) (existing declared : FieldType)
      (position : Option Position)
  | badRecord (fault : RecordFault)
  | unusable
  deriving DecidableEq

namespace PatchError

/-- The wording of an error. -/
def message : PatchError → String
  | .malformed error => "parse error: " ++ error.text
  | .alreadyPlaced name slot =>
    "variable '" ++ name ++ "' already occupies slot " ++ toString slot.toNat
  | .noTarget fault => "cannot install code generator: " ++ fault.message
  | .notCompiled error => "cannot compile statement: " ++ error.text
  | .notExtracted fault => "cannot extract bytecode: " ++ fault.message
  | .storageChanged name slot existing declared position =>
    "variable '" ++ name ++ "' redeclared as " ++ declared.sourceName ++ " but slot " ++
      toString slot.toNat ++ " holds " ++ existing.sourceName ++
      match position with
      | some position => " at " ++ position.lineColumn
      | none => ""
  | .badRecord fault => "invalid method metadata: " ++ fault.message
  | .unusable => "patch session is unusable after an earlier failure"

/-- Errors that go away when the text of the patch is mended. -/
def isRecoverable : PatchError → Bool
  | .malformed _ | .notCompiled _ | .storageChanged _ _ _ _ _ => true
  | _ => false

/-- The place in the text that an error concerns. -/
def position? : PatchError → Option Position
  | .malformed error | .notCompiled error => error.position
  | .storageChanged _ _ _ _ position => position
  | _ => none

end PatchError

end MethodPatch
