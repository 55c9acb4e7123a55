/-
**The program.**

Files and the standard streams around `Shell.Arguments.start` and `Shell.Repl.line`.
-/

import MethodPatch.Shell.Command

namespace MethodPatch.Shell

/-- The text of a file, or why it cannot be read. -/
def fileText (path : String) : IO (Except String String) := do
  try
    return .ok (← IO.FS.readFile path)
  catch
    | .noFileOrDirectory _ _ _ => return .error PathFault.missing.reason
    | .permissionDenied _ code details => return .error (systemReason details code)
    | .inappropriateType _ code details => return .error (systemReason details code)
    | .userError _ => return .error "stream did not contain valid UTF-8"
    | error => return .error (toString error)

/-- Writes a line. -/
def writeLine : Line → IO Unit
  | .out text => IO.println text
  | .err text => IO.eprintln text

/-- Reads lines until the session ends. -/
partial def converse (repl : Repl) : IO UInt32 := do
  let text ← (← IO.getStdin).getLine
  match inputLines text with
  | [] => do
    IO.println ""
    return 0
  | first :: _ =>
    let (lines, next) := repl.line first
    lines.forM writeLine
    match next with
    | .more repl => converse repl
    | .done => return 0
    | .failed error => do
      let (lines, code) := (Failure.refused error).answer
      lines.forM writeLine
      return code

/-- Runs the command with arguments. -/
def runCommand (arguments : List String) : IO UInt32 := do
  match Arguments.ofList arguments with
  | .error notice => do
    let (lines, code) := notice.answer
    lines.forM writeLine
    return code
  | .ok arguments =>
    match ← (arguments.start fileText).run with
    | .error failure => do
      let (lines, code) := failure.answer
      lines.forM writeLine
      return code
    | .ok (lines, repl) => do
      lines.forM writeLine
      match repl with
      | some repl => converse repl
      | none => return 0

end MethodPatch.Shell

/-- The entry of the program. -/
def main (arguments : List String) : IO UInt32 := MethodPatch.Shell.runCommand arguments
