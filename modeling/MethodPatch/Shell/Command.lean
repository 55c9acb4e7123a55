/-
**The command.**

A run of the command reads a workspace, opens a session for a method and compiles a file, a text or
the lines of an interactive session. How files are read is left to the caller.

* `openShell`: the session of a run;
* `Arguments.start`: all output of a run but that of an interactive session, which goes on from there;
* `run`: all that a run prints, given the files that there are.
-/

import MethodPatch.Shell.Arguments
import MethodPatch.Shell.Folder
import MethodPatch.Shell.Repl
import MethodPatch.Text.Cluster
import MethodPatch.Workspace.Read

namespace MethodPatch.Shell

/-- Why a run fails. -/
inductive Failure where
  | refused (error : PatchError)
  | unreadable (path reason : String)
  | notJson (path : String)
  deriving DecidableEq

namespace Failure

/-- The wording of a failure. -/
def message : Failure → String
  | .refused error => error.message
  | .unreadable path reason => "cannot read '" ++ path ++ "': " ++ reason
  | .notJson path => "invalid JSON in '" ++ path ++ "'"

/-- The exit code of a run that fails. -/
def exitCode : Failure → UInt32
  | .refused error => if error.isRecoverable then 1 else 3
  | .unreadable _ _ | .notJson _ => 2

end Failure

/-- The exit code of a run without success whose arguments make no sense. -/
def usageCode : UInt32 := 2

/-- What is shown when there is nothing to do. -/
def usageLines : List Line :=
  [.out ("jpatch v" ++ versionText), .out "", .out "Usage:",
    .out "  jpatch -w <WS> -c <CLASS> -m <METHOD> --file <FILE>   Compile a file",
    .out "  jpatch -w <WS> -c <CLASS> -m <METHOD> --eval <CODE>   Compile inline statements",
    .out "  jpatch -w <WS> -c <CLASS> -m <METHOD> --repl          Start interactive session",
    .out "", .out "Run 'jpatch --help' for more options."]

/-- The options of the command. -/
def helpLines : List Line :=
  [.out "jpatch - compile Java statements into bytecode for a method edit", .out "",
    .out "Usage: jpatch [OPTIONS] --workspace <FILE> --class <NAME> --method <NAME+DESCRIPTOR>",
    .out "", .out "Options:",
    .out "  -w, --workspace <FILE>          Workspace description (JSON)",
    .out "  -c, --class <NAME>              Class under edit, e.g. com/example/Foo or com.example.Foo",
    .out "  -m, --method <NAME+DESCRIPTOR>  Method under edit as name and descriptor, e.g. 'run(I)V'",
    .out "      --metadata <FILE>           Local variable table of the method (JSON), overriding the workspace",
    .out "  -f, --file <FILE>               Compile the statements in a file",
    .out "  -e, --eval <CODE>               Compile inline statements",
    .out "  -r, --repl                      Start an interactive session",
    .out "      --print-bytecode            Print a disassembly of each fragment",
    .out "      --json                      Print fragments as JSON",
    .out "      --lenient-redeclaration     Allow redeclaring a local with a different storage kind",
    .out "  -v, --verbose                   Enable debug logging",
    .out "  -h, --help                      Print help", .out "  -V, --version                   Print version"]

/-- The lines and the exit code of a run that shows a notice. -/
def Notice.answer : Notice → List Line × UInt32
  | .usageError => ([.err "usage error"], usageCode)
  | .help => (helpLines, 0)
  | .version => ([.out ("jpatch " ++ versionText)], 0)

/-- The lines and the exit code of a run that fails. -/
def Failure.answer (failure : Failure) : List Line × UInt32 :=
  ([errorLine failure.message], failure.exitCode)

/-- The texts of files, or why they cannot be read. -/
abbrev Files (m : Type → Type) := String → m (Except String String)

/-- A run: an answer or a failure. -/
abbrev Run (m : Type → Type) := ExceptT Failure m

section

variable {m : Type → Type} [Monad m]

/-- The text of a file. -/
def readFile (files : Files m) (path : String) : Run m String := do
  match ← files path with
  | .ok text => return text
  | .error reason => throw (.unreadable path reason)

/-- The value that a file of JSON holds. -/
def readJson {α : Type} (files : Files m) (ofText : String → Except Json.Fault α) (path : String) :
    Run m α := do
  match ofText (← readFile files path) with
  | .ok value => return value
  | .error _ => throw (.notJson path)

/-- A step of a patch. -/
def patchStep {α : Type} (result : Except PatchError α) : Run m α :=
  match result with
  | .ok value => return value
  | .error error => throw (.refused error)

/-- The session of a run. -/
def openShell (files : Files m) (arguments : Arguments) : Run m Repl := do
  let workspace ← readJson files Workspace.ofText arguments.workspace
  let target ← patchStep (Target.ofMethod? workspace 0 arguments.className arguments.method)
  let session ← match arguments.metadata with
    | some path => do
      let record ← readJson files MethodRecord.ofText path
      patchStep (Session.start target record arguments.strict)
    | none => patchStep (Session.ofTarget target arguments.strict)
  return { session, view := ⟨arguments.printBytecode, arguments.json⟩, unfinished := none }

/-- The line that shows the fragment of a text. -/
def compileText (repl : Repl) (text : String) : Run m Line := do
  let (result, session) := repl.session.compile text
  return Repl.shown session repl.view (← patchStep result)

/-- The first lines of a run, and the interactive session that follows if one was asked for. -/
def Arguments.start (files : Files m) (arguments : Arguments) : Run m (List Line × Option Repl) := do
  let repl ← openShell files arguments
  match arguments.input with
  | .file path => do
    let line ← compileText repl (← readFile files path)
    return ([line], none)
  | .code text => do
    let line ← compileText repl text
    return ([line], none)
  | .repl => return (Repl.greeting repl.session.target, some repl)
  | .nothing => return (usageLines, none)

end

/-- The lines and the exit code of an interactive session over lines of input. An empty line comes
last when the input ends. -/
def Repl.answers (repl : Repl) : List String → List Line × UInt32
  | [] => ([.out ""], 0)
  | first :: rest =>
    match repl.line first with
    | (lines, .more repl) =>
      let (others, code) := repl.answers rest
      (lines ++ others, code)
    | (lines, .done) => (lines, 0)
    | (lines, .failed error) => (lines ++ [errorLine error.message], (Failure.refused error).exitCode)

/-- All lines and the exit code of a run. The lines of its input are asked for when an interactive
session begins. -/
def answer {m : Type → Type} [Monad m] (files : Files m) (arguments : List String)
    (input : m (List String)) : m (List Line × UInt32) := do
  match Arguments.ofList arguments with
  | .error notice => return notice.answer
  | .ok arguments =>
    match ← (arguments.start files).run with
    | .error failure => return failure.answer
    | .ok (lines, none) => return (lines, 0)
    | .ok (lines, some repl) =>
      let (others, code) := repl.answers (← input)
      return (lines ++ others, code)

/-- The lines that a run prints, one for each line of its texts. -/
def printed (lines : List Line) : List String := lines.flatMap fun line => Text.lines line.text

/-- The lines of an input as they were meant: a line holds backspaces as they were typed. -/
def inputLines (text : String) : List String := (Text.lines text).map Text.erased

/-- The text of a file of a storage. What is read of the input is gone from it. -/
def Storage.read (storage : Storage) : Files (StateM String) := fun path =>
  match storage.find path with
  | .error fault => return .error fault.reason
  | .ok (.text text) => return .ok text
  | .ok .input => modifyGet fun unread => (.ok unread, "")

/-- The lines that a run prints and its exit code, given its files and its input. -/
def run (storage : Storage) (arguments : List String) (input : String) : List String × UInt32 :=
  let ((lines, code), _) := (answer storage.read arguments (inputLines <$> get)).run input
  (printed lines, code)

end MethodPatch.Shell
