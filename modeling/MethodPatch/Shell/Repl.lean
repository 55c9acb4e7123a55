/-
**The interactive session.**

A line is a command, which begins with a dot, or a part of the text of a patch. The text is complete
when its brackets are closed outside of literals; it is then one pass of the session. After a failed
pass the session is opened again from its last commit.

* `isComplete`: whether a text waits for no more lines;
* `Repl.line`: the answer to one line.
-/

import MethodPatch.Shell.Report
import MethodPatch.Text.Plain

namespace MethodPatch.Shell

/-! ### Complete texts -/

/-- Where the reading of a text is: outside of literals or in one, perhaps behind a backslash. -/
inductive Mode where
  | plain
  | literal (quote : Char)
  | escaped (quote : Char)
  deriving DecidableEq

/-- Whether the brackets of a text are closed, given the depth and the mode at its start. Brackets
of different kinds count the same. -/
def closesFrom (depth : Int) : Mode → List Char → Bool
  | .plain, [] => depth ≤ 0
  | _, [] => false
  | .escaped quote, _ :: rest => closesFrom depth (.literal quote) rest
  | .literal quote, c :: rest =>
    if c = '\\' then closesFrom depth (.escaped quote) rest
    else if c = quote then closesFrom depth .plain rest
    else closesFrom depth (.literal quote) rest
  | .plain, c :: rest =>
    if c = '"' ∨ c = '\'' then closesFrom depth (.literal c) rest
    else if c ∈ ['\x7b', '[', '('] then closesFrom (depth + 1) .plain rest
    else if c ∈ ['\x7d', ']', ')'] then closesFrom (depth - 1) .plain rest
    else closesFrom depth .plain rest

/-- Whether a text waits for no more lines. -/
def isComplete (text : String) : Bool := closesFrom 0 .plain text.toList

/-! ### Answers -/

/-- A text for the output or for the errors. The end of a line follows it. -/
inductive Line where
  | out (text : String)
  | err (text : String)
  deriving DecidableEq

/-- What is written for a line. -/
def Line.text : Line → String
  | .out text | .err text => text ++ "\n"

/-- The line of an error. -/
def errorLine (message : String) : Line := .err ("Error: " ++ message)

/-- The version of the program. -/
def versionText : String := "0.1.0"

/-- A session, how its fragments are shown, and the lines of a text that is not complete. -/
structure Repl where
  session : Session
  view : View
  unfinished : Option String

namespace Repl

/-- The first lines of an interactive session. -/
def greeting (target : Target) : List Line :=
  [.out ("jpatch " ++ versionText ++ " - editing " ++ target.className ++ "." ++
      target.methodName ++ target.descriptor),
    .out "Type Java statements, .help for commands or 'exit' to quit.", .out ""]

/-- The commands that there are. -/
def helpLines : List Line :=
  [.out "REPL Commands:", .out "  .symbols  - List the variables of the session",
    .out "  .commit   - Keep the new variables and start a new session",
    .out "  .reset    - Drop uncommitted variables", .out "  .help     - Show this help message",
    .out "  exit      - Exit the REPL"]

/-- A text without the blanks around it. -/
def trimmed (text : String) : String :=
  String.ofList (Text.trim text.toList)

/-- The words that end the session. -/
def farewells : List String := ["exit", ".exit", "quit"]

/-- Goes on with another session. -/
def continueWith (repl : Repl) (session : Except PatchError Session) (lines : Session → List Line) :
    List Line × Repl :=
  match session with
  | .ok session => (lines session, { repl with session })
  | .error error => ([errorLine error.message], repl)

/-- The answer to a command. -/
def command (repl : Repl) (text : String) : List Line × Repl :=
  match text with
  | ".help" => (helpLines, repl)
  | ".symbols" => (repl.session.symbolLines.map .out, repl)
  | ".commit" => repl.continueWith repl.session.commit fun session =>
    [.out ("committed " ++ toString session.seed.locals.length ++ " locals, max_locals " ++
      toString session.seed.maxLocals.toNat)]
  | ".reset" => repl.continueWith repl.session.reopen fun _ => [.out "session reset"]
  | _ => ([.out ("Unknown command: " ++ text), .out "Type .help for available commands"], repl)

/-- A fragment as the shell shows it. -/
def shown (session : Session) (view : View) (fragment : Fragment) : Line :=
  .out (String.ofList (Text.trimEnd (view.render session.listing fragment).toList))

/-- The answer to the text of a patch. After a failure the session is opened again; if it cannot be,
the shell ends with that error. -/
def patch (repl : Repl) (text : String) : List Line × Except PatchError Repl :=
  match repl.session.compile text with
  | (.ok fragment, session) => ([shown session repl.view fragment], .ok { repl with session })
  | (.error error, session) =>
    match session.reopen with
    | .ok session =>
      ([errorLine error.message, .err "(session reopened from the last commit)"],
        .ok { repl with session })
    | .error fatal => ([errorLine error.message], .error fatal)

/-- How the shell goes on behind a line. -/
inductive Next where
  | more (repl : Repl)
  | done
  | failed (error : PatchError)

/-- The answer to the text of a patch, if it is complete, or the wait for another line. -/
def read (repl : Repl) (text : String) : List Line × Next :=
  if isComplete text then
    match { repl with unfinished := none }.patch text with
    | (lines, .ok repl) => (lines, .more repl)
    | (lines, .error error) => (lines, .failed error)
  else ([], .more { repl with unfinished := some text })

/-- The answer to one line. While a text is not complete every line is a part of it. -/
def line (repl : Repl) (text : String) : List Line × Next :=
  match repl.unfinished with
  | some before => repl.read (before ++ "\n" ++ text)
  | none =>
    let word := trimmed text
    if word ∈ farewells then ([], .done)
    else if word.startsWith "." then
      let (lines, repl) := repl.command word
      (lines, .more repl)
    else repl.read text

end Repl

end MethodPatch.Shell
