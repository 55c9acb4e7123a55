/-
**The arguments of the command.**

An argument is an option by its long name or by a letter, and an option has a value or is a switch.
The value is attached to the option or is the next argument, unless that begins with a dash. Letters
can be joined. Nothing may be given twice, and there are no other arguments.

* `Arguments.ofList`: the arguments, or what is to be shown instead of running.
-/

namespace MethodPatch.Shell

/-- Options with a value. -/
inductive Setting where
  | workspace
  | className
  | method
  | metadata
  | file
  | code
  deriving DecidableEq

/-- Options without a value. -/
inductive Switch where
  | repl
  | printBytecode
  | json
  | lenient
  | verbose
  | help
  | version
  deriving DecidableEq

/-- The settings by their long names and letters. -/
def settings : List (Setting × String × Option Char) :=
  [(.workspace, "workspace", some 'w'), (.className, "class", some 'c'),
    (.method, "method", some 'm'), (.metadata, "metadata", none), (.file, "file", some 'f'),
    (.code, "eval", some 'e')]

/-- The switches by their long names and letters. -/
def switches : List (Switch × String × Option Char) :=
  [(.repl, "repl", some 'r'), (.printBytecode, "print-bytecode", none), (.json, "json", none),
    (.lenient, "lenient-redeclaration", none), (.verbose, "verbose", some 'v'),
    (.help, "help", some 'h'), (.version, "version", some 'V')]

/-- The option of a long name. -/
def byName? {α : Type} (table : List (α × String × Option Char)) (name : List Char) : Option α :=
  (table.find? fun entry => entry.2.1.toList = name).map Prod.fst

/-- The option of a letter. -/
def byLetter? {α : Type} (table : List (α × String × Option Char)) (letter : Char) : Option α :=
  (table.find? fun entry => entry.2.2 = some letter).map Prod.fst

/-- What is shown instead of running. -/
inductive Notice where
  | usageError
  | help
  | version
  deriving DecidableEq

/-- The options that were given so far. -/
structure Given where
  values : List (Setting × String)
  turnedOn : List Switch

namespace Given

/-- One more setting. -/
def set (given : Given) (setting : Setting) (value : String) : Except Notice Given :=
  if (given.values.lookup setting).isSome then .error .usageError
  else .ok { given with values := (setting, value) :: given.values }

/-- One more switch. -/
def turnOn (given : Given) (switch : Switch) : Except Notice Given :=
  if switch = .help then .error .help
  else if switch = .version then .error .version
  else if switch ∈ given.turnedOn then .error .usageError
  else .ok { given with turnedOn := switch :: given.turnedOn }

/-- Joined letters. The last may be a setting, with the characters behind it as its value; without
characters its value is still to come. -/
def letters (given : Given) : List Char → Except Notice (Given × Option Setting)
  | [] => .ok (given, none)
  | letter :: rest =>
    match byLetter? settings letter with
    | some setting =>
      match rest with
      | [] => .ok (given, some setting)
      | '=' :: value => (given.set setting (String.ofList value)).map (·, none)
      | value => (given.set setting (String.ofList value)).map (·, none)
    | none =>
      match byLetter? switches letter with
      | some switch => (given.turnOn switch).bind fun given => letters given rest
      | none => .error .usageError

/-- A long name, with a value behind an equals sign if there is one. Without it the value of a
setting is still to come. -/
def long (given : Given) (text : List Char) : Except Notice (Given × Option Setting) :=
  let name := text.takeWhile (· ≠ '=')
  let attached := (text.dropWhile (· ≠ '=')).tail?
  match byName? settings name, byName? switches name, attached with
  | some setting, _, some value => (given.set setting (String.ofList value)).map (·, none)
  | some setting, _, none => .ok (given, some setting)
  | none, some switch, none => (given.turnOn switch).map (·, none)
  | _, _, _ => .error .usageError

/-- One argument. -/
def argument (given : Given) (text : String) : Except Notice (Given × Option Setting) :=
  match text.toList with
  | '-' :: '-' :: name => given.long name
  | '-' :: letter :: rest => given.letters (letter :: rest)
  | _ => .error .usageError

/-- Whether an argument can be the value of a setting before it. -/
def isValue (text : String) : Bool := text.toList.head? ≠ some '-' || text = "-"

/-- All arguments. Behind two dashes no option can stand, and nothing else may. -/
def arguments (given : Given) : List String → Except Notice Given
  | [] => .ok given
  | ["--"] => .ok given
  | first :: rest =>
    match given.argument first with
    | .error notice => .error notice
    | .ok (given, none) => arguments given rest
    | .ok (given, some setting) =>
      match rest with
      | value :: rest =>
        if isValue value then (given.set setting value).bind fun given => arguments given rest
        else .error .usageError
      | [] => .error .usageError

end Given

/-- Where the text of a patch comes from. -/
inductive Input where
  | file (path : String)
  | code (text : String)
  | repl
  | nothing
  deriving DecidableEq

/-- The arguments of a command. -/
structure Arguments where
  workspace : String
  className : String
  method : String
  metadata : Option String
  input : Input
  printBytecode : Bool
  json : Bool
  strict : Bool
  deriving DecidableEq

namespace Arguments

/-- The input of a command, of which at most one may be given. -/
def inputOf (file code : Option String) (isRepl : Bool) : Except Notice Input :=
  match file, code, isRepl with
  | some path, none, false => .ok (.file path)
  | none, some text, false => .ok (.code text)
  | none, none, true => .ok .repl
  | none, none, false => .ok .nothing
  | _, _, _ => .error .usageError

/-- The arguments that given options are. -/
def ofGiven (given : Given) : Except Notice Arguments := do
  let value (setting : Setting) := given.values.lookup setting
  let on (switch : Switch) : Bool := switch ∈ given.turnedOn
  let input ← inputOf (value .file) (value .code) (on .repl)
  match value .workspace, value .className, value .method with
  | some workspace, some className, some method =>
    return { workspace, className, method, input, metadata := value .metadata,
             printBytecode := on .printBytecode, json := on .json, strict := !on .lenient }
  | _, _, _ => throw .usageError

/-- The arguments of a command line. -/
def ofList (arguments : List String) : Except Notice Arguments :=
  (Given.arguments ⟨[], []⟩ arguments).bind ofGiven

end Arguments

end MethodPatch.Shell
