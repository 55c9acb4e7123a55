/-
**Reading files by their paths.**

Files are kept by their places, the names on the way to them from the root. A path is followed one
name at a time, from the root if it begins with a slash and else from a folder of its own; every name
but the last has to lead to a folder. Besides the folders that hold a file there are those at the root
of a system.

* `Storage.find`: what a path leads to, or why it leads to no text;
* `PathFault.reason`: the wording, with the number that the system gives it.
-/

namespace MethodPatch.Shell

/-- The reason that the system gives for an error, with its number. -/
def systemReason (details : String) (code : UInt32) : String :=
  details ++ " (os error " ++ toString code ++ ")"

/-- Why a path leads to no text. -/
inductive PathFault where
  | missing
  | notAFolder
  | isAFolder
  | tooLong
  deriving DecidableEq

/-- The wording of a fault. -/
def PathFault.reason : PathFault → String
  | .missing => systemReason "No such file or directory" 2
  | .notAFolder => systemReason "Not a directory" 20
  | .isAFolder => systemReason "Is a directory" 21
  | .tooLong => systemReason "File name too long" 36

/-- The names on the way from the root. -/
abbrev Place := List String

/-- What a file holds: a text, or all of the input that is not read yet. -/
inductive Content where
  | text (text : String)
  | input
  deriving DecidableEq

/-- Files, and the folder in which a path begins. -/
structure Storage where
  files : List (Place × Content)
  start : Place

namespace Storage

/-- The folder that a run of the command begins in. -/
def runFolder : Place := ["tmp", "jpatch"]

/-- The devices: one that is empty, and the names of the input. -/
def devices : List (Place × Content) :=
  [(["dev", "null"], .text ""), (["dev", "stdin"], .input), (["dev", "fd", "0"], .input),
    (["proc", "self", "fd", "0"], .input)]

/-- The files of the folder of a run, by their paths from there, and the devices. -/
def ofFiles (files : List (String × String)) : Storage where
  files := files.map (fun (path, text) => (runFolder ++ path.splitOn "/", .text text)) ++ devices
  start := runFolder

/-- The folders at the root of a system. -/
def systemFolders : List String :=
  ["bin", "boot", "dev", "etc", "home", "lib", "media", "mnt", "opt", "proc", "root", "run", "sbin",
    "srv", "sys", "tmp", "usr", "var"]

/-- Whether a place is a folder. -/
def isFolder (storage : Storage) (place : Place) : Bool :=
  systemFolders.any (place = [·]) || place.isPrefixOf storage.start ||
    storage.files.any fun file => place.isPrefixOf file.1

/-- The longest name in bytes. -/
def longestName : Nat := 255

/-- The longest path in bytes. -/
def longestPath : Nat := 4095

/-- The file at the end of a path that goes on from a folder. An empty name and a single dot stay in
a folder and two dots lead out of it, unless it is the root. -/
def follow (storage : Storage) (place : Place) : List String → Except PathFault Content
  | [] => .error .isAFolder
  | name :: rest =>
    if name = "" ∨ name = "." then storage.follow place rest
    else if name = ".." then storage.follow place.dropLast rest
    else if longestName < name.utf8ByteSize then .error .tooLong
    else
      let next := place ++ [name]
      match storage.files.lookup next with
      | some content => if rest = [] then .ok content else .error .notAFolder
      | none => if storage.isFolder next then storage.follow next rest else .error .missing

/-- The file that a path leads to. -/
def find (storage : Storage) (path : String) : Except PathFault Content :=
  if path = "" then .error .missing
  else if longestPath < path.utf8ByteSize then .error .tooLong
  else storage.follow (if path.startsWith "/" then [] else storage.start) (path.splitOn "/")

end Storage

end MethodPatch.Shell
