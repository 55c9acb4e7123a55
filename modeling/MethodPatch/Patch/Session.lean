/-
**Editing one method.**

A generator is installed for a method, and the patches of the method are compiled by it, one pass
after the other.

* `Hook.install_of_serves`: what is installed for a target stays;
* `Session.compile`: one pass;
* `Session.commit`: a new session that begins with the locals of this one;
* `Session.compile_of_failed`: after a failure nothing changes any more.
-/

import MethodPatch.Patch.Pass
import MethodPatch.Workspace.Host

namespace MethodPatch

/-! ### Installing a generator for a method

A hook holds the generation of one target. Installing it for the target that it serves changes
nothing; installing it for another one starts anew. -/

/-- The method that a generation is for, and the generation. -/
structure Installed where
  target : Target
  generation : Generation

/-- What is installed, if anything is. -/
structure Hook where
  installed : Option Installed

namespace Hook

/-- A hook without a generation. -/
def empty : Hook := ⟨none⟩

/-- Whether the generation of a target is installed. -/
def serves (hook : Hook) (target : Target) : Bool :=
  hook.installed.any fun installed => installed.target.same target

/-- The hook with a generation for a target in place of any other. -/
def replace (target : Target) (generation : Generation) : Hook := ⟨some ⟨target, generation⟩⟩

/-- A generation for the method of a target, before its first pass. -/
def generationFor (target : Target) : Except PatchError Generation := do
  let site ← target.site
  let pool ← target.pool
  return .ofSite site pool

/-- The hook with a generation for a target. -/
def install (hook : Hook) (target : Target) : Except PatchError Hook :=
  if hook.serves target then .ok hook else (generationFor target).map (replace target)

/-- The installed generation. -/
def generation (hook : Hook) : Except PatchError Generation :=
  match hook.installed with
  | some installed => .ok installed.generation
  | none => .error (.noTarget .nothingInstalled)

/-- The hook with its generation in another state. -/
def withGeneration (hook : Hook) (generation : Generation) : Hook :=
  ⟨hook.installed.map fun installed => { installed with generation }⟩

/-- The code of the last pass of the installed generation. -/
def extract (hook : Hook) : Except PatchError (List UInt8) :=
  match hook.installed with
  | some installed => installed.generation.extract
  | none => .error (.notExtracted .nothingInstalled)

/-- A pass of the installed generation over the text of a patch. -/
def compile (hook : Hook) (strict : Bool) (roots : Scope) (allocator : Allocator)
    (source : String) : Except PatchError Fragment × Allocator × Hook :=
  match hook.generation with
  | .error error => (.error error, allocator, hook)
  | .ok generation =>
    let (result, allocator, generation) := generation.compile strict roots allocator source
    (result, allocator, hook.withGeneration generation)

theorem install_of_serves {hook : Hook} {target : Target} (served : hook.serves target = true) :
    hook.install target = .ok hook := by
  simp [install, served]

end Hook

/-! ### Editing one method

A session compiles patches for one method, one pass after the other. The locals that a pass
introduces can be used by later passes. After a failure the session refuses every pass; it can be
opened again from the record it began with. -/

/-- The state of the edit of a method. -/
structure Session where
  target : Target
  /-- Whether a known name is refused a type that is stored in another way. -/
  strict : Bool
  /-- The record that the session began with. -/
  seed : MethodRecord
  /-- The seed and the locals of all passes that succeeded. -/
  committed : MethodRecord
  allocator : Allocator
  /-- The variables that the next pass can use. -/
  roots : Table
  hook : Hook
  failed : Bool
  /-- The number of passes that succeeded. -/
  passes : Nat

namespace Session

/-- A session for a method with a record of its locals. -/
def start (target : Target) (record : MethodRecord) (strict : Bool) : Except PatchError Session := do
  let allocator ← record.allocator
  let roots ← record.roots
  let hook ← Hook.empty.install target
  return { target, strict, allocator, roots, hook, seed := record, committed := record,
           failed := false, passes := 0 }

/-- A session for a method with the locals that the workspace records. -/
def ofTarget (target : Target) (strict : Bool) : Except PatchError Session := do
  start target (← target.record) strict

/-- The session behind a pass that succeeded: its locals can be used and are committed. -/
def accept (session : Session) (fragment : Fragment) : Session :=
  { session with
    roots := fragment.introduced.foldl (fun roots entry => roots.bind entry.name entry.slot entry.type)
      session.roots
    committed := session.committed.merge fragment.introduced fragment.maxLocals
    passes := session.passes + 1 }

/-- One pass over the text of a patch. -/
def compile (session : Session) (source : String) : Except PatchError Fragment × Session :=
  if session.failed then (.error .unusable, session)
  else
    let (result, allocator, hook) :=
      session.hook.compile session.strict (.root session.roots) session.allocator source
    let later := { session with allocator, hook }
    match result with
    | .ok fragment => (.ok fragment, later.accept fragment)
    | .error error => (.error error, { later with failed := true })

/-- A new session from the record that this one began with. -/
def reopen (session : Session) : Except PatchError Session :=
  start session.target session.seed session.strict

/-- A new session that begins with what this one has committed. -/
def commit (session : Session) : Except PatchError Session :=
  if session.failed then .error .unusable
  else start session.target session.committed session.strict

theorem compile_of_failed {session : Session} (failed : session.failed = true) (source : String) :
    session.compile source = (.error .unusable, session) := by
  simp [compile, failed]

end Session

end MethodPatch
