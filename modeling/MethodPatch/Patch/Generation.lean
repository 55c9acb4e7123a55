/-
**Generating one pass after the other.**

A generation is a generator for a site and how far it is with the statements of the current pass. A
pass begins with an empty body; the constants of earlier passes stay. A statement that cannot be
generated ends the pass, and only a pass that came to its end has code.

* `Generation.extract`: the code of the last pass;
* `Generation.extract_begin`, `Generation.extract_fail`: no code comes from the middle of a pass.
-/

import MethodPatch.Generator.Stmt
import MethodPatch.Patch.Error

namespace MethodPatch

/-- A generator for a site, its progress, and the number of statements of the current pass. -/
structure Generation where
  site : Site
  generator : Generator
  progress : Progress
  emitted : Nat

namespace Generation

/-- A generation for a site over constants, before its first pass. -/
def ofSite (site : Site) (pool : Pool) : Generation :=
  ⟨site, .ofPool site.method pool, .ready, 0⟩

/-- The generation at the start of a pass. -/
def begin (generation : Generation) : Generation :=
  { generation with
    generator := generation.generator.reset generation.site.method
    progress := .emitting
    emitted := 0 }

/-- The generation in the middle of a pass, which begins if none has. -/
def inPass (generation : Generation) : Generation :=
  if generation.progress = .emitting then generation else generation.begin

/-- One statement of the current pass, and the generation and the scope behind it. -/
def emit (generation : Generation) (scope : Scope) (statement : Stmt) :
    Except SourceError Unit × Generation × Scope :=
  let ⟨site, generator, progress, emitted⟩ := generation.inPass
  match generator.emit site scope statement with
  | (.ok (), generator, scope) => (.ok (), ⟨site, generator, progress, emitted + 1⟩, scope)
  | (.error error, generator, scope) => (.error error, ⟨site, generator, .failed, emitted⟩, scope)

/-- Statements of the current pass in order, up to the first error. -/
def emitAll (generation : Generation) (scope : Scope) :
    List Stmt → Except SourceError Unit × Generation × Scope
  | [] => (.ok (), generation, scope)
  | first :: rest =>
    match generation.emit scope first with
    | (.ok (), generation, scope) => emitAll generation scope rest
    | (.error error, generation, scope) => (.error error, generation, scope)

/-- The generation at the end of a pass, if it is in the middle of one. -/
def finish (generation : Generation) : Generation :=
  if generation.progress = .emitting then { generation with progress := .complete } else generation

/-- The generation with its pass given up. -/
def fail (generation : Generation) : Generation := { generation with progress := .failed }

/-- The generation with slots up to a count in use. -/
def reserveLocals (generation : Generation) (count : UInt16) : Generation :=
  { generation with generator := generation.generator.reserveLocals count }

/-- The code of the last pass. Before the first pass it is empty. -/
def extract (generation : Generation) : Except PatchError (List UInt8) :=
  match generation.progress with
  | .ready => .ok []
  | .complete =>
    generation.generator.body.encode.mapError fun error => .notExtracted (.unencodable error)
  | progress => .error (.notExtracted (.incomplete progress))

theorem extract_begin (generation : Generation) :
    generation.begin.extract = .error (.notExtracted (.incomplete .emitting)) := rfl

theorem extract_fail (generation : Generation) :
    generation.fail.extract = .error (.notExtracted (.incomplete .failed)) := rfl

end Generation

end MethodPatch
