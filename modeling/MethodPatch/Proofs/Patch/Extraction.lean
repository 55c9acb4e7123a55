/-
**Only whole passes are extracted.**

Calls to a generation come in any order. A pass begins with a call or with the first statement behind
the end of a pass, and may fail in the middle of a statement. What is recorded besides the generation
are the statements since the pass began, each with the generator in front of it; generating them again
tells the code that each has added.

* `Generation.Call`, `Generation.Emission`: a call, and a statement that was generated;
* `Generation.watch`: a generation behind some calls, and the statements of its pass;
* `Watched.Whole`: all statements have succeeded, and their code is all the code that there is;
* `Watched.Sound.perform`: passes stay whole in each call, unless they have failed;
* `Generation.extracts_whole`: **code is extracted in front of the first pass, where it is empty, and
  behind a whole pass, where it is what the statements have added**.
-/

import MethodPatch.Proofs.Emission.Appends
import MethodPatch.Proofs.Patch.Generated

namespace MethodPatch.Generation

/-! ### Calls -/

/-- A call to a generation. -/
inductive Call
  | begin
  | emit (scope : Scope) (statement : Stmt)
  | finish
  | fail
  | reserveLocals (count : UInt16)
  | extract

/-- The generation behind a call. -/
def perform (generation : Generation) : Call → Generation
  | .begin => generation.begin
  | .emit scope statement => (generation.emit scope statement).2.1
  | .finish => generation.finish
  | .fail => generation.fail
  | .reserveLocals count => generation.reserveLocals count
  | .extract => generation

/-- Calls that neither begin a pass, nor go on with it, nor give it up. -/
def Call.isQuiet : Call → Bool
  | .finish | .reserveLocals _ | .extract => true
  | .begin | .emit .. | .fail => false

/-- A statement that was generated, with the generator and the scope in front of it. -/
structure Emission where
  before : Generator
  scope : Scope
  statement : Stmt

namespace Emission

variable (site : Site) (emission : Emission)

/-- Whether the statement was generated, or why not. -/
def result : Except SourceError Unit :=
  (emission.before.emit site emission.scope emission.statement).1

/-- The generator behind the statement. -/
def after : Generator := (emission.before.emit site emission.scope emission.statement).2.1

/-- The code behind that which was there before. -/
def code : List Step := (emission.after site).body.code.toList.drop emission.before.size

/-- The statement is generated behind the code of earlier ones, and only appends to it. -/
structure Follows (earlier : List Emission) : Prop where
  succeeds : emission.result site = .ok ()
  starts : emission.before.body.code.toList = earlier.flatMap (·.code site)
  appends : (emission.after site).body.code.toList =
    emission.before.body.code.toList ++ emission.code site

variable {site emission}

theorem appends_of_succeeds (succeeds : emission.result site = .ok ()) :
    (emission.after site).body.code.toList =
      emission.before.body.code.toList ++ emission.code site := by
  have done : emission.before.emit site emission.scope emission.statement =
      (.ok (), emission.after site,
        (emission.before.emit site emission.scope emission.statement).2.2) :=
    Prod.ext succeeds rfl
  have whole := List.prefix_iff_eq_append.mp (Generator.emit_appends done)
  rw [Array.length_toList] at whole
  exact whole.symm

end Emission

/-- A statement goes on with the pass, or ends it. -/
theorem perform_emit (generation : Generation) (scope : Scope) (statement : Stmt) :
    let pass := generation.inPass
    let emission : Emission := ⟨pass.generator, scope, statement⟩
    generation.perform (.emit scope statement) =
      match emission.result pass.site with
      | .ok () => { pass with generator := emission.after pass.site, emitted := pass.emitted + 1 }
      | .error _ => { pass with generator := emission.after pass.site, progress := .failed } := by
  unfold perform emit Emission.result Emission.after
  dsimp only
  rcases generation.inPass.generator.emit generation.inPass.site scope statement with
    ⟨_ | _, _, _⟩ <;> rfl

/-! ### Generations and the statements of their passes -/

/-- A generation, and the statements that were generated since its pass began. -/
structure Watched where
  generation : Generation
  emissions : List Emission

namespace Watched

variable (watched : Watched)

/-- In the middle of a pass, which begins if none has. -/
def inPass : Watched :=
  ⟨watched.generation.inPass, if watched.generation.progress = .emitting then watched.emissions else []⟩

/-- The statements of the pass behind a call. -/
def emissionsBehind : Call → List Emission
  | .begin => []
  | .emit scope statement =>
    watched.inPass.emissions ++ [⟨watched.inPass.generation.generator, scope, statement⟩]
  | .finish | .fail | .reserveLocals _ | .extract => watched.emissions

/-- Behind a call. -/
def perform (call : Call) : Watched := ⟨watched.generation.perform call, watched.emissionsBehind call⟩

end Watched

/-- A generation behind some calls, and the statements of its pass. -/
def watch (generation : Generation) (calls : List Call) : Watched :=
  calls.foldl Watched.perform ⟨generation, []⟩

theorem watch_append (generation : Generation) (calls later : List Call) :
    generation.watch (calls ++ later) = later.foldl Watched.perform (generation.watch calls) :=
  List.foldl_append

/-! ### Whole passes -/

namespace Watched

variable {site : Site} {installed : Generator} {watched : Watched}

/-- All statements since the pass began have succeeded, each behind the code of those in front of it,
and there is no other code. -/
structure Whole (site : Site) (watched : Watched) : Prop where
  buffer : watched.generation.generator.body.code.toList = watched.emissions.flatMap (·.code site)
  emitted : watched.generation.emitted = watched.emissions.length
  each : ∀ earlier emission later, watched.emissions = earlier ++ emission :: later →
    emission.Follows site earlier

theorem whole_begin (generation : Generation) : Whole site ⟨generation.begin, []⟩ where
  buffer := rfl
  emitted := rfl
  each earlier _ _ split := absurd split.symm (by simp)

/-- A pass is whole whatever its progress and its locals are. -/
theorem Whole.congr (whole : watched.Whole site) {generation : Generation}
    (body : generation.generator.body = watched.generation.generator.body)
    (count : generation.emitted = watched.generation.emitted) :
    Whole site ⟨generation, watched.emissions⟩ where
  buffer := by rw [body, whole.buffer]
  emitted := by rw [count, whole.emitted]
  each := whole.each

/-- A statement that succeeds behind a whole pass. -/
theorem Whole.emit (whole : watched.Whole site) {generation : Generation} {emission : Emission}
    (isBefore : emission.before = watched.generation.generator)
    (succeeds : emission.result site = .ok ()) (isAfter : generation.generator = emission.after site)
    (count : generation.emitted = watched.generation.emitted + 1) :
    Whole site ⟨generation, watched.emissions ++ [emission]⟩ := by
  have appends := Emission.appends_of_succeeds succeeds
  have starts : emission.before.body.code.toList = watched.emissions.flatMap (·.code site) := by
    rw [isBefore, whole.buffer]
  refine ⟨?_, ?_, fun earlier other later split => ?_⟩
  · show generation.generator.body.code.toList = _
    rw [isAfter, appends, starts, List.flatMap_append, List.flatMap_singleton]
  · show generation.emitted = _
    rw [count, whole.emitted, List.length_append, List.length_singleton]
  · -- the statement is the last one, or one of those in front of it
    rcases List.eq_nil_or_concat later with rfl | ⟨others, final, rfl⟩
    · obtain ⟨rfl, isLast⟩ := List.append_inj' split rfl
      cases isLast
      exact ⟨succeeds, starts, appends⟩
    · rw [List.concat_eq_append, ← List.cons_append, ← List.append_assoc] at split
      exact whole.each earlier other others (List.append_inj' split rfl).1

/-- Before the first pass nothing has been generated, and the pass is whole as long as it has not
failed. -/
structure Sound (site : Site) (installed : Generator) (watched : Watched) : Prop where
  isSite : watched.generation.site = site
  ready : watched.generation.progress = .ready →
    watched.emissions = [] ∧ watched.generation.generator.body = installed.body
  whole : watched.generation.progress = .emitting ∨ watched.generation.progress = .complete →
    watched.Whole site

theorem Sound.inPass (sound : watched.Sound site installed) :
    watched.inPass.generation.progress = .emitting ∧ watched.inPass.generation.site = site ∧
      watched.inPass.Whole site := by
  unfold Watched.inPass Generation.inPass
  split
  case isTrue isEmitting => exact ⟨isEmitting, sound.isSite, sound.whole (.inl isEmitting)⟩
  case isFalse => exact ⟨rfl, sound.isSite, whole_begin _⟩

/-- A statement goes on with a whole pass, or fails it. -/
theorem Sound.emit (sound : watched.Sound site installed) (scope : Scope) (statement : Stmt) :
    (watched.perform (.emit scope statement)).Sound site installed := by
  obtain ⟨isEmitting, rfl, whole⟩ := sound.inPass
  have performed := perform_emit watched.generation scope statement
  dsimp only at performed
  unfold Watched.perform
  rw [performed]
  split
  case h_1 succeeds =>
    exact
      { isSite := rfl
        ready := fun isReady => nomatch isEmitting.symm.trans isReady
        whole := fun _ => whole.emit rfl succeeds rfl rfl }
  case h_2 => exact { isSite := rfl, ready := nofun, whole := nofun }

/-- **Passes stay whole in each call, unless they have failed.** -/
theorem Sound.perform (sound : watched.Sound site installed) (call : Call) :
    (watched.perform call).Sound site installed := by
  cases call with
  | begin => exact { isSite := sound.isSite, ready := nofun, whole := fun _ => whole_begin _ }
  | emit scope statement => exact sound.emit scope statement
  | finish =>
    unfold Watched.perform
    show Sound site installed ⟨watched.generation.finish, watched.emissions⟩
    unfold finish
    split
    case isTrue isEmitting =>
      exact
        { isSite := sound.isSite
          ready := nofun
          whole := fun _ => (sound.whole (.inl isEmitting)).congr rfl rfl }
    case isFalse => exact sound
  | fail => exact { isSite := sound.isSite, ready := nofun, whole := nofun }
  | reserveLocals count =>
    exact
      { isSite := sound.isSite
        ready := sound.ready
        whole := fun inPass => (sound.whole inPass).congr rfl rfl }
  | extract => exact sound

/-- A generation that has just been installed. -/
theorem sound_installed (site : Site) (installed : Generator) :
    Sound site installed ⟨⟨site, installed, .ready, 0⟩, []⟩ where
  isSite := rfl
  ready _ := ⟨rfl, rfl⟩
  whole := nofun

theorem Sound.foldl (sound : watched.Sound site installed) (calls : List Call) :
    (calls.foldl Watched.perform watched).Sound site installed := by
  induction calls generalizing watched with
  | nil => exact sound
  | cons call rest ih => exact ih (sound.perform call)

end Watched

/-! ### Extracting code -/

/-- Code is empty before the first pass, and comes from the body behind the end of a pass. -/
theorem extract_eq_ok {generation : Generation} {bytes : List UInt8} :
    generation.extract = .ok bytes ↔
      generation.progress = .ready ∧ bytes = [] ∨
        generation.progress = .complete ∧ generation.generator.body.encode = .ok bytes := by
  cases progress : generation.progress with
  | ready => simp [extract, progress, eq_comm]
  | complete => simp [extract_complete progress]
  | emitting | failed => simp [extract, progress]

/-- Calls that are quiet leave the code that can be extracted as it is. -/
theorem extract_perform {generation : Generation} {bytes : List UInt8} {call : Call}
    (extracted : generation.extract = .ok bytes) (quiet : call.isQuiet = true) :
    (generation.perform call).extract = .ok bytes := by
  cases call with
  | finish =>
    have notEmitting : generation.progress ≠ .emitting := by
      rcases extract_eq_ok.mp extracted with ⟨isReady, -⟩ | ⟨isComplete, -⟩
      · exact fun isEmitting => nomatch isReady.symm.trans isEmitting
      · exact fun isEmitting => nomatch isComplete.symm.trans isEmitting
    show generation.finish.extract = _
    rwa [finish, if_neg notEmitting]
  | reserveLocals | extract => exact extracted
  | begin | emit | fail => cases quiet

theorem extract_foldl {watched : Watched} {bytes : List UInt8} {later : List Call}
    (extracted : watched.generation.extract = .ok bytes)
    (quiet : ∀ call ∈ later, call.isQuiet = true) :
    (later.foldl Watched.perform watched).generation.extract = .ok bytes := by
  induction later generalizing watched with
  | nil => exact extracted
  | cons call rest ih =>
    obtain ⟨isQuiet, others⟩ := List.forall_mem_cons.mp quiet
    exact ih (extract_perform extracted isQuiet) others

/-- **Only whole passes are extracted.** Code comes from a generation before its first pass, and is
empty then, or from a pass that has come to its end. In such a pass all statements have succeeded, the
code is what they have added, in order, and they are as many as were counted. Extracting again gives
the same code, also behind calls that neither begin a pass, nor go on with it, nor give it up. -/
theorem extracts_whole (site : Site) (installed : Generator) (calls : List Call) :
    let start : Generation := ⟨site, installed, .ready, 0⟩
    let watched := start.watch calls
    (∀ bytes, watched.generation.extract = .ok bytes →
      (watched.generation.progress = .ready ∧ bytes = [] ∧ watched.emissions = [] ∧
          watched.generation.generator.body = installed.body ∨
        watched.generation.progress = .complete ∧
          watched.generation.generator.body.encode = .ok bytes) ∧
      ∀ later : List Call, (∀ call ∈ later, call.isQuiet = true) →
        (start.watch (calls ++ later)).generation.extract = .ok bytes) ∧
    (watched.generation.progress = .complete → watched.Whole site) := by
  intro start watched
  have sound : watched.Sound site installed := (Watched.sound_installed site installed).foldl calls
  refine ⟨fun bytes extracted => ⟨?_, fun later quiet => ?_⟩, fun isComplete => sound.whole (.inr isComplete)⟩
  · rcases extract_eq_ok.mp extracted with ⟨isReady, isEmpty⟩ | isComplete
    · exact .inl ⟨isReady, isEmpty, sound.ready isReady⟩
    · exact .inr isComplete
  · rw [watch_append]
    exact extract_foldl extracted quiet

/-- `return; break;` fails behind the code of its first statement; two times `return;` is a whole
pass. -/
def retrying : List Call :=
  [.emit (.root []) (.block [.ret none .start, .breakLoop .start] .start), .finish,
    .emit (.root []) (.ret none .start), .reserveLocals 3, .emit (.root []) (.ret none .start),
    .finish]

/-- Nothing is left of the pass that failed. -/
theorem extracts_whole_retrying :
    let start : Generation := ⟨.detached, .ofPool .detached .empty, .ready, 0⟩
    let failed := start.watch (retrying.take 2)
    let watched := start.watch retrying
    (failed.generation.progress = .failed ∧ failed.generation.generator.body.size = 1) ∧
      watched.Whole .detached ∧ watched.emissions.length = 2 ∧
        watched.generation.extract = .ok [177, 177] :=
  ⟨⟨rfl, rfl⟩, (extracts_whole .detached (.ofPool .detached .empty) retrying).2 rfl, rfl, rfl⟩

end MethodPatch.Generation
