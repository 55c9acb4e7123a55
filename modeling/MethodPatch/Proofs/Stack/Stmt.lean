/-
**Statements keep the discipline of the stack.**

Every statement begins and ends with an empty stack, as long as the calls in it are counted in full.
`Generator.Sets` says of two states of a generator that a chunk was generated between them that fits,
with its depths recorded.

* `Stmt.sound`: lowering a statement does so;
* `generate_disciplined`: code that is generated from an empty body has depths that agree along
  every way through it, and the recorded maximum bounds them;
* `generate_undisciplined`: a call that counts its arguments in 16 bits leaves them on the stack.
-/

import MethodPatch.Proofs.Emission.Builds
import MethodPatch.Proofs.Emission.Creation
import MethodPatch.Proofs.Emission.Stmt
import MethodPatch.Proofs.Stack.Chunk
import MethodPatch.Proofs.Stack.Expr

namespace MethodPatch

namespace Generator

/-- Depths are recorded in the largest one, which never shrinks. -/
structure Notes (before : Generator) (depths : List Nat) (after : Generator) : Prop where
  grows : before.body.maxStack ≤ after.body.maxStack
  depths : ∀ depth ∈ depths, Body.recordedDepth depth ≤ after.body.maxStack

/-- A block was generated that begins and ends with an empty stack, if its calls are counted in
full. -/
def Straight (before after : Generator) : Prop :=
  ∃ code : Block, before.Lays code after ∧
    (after.Counted → code.Fits 0 ∧ code.leaves 0 = 0 ∧ before.Notes (code.depths 0) after)

/-- A chunk was generated that fits, if its calls are counted in full. -/
def Sets (before : Generator) (exits : LoopExits) (after : Generator) : Prop :=
  ∃ chunk, before.Builds chunk exits after ∧
    (after.Counted → chunk.Fits ∧ before.Notes chunk.depths after)

theorem Counted.ofBuilds {before after : Generator} {chunk : Chunk} {exits : LoopExits}
    (counted : after.Counted) (built : before.Builds chunk exits after) : before.Counted :=
  counted.front built.instrs built.pool

section Notes

variable {before middle after : Generator} {depths others : List Nat}

theorem Notes.refl (generator : Generator) : generator.Notes [] generator :=
  ⟨Nat.le_refl _, by simp⟩

theorem Notes.trans (first : before.Notes depths middle) (second : middle.Notes others after) :
    before.Notes (depths ++ others) after where
  grows := Nat.le_trans first.grows second.grows
  depths := by
    intro depth isDepth
    rcases List.mem_append.mp isDepth with inFirst | inSecond
    · exact Nat.le_trans (first.depths depth inFirst) second.grows
    · exact second.depths depth inSecond

/-- Nothing more is recorded. -/
theorem Notes.right (notes : before.Notes (depths ++ []) after) : before.Notes depths after := by
  rwa [List.append_nil] at notes

theorem Notes.ofRecords (records : before.Records depths after) (empty : before.body.depth = 0) :
    before.Notes depths after :=
  ⟨records.grows, records.depths (by simp [Recorded, empty, Body.recordedDepth])⟩

/-- Nothing has to be recorded for an empty stack. -/
theorem Notes.zero (generator : Generator) : generator.Notes [0] generator :=
  ⟨Nat.le_refl _, by simp [Body.recordedDepth]⟩

theorem Notes.push (generator : Generator) (instr : Instr) :
    generator.Notes [] (generator.push instr) :=
  ⟨(Records.push generator instr).grows, by simp⟩

theorem Notes.setDepth (generator : Generator) (depth : Nat) :
    generator.Notes [] (generator.setDepth depth) :=
  ⟨(Records.setDepth generator depth).grows, by simp⟩

theorem Notes.land (generator : Generator) (branches : List Nat) (target : Nat) :
    generator.Notes [] (generator.land branches target) :=
  ⟨(Records.land generator branches target).grows, by simp⟩

/-- An instruction in front of which the stack is empty. -/
theorem Notes.pushEmpty (generator : Generator) (instr : Instr) :
    generator.Notes [0] (generator.push instr) :=
  (Notes.zero generator).trans (.push generator instr)

end Notes

section Sets

variable {before started tested chosen finished updated middle after : Generator}
  {exits others : LoopExits} {skips : List Nat}

theorem Straight.nil (generator : Generator) : generator.Straight generator :=
  ⟨.nil, .nil generator, fun _ => ⟨trivial, rfl, .refl generator⟩⟩

theorem Straight.seq (first : before.Straight middle) (second : middle.Straight after) :
    before.Straight after := by
  obtain ⟨_, laid, first⟩ := first
  obtain ⟨_, behind, second⟩ := second
  refine ⟨_, laid.trans behind, fun counted => ?_⟩
  obtain ⟨fits, leaves, notes⟩ := first (counted.ofLays behind)
  obtain ⟨alsoFits, alsoLeaves, alsoNotes⟩ := second counted
  refine ⟨⟨fits, by rwa [leaves]⟩, ?_, ?_⟩
  · rw [Block.leaves, leaves, alsoLeaves]
  · rw [Block.depths, leaves]
    exact notes.trans alsoNotes

theorem Straight.ofRaises (empty : before.Counted → before.body.depth = 0)
    (raises : before.Raises 0 after) : before.Straight after := by
  obtain ⟨code, laid, raised⟩ := raises
  refine ⟨code, laid, fun counted => ?_⟩
  obtain ⟨paved, depth⟩ := raised counted
  have empty := empty (counted.ofLays laid)
  have leaves := paved.depth
  have notes := Notes.ofRecords paved.records empty
  rw [depth, empty] at leaves
  rw [empty] at notes
  exact ⟨empty ▸ paved.fits, leaves.symm, notes⟩

theorem Straight.sets (straight : before.Straight after) : before.Sets .none after := by
  obtain ⟨code, laid, holds⟩ := straight
  refine ⟨.block code, .block laid, fun counted => ?_⟩
  obtain ⟨fits, leaves, notes⟩ := holds counted
  exact ⟨⟨fits, leaves⟩, notes⟩

/-- Code behind which control does not go on. -/
theorem Sets.stop {slots : Nat} {instr : Instr} (empty : before.body.depth = 0)
    (raises : before.Raises slots middle) (enough : instr.pops ≤ slots) (pushes : instr.pushes = 0)
    (stops : instr.isUnconditional = true) (noTarget : instr.target? = none) :
    before.Sets .none (middle.push instr) := by
  obtain ⟨operands, laid, raised⟩ := raises
  refine ⟨.stop operands instr, .stop laid instr, fun counted => ?_⟩
  obtain ⟨paved, depth⟩ := raised counted.ofPush
  have leaves := paved.depth
  rw [depth, empty, Nat.zero_add] at leaves
  refine ⟨⟨empty ▸ paved.fits, leaves ▸ enough, pushes, stops, noTarget⟩, ?_⟩
  have notes := Notes.ofRecords (paved.records.trans (.push middle instr)) empty
  rwa [empty, depth, empty, Nat.zero_add, leaves] at notes

/-- A statement begins with another place and an empty stack. -/
theorem Sets.moved {position : Position}
    (sets : ((before.moveTo position).setDepth 0).Sets exits after) : before.Sets exits after := by
  obtain ⟨chunk, built, holds⟩ := sets
  refine ⟨chunk, ⟨built.instrs, built.leaving, built.pool⟩, fun counted => ?_⟩
  obtain ⟨fits, notes⟩ := holds counted
  exact ⟨fits, ((Notes.setDepth (before.moveTo position) 0).trans notes).grows, notes.depths⟩

theorem Sets.seq (first : before.Sets exits middle) (second : middle.Sets others after) :
    before.Sets (exits ++ others) after := by
  obtain ⟨_, built, first⟩ := first
  obtain ⟨_, behind, second⟩ := second
  refine ⟨_, built.seq behind, fun counted => ?_⟩
  obtain ⟨fits, notes⟩ := first (counted.ofBuilds behind)
  obtain ⟨alsoFits, alsoNotes⟩ := second counted
  exact ⟨⟨fits, alsoFits⟩, notes.trans alsoNotes⟩

theorem Sets.leave (generator : Generator) (way : Way) {exits : LoopExits}
    (leaving : ∀ other, exits.branches other = if way = other then [generator.size] else []) :
    generator.Sets exits (generator.push (.branch .always 0)) :=
  ⟨_, .leave generator way leaving, fun _ => ⟨trivial, .pushEmpty generator _⟩⟩

theorem Splits.notes (empty : before.body.depth = 0) (splits : before.Splits skips tested) :
    ∃ condition, before.Branches condition skips tested ∧
      (tested.Counted → condition.Fits 0 ∧ before.Notes (condition.depths 0) tested) := by
  obtain ⟨condition, branched, holds⟩ := splits
  refine ⟨condition, branched, fun counted => ?_⟩
  have forked := holds counted
  have notes := Notes.ofRecords forked.records empty
  rw [empty] at notes
  exact ⟨empty ▸ forked.fits, notes⟩

theorem Sets.ifThen (empty : before.body.depth = 0) (condition : before.Splits skips tested)
    (holds : tested.Sets exits after) : before.Sets exits (after.land skips after.size) := by
  obtain ⟨_, branches, tests⟩ := condition.notes empty
  obtain ⟨_, built, holds⟩ := holds
  refine ⟨_, .ifThen branches built, fun counted => ?_⟩
  obtain ⟨testFits, testNotes⟩ := tests (counted.ofLand.ofBuilds built)
  obtain ⟨fits, notes⟩ := holds counted.ofLand
  refine ⟨⟨testFits, fits⟩, ?_⟩
  exact testNotes.trans (notes.trans (.land after skips after.size)).right

theorem Sets.ifElse (empty : before.body.depth = 0) (condition : before.Splits skips tested)
    (holds : tested.Sets exits chosen)
    (fails : ((chosen.push (.branch .always 0)).land skips
      (chosen.push (.branch .always 0)).size).Sets others after) :
    before.Sets (exits ++ others) (after.land [chosen.size] after.size) := by
  rw [size_push] at fails
  obtain ⟨_, branches, tests⟩ := condition.notes empty
  obtain ⟨_, built, holds⟩ := holds
  obtain ⟨_, other, fails⟩ := fails
  refine ⟨_, .ifElse branches built other, fun counted => ?_⟩
  have countedFirst : chosen.Counted := (counted.ofLand.ofBuilds other).ofLand.ofPush
  obtain ⟨testFits, testNotes⟩ := tests (countedFirst.ofBuilds built)
  obtain ⟨fits, notes⟩ := holds countedFirst
  obtain ⟨otherFits, otherNotes⟩ := fails counted.ofLand
  refine ⟨⟨testFits, fits, otherFits⟩, ?_⟩
  have jump := (Notes.pushEmpty chosen (.branch .always 0)).trans (.land _ skips (chosen.size + 1))
  exact testNotes.trans (notes.trans
    (jump.right.trans (otherNotes.trans (.land after [chosen.size] after.size)).right))

theorem Sets.whileLoop (empty : before.body.depth = 0) (condition : before.Splits skips tested)
    (round : tested.Sets exits finished) :
    before.Sets .none (((finished.push (.branch .always before.size)).land exits.continues
      before.size).land (skips ++ exits.breaks)
        ((finished.push (.branch .always before.size)).land exits.continues before.size).size) := by
  rw [size_land, size_push]
  obtain ⟨_, branches, tests⟩ := condition.notes empty
  obtain ⟨_, built, rounds⟩ := round
  refine ⟨_, .whileLoop branches built, fun counted => ?_⟩
  have countedRound : finished.Counted := counted.ofLand.ofLand.ofPush
  obtain ⟨testFits, testNotes⟩ := tests (countedRound.ofBuilds built)
  obtain ⟨fits, notes⟩ := rounds countedRound
  refine ⟨⟨testFits, fits⟩, ?_⟩
  have jump := (Notes.pushEmpty finished (.branch .always before.size)).trans
    ((Notes.land _ exits.continues before.size).trans
      (.land _ (skips ++ exits.breaks) (finished.size + 1)))
  exact testNotes.trans (notes.trans jump.right)

theorem Sets.doLoop (round : before.Sets exits finished)
    (condition : (finished.setDepth 0).Splits skips after) :
    before.Sets .none (((after.land skips before.size).land exits.continues finished.size).land
      exits.breaks ((after.land skips before.size).land exits.continues finished.size).size) := by
  rw [size_land, size_land]
  obtain ⟨_, branches, tests⟩ := condition.notes rfl
  obtain ⟨_, built, rounds⟩ := round
  refine ⟨_, .doLoop built branches, fun counted => ?_⟩
  have countedTest : after.Counted := counted.ofLand.ofLand.ofLand
  obtain ⟨testFits, testNotes⟩ := tests countedTest
  obtain ⟨fits, notes⟩ := rounds (countedTest.ofBranches branches).ofSetDepth
  refine ⟨⟨testFits, fits⟩, ?_⟩
  have lands := (Notes.land after skips before.size).trans
    ((Notes.land _ exits.continues finished.size).trans (.land _ exits.breaks after.size))
  exact notes.trans (((Notes.setDepth finished 0).trans testNotes).trans lands).right

theorem Sets.forLoop (start : before.Sets others started)
    (condition : (started.setDepth 0).Splits skips tested) (round : tested.Sets exits finished)
    (update : finished.Straight updated) :
    before.Sets .none (((updated.push (.branch .always started.size)).land exits.continues
      finished.size).land (skips ++ exits.breaks)
        ((updated.push (.branch .always started.size)).land exits.continues
          finished.size).size) := by
  rw [size_land, size_push]
  obtain ⟨_, first, starts⟩ := start
  obtain ⟨_, branches, tests⟩ := condition.notes rfl
  obtain ⟨_, built, rounds⟩ := round
  obtain ⟨_, laid, updates⟩ := update
  refine ⟨_, .forLoop first branches built laid, fun counted => ?_⟩
  have countedUpdate : updated.Counted := counted.ofLand.ofLand.ofPush
  have countedRound := countedUpdate.ofLays laid
  have countedTest := countedRound.ofBuilds built
  obtain ⟨firstFits, firstNotes⟩ := starts (countedTest.ofBranches branches).ofSetDepth
  obtain ⟨testFits, testNotes⟩ := tests countedTest
  obtain ⟨fits, notes⟩ := rounds countedRound
  obtain ⟨updateFits, leaves, updateNotes⟩ := updates countedUpdate
  refine ⟨⟨firstFits, testFits, fits, updateFits, leaves⟩, ?_⟩
  have jump := (Notes.pushEmpty updated (.branch .always started.size)).trans
    ((Notes.land _ exits.continues finished.size).trans
      (.land _ (skips ++ exits.breaks) (updated.size + 1)))
  exact firstNotes.trans (((Notes.setDepth started 0).trans testNotes).trans
    (notes.trans (updateNotes.trans jump.right)))

end Sets

end Generator

/-! ### Statements -/

section Statements

open Generator

variable {site : Site} {scope after : Scope} {before behind : Generator} {exits : LoopExits}
  {position : Position}

/-- Slots that are reserved do not matter for the stack. -/
theorem Generator.Sets.ofReserved {count : UInt16}
    (sets : (before.reserveLocals count).Sets exits behind) : before.Sets exits behind := by
  obtain ⟨chunk, built, holds⟩ := sets
  refine ⟨chunk, ⟨built.instrs, built.leaving, built.pool⟩, fun counted => ?_⟩
  obtain ⟨fits, notes⟩ := holds counted
  exact ⟨fits, notes.grows, notes.depths⟩

/-- A declared variable begins and ends with an empty stack. -/
theorem Declarator.sets (plain : site.host.PlainConstructors) {declarator : Declarator}
    {done : Unit} {state : Generator × Scope} (empty : before.Counted → before.body.depth = 0)
    (yields : Yields (declarator.lower site) (before, scope) done state) :
    before.Sets .none state.1 ∧ (state.1.Counted → state.1.body.depth = 0) := by
  obtain ⟨type, generator, _, _, initialises, rfl⟩ := Declarator.yields_lower yields
  have reserved : ∀ count, (before.reserveLocals count).Counted →
      (before.reserveLocals count).body.depth = 0 := fun _ counted =>
    empty ⟨counted.fits, counted.calls⟩
  unfold Declarator.Initialises at initialises
  split at initialises
  · cases initialises
    exact ⟨.ofReserved (Straight.nil _).sets, reserved _⟩
  · obtain ⟨source, middle, instrs, value, coerced, rfl⟩ := initialises
    have raises := raises_coercion coerced (((Expr.sound plain scope _).value (.refl _) value).2)
    have stored : Generator.Raises _ 0
        (push _ (.store type.storage (declarator.place before.maxLocals))) :=
      raises.push rfl (Nat.le_add_left _ _) (by simp [Instr.pops, Instr.pushes, FieldType.width])
    refine ⟨.ofReserved (Straight.ofRaises (reserved _) stored).sets, fun counted => ?_⟩
    obtain ⟨_, laid, raised⟩ := stored
    exact (raised counted).2.trans (reserved _ (counted.ofLays laid))

theorem declarators_set (plain : site.host.PlainConstructors) {declarators : List Declarator}
    {done : Unit} {state : Generator × Scope} (empty : before.Counted → before.body.depth = 0)
    (yields : Yields (declarators.forM fun declarator => declarator.lower site) (before, scope) done
      state) : before.Sets .none state.1 := by
  induction declarators generalizing before scope with
  | nil =>
    rw [yields_forM_nil] at yields
    rw [yields]
    exact (Straight.nil before).sets
  | cons first rest ih =>
    rw [yields_forM_cons] at yields
    obtain ⟨_, ⟨middle, _⟩, isFirst, isRest⟩ := yields
    obtain ⟨sets, empty⟩ := Declarator.sets plain empty isFirst
    exact sets.seq (ih empty isRest)

theorem updates_straight (plain : site.host.PlainConstructors) {updates : List Expr} {done : Unit}
    (yields : Yields (lowerUpdates site scope updates) before done behind) :
    before.Straight behind := by
  induction updates generalizing before with
  | nil =>
    rw [lowerUpdates, yields_forM_nil] at yields
    rw [yields]
    exact .nil before
  | cons first rest ih =>
    simp only [lowerUpdates, yields_forM_cons, yields_bind, Emit.yields_setDepth] at yields
    obtain ⟨_, middle, ⟨_, _, rfl, isFirst⟩, isRest⟩ := yields
    have raises := (Expr.sound plain scope first).effect (.refl _) isFirst
    obtain ⟨code, laid, holds⟩ := Straight.ofRaises (fun _ => rfl) raises
    have straight : before.Straight middle := by
      refine ⟨code, ⟨laid.instrs, laid.pool, laid.maxLocals⟩, fun counted => ?_⟩
      obtain ⟨fits, leaves, notes⟩ := holds counted
      exact ⟨fits, leaves, ((Notes.setDepth before 0).trans notes).grows, notes.depths⟩
    exact straight.seq (ih isRest)

theorem return_sets (plain : site.host.PlainConstructors) {result : Option Expr} {done : Unit}
    (empty : before.body.depth = 0)
    (yields : Yields (lowerReturn site result position scope) before done behind) :
    before.Sets .none behind := by
  unfold lowerReturn at yields
  split at yields
  · rw [Emit.yields_instr] at yields
    rw [yields]
    exact .stop empty (.refl before) (Nat.zero_le _) rfl rfl rfl
  · exact absurd yields yields_throw
  · exact absurd yields yields_throw
  · simp only [yields_bind, yields_liftExcept, Emit.yields_instrs, Emit.yields_instr] at yields
    obtain ⟨source, _, value, instrs, _, ⟨coerced, rfl⟩, _, _, rfl, rfl⟩ := yields
    have raises := raises_coercion coerced (((Expr.sound plain scope _).value (.refl _) value).2)
    exact .stop empty raises (Nat.le_add_left _ _) rfl rfl rfl

theorem throw_sets (plain : site.host.PlainConstructors) {thrown : Expr} {done : Unit}
    (empty : before.body.depth = 0)
    (yields : Yields (lowerThrow site thrown scope) before done behind) :
    before.Sets .none behind := by
  simp only [lowerThrow, yields_bind, yields_ite] at yields
  obtain ⟨type, _, value, ⟨_, _, _, failed, _⟩ | ⟨isThrown, yields⟩⟩ := yields
  · exact absurd failed yields_throw
  · rw [Emit.yields_instr] at yields
    rw [yields]
    have raises := ((Expr.sound plain scope thrown).value (.refl before) value).2
    have one : type.width = 1 := by
      cases type with
      | null => rfl
      | void => simp [Host.isThrowable] at isThrown
      | value type =>
        cases type with
        | object className => rfl
        | _ => simp [Host.isThrowable] at isThrown
    rw [if_pos rfl, one] at raises
    exact .stop empty raises (Nat.le_refl _) rfl rfl rfl

mutual

/-- **Lowered statements keep the discipline of the stack.** -/
theorem Stmt.sound (plain : site.host.PlainConstructors) :
    (statement : Stmt) → ∀ {inLoop : Bool} {before scope exits after},
      Yields (statement.lower site inLoop) (before, scope) exits after → before.Sets exits after.1
  | .declare final declarators position, inLoop, before, scope, exits, after, yields => by
    simp only [Stmt.lower, EmitScoped.yields_statement, yields_bind, yields_pure] at yields
    obtain ⟨_, _, declared, rfl, rfl⟩ := yields
    exact Sets.moved (declarators_set plain (fun _ => rfl) declared)
  | .expression expression position, inLoop, before, scope, exits, after, yields => by
    simp only [Stmt.lower, EmitScoped.yields_statement, EmitScoped.yields_within, yields_bind,
      yields_pure] at yields
    obtain ⟨_, _, ⟨_, effect, rfl⟩, rfl, rfl⟩ := yields
    exact .moved (Straight.ofRaises (fun _ => rfl)
      ((expression.sound plain scope).effect (.refl _) effect)).sets
  | .branch test first none position, inLoop, before, scope, exits, after, yields => by
    obtain ⟨_, _, _, tested, isFirst, rfl⟩ := Stmt.yields_ifThen yields
    exact .moved (.ifThen rfl ((test.sound plain _).branches tested).2
      (Stmt.sound plain first isFirst))
  | .branch test first (some second) position, inLoop, before, scope, exits, after, yields => by
    obtain ⟨_, _, _, _, _, _, tested, isFirst, isSecond, rfl, rfl⟩ := Stmt.yields_ifElse yields
    exact .moved (.ifElse rfl ((test.sound plain _).branches tested).2
      (Stmt.sound plain first isFirst) (Stmt.sound plain second isSecond))
  | .whileLoop test body position, inLoop, before, scope, exits, after, yields => by
    obtain ⟨_, _, _, _, tested, isBody, rfl, rfl⟩ := Stmt.yields_whileLoop yields
    exact .moved (.whileLoop rfl ((test.sound plain _).branches tested).2
      (Stmt.sound plain body isBody))
  | .doLoop body test position, inLoop, before, scope, exits, after, yields => by
    obtain ⟨_, _, _, _, isBody, tested, rfl, rfl⟩ := Stmt.yields_doLoop yields
    exact .moved (.doLoop (Stmt.sound plain body isBody) ((test.sound plain _).branches tested).2)
  | .forLoop start test updates body position, inLoop, before, scope, exits, after, yields => by
    obtain ⟨_, _, _, _, _, _, _, isStart, tested, isBody, updated, rfl, rfl⟩ :=
      Stmt.yields_forLoop yields
    refine .moved (.forLoop (lowerAll_sound plain start isStart) ?_ (Stmt.sound plain body isBody)
      (updates_straight plain updated))
    cases test with
    | some test => exact ((test.sound plain _).branches tested).2
    | none =>
      obtain ⟨rfl, rfl⟩ := yields_pure.mp tested
      exact .never _
  | .block body position, inLoop, before, scope, exits, after, yields => by
    simp only [Stmt.lower, EmitScoped.yields_statement] at yields
    exact .moved (lowerAll_sound plain body yields)
  | .ret result position, inLoop, before, scope, exits, after, yields => by
    simp only [Stmt.lower, EmitScoped.yields_statement, EmitScoped.yields_within, yields_bind,
      yields_pure] at yields
    obtain ⟨_, _, ⟨_, returned, rfl⟩, rfl, rfl⟩ := yields
    exact .moved (return_sets plain rfl returned)
  | .breakLoop position, inLoop, before, scope, exits, after, yields => by
    simp only [Stmt.lower, EmitScoped.yields_statement, EmitScoped.yields_plain, yields_bind,
      yields_pure] at yields
    obtain ⟨_, _, ⟨_, jumped, rfl⟩, rfl, rfl⟩ := yields
    obtain ⟨_, rfl, rfl⟩ := yields_jump jumped
    exact .moved (.leave _ .out fun way => by cases way <;> rfl)
  | .continueLoop position, inLoop, before, scope, exits, after, yields => by
    simp only [Stmt.lower, EmitScoped.yields_statement, EmitScoped.yields_plain, yields_bind,
      yields_pure] at yields
    obtain ⟨_, _, ⟨_, jumped, rfl⟩, rfl, rfl⟩ := yields
    obtain ⟨_, rfl, rfl⟩ := yields_jump jumped
    exact .moved (.leave _ .next fun way => by cases way <;> rfl)
  | .throwing thrown position, inLoop, before, scope, exits, after, yields => by
    simp only [Stmt.lower, EmitScoped.yields_statement, EmitScoped.yields_within, yields_bind,
      yields_pure] at yields
    obtain ⟨_, _, ⟨_, thrown, rfl⟩, rfl, rfl⟩ := yields
    exact .moved (throw_sets plain rfl thrown)
  | .empty position, inLoop, before, scope, exits, after, yields => by
    simp only [Stmt.lower, EmitScoped.yields_statement, yields_pure] at yields
    obtain ⟨rfl, rfl⟩ := yields
    exact .moved (Straight.nil _).sets

/-- Statements in order. -/
theorem lowerAll_sound (plain : site.host.PlainConstructors) :
    (statements : List Stmt) → ∀ {inLoop : Bool} {before scope exits after},
      Yields (lowerAll site inLoop statements) (before, scope) exits after →
        before.Sets exits after.1
  | [], inLoop, before, scope, exits, after, yields => by
    simp only [lowerAll, yields_pure] at yields
    obtain ⟨rfl, rfl⟩ := yields
    exact (Straight.nil before).sets
  | first :: rest, inLoop, before, scope, exits, after, yields => by
    simp only [lowerAll, yields_bind, yields_pure] at yields
    obtain ⟨_, _, isFirst, _, _, isRest, rfl, rfl⟩ := yields
    exact (Stmt.sound plain first isFirst).seq (lowerAll_sound plain rest isRest)

end

theorem generate_sets (plain : site.host.PlainConstructors) {statements : List Stmt}
    {generator after : Generator} {scope behind : Scope}
    (done : generator.generate site scope statements = (.ok (), after, behind)) :
    ∃ exits, generator.Sets exits after := by
  induction statements generalizing generator scope with
  | nil =>
    cases done
    exact ⟨.none, (Straight.nil _).sets⟩
  | cons first rest ih =>
    unfold generate at done
    split at done
    · next middle between emitted =>
      obtain ⟨exits, isFirst⟩ := emit_eq emitted
      obtain ⟨others, isRest⟩ := ih done
      exact ⟨_, (Stmt.sound plain first isFirst).seq isRest⟩
    · cases done

end Statements

/-- Depths of the operand stack before each instruction and at the end, which begin and end with an
empty stack and agree along every way through the code. -/
structure StackDiscipline (code : List Instr) (depths : List Nat) : Prop where
  length : depths.length = code.length + 1
  begins : depths[0]? = some 0
  ends : depths[code.length]? = some 0
  steady : ∀ (index : Nat) (instr : Instr), code[index]? = some instr →
    SteadyAt depths index instr
  targets : ∀ (index : Nat) (instr : Instr) (target : Nat), code[index]? = some instr →
    instr.target? = some target → target ≤ code.length

/-- **Generated code keeps the discipline of the operand stack** if the parameters of every method
that it calls take at most 65535 slots. Begun without instructions, as a generator is when it is made
or reset, the code has depths that agree along every way through it, and the recorded maximum bounds
them if sixteen bits do. -/
theorem generate_disciplined (site : Site) (plain : site.host.PlainConstructors)
    (generator : Generator) (fresh : generator.size = 0) (fits : generator.body.pool.Fits)
    (scope : Scope) (statements : List Stmt)
    (done : (generator.generate site scope statements).1 = .ok ())
    (counted : ∀ instr ∈ (generator.generate site scope statements).2.1.instrs,
      instr.Counted (generator.generate site scope statements).2.1.body.pool) :
    ∃ depths, StackDiscipline (generator.generate site scope statements).2.1.instrs depths ∧
      ((∀ depth ∈ depths, depth ≤ 65535) → ∀ depth ∈ depths,
        depth ≤ (generator.generate site scope statements).2.1.body.maxStack) := by
  rcases generated : generator.generate site scope statements with ⟨result, after, behind⟩
  rw [generated] at done counted
  cases done
  obtain ⟨exits, chunk, built, holds⟩ := generate_sets plain generated
  obtain ⟨fits, notes⟩ := holds ⟨built.pool.fits fits, counted⟩
  have noInstrs : generator.instrs = [] := by
    rw [← List.length_eq_zero_iff, Generator.length_instrs, fresh]
  have code : after.instrs = chunk.layout 0 fun _ => 0 := by
    rw [built.instrs, noInstrs, fresh, List.nil_append]
  have length : (chunk.depths ++ [0]).length = after.instrs.length + 1 := by
    simp [code]
  have whole := PartAt.refl (chunk.depths ++ [0])
  have begins := Chunk.empty_at_start fits whole
  have steady := chunk.steady begins fits whole fun _ => begins
  rw [← code] at steady
  refine ⟨chunk.depths ++ [0], ⟨length, begins, ?_, ?_, ?_⟩, ?_⟩
  · simp [code]
  · intro index instr found
    have here := steady index instr found
    rwa [Nat.zero_add] at here
  · intro index instr target found isTarget
    obtain ⟨_, _, _, _, _, _, there⟩ := steady index instr found
    have inside := (List.getElem?_eq_some_iff.mp (there target isTarget)).1
    rw [length] at inside
    exact Nat.le_of_lt_succ inside
  · intro few depth isDepth
    have recorded : Body.recordedDepth depth ≤ after.body.maxStack := by
      rcases List.mem_append.mp isDepth with inChunk | isLast
      · exact notes.depths depth inChunk
      · cases List.mem_singleton.mp isLast
        exact Nat.zero_le _
    have := few depth isDepth
    rwa [Body.recordedDepth, Nat.mod_eq_of_lt (by omega)] at recorded

theorem Host.detached_plainConstructors : Host.PlainConstructors .detached := by
  simp [PlainConstructors, detached]

/-- A local that a loop doubles while it is below a bound, and from which an object is made then:
`int x = 1; while (x < 100000) x += x; new Object(x);`. -/
def doubling : List Stmt :=
  let origin : Position := ⟨1, 1, 0⟩
  let x : Expr := .name "x" origin
  let bound : Expr := .literal (.int 100000) origin
  [.declare false
      [⟨"x", ⟨.primitive .int, 0, none⟩, some (.literal (.int 1) origin), none, none, origin⟩] origin,
    .whileLoop (.binary (.compare .lt) x bound origin)
      (.expression (.assign x (some (.arithmetic .add)) x origin) origin) origin,
    .expression (.new ⟨.named "Object", 0, none⟩ [x] origin) origin]

/-- The generator behind these statements, begun for a static method without constants. -/
def doubled : Generator :=
  ((Generator.ofPool .detached .empty).generate .detached (.root []) doubling).2.1

theorem generate_disciplined_doubling :
    Host.PlainConstructors .detached ∧
      ((Generator.ofPool .detached .empty).generate .detached (.root []) doubling).1 = .ok () ∧
      (∃ index, .invoke .special index 1 0 ∈ doubled.instrs) ∧
      (∀ instr ∈ doubled.instrs, instr.Counted doubled.body.pool) ∧
      ∃ depths, StackDiscipline doubled.instrs depths := by
  have counted : ∀ instr ∈ doubled.instrs, instr.Counted doubled.body.pool := fun instr _ =>
    instr.counted_of_shortTexts (by decide +kernel)
  obtain ⟨depths, disciplined, _⟩ := generate_disciplined .detached Host.detached_plainConstructors
    (Generator.ofPool .detached .empty) rfl (Pool.fits_ofReserved 1) (.root []) doubling rfl counted
  exact ⟨Host.detached_plainConstructors, rfl, ⟨7, by decide +kernel⟩, counted, depths, disciplined⟩

/-- Along code that always goes on, the effects of the instructions add up to the depth. -/
theorem StackDiscipline.depth_eq {code : List Instr} {depths : List Nat}
    (disciplined : StackDiscipline code depths)
    (straight : ∀ instr ∈ code, instr.isUnconditional = false) (count : Nat) (few : count ≤ code.length) :
    ∃ depth : Nat, depths[count]? = some depth ∧ depth = ((code.take count).map Instr.effect).sum := by
  induction count with
  | zero => exact ⟨0, disciplined.begins, rfl⟩
  | succ count ih =>
    obtain ⟨depth, here, isSum⟩ := ih (Nat.le_of_succ_le few)
    have found : code[count]? = some code[count] := List.getElem?_eq_getElem few
    obtain ⟨before, after, isBefore, _, changes, goesOn, _⟩ := disciplined.steady count _ found
    obtain rfl := Option.some.inj (here.symm.trans isBefore)
    refine ⟨after, goesOn (straight _ (List.getElem_mem few)), ?_⟩
    rw [changes, isSum, List.take_succ_eq_append_getElem few, List.map_append, List.sum_append]
    simp

/-- The effects of code that always goes on add up to nothing. -/
theorem StackDiscipline.sum_effects {code : List Instr} {depths : List Nat}
    (disciplined : StackDiscipline code depths)
    (straight : ∀ instr ∈ code, instr.isUnconditional = false) :
    (code.map Instr.effect).sum = 0 := by
  obtain ⟨depth, found, isSum⟩ := disciplined.depth_eq straight code.length (Nat.le_refl _)
  obtain rfl := Option.some.inj (disciplined.ends.symm.trans found)
  rw [List.take_length] at isSum
  exact isSum.symm

/-- **Zeros that a call does not take.** The slots of 32768 arguments are counted as none, so that the
call leaves all of them on the stack. -/
theorem generate_undisciplined : ∃ statements,
    Stmt.parse (creation "Object" 32768).print = (.ok statements, #[]) ∧
      Host.PlainConstructors .detached ∧
      ((Generator.ofPool .detached .empty).generate .detached (.root []) statements).1 = .ok () ∧
      ¬ ∃ depths, StackDiscipline
        ((Generator.ofPool .detached .empty).generate .detached (.root []) statements).2.1.instrs
        depths := by
  have counted : (ofLongs "java/lang/Object" 32768).signature.parameterSlots = 0 := by
    rw [← UInt16.toNat_inj, Signature.toNat_parameterSlots, slots_ofLongs]
    rfl
  obtain ⟨created, place, parsed, lowers⟩ := Stmt.lower_creation .detached "Object"
    "java/lang/Object" 32768 (by decide) (fun _ _ => rfl) rfl (by decide) (by decide)
    (by rw [counted]; decide)
  obtain ⟨object, index, after, yields, instrs, _⟩ :=
    lowers (.root []) (Generator.ofPool .detached .empty) (by decide)
  have generated : (Generator.ofPool .detached .empty).generate .detached (.root [])
      [.expression created place] = (.ok (), after, .root []) := by
    have emitted : (Generator.ofPool .detached .empty).emit .detached (.root [])
        (.expression created place) = (.ok (), after, .root []) := by
      unfold Yields at yields
      rw [Generator.emit, yields]
      rfl
    rw [Generator.generate, emitted]
    rfl
  refine ⟨_, parsed, Host.detached_plainConstructors, ?_, ?_⟩
  · rw [generated]
  · have noInstrs : (Generator.ofPool .detached .empty).instrs = [] := rfl
    rw [generated, instrs, noInstrs, List.nil_append, counted]
    rintro ⟨depths, disciplined⟩
    have nothing := disciplined.sum_effects fun instr isIn => (goesOn_creationCode instr isIn).1
    rw [sum_effects_creationCode] at nothing
    exact absurd nothing (by decide)

end MethodPatch
