/-
**Generating the same code over two pools.**

The constants of a class decide which indices code refers to, and nothing else about it. Over two
pools the same action generates the same instructions but for the indices of their constants, with
the same answers and the same errors, unless one of the pools is full.

* `Parallel`: two runs that answer alike, or stop for the same reason, or one of them is excused;
* `Generator.Twins`: generators that differ in constants and their indices alone;
* `Emit.Composed.parallel`: composed code over two pools;
* `EmitScoped.Composed.parallel`: **statements over two pools, in scopes that agree.**
-/

import MethodPatch.Proofs.Composition.Repeats

namespace MethodPatch

/-! ### Two runs -/

/-- Two runs answer the same and leave states that are alike, or they stop with the same error. A run
that stops for an excused reason may differ from the other one in any way. -/
inductive Parallel {ε σ α : Type} (excused : ε → Prop) (alike : σ → σ → Prop) :
    Except ε α × σ → Except ε α × σ → Prop
  | ok (answer : α) {state other : σ} (same : alike state other) :
    Parallel excused alike (.ok answer, state) (.ok answer, other)
  | error (error : ε) (state other : σ) :
    Parallel excused alike (.error error, state) (.error error, other)
  | first {error : ε} (excuse : excused error) (state : σ) (other : Except ε α × σ) :
    Parallel excused alike (.error error, state) other
  | second {error : ε} (excuse : excused error) (one : Except ε α × σ) (state : σ) :
    Parallel excused alike one (.error error, state)

/-- Runs that go on from states that are alike go on in parallel. -/
theorem Parallel.bind {ε σ α β : Type} {excused : ε → Prop} {middle alike : σ → σ → Prop}
    {action : ExceptT ε (StateM σ) α} {next : α → ExceptT ε (StateM σ) β} {state other : σ}
    (here : Parallel excused middle (action.run.run state) (action.run.run other))
    (behind : ∀ {answer after otherAfter}, action.run.run state = (.ok answer, after) →
      middle after otherAfter →
        Parallel excused alike ((next answer).run.run after) ((next answer).run.run otherAfter)) :
    Parallel excused alike ((action >>= next).run.run state) ((action >>= next).run.run other) := by
  rw [run_bind, run_bind]
  generalize action.run.run state = one at here behind ⊢
  generalize action.run.run other = two at here ⊢
  cases here with
  | ok answer same => exact behind rfl same
  | error => exact .error ..
  | first excuse => exact .first excuse ..
  | second excuse => exact .second excuse ..

section

variable {ε ε' σ τ α : Type} {excused : ε → Prop} {alike : σ → σ → Prop} {one other : Except ε α × σ}

/-- Errors may be renamed. -/
theorem Parallel.mapError {excusedThen : ε' → Prop} {rename : ε → ε'}
    (parallel : Parallel excused alike one other)
    (excuses : ∀ error, excused error → excusedThen (rename error)) :
    Parallel excusedThen alike (one.1.mapError rename, one.2) (other.1.mapError rename, other.2) := by
  cases parallel with
  | ok answer same => exact .ok answer same
  | error => exact .error ..
  | first excuse => exact .first (excuses _ excuse) ..
  | second excuse => exact .second (excuses _ excuse) ..

/-- Where nothing is excused the results are the same. -/
theorem Parallel.same (parallel : Parallel (fun _ => False) alike one other) :
    one.1 = other.1 ∧ ∀ answer, one.1 = .ok answer → alike one.2 other.2 := by
  cases parallel with
  | ok answer same => exact ⟨rfl, fun _ _ => same⟩
  | error =>
    refine ⟨rfl, ?_⟩
    rintro _ ⟨⟩
  | first excuse => exact excuse.elim
  | second excuse => exact excuse.elim

/-- States may be looked at in another way. -/
theorem Parallel.mapState {alikeThen : τ → τ → Prop} {look lookThere : σ → τ}
    (parallel : Parallel excused alike one other)
    (keeps : ∀ {state counterpart}, alike state counterpart →
      alikeThen (look state) (lookThere counterpart)) :
    Parallel excused alikeThen (one.map id look) (other.map id lookThere) := by
  cases parallel with
  | ok answer same => exact .ok answer (keeps same)
  | error => exact .error ..
  | first excuse => exact .first excuse ..
  | second excuse => exact .second excuse ..

end

/-- A constant did not fit into the pool. -/
def SourceError.IsFull (error : SourceError) : Prop :=
  ∃ constant, error.cause = .notGenerated (.pool (.overflow constant))

/-! ### Code without indices -/

/-- The instruction with index zero in place of the index of its constant. -/
def Instr.unindexed : Instr → Instr
  | .ldc _ => .ldc 0
  | .ldc2 _ => .ldc2 0
  | .anewArray _ => .anewArray 0
  | .new _ => .new 0
  | .checkCast _ => .checkCast 0
  | .instanceOf _ => .instanceOf 0
  | .field access _ width => .field access 0 width
  | .invoke dispatch _ argumentSlots resultSlots => .invoke dispatch 0 argumentSlots resultSlots
  | instr => instr

theorem Instr.effect_unindexed (instr : Instr) : instr.unindexed.effect = instr.effect := by
  cases instr with
  | field access index width => cases access <;> rfl
  | _ => rfl

theorem Instr.unindexed_retarget (instr : Instr) (target : Nat) :
    (instr.retarget target).unindexed = instr.unindexed.retarget target := by
  cases instr <;> rfl

theorem Instr.target?_unindexed (instr : Instr) : instr.unindexed.target? = instr.target? := by
  cases instr <;> rfl

/-- The indices of two references differ, and nothing else. -/
theorem Reference.unindexed {types : FieldType → Prop} {add : Pool.Adding PoolIndex}
    {use : PoolIndex → Instr} (reference : Reference types site add use) (index other : PoolIndex) :
    (use index).unindexed = (use other).unindexed := by
  cases reference <;> rfl

/-- The instruction and its place, without its index. -/
def Step.unindexed (step : Step) : Step := { step with instr := step.instr.unindexed }

/-- The body without constants and their indices. -/
def Body.unindexed (body : Body) : Body :=
  { body with code := body.code.map Step.unindexed, pool := .empty }

theorem Body.unindexed_retarget (body : Body) (index target : Nat) :
    (body.retarget index target).unindexed = body.unindexed.retarget index target := by
  have moved : ∀ step : Step,
      Step.unindexed { step with instr := step.instr.retarget target } =
        { step.unindexed with instr := step.unindexed.instr.retarget target } := fun step =>
    congrArg (Step.mk · step.position) (step.instr.unindexed_retarget target)
  unfold unindexed retarget
  congr 1
  refine Array.ext_getElem? fun place => ?_
  simp only [Array.getElem?_map, Array.getElem?_modify]
  by_cases same : index = place
  · simp only [same, if_true, Option.map_map]
    exact congrArg (Option.map · body.code[place]?) (funext moved)
  · simp only [same, if_false]

namespace Generator

/-- The generator without constants and their indices. -/
def unindexed (generator : Generator) : Generator :=
  { generator with body := generator.body.unindexed }

theorem unindexed_push (generator : Generator) (instr : Instr) :
    (generator.push instr).unindexed = generator.unindexed.push instr.unindexed := by
  unfold unindexed push Body.unindexed Body.emit Body.withDepth Step.unindexed
  rw [instr.effect_unindexed, Array.map_push]

theorem unindexed_land (generator : Generator) (branches : List Nat) (target : Nat) :
    (generator.land branches target).unindexed = generator.unindexed.land branches target := by
  induction branches generalizing generator with
  | nil => rfl
  | cons branch branches ih =>
    have one : (generator.land [branch] target).unindexed =
        generator.unindexed.land [branch] target :=
      congrArg (Generator.mk · generator.maxLocals generator.position)
        (generator.body.unindexed_retarget branch target)
    rw [land_cons, ih, one, ← land_cons]

/-- Generators that differ in their constants and in the indices of those alone. A class file can hold
the constants of both. -/
structure Twins (one other : Generator) : Prop where
  same : one.unindexed = other.unindexed
  legal : one.body.pool.Legal
  otherLegal : other.body.pool.Legal

variable {one other : Generator}

theorem Twins.size (twins : one.Twins other) : one.size = other.size := by
  have sizes := congrArg (fun generator : Generator => generator.body.code.size) twins.same
  unfold unindexed Body.unindexed at sizes
  rwa [Array.size_map, Array.size_map] at sizes

theorem Twins.depth (twins : one.Twins other) : one.body.depth = other.body.depth :=
  (congrArg (fun generator : Generator => generator.body.depth) twins.same :)

theorem Twins.position (twins : one.Twins other) : one.position = other.position :=
  (congrArg Generator.position twins.same :)

theorem Twins.maxLocals (twins : one.Twins other) : one.maxLocals = other.maxLocals :=
  (congrArg Generator.maxLocals twins.same :)

/-- What changes generators and leaves their constants keeps twins. -/
theorem Twins.change (twins : one.Twins other) (change : Generator → Generator)
    (commutes : ∀ generator, (change generator).unindexed = change generator.unindexed)
    (keeps : ∀ generator, (change generator).body.pool = generator.body.pool) :
    (change one).Twins (change other) where
  same := by rw [commutes, commutes, twins.same]
  legal := keeps one ▸ twins.legal
  otherLegal := keeps other ▸ twins.otherLegal

theorem Twins.push (twins : one.Twins other) {instr counterpart : Instr}
    (same : instr.unindexed = counterpart.unindexed) :
    (one.push instr).Twins (other.push counterpart) where
  same := by rw [unindexed_push, unindexed_push, twins.same, same]
  legal := twins.legal
  otherLegal := twins.otherLegal

theorem Twins.withPool (twins : one.Twins other) {pool constants : Pool} (legal : pool.Legal)
    (otherLegal : constants.Legal) : (one.withPool pool).Twins (other.withPool constants) :=
  ⟨twins.same, legal, otherLegal⟩

theorem Twins.reserveLocals (twins : one.Twins other) (count : UInt16) :
    (one.reserveLocals count).Twins (other.reserveLocals count) :=
  twins.change (·.reserveLocals count) (fun _ => rfl) fun _ => rfl

end Generator

/-! ### Code -/

variable {types : FieldType → Prop} {slots : Storage → Slot → Prop} {one other : Generator}

namespace Emit

/-- A constant over two pools, and what is done with its index. -/
theorem parallel_constant {add : Pool.Adding PoolIndex} {next : PoolIndex → Emit Unit}
    (alike : Pool.Alike add add) (twins : one.Twins other)
    (behind : ∀ index found after otherAfter, Generator.Twins after otherAfter →
      Parallel SourceError.IsFull Generator.Twins ((next index).run.run after)
        ((next found).run.run otherAfter)) :
    Parallel SourceError.IsFull Generator.Twins ((constant add >>= next).run.run one)
      ((constant add >>= next).run.run other) := by
  have agree := alike.agree twins.legal twins.otherLegal
  rw [run_bind, run_bind, run_constant, run_constant]
  generalize add.run.run one.body.pool = ran at agree ⊢
  generalize add.run.run other.body.pool = ranThere at agree ⊢
  obtain ⟨result, pool⟩ := ran
  obtain ⟨resultThere, constants⟩ := ranThere
  rcases agree with ⟨constant, rfl⟩ | ⟨constant, rfl⟩ | ⟨kind, legal, otherLegal⟩
  · exact .first ⟨constant, rfl⟩ ..
  · exact .second ⟨constant, rfl⟩ ..
  · cases kind with
    | ok index found => exact behind index found _ _ (twins.withPool legal otherLegal)
    | error error =>
      dsimp only
      rw [twins.position]
      exact .error ..

/-- **Composed code goes in parallel over two pools.** -/
theorem Composed.parallel {α : Type} {action : Emit α} {answers : α → Prop}
    (composed : Composed types slots site action answers) (twins : one.Twins other) :
    Parallel SourceError.IsFull Generator.Twins (action.run.run one) (action.run.run other) := by
  induction composed generalizing one other with
  | pure => exact .ok _ twins
  | bind first behind ihFirst ihNext =>
    refine (ihFirst twins).bind fun {answer _ _} yields twinsBehind => ?_
    exact ihNext answer (first.carried carries_grows yields).1 twinsBehind
  | throw error => exact .error ..
  | fail fault =>
    show Parallel _ _ (.error (notGenerated fault one.position), one)
      (.error (notGenerated fault other.position), other)
    rw [twins.position]
    exact .error ..
  | instr accesses => exact .ok () (twins.push rfl)
  | this isInstance => exact .ok () (twins.push rfl)
  | here =>
    show Parallel _ _ (.ok one.size, one) (.ok other.size, other)
    rw [twins.size]
    exact .ok _ twins
  | depth =>
    show Parallel _ _ (.ok one.body.depth, one) (.ok other.body.depth, other)
    rw [twins.depth]
    exact .ok _ twins
  | setDepth depth =>
    exact .ok () (twins.change (·.setDepth depth) (fun _ => rfl) fun _ => rfl)
  | land branches target =>
    exact .ok () (twins.change (·.land branches target) (·.unindexed_land branches target)
      (·.pool_land branches target))
  | refer reference =>
    exact parallel_constant reference.alike twins fun index found _ _ twinsBehind =>
      .ok () (twinsBehind.push (reference.unindexed index found))
  | leave alike => exact parallel_constant alike twins fun _ _ _ _ twinsBehind => .ok () twinsBehind

end Emit

/-! ### Statements -/

/-- Twins in scopes that agree on all names but the pending ones. -/
def TwinsBut (pending : String → Prop) (one other : Generator × Scope) : Prop :=
  one.1.Twins other.1 ∧ one.2.AgreeBut pending other.2

variable {declares : Slot → FieldType → Prop} {site : Site} {pending behind : String → Prop}

/-- Code goes in parallel within scopes that stay as they are. -/
theorem Scope.Emits.parallel {α : Type} {needs : (Storage → Slot → Prop) → Prop}
    {emit : Scope → Emit α} {one other : Generator × Scope}
    (emits : Scope.Emits (fun _ => True) needs site pending emit) (needed : needs fun _ _ => True)
    (twins : TwinsBut pending one other) :
    Parallel SourceError.IsFull (TwinsBut pending) ((EmitScoped.within emit).run.run one)
      ((EmitScoped.within emit).run.run other) := by
  obtain ⟨one, scope⟩ := one
  obtain ⟨other, counterpart⟩ := other
  have parallel := (emits.composed _ scope (covers_all _) needed).parallel twins.1
  show Parallel _ _ (((emit scope).run.run one).map id fun generator => (generator, scope))
    (((emit counterpart).run.run other).map id fun generator => (generator, counterpart))
  rw [← emits.same scope counterpart twins.2]
  exact parallel.mapState fun same => ⟨same, twins.2⟩

/-- The code of a statement begins at its place, which an error without a place gets. -/
theorem EmitScoped.run_statement {α : Type} (position : Position) (action : EmitScoped α)
    (start : Generator × Scope) :
    (statement position action).run.run start =
      let ran := action.run.run ((start.1.moveTo position).setDepth 0, start.2)
      (ran.1.mapError (·.orAt (some position)), ran.2) := by
  unfold statement
  rw [run_bind]
  rfl

/-- **Statements go in parallel over two pools**, in scopes that agree on all names but the pending
ones. -/
theorem EmitScoped.Composed.parallel {α : Type} {action : EmitScoped α}
    {one other : Generator × Scope}
    (composed : EmitScoped.Composed (fun _ => True) declares site pending action behind)
    (twins : TwinsBut pending one other) :
    Parallel SourceError.IsFull (TwinsBut behind) (action.run.run one) (action.run.run other) := by
  induction composed generalizing one other with
  | pure answer => exact .ok answer twins
  | bind _ _ ihFirst ihNext =>
    exact (ihFirst twins).bind fun {answer _ _} _ twinsBehind => ihNext answer twinsBehind
  | throw error => exact .error ..
  | within emits => exact emits.parallel trivial twins
  | @statement _ _ _ action position _ ih =>
    have moved : TwinsBut _ ((one.1.moveTo position).setDepth 0, one.2)
        ((other.1.moveTo position).setDepth 0, other.2) :=
      ⟨twins.1.change (fun generator => (generator.moveTo position).setDepth 0) (fun _ => rfl)
        fun _ => rfl, twins.2⟩
    rw [EmitScoped.run_statement, EmitScoped.run_statement]
    exact (ih moved).mapError fun _ full => full
  | @declare pending name slot type initialise isType isDeclared fits emits =>
    have reserves : ∀ count, Parallel SourceError.IsFull (TwinsBut pending)
        ((EmitScoped.plain (modify (·.reserveLocals count))).run.run one)
        ((EmitScoped.plain (modify (·.reserveLocals count))).run.run other) := fun count =>
      .ok () ⟨twins.1.reserveLocals count, twins.2⟩
    have starts := reserves (UInt16.ofNat (slot.toNat + type.width))
    refine starts.bind fun _ twinsStart =>
      (emits.parallel trivial twinsStart).bind fun _ twinsBehind => ?_
    exact .ok () ⟨twinsBehind.1, twinsBehind.2.bind⟩

end MethodPatch
