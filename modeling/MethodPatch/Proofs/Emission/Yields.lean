/-
**Runs of a generator that succeed.**

`Yields action before answer after`: the action, begun in one state, ends with an answer in another.
For each primitive of generating there is one equation that says all that such a run does, in terms
of the operations `push`, `land`, `setDepth` and `withPool` on generators; composed actions are taken
apart by `yields_bind`.
-/

import MethodPatch.Generator.Stmt
import MethodPatch.Proofs.Layout.Block

namespace MethodPatch

/-! ### Operations on generators -/

namespace Generator

/-- The number of instructions. -/
def size (generator : Generator) : Nat := generator.body.size

/-- The instructions, without the places they were made from. -/
def instrs (generator : Generator) : List Instr := generator.body.code.toList.map Step.instr

/-- One instruction more. -/
def push (generator : Generator) (instr : Instr) : Generator :=
  { generator with body := generator.body.emit instr generator.position }

/-- Some instructions more. -/
def pushAll (generator : Generator) (instrs : List Instr) : Generator := instrs.foldl push generator

/-- Branches get their target. -/
def land (generator : Generator) (branches : List Nat) (target : Nat) : Generator :=
  { generator with body := branches.foldl (·.retarget · target) generator.body }

/-- Another depth of the operand stack. -/
def setDepth (generator : Generator) (depth : Nat) : Generator :=
  { generator with body := generator.body.withDepth depth }

/-- Other constants. -/
def withPool (generator : Generator) (pool : Pool) : Generator :=
  { generator with body := { generator.body with pool } }

variable (generator : Generator)

@[simp] theorem length_instrs : generator.instrs.length = generator.size := by
  simp [instrs, size, Body.size]

@[simp] theorem instrs_push (instr : Instr) :
    (generator.push instr).instrs = generator.instrs ++ [instr] := by
  simp [push, instrs, Body.emit]

@[simp] theorem size_push (instr : Instr) : (generator.push instr).size = generator.size + 1 := by
  simp [push, size]

@[simp] theorem pool_push (instr : Instr) :
    (generator.push instr).body.pool = generator.body.pool := rfl

@[simp] theorem maxLocals_push (instr : Instr) :
    (generator.push instr).maxLocals = generator.maxLocals := rfl

@[simp] theorem depth_push (instr : Instr) :
    (generator.push instr).body.depth = (generator.body.depth + instr.effect).toNat := rfl

@[simp] theorem maxStack_push (instr : Instr) :
    (generator.push instr).body.maxStack =
      max generator.body.maxStack (Body.recordedDepth (generator.push instr).body.depth) := rfl

@[simp] theorem pushAll_nil : generator.pushAll [] = generator := rfl

@[simp] theorem pushAll_cons (first : Instr) (rest : List Instr) :
    generator.pushAll (first :: rest) = (generator.push first).pushAll rest := rfl

@[simp] theorem instrs_setDepth (depth : Nat) :
    (generator.setDepth depth).instrs = generator.instrs := rfl

@[simp] theorem size_setDepth (depth : Nat) : (generator.setDepth depth).size = generator.size := rfl

@[simp] theorem pool_setDepth (depth : Nat) :
    (generator.setDepth depth).body.pool = generator.body.pool := rfl

@[simp] theorem maxLocals_setDepth (depth : Nat) :
    (generator.setDepth depth).maxLocals = generator.maxLocals := rfl

@[simp] theorem depth_setDepth (depth : Nat) : (generator.setDepth depth).body.depth = depth := rfl

@[simp] theorem maxStack_setDepth (depth : Nat) :
    (generator.setDepth depth).body.maxStack =
      max generator.body.maxStack (Body.recordedDepth depth) := rfl

@[simp] theorem instrs_withPool (pool : Pool) :
    (generator.withPool pool).instrs = generator.instrs := rfl

@[simp] theorem size_withPool (pool : Pool) : (generator.withPool pool).size = generator.size := rfl

@[simp] theorem pool_withPool (pool : Pool) : (generator.withPool pool).body.pool = pool := rfl

@[simp] theorem maxLocals_withPool (pool : Pool) :
    (generator.withPool pool).maxLocals = generator.maxLocals := rfl

@[simp] theorem depth_withPool (pool : Pool) :
    (generator.withPool pool).body.depth = generator.body.depth := rfl

@[simp] theorem maxStack_withPool (pool : Pool) :
    (generator.withPool pool).body.maxStack = generator.body.maxStack := rfl

theorem land_cons (branch : Nat) (branches : List Nat) (target : Nat) :
    generator.land (branch :: branches) target =
      (generator.land [branch] target).land branches target := rfl

@[simp] theorem land_nil (target : Nat) : generator.land [] target = generator := rfl

@[simp] theorem pool_land (branches : List Nat) (target : Nat) :
    (generator.land branches target).body.pool = generator.body.pool := by
  induction branches generalizing generator with
  | nil => rfl
  | cons branch branches ih => rw [land_cons, ih]; rfl

@[simp] theorem maxLocals_land (branches : List Nat) (target : Nat) :
    (generator.land branches target).maxLocals = generator.maxLocals := rfl

@[simp] theorem depth_land (branches : List Nat) (target : Nat) :
    (generator.land branches target).body.depth = generator.body.depth := by
  induction branches generalizing generator with
  | nil => rfl
  | cons branch branches ih => rw [land_cons, ih]; rfl

@[simp] theorem maxStack_land (branches : List Nat) (target : Nat) :
    (generator.land branches target).body.maxStack = generator.body.maxStack := by
  induction branches generalizing generator with
  | nil => rfl
  | cons branch branches ih => rw [land_cons, ih]; rfl

@[simp] theorem size_land (branches : List Nat) (target : Nat) :
    (generator.land branches target).size = generator.size := by
  induction branches generalizing generator with
  | nil => rfl
  | cons branch branches ih =>
    rw [land_cons, ih]
    simp [land, size]

theorem instrs_land_one (branch target : Nat) :
    (generator.land [branch] target).instrs = landed [branch] target 0 generator.instrs := by
  apply List.ext_getElem? fun index => ?_
  simp only [land, instrs, landed, Body.retarget, List.foldl_cons, List.foldl_nil,
    List.getElem?_map, List.getElem?_mapIdx, Array.getElem?_toList, Array.getElem?_modify,
    Nat.zero_add, List.mem_singleton]
  by_cases same : branch = index
  · subst same
    cases generator.body.code[branch]? <;> simp
  · have other : index ≠ branch := fun equal => same equal.symm
    cases generator.body.code[index]? <;> simp [same, other]

theorem instrs_land (branches : List Nat) (target : Nat) :
    (generator.land branches target).instrs = landed branches target 0 generator.instrs := by
  induction branches generalizing generator with
  | nil => simp
  | cons branch branches ih =>
    rw [land_cons, ih, instrs_land_one]
    apply List.ext_getElem? fun index => ?_
    simp only [landed, List.getElem?_mapIdx, Nat.zero_add, List.mem_cons]
    cases generator.instrs[index]? with
    | none => rfl
    | some instr =>
      have twice : (instr.retarget target).retarget target = instr.retarget target := by
        cases instr <;> rfl
      by_cases isFirst : index = branch <;> by_cases isOther : index ∈ branches <;>
        simp [isFirst, isOther, twice]

end Generator

/-! ### Runs -/

/-- An action ends with an answer, and with a state behind it. -/
def Yields {σ α : Type} (action : ExceptT SourceError (StateM σ) α) (before : σ) (answer : α)
    (after : σ) : Prop :=
  action.run.run before = (.ok answer, after)

section Yields

variable {σ α β : Type} {before after : σ} {answer : α}

theorem yields_pure {value : α} :
    Yields (pure value) before answer after ↔ answer = value ∧ after = before := by
  constructor
  · intro yields
    cases yields
    exact ⟨rfl, rfl⟩
  · rintro ⟨rfl, rfl⟩
    rfl

theorem yields_bind {action : ExceptT SourceError (StateM σ) β}
    {next : β → ExceptT SourceError (StateM σ) α} :
    Yields (action >>= next) before answer after ↔
      ∃ first middle, Yields action before first middle ∧ Yields (next first) middle answer after := by
  have unfolded : (action >>= next).run.run before =
      match action.run.run before with
      | (.ok first, middle) => (next first).run.run middle
      | (.error error, middle) => (.error error, middle) := by
    show StateT.bind action.run (ExceptT.bindCont next) before = _
    simp only [StateT.bind, StateT.run]
    show (match action.run before with | (first, middle) => ExceptT.bindCont next first middle) = _
    rcases action.run before with ⟨_ | _, _⟩ <;> rfl
  unfold Yields
  rw [unfolded]
  rcases action.run.run before with ⟨error | first, middle⟩
  · constructor
    · intro failed
      cases failed
    · rintro ⟨_, _, failed, -⟩
      cases failed
  · constructor
    · intro yields
      exact ⟨first, middle, rfl, yields⟩
    · rintro ⟨_, _, same, yields⟩
      cases same
      exact yields

theorem yields_map {action : ExceptT SourceError (StateM σ) β} {change : β → α} :
    Yields (change <$> action) before answer after ↔
      ∃ found, Yields action before found after ∧ answer = change found := by
  rw [map_eq_pure_bind, yields_bind]
  simp only [yields_pure]
  constructor
  · rintro ⟨found, _, yields, rfl, rfl⟩
    exact ⟨found, yields, rfl⟩
  · rintro ⟨found, yields, rfl⟩
    exact ⟨found, _, yields, rfl, rfl⟩

theorem yields_throw {error : SourceError} :
    ¬ Yields (throw error : ExceptT SourceError (StateM σ) α) before answer after := by
  intro yields
  cases yields

theorem yields_liftExcept {result : Except SourceError α} :
    Yields (liftExcept result) before answer after ↔ result = .ok answer ∧ after = before := by
  cases result with
  | error error =>
    constructor
    · intro yields
      cases yields
    · rintro ⟨same, -⟩
      cases same
  | ok value =>
    constructor
    · intro yields
      cases yields
      exact ⟨rfl, rfl⟩
    · rintro ⟨same, rfl⟩
      cases same
      rfl

theorem yields_modify {change : σ → σ} {done : Unit} :
    Yields (modify change) before done after ↔ after = change before := by
  constructor
  · intro yields
    cases yields
    rfl
  · rintro rfl
    rfl

theorem yields_get {state : σ} :
    Yields get before state after ↔ state = before ∧ after = before := by
  constructor
  · intro yields
    cases yields
    exact ⟨rfl, rfl⟩
  · rintro ⟨rfl, rfl⟩
    rfl

theorem yields_ite {condition : Prop} [Decidable condition]
    {first second : ExceptT SourceError (StateM σ) α} :
    Yields (if condition then first else second) before answer after ↔
      (condition ∧ Yields first before answer after) ∨
        (¬ condition ∧ Yields second before answer after) := by
  by_cases holds : condition <;> simp [holds]

theorem yields_adapt {rename : SourceError → SourceError}
    {action : ExceptT SourceError (StateM σ) α} :
    Yields (ExceptT.adapt rename action) before answer after ↔
      Yields action before answer after := by
  have unfolded : (ExceptT.adapt rename action).run.run before =
      match action.run.run before with
      | (result, state) => (result.mapError rename, state) := rfl
  unfold Yields
  rw [unfolded]
  rcases action.run.run before with ⟨error | value, state⟩
  · constructor <;> intro failed <;> cases failed
  · exact Iff.rfl

theorem yields_forM_nil {β : Type} {action : β → ExceptT SourceError (StateM σ) PUnit}
    {done : PUnit} : Yields (List.forM [] action) before done after ↔ after = before := by
  show Yields (pure PUnit.unit) before done after ↔ _
  rw [yields_pure]
  exact ⟨fun both => both.2, fun same => ⟨rfl, same⟩⟩

theorem yields_forM_cons {β : Type} {action : β → ExceptT SourceError (StateM σ) PUnit}
    {first : β} {rest : List β} {done : PUnit} :
    Yields (List.forM (first :: rest) action) before done after ↔
      ∃ done middle, Yields (action first) before done middle ∧
        Yields (List.forM rest action) middle PUnit.unit after := by
  show Yields (action first >>= fun _ => List.forM rest action) before done after ↔ _
  rw [yields_bind]

end Yields

namespace Emit

section

variable {before after : Generator} {done : Unit}

theorem yields_instr {instr : Instr} :
    Yields (Emit.instr instr) before done after ↔ after = before.push instr :=
  yields_modify

theorem yields_instrs {instrs : List Instr} :
    Yields (Emit.instrs instrs) before done after ↔ after = before.pushAll instrs := by
  induction instrs generalizing before with
  | nil => simp [Emit.instrs, yields_pure]
  | cons first rest ih =>
    show Yields (Emit.instr first >>= fun _ => Emit.instrs rest) before done after ↔ _
    rw [yields_bind]
    simp only [yields_instr, ih, Generator.pushAll_cons]
    constructor
    · rintro ⟨_, _, rfl, rest⟩
      exact rest
    · intro rest
      exact ⟨(), _, rfl, rest⟩

theorem yields_here {index : Nat} :
    Yields Emit.here before index after ↔ index = before.size ∧ after = before := by
  simp only [Emit.here, yields_bind, yields_get, yields_pure]
  constructor
  · rintro ⟨_, _, ⟨rfl, rfl⟩, rfl, rfl⟩
    exact ⟨rfl, rfl⟩
  · rintro ⟨rfl, rfl⟩
    exact ⟨_, _, ⟨rfl, rfl⟩, rfl, rfl⟩

theorem yields_depth {depth : Nat} :
    Yields Emit.depth before depth after ↔ depth = before.body.depth ∧ after = before := by
  simp only [Emit.depth, yields_bind, yields_get, yields_pure]
  constructor
  · rintro ⟨_, _, ⟨rfl, rfl⟩, rfl, rfl⟩
    exact ⟨rfl, rfl⟩
  · rintro ⟨rfl, rfl⟩
    exact ⟨_, _, ⟨rfl, rfl⟩, rfl, rfl⟩

theorem yields_setDepth {depth : Nat} :
    Yields (Emit.setDepth depth) before done after ↔ after = before.setDepth depth :=
  yields_modify

theorem yields_branch {test : Test} {index : Nat} :
    Yields (Emit.branch test) before index after ↔
      index = before.size ∧ after = before.push (.branch test 0) := by
  simp only [Emit.branch, yields_bind, yields_here, yields_instr, yields_pure]
  constructor
  · rintro ⟨_, _, ⟨rfl, rfl⟩, _, _, rfl, rfl, rfl⟩
    exact ⟨rfl, rfl⟩
  · rintro ⟨rfl, rfl⟩
    exact ⟨_, _, ⟨rfl, rfl⟩, (), _, rfl, rfl, rfl⟩

theorem yields_land {branches : List Nat} {target : Nat} :
    Yields (Emit.land branches target) before done after ↔ after = before.land branches target :=
  yields_modify

theorem yields_landHere {branches : List Nat} :
    Yields (Emit.landHere branches) before done after ↔
      after = before.land branches before.size := by
  simp only [Emit.landHere, yields_bind, yields_here, yields_land]
  constructor
  · rintro ⟨_, _, ⟨rfl, rfl⟩, rfl⟩
    rfl
  · rintro rfl
    exact ⟨_, _, ⟨rfl, rfl⟩, rfl⟩

theorem yields_fail {α : Type} {answer : α} {fault : InternalFault} :
    ¬ Yields (Emit.fail fault) before answer after := by
  intro yields
  cases yields

/-- A constant takes its index from the pool, or the error of the pool with the current place. -/
theorem run_constant (add : Pool.Adding PoolIndex) :
    (Emit.constant add).run.run before =
      match add.run.run before.body.pool with
      | (.ok index, pool) => (.ok index, before.withPool pool)
      | (.error error, pool) =>
        (.error (notGenerated (.pool error) before.position), before.withPool pool) := by
  show _ = match add.run.run before.body.pool with
    | (.ok index, pool) => _
    | (.error error, pool) => _
  unfold Emit.constant
  simp only [bind, ExceptT.bind, ExceptT.bindCont, ExceptT.mk, ExceptT.run, StateT.bind,
    StateT.run, get, getThe, MonadStateOf.get, liftM, monadLift, MonadLift.monadLift,
    ExceptT.lift, StateT.get, Functor.map, StateT.map, pure, set]
  rcases add before.body.pool with ⟨error | value, pool⟩ <;> rfl

theorem yields_constant {add : Pool.Adding PoolIndex} {index : PoolIndex} :
    Yields (Emit.constant add) before index after ↔
      ∃ pool, add.run.run before.body.pool = (.ok index, pool) ∧ after = before.withPool pool := by
  unfold Yields
  rw [run_constant]
  rcases add.run.run before.body.pool with ⟨error | value, pool⟩
  · constructor
    · intro failed
      cases failed
    · rintro ⟨_, failed, -⟩
      cases failed
  · constructor
    · intro added
      cases added
      exact ⟨pool, rfl, rfl⟩
    · rintro ⟨_, added, rfl⟩
      cases added
      rfl

end

end Emit

/-! ### Runs with a scope -/

namespace Generator

/-- Instructions are made from another place from now on. -/
def moveTo (generator : Generator) (position : Position) : Generator :=
  { generator with position := some position }

end Generator

namespace EmitScoped

variable {α : Type} {before after : Generator × Scope} {answer : α}

theorem yields_within {emit : Scope → Emit α} :
    Yields (within emit) before answer after ↔
      ∃ generator, Yields (emit before.2) before.1 answer generator ∧
        after = (generator, before.2) := by
  obtain ⟨before, scope⟩ := before
  have apart : (within emit).run.run (before, scope) =
      ((emit scope).run.run before).map id fun generator => (generator, scope) := rfl
  unfold Yields
  rw [apart]
  rcases (emit scope).run.run before with ⟨result, generator⟩
  constructor
  · intro yields
    cases yields
    exact ⟨generator, rfl, rfl⟩
  · rintro ⟨_, yields, rfl⟩
    cases yields
    rfl

theorem yields_plain {emit : Emit α} :
    Yields (plain emit) before answer after ↔
      ∃ generator, Yields emit before.1 answer generator ∧ after = (generator, before.2) :=
  yields_within

theorem yields_statement {position : Position} {emit : EmitScoped α} :
    Yields (statement position emit) before answer after ↔
      Yields emit ((before.1.moveTo position).setDepth 0, before.2) answer after := by
  simp only [statement, yields_bind, yields_plain, yields_modify, Emit.yields_setDepth,
    yields_adapt]
  constructor
  · rintro ⟨_, _, ⟨_, ⟨_, _, rfl, rfl⟩, rfl⟩, yields⟩
    exact yields
  · intro yields
    exact ⟨(), _, ⟨_, ⟨(), _, rfl, rfl⟩, rfl⟩, yields⟩

theorem yields_bindName {name : String} {slot : Slot} {type : FieldType} {done : Unit} :
    Yields (EmitScoped.bind name slot type) before done after ↔
      after = (before.1, before.2.bind name slot type) :=
  yields_modify

end EmitScoped

end MethodPatch
