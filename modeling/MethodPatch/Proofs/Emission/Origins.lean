/-
**The places that instructions carry.**

A generator has one current place. A statement sets it when its code begins, and nothing sets it back
when the code ends. So an instruction carries the place of the statement that was begun last in front of
it: that of the statement whose own code it is, unless a nested statement was generated before.

* `Origin`: the statement that an instruction comes from, and the one that was begun last inside of it;
* `Stmt.traced`: the code of a statement, with the origins of its instructions;
* `Stmt.erases_traced`: tracing leaves the code as it is;
* `Stmt.positions_lower`: **which place each instruction carries, and when it is that of the statement
  it comes from**;
* `Stmt.positions_doLoop`: the test of a `do` loop carries the place of a statement of the body.
-/

import Mathlib.Control.Monad.Writer
import MethodPatch.Proofs.Composition.Repeats
import MethodPatch.Proofs.Composition.Stmt
import MethodPatch.Proofs.Emission.Stmt
import MethodPatch.Syntax.Parse.Stmt

namespace MethodPatch

/-! ### Places of generators -/

namespace Generator

/-- The places that the instructions carry. -/
def positions (generator : Generator) : List (Option Position) :=
  generator.body.code.toList.map Step.position

variable (generator : Generator)

@[simp] theorem length_positions : generator.positions.length = generator.size := by
  simp [positions, size, Body.size]

@[simp] theorem positions_push (instr : Instr) :
    (generator.push instr).positions = generator.positions ++ [generator.position] := by
  simp [positions, push, Body.emit]

@[simp] theorem positions_land (branches : List Nat) (target : Nat) :
    (generator.land branches target).positions = generator.positions := by
  induction branches generalizing generator with
  | nil => rfl
  | cons branch branches ih =>
    rw [land_cons, ih]
    apply List.ext_getElem? fun index => ?_
    simp only [land, positions, Body.retarget, List.foldl_cons, List.foldl_nil, List.getElem?_map,
      Array.getElem?_toList, Array.getElem?_modify]
    split <;> simp [Function.comp_def]

/-- What is added between two states carries the current place, which stays. -/
structure Stays (before after : Generator) : Prop where
  position : after.position = before.position
  positions : ∃ count, after.positions = before.positions ++ List.replicate count before.position

namespace Stays

variable {generator} {middle after : Generator}

theorem of_eq (position : after.position = generator.position)
    (positions : after.positions = generator.positions) : generator.Stays after :=
  ⟨position, 0, by simp [positions]⟩

theorem refl (generator : Generator) : generator.Stays generator := .of_eq rfl rfl

theorem trans (first : generator.Stays middle) (second : middle.Stays after) :
    generator.Stays after := by
  obtain ⟨count, positions⟩ := first.positions
  obtain ⟨more, others⟩ := second.positions
  refine ⟨second.position.trans first.position, count + more, ?_⟩
  rw [others, positions, first.position, List.append_assoc, List.replicate_append_replicate]

theorem push (generator : Generator) (instr : Instr) : generator.Stays (generator.push instr) :=
  ⟨rfl, 1, by simp⟩

theorem pushAll (generator : Generator) (instrs : List Instr) :
    generator.Stays (generator.pushAll instrs) := by
  induction instrs generalizing generator with
  | nil => exact .refl generator
  | cons first rest ih => exact (push generator first).trans (ih _)

theorem land (generator : Generator) (branches : List Nat) (target : Nat) :
    generator.Stays (generator.land branches target) :=
  .of_eq rfl (positions_land ..)

theorem setDepth (generator : Generator) (depth : Nat) :
    generator.Stays (generator.setDepth depth) :=
  .of_eq rfl rfl

theorem withPool (generator : Generator) (pool : Pool) : generator.Stays (generator.withPool pool) :=
  .of_eq rfl rfl

/-- As many places are added as instructions. -/
theorem positions_eq (stays : generator.Stays after) : after.positions =
    generator.positions ++ List.replicate (after.size - generator.size) generator.position := by
  obtain ⟨count, positions⟩ := stays.positions
  have sizes := congrArg List.length positions
  rw [List.length_append, List.length_replicate, length_positions, length_positions] at sizes
  rw [positions, sizes, Nat.add_sub_cancel_left]

end Stays

end Generator

variable {site : Site}

theorem Emit.carries_stays {types : FieldType → Prop} {slots : Storage → Slot → Prop} :
    Emit.Carries types slots site Generator.Stays where
  refl := .refl
  trans := .trans
  instr generator _ _ := .push generator _
  this _ generator := .push generator _
  setDepth := .setDepth
  land := .land
  refer generator _ _ _ pool _ _ := (Generator.Stays.withPool generator pool).trans (.push ..)
  leave generator _ _ pool _ _ := .withPool generator pool

/-- Code of expressions is all at one place. -/
theorem Emit.Composed.stays {types : FieldType → Prop} {slots : Storage → Slot → Prop} {α : Type}
    {action : Emit α} {answers : α → Prop} {before after : Generator} {answer : α}
    (composed : Composed types slots site action answers)
    (yields : Yields action before answer after) : before.Stays after :=
  (composed.carried carries_stays yields).2

/-- Code that reads the scope is all at one place. -/
theorem Scope.Emits.stays {α : Type} {emit : Scope → Emit α} {scope : Scope}
    {before after : Generator} {answer : α}
    (emits : Scope.Emits (fun _ => True) (fun _ => True) site (fun _ => False) emit)
    (yields : Yields (emit scope) before answer after) : before.Stays after :=
  (emits.composed _ scope (covers_all scope) trivial).stays yields

section Parts

variable {scope : Scope} {before after : Generator}

theorem Expr.stays_branches {test : Expr} {outcome : Bool} {branches : List Nat}
    (yields : Yields ((test.lower site scope).branches outcome) before branches after) :
    before.Stays after :=
  (Scope.emits_branches site.speaks_all (fun _ _ _ _ => trivial) (fun _ _ => id) outcome).stays yields

theorem forTest_stays {test : Option Expr} {branches : List Nat}
    (yields : Yields (forTest site scope test) before branches after) : before.Stays after := by
  cases test with
  | none =>
    obtain ⟨_, rfl⟩ := yields_pure.mp yields
    exact .refl _
  | some test => exact test.stays_branches yields

theorem lowerUpdates_stays {updates : List Expr} {done : Unit}
    (yields : Yields (lowerUpdates site scope updates) before done after) : before.Stays after :=
  (Scope.emits_updates site.speaks_all (fun _ _ _ _ _ _ => trivial) (fun _ _ _ _ => id)).stays yields

theorem Declarator.stays_lower {declarator : Declarator} {done : Unit} {start finish : Generator × Scope}
    (yields : Yields (declarator.lower site) start done finish) : start.1.Stays finish.1 := by
  obtain ⟨type, generator, _, _, initialises, rfl⟩ := Declarator.yields_lower yields
  unfold Declarator.Initialises at initialises
  split at initialises
  · subst initialises
    exact .of_eq rfl rfl
  · obtain ⟨source, middle, instrs, value, _, rfl⟩ := initialises
    have stays := (Expr.composed site.speaks_all (covers_all start.2) _
      fun _ _ _ _ => trivial).value.stays value
    have reserved : start.1.Stays (start.1.reserveLocals
      (UInt16.ofNat ((declarator.place start.1.maxLocals).toNat + type.width))) := .of_eq rfl rfl
    exact ((reserved.trans stays).trans (.pushAll middle instrs)).trans (.push ..)

theorem declarators_stay {declarators : List Declarator} {done : Unit}
    {start finish : Generator × Scope}
    (yields : Yields (declarators.forM (·.lower site)) start done finish) :
    start.1.Stays finish.1 := by
  induction declarators generalizing start with
  | nil =>
    cases yields_forM_nil.mp yields
    exact .refl _
  | cons first rest ih =>
    obtain ⟨_, middle, yieldsFirst, yieldsRest⟩ := yields_forM_cons.mp yields
    exact (Declarator.stays_lower yieldsFirst).trans (ih yieldsRest)

/-- The statement has no statement inside of it. -/
def Stmt.isSimple : Stmt → Bool
  | .branch _ _ _ _ | .whileLoop _ _ _ | .doLoop _ _ _ | .forLoop _ _ _ _ _ | .block _ _ => false
  | .declare _ _ _ | .expression _ _ | .ret _ _ | .breakLoop _ | .continueLoop _ | .throwing _ _
  | .empty _ => true

/-- The code of a statement with no statement inside of it is all at its place. -/
theorem Stmt.stays_simple {statement : Stmt} {inLoop : Bool} {exits : LoopExits}
    {start finish : Generator × Scope} (simple : statement.isSimple = true)
    (yields : Yields (statement.lower site inLoop) start exits finish) :
    (start.1.moveTo statement.position).Stays finish.1 := by
  have begun := Generator.Stays.setDepth (start.1.moveTo statement.position) 0
  refine begun.trans ?_
  cases statement with
  | branch | whileLoop | doLoop | forLoop | block => cases simple
  | declare final declarators position =>
    rw [Stmt.lower, EmitScoped.yields_statement, yields_bind] at yields
    obtain ⟨_, _, yields, done⟩ := yields
    cases (yields_pure.mp done).2
    exact declarators_stay yields
  | expression expression position =>
    simp only [Stmt.lower, EmitScoped.yields_statement, yields_bind, EmitScoped.yields_within,
      yields_pure] at yields
    obtain ⟨_, _, ⟨generator, effect, rfl⟩, _, rfl⟩ := yields
    exact (Scope.emits_effect site.speaks_all (fun _ _ _ _ => trivial) fun _ _ => id).stays effect
  | ret result position =>
    simp only [Stmt.lower, EmitScoped.yields_statement, yields_bind, EmitScoped.yields_within,
      yields_pure] at yields
    obtain ⟨_, _, ⟨generator, returns, rfl⟩, _, rfl⟩ := yields
    exact (Scope.emits_return site.speaks_all position (fun _ _ _ _ _ _ => trivial)
      fun _ _ _ _ => id).stays returns
  | breakLoop position | continueLoop position =>
    simp only [Stmt.lower, EmitScoped.yields_statement, yields_bind, EmitScoped.yields_plain,
      yields_pure] at yields
    obtain ⟨_, _, ⟨generator, jumps, rfl⟩, _, rfl⟩ := yields
    obtain ⟨_, _, rfl⟩ := yields_jump jumps
    exact .push ..
  | throwing thrown position =>
    simp only [Stmt.lower, EmitScoped.yields_statement, yields_bind, EmitScoped.yields_within,
      yields_pure] at yields
    obtain ⟨_, _, ⟨generator, throws, rfl⟩, _, rfl⟩ := yields
    exact (Scope.emits_throw site.speaks_all (fun _ _ _ _ => trivial) fun _ _ => id).stays throws
  | empty position =>
    rw [Stmt.lower, EmitScoped.yields_statement, yields_pure] at yields
    cases yields.2
    exact .refl _

end Parts

/-! ### Origins -/

/-- Where an instruction comes from: the place of the statement whose own code it is, and the place of
the statement that was begun last inside of that one before. -/
structure Origin where
  owner : Position
  inner : Option Position
  deriving DecidableEq

/-- The place that an instruction carries. -/
def Origin.carried (origin : Origin) : Position := origin.inner.getD origin.owner

mutual

/-- The place of the statement that is begun last in the code of a statement. -/
def Stmt.lastBegun : Stmt → Position
  | .branch _ first none _ => first.lastBegun
  | .branch _ _ (some second) _ => second.lastBegun
  | .whileLoop _ body _ | .doLoop body _ _ | .forLoop _ _ _ body _ => body.lastBegun
  | .block body position => (lastBegunOf body).getD position
  | statement => statement.position

/-- The place of the statement that is begun last in the code of statements. -/
def lastBegunOf : List Stmt → Option Position
  | [] => none
  | first :: rest => some ((lastBegunOf rest).getD first.lastBegun)

end

/-- Generating with the origins of the instructions. -/
abbrev Traced := WriterT (List Origin) EmitScoped

namespace Traced

open EmitScoped

variable {α β : Type}

/-- Generates code that is a statement's own. -/
def own (origin : Origin) (action : EmitScoped α) : Traced α := WriterT.mk do
  let first ← plain Emit.here
  let answer ← action
  let next ← plain Emit.here
  return (answer, List.replicate (next - first) origin)

/-- An action that adds no instructions. -/
def silent (action : EmitScoped α) : Traced α := liftM action

/-- The code of a statement at its place. -/
def statement (position : Position) (code : Traced α) : Traced α :=
  WriterT.mk (EmitScoped.statement position code.run)

end Traced

open EmitScoped Traced in
mutual

/-- The code of a statement, with the origins of its instructions. -/
def Stmt.traced (site : Site) (inLoop : Bool) : Stmt → Traced LoopExits
  | .branch test first none position => Traced.statement position do
    let whenFalse ← own ⟨position, none⟩
      (within fun scope => (test.lower site scope).branches false)
    let exits ← first.traced site inLoop
    silent (plain (Emit.landHere whenFalse))
    return exits
  | .branch test first (some second) position => Traced.statement position do
    let whenFalse ← own ⟨position, none⟩
      (within fun scope => (test.lower site scope).branches false)
    let exits ← first.traced site inLoop
    let finish ← own ⟨position, first.lastBegun⟩ (plain (Emit.branch .always))
    silent (plain (Emit.landHere whenFalse))
    let others ← second.traced site inLoop
    silent (plain (Emit.landHere [finish]))
    return exits ++ others
  | .whileLoop test body position => Traced.statement position do
    let start ← silent (plain Emit.here)
    let whenFalse ← own ⟨position, none⟩
      (within fun scope => (test.lower site scope).branches false)
    let exits ← body.traced site true
    own ⟨position, body.lastBegun⟩ (plain do
      Emit.instr (.branch .always start)
      Emit.land exits.continues start
      Emit.landHere (whenFalse ++ exits.breaks))
    return .none
  | .doLoop body test position => Traced.statement position do
    let start ← silent (plain Emit.here)
    let exits ← body.traced site true
    let next ← silent (plain Emit.here)
    silent (plain (Emit.setDepth 0))
    let whenTrue ← own ⟨position, body.lastBegun⟩
      (within fun scope => (test.lower site scope).branches true)
    silent (plain do
      Emit.land whenTrue start
      Emit.land exits.continues next
      Emit.landHere exits.breaks)
    return .none
  | .forLoop start test updates body position => Traced.statement position do
    let _ ← tracedAll site inLoop start
    let first ← silent (plain Emit.here)
    silent (plain (Emit.setDepth 0))
    let whenFalse ← own ⟨position, lastBegunOf start⟩
      (within fun scope => forTest site scope test)
    let exits ← body.traced site true
    let next ← silent (plain Emit.here)
    own ⟨position, body.lastBegun⟩ (within fun scope => lowerUpdates site scope updates)
    own ⟨position, body.lastBegun⟩ (plain do
      Emit.instr (.branch .always first)
      Emit.land exits.continues next
      Emit.landHere (whenFalse ++ exits.breaks))
    return .none
  | .block body position => Traced.statement position (tracedAll site inLoop body)
  | simple => own ⟨simple.position, none⟩ (simple.lower site inLoop)

/-- The code of statements in order, with the origins of its instructions. -/
def tracedAll (site : Site) (inLoop : Bool) : List Stmt → Traced LoopExits
  | [] => return .none
  | first :: rest => do
    let exits ← first.traced site inLoop
    let others ← tracedAll site inLoop rest
    return exits ++ others

end

/-! ### Tracing leaves the code as it is -/

namespace Traced

variable {α β : Type}

/-- Code is left if the origins are dropped. -/
def Erases (traced : Traced α) (code : EmitScoped α) : Prop := Prod.fst <$> traced.run = code

theorem erases_pure (answer : α) : Erases (pure answer) (pure answer) := rfl

theorem erases_own (origin : Origin) (action : EmitScoped α) : Erases (own origin action) action := by
  -- Asking for the index of the next instruction changes nothing.
  have ignored : ∀ next : EmitScoped α, (EmitScoped.plain Emit.here >>= fun _ => next) = next :=
    fun _ => rfl
  unfold Erases own
  rw [WriterT.run_mk]
  simp only [map_bind, map_pure, ignored, bind_pure]

theorem erases_silent (action : EmitScoped α) : Erases (silent action) action := by
  unfold Erases
  show Prod.fst <$> (fun answer => (answer, _)) <$> action = action
  rw [← comp_map]
  exact id_map action

theorem Erases.bind {traced : Traced α} {code : EmitScoped α} {next : α → Traced β}
    {behind : α → EmitScoped β} (first : Erases traced code)
    (others : ∀ answer, Erases (next answer) (behind answer)) :
    Erases (traced >>= next) (code >>= behind) := by
  subst first
  unfold Erases
  show Prod.fst <$> (traced.run >>= fun (answer, origins) =>
    (fun (answer, more) => (answer, origins ++ more)) <$> (next answer).run) = _
  rw [map_bind, bind_map_left]
  refine bind_congr fun (answer, origins) => ?_
  rw [← others answer, ← comp_map]
  rfl

theorem Erases.statement {traced : Traced α} {code : EmitScoped α} (position : Position)
    (inner : Erases traced code) :
    Erases (Traced.statement position traced) (EmitScoped.statement position code) := by
  have adapted (rename : SourceError → SourceError) :
      Prod.fst <$> ExceptT.adapt rename traced.run =
        ExceptT.adapt rename (Prod.fst <$> traced.run) := by
    refine ExceptT.ext ?_
    rw [ExceptT.run_map]
    show Except.map Prod.fst <$> Except.mapError rename <$> traced.run.run =
      Except.mapError rename <$> (Prod.fst <$> traced.run).run
    rw [ExceptT.run_map, ← comp_map, ← comp_map]
    congr 1
    funext outcome
    cases outcome <;> rfl
  subst inner
  unfold Erases Traced.statement EmitScoped.statement
  rw [WriterT.run_mk, map_bind, adapted]

end Traced

open Traced in
mutual

/-- **Tracing leaves the code as it is.** -/
theorem Stmt.erases_traced (site : Site) : (inLoop : Bool) → (statement : Stmt) →
    Erases (statement.traced site inLoop) (statement.lower site inLoop)
  | inLoop, .branch test first none position =>
    .statement position <| .bind (erases_own ..) fun _ =>
      .bind (first.erases_traced site inLoop) fun _ => .bind (erases_silent _) fun _ => erases_pure _
  | inLoop, .branch test first (some second) position =>
    .statement position <| .bind (erases_own ..) fun _ =>
      .bind (first.erases_traced site inLoop) fun _ => .bind (erases_own ..) fun _ =>
        .bind (erases_silent _) fun _ => .bind (second.erases_traced site inLoop) fun _ =>
          .bind (erases_silent _) fun _ => erases_pure _
  | _, .whileLoop test body position =>
    .statement position <| .bind (erases_silent _) fun _ => .bind (erases_own ..) fun _ =>
      .bind (body.erases_traced site true) fun _ => .bind (erases_own ..) fun _ => erases_pure _
  | _, .doLoop body test position =>
    .statement position <| .bind (erases_silent _) fun _ => .bind (body.erases_traced site true) fun _ =>
      .bind (erases_silent _) fun _ => .bind (erases_silent _) fun _ => .bind (erases_own ..) fun _ =>
        .bind (erases_silent _) fun _ => erases_pure _
  | inLoop, .forLoop start test updates body position => by
    -- The round behind the test, which may be missing.
    have round (first : Nat) (whenFalse : List Nat) : Erases
        (do
          let exits ← body.traced site true
          let next ← silent (EmitScoped.plain Emit.here)
          own ⟨position, body.lastBegun⟩ (EmitScoped.within fun scope => lowerUpdates site scope updates)
          own ⟨position, body.lastBegun⟩ (EmitScoped.plain do
            Emit.instr (.branch .always first)
            Emit.land exits.continues next
            Emit.landHere (whenFalse ++ exits.breaks))
          return LoopExits.none)
        (do
          let exits ← body.lower site true
          let next ← EmitScoped.plain Emit.here
          EmitScoped.within fun scope => lowerUpdates site scope updates
          EmitScoped.plain do
            Emit.instr (.branch .always first)
            Emit.land exits.continues next
            Emit.landHere (whenFalse ++ exits.breaks)
          return LoopExits.none) :=
      .bind (body.erases_traced site true) fun _ => .bind (erases_silent _) fun _ =>
        .bind (erases_own ..) fun _ => .bind (erases_own ..) fun _ => erases_pure _
    refine .statement position <| .bind (tracedAll_erases site inLoop start) fun _ =>
      .bind (erases_silent _) fun first => .bind (erases_silent _) fun _ => ?_
    cases test with
    | none => exact .bind (erases_own ..) (round first)
    | some test => exact .bind (erases_own ..) (round first)
  | inLoop, .block body position => .statement position (tracedAll_erases site inLoop body)
  | _, .declare _ _ _ | _, .expression _ _ | _, .ret _ _ | _, .breakLoop _ | _, .continueLoop _
  | _, .throwing _ _ | _, .empty _ => erases_own ..

theorem tracedAll_erases (site : Site) : (inLoop : Bool) → (statements : List Stmt) →
    Erases (tracedAll site inLoop statements) (lowerAll site inLoop statements)
  | _, [] => erases_pure _
  | inLoop, first :: rest =>
    .bind (first.erases_traced site inLoop) fun _ =>
      .bind (tracedAll_erases site inLoop rest) fun _ => erases_pure _

end

/-! ### Carried places -/

namespace Traced

variable {α β : Type} {code : Traced α} {first middle last : Option Position}

/-- Code that begins at one place and ends at another. Its instructions carry the places that their
origins say. -/
structure Marks (code : Traced α) (first last : Option Position) : Prop where
  of_run : ∀ start answer origins finish, start.1.position = first →
    Yields code.run start (answer, origins) finish → finish.1.position = last ∧
      finish.1.positions = start.1.positions ++ origins.map fun origin => some origin.carried

theorem marks_pure (answer : α) (first : Option Position) : Marks (pure answer) first first := by
  refine ⟨fun start found origins finish here yields => ?_⟩
  obtain ⟨same, rfl⟩ := yields_pure.mp yields
  cases same
  exact ⟨here, (List.append_nil _).symm⟩

theorem Marks.bind {next : α → Traced β} (marks : code.Marks first middle)
    (others : ∀ answer, (next answer).Marks middle last) : (code >>= next).Marks first last := by
  refine ⟨fun start answer origins finish here yields => ?_⟩
  obtain ⟨⟨found, front⟩, state, isFirst, behind⟩ := yields_bind.mp yields
  obtain ⟨⟨_, more⟩, isSecond, same⟩ := yields_map.mp behind
  cases same
  obtain ⟨between, positions⟩ := marks.of_run start found front state here isFirst
  obtain ⟨ends, others⟩ := (others found).of_run state answer more finish between isSecond
  exact ⟨ends, by rw [others, positions, List.map_append, List.append_assoc]⟩

theorem yields_own {origin : Origin} {action : EmitScoped α} {answer : α} {origins : List Origin}
    {start finish : Generator × Scope} :
    Yields (own origin action).run start (answer, origins) finish ↔
      Yields action start answer finish ∧
        origins = List.replicate (finish.1.size - start.1.size) origin := by
  simp only [own, WriterT.run_mk, yields_bind, EmitScoped.yields_plain, Emit.yields_here, yields_pure,
    Prod.mk.injEq]
  constructor
  · rintro ⟨_, _, ⟨_, ⟨rfl, rfl⟩, rfl⟩, _, middle, yields, _, _, ⟨_, ⟨rfl, rfl⟩, rfl⟩, ⟨rfl, rfl⟩, rfl⟩
    exact ⟨yields, rfl⟩
  · rintro ⟨yields, rfl⟩
    exact ⟨_, _, ⟨_, ⟨rfl, rfl⟩, rfl⟩, _, _, yields, _, _, ⟨_, ⟨rfl, rfl⟩, rfl⟩, ⟨rfl, rfl⟩, rfl⟩

/-- A part whose code is all at one place. -/
theorem marks_own {origin : Origin} {action : EmitScoped α} (here : first = some origin.carried)
    (stays : ∀ start answer finish, Yields action start answer finish → start.1.Stays finish.1) :
    (own origin action).Marks first first := by
  subst here
  refine ⟨fun start answer origins finish here yields => ?_⟩
  obtain ⟨ran, rfl⟩ := yields_own.mp yields
  have stays := stays _ _ _ ran
  refine ⟨stays.position.trans here, ?_⟩
  rw [stays.positions_eq, here, List.map_replicate]

/-- An action that adds no instructions and stays at its place. -/
theorem marks_silent {emit : Emit α}
    (silent : ∀ before answer after, Yields emit before answer after →
      after.position = before.position ∧ after.positions = before.positions) :
    (Traced.silent (EmitScoped.plain emit)).Marks first first := by
  refine ⟨fun start answer origins finish here yields => ?_⟩
  have mapped : Yields ((fun answer => (answer, ([] : List Origin))) <$> EmitScoped.plain emit) start
    (answer, origins) finish := yields
  obtain ⟨found, ran, same⟩ := yields_map.mp mapped
  obtain ⟨generator, emitted, rfl⟩ := EmitScoped.yields_plain.mp ran
  obtain ⟨position, positions⟩ := silent start.1 _ generator emitted
  cases same
  exact ⟨position.trans here, positions.trans (List.append_nil _).symm⟩

theorem Marks.nested {position : Position} (marks : code.Marks (some position) last) :
    (Traced.statement position code).Marks first last :=
  ⟨fun start answer origins finish _ yields =>
    marks.of_run ((start.1.moveTo position).setDepth 0, start.2) answer origins finish rfl
      (EmitScoped.yields_statement.mp yields)⟩

end Traced

open Traced

section Parts

variable {first : Option Position} {origin : Origin}

theorem marks_here : (silent (EmitScoped.plain Emit.here)).Marks first first :=
  marks_silent fun _ _ _ found => by
    cases (Emit.yields_here.mp found).2
    exact ⟨rfl, rfl⟩

theorem marks_setDepth (depth : Nat) :
    (silent (EmitScoped.plain (Emit.setDepth depth))).Marks first first :=
  marks_silent fun _ _ _ set => by
    cases Emit.yields_setDepth.mp set
    exact ⟨rfl, rfl⟩

theorem marks_landHere (branches : List Nat) :
    (silent (EmitScoped.plain (Emit.landHere branches))).Marks first first :=
  marks_silent fun _ _ _ landed => by
    cases Emit.yields_landHere.mp landed
    exact ⟨rfl, Generator.positions_land ..⟩

theorem marks_jump (here : first = some origin.carried) :
    (own origin (EmitScoped.plain (Emit.branch .always))).Marks first first :=
  marks_own here fun _ _ _ yields => by
    obtain ⟨_, jumped, rfl⟩ := EmitScoped.yields_plain.mp yields
    cases (Emit.yields_branch.mp jumped).2
    exact .push ..

/-- The branch back of a loop, which lands the branches out of the loop and to its next round. -/
theorem marks_back (here : first = some origin.carried) (back next : Nat) (continues breaks : List Nat) :
    (own origin (EmitScoped.plain do
      Emit.instr (.branch .always back)
      Emit.land continues next
      Emit.landHere breaks)).Marks first first :=
  marks_own here fun _ _ _ yields => by
    simp only [EmitScoped.yields_plain, yields_bind, Emit.yields_instr, Emit.yields_land,
      Emit.yields_landHere] at yields
    obtain ⟨_, ⟨_, _, rfl, _, _, rfl, rfl⟩, rfl⟩ := yields
    exact ((Generator.Stays.push ..).trans (.land ..)).trans (.land ..)

theorem marks_landAll (whenTrue continues breaks : List Nat) (start next : Nat) :
    (silent (EmitScoped.plain do
      Emit.land whenTrue start
      Emit.land continues next
      Emit.landHere breaks)).Marks first first :=
  marks_silent fun _ _ _ yields => by
    simp only [yields_bind, Emit.yields_land, Emit.yields_landHere] at yields
    obtain ⟨_, _, rfl, _, _, rfl, rfl⟩ := yields
    simp only [Generator.positions_land, and_true]
    rfl

theorem marks_branches {test : Expr} {outcome : Bool} (here : first = some origin.carried) :
    (own origin (EmitScoped.within fun scope => (test.lower site scope).branches outcome)).Marks first
      first :=
  marks_own here fun _ _ _ yields => by
    obtain ⟨_, tested, rfl⟩ := EmitScoped.yields_within.mp yields
    exact test.stays_branches tested

theorem marks_forTest {test : Option Expr} (here : first = some origin.carried) :
    (own origin (EmitScoped.within fun scope => forTest site scope test)).Marks first first :=
  marks_own here fun _ _ _ yields => by
    obtain ⟨_, tested, rfl⟩ := EmitScoped.yields_within.mp yields
    exact forTest_stays tested

theorem marks_updates {updates : List Expr} (here : first = some origin.carried) :
    (own origin (EmitScoped.within fun scope => lowerUpdates site scope updates)).Marks first first :=
  marks_own here fun _ _ _ yields => by
    obtain ⟨_, updated, rfl⟩ := EmitScoped.yields_within.mp yields
    exact lowerUpdates_stays updated

/-- A statement with no statement inside of it. -/
theorem marks_simple {statement : Stmt} {inLoop : Bool} (simple : statement.isSimple = true) :
    (own ⟨statement.position, none⟩ (statement.lower site inLoop)).Marks first
      (some statement.position) := by
  refine ⟨fun start answer origins finish _ yields => ?_⟩
  obtain ⟨lowered, rfl⟩ := yields_own.mp yields
  have stays := Stmt.stays_simple simple lowered
  refine ⟨stays.position, ?_⟩
  rw [stays.positions_eq, List.map_replicate]
  rfl

end Parts

mutual

/-- **The code of a statement ends at the place that is begun last in it**, and its instructions carry
what their origins say. -/
theorem Stmt.marks_traced (site : Site) : (statement : Stmt) → ∀ {inLoop first},
    (statement.traced site inLoop).Marks first (some statement.lastBegun)
  | .branch test first none position, _, _ =>
    .nested <| .bind (marks_branches rfl) fun _ => .bind (first.marks_traced site) fun _ =>
      .bind (marks_landHere _) fun _ => marks_pure ..
  | .branch test first (some second) position, _, _ =>
    .nested <| .bind (marks_branches rfl) fun _ => .bind (first.marks_traced site) fun _ =>
      .bind (marks_jump rfl) fun _ => .bind (marks_landHere _) fun _ =>
        .bind (second.marks_traced site) fun _ => .bind (marks_landHere _) fun _ => marks_pure ..
  | .whileLoop test body position, _, _ =>
    .nested <| .bind marks_here fun _ => .bind (marks_branches rfl) fun _ =>
      .bind (body.marks_traced site) fun _ => .bind (marks_back rfl ..) fun _ => marks_pure ..
  | .doLoop body test position, _, _ =>
    .nested <| .bind marks_here fun _ => .bind (body.marks_traced site) fun _ =>
      .bind marks_here fun _ => .bind (marks_setDepth 0) fun _ => .bind (marks_branches rfl) fun _ =>
        .bind (marks_landAll ..) fun _ => marks_pure ..
  | .forLoop start test updates body position, _, _ =>
    .nested <| .bind (marks_tracedAll site start) fun _ => .bind marks_here fun _ =>
      .bind (marks_setDepth 0) fun _ => .bind (marks_forTest Option.or_some) fun _ =>
        .bind (body.marks_traced site) fun _ => .bind marks_here fun _ =>
          .bind (marks_updates rfl) fun _ => .bind (marks_back rfl ..) fun _ => marks_pure ..
  | .block body position, _, _ => by
    rw [Stmt.lastBegun, ← Option.or_some]
    exact .nested (marks_tracedAll site body)
  | .declare _ _ _, _, _ | .expression _ _, _, _ | .ret _ _, _, _ | .breakLoop _, _, _
  | .continueLoop _, _, _ | .throwing _ _, _, _ | .empty _, _, _ => marks_simple rfl

theorem marks_tracedAll (site : Site) : (statements : List Stmt) → ∀ {inLoop first},
    (tracedAll site inLoop statements).Marks first ((lastBegunOf statements).or first)
  | [], _, _ => marks_pure ..
  | first :: rest, _, start => by
    have last : (lastBegunOf (first :: rest)).or start =
        (lastBegunOf rest).or (some first.lastBegun) := by
      rw [lastBegunOf]
      cases lastBegunOf rest <;> rfl
    rw [last]
    exact .bind (first.marks_traced site) fun _ => .bind (marks_tracedAll site rest) fun _ =>
      marks_pure ..

end

/-- **Which place each instruction carries**: its own statement's exactly if no statement was begun
inside of that one before, except at the same place. -/
theorem Stmt.positions_lower {site : Site} {inLoop : Bool} {statement : Stmt} {exits : LoopExits}
    {start finish : Generator × Scope}
    (yields : Yields (statement.lower site inLoop) start exits finish) :
    ∃ origins, Yields (statement.traced site inLoop).run start (exits, origins) finish ∧
      finish.1.positions =
        start.1.positions ++ origins.map (fun origin => some origin.carried) ∧
      (finish.1.positions = start.1.positions ++ origins.map (fun origin => some origin.owner) ↔
        ∀ origin ∈ origins, ∀ position ∈ origin.inner, position = origin.owner) := by
  rw [← statement.erases_traced site inLoop] at yields
  obtain ⟨⟨_, origins⟩, traced, rfl⟩ := yields_map.mp yields
  have carried := ((statement.marks_traced site).of_run start exits origins finish rfl traced).2
  refine ⟨origins, traced, carried, ?_⟩
  have same : ∀ origin : Origin, some origin.carried = some origin.owner ↔
      ∀ position ∈ origin.inner, position = origin.owner := by
    rintro ⟨owner, _ | position⟩ <;> simp [Origin.carried]
  rw [carried, List.append_cancel_left_eq, List.map_inj_left]
  exact forall₂_congr fun origin _ => same origin

/-- A generator and a scope in which the local `i` is in slot 0. -/
def counting : Generator × Scope :=
  (.ofPool .detached .empty, (Scope.root []).bind "i" 0 .int)

/-- `if (i < 5)`, and `i = 5;` on the next line. -/
def raising : Stmt :=
  let bound : Expr := .literal (.int 5) ⟨1, 9, 8⟩
  .branch (.binary (.compare .lt) (.name "i" ⟨1, 5, 4⟩) bound ⟨1, 5, 4⟩)
    (.expression (.assign (.name "i" ⟨2, 3, 13⟩) none bound ⟨2, 3, 13⟩) ⟨2, 3, 13⟩) none ⟨1, 1, 0⟩

theorem Stmt.positions_lower_raising : ∃ exits finish origins,
    Yields (raising.lower .detached false) counting exits finish ∧
      Yields (raising.traced .detached false).run counting (exits, origins) finish ∧
      finish.1.positions = counting.1.positions ++ origins.map (fun origin => some origin.carried) ∧
      (finish.1.positions = counting.1.positions ++ origins.map (fun origin => some origin.owner) ↔
        ∀ origin ∈ origins, ∀ position ∈ origin.inner, position = origin.owner) := by
  obtain ⟨finish, yields⟩ : ∃ finish, Yields (raising.lower .detached false) counting .none finish :=
    ⟨_, rfl⟩
  obtain ⟨origins, rest⟩ := Stmt.positions_lower yields
  exact ⟨.none, finish, origins, yields, rest⟩

/-- The places of the statements that instructions belong to, and the places that they carry. -/
def Stmt.places? (statement : Stmt) : Option (List Position × List (Option Position)) :=
  let ran := Id.run ((statement.traced .detached false).run.run counting)
  ran.1.toOption.map fun found => (found.2.map Origin.owner, ran.2.1.positions)

/-- **The test of a `do` loop carries the place of the last statement of its body.** -/
theorem Stmt.positions_doLoop : ∃ statement exits origins finish,
    (Stmt.parse "do\n  i = i + 1;\nwhile (i < 5);").1 = .ok [statement] ∧
      Yields (statement.lower .detached false) counting exits finish ∧
      Yields (statement.traced .detached false).run counting (exits, origins) finish ∧
      origins.map Origin.owner = List.replicate 4 ⟨2, 3, 5⟩ ++ List.replicate 3 ⟨1, 1, 0⟩ ∧
      finish.1.positions = List.replicate 7 (some ⟨2, 3, 5⟩) := by
  have evaluated : (Stmt.parse "do\n  i = i + 1;\nwhile (i < 5);").1.toOption.map
      (fun statements => statements.map Stmt.places?) =
        some [some (List.replicate 4 ⟨2, 3, 5⟩ ++ List.replicate 3 ⟨1, 1, 0⟩,
          List.replicate 7 (some ⟨2, 3, 5⟩))] := by
    decide +kernel
  rcases parsed : (Stmt.parse "do\n  i = i + 1;\nwhile (i < 5);").1 with _ | statements
  · rw [parsed] at evaluated
    cases evaluated
  · rw [parsed] at evaluated
    obtain ⟨statement, rfl, places⟩ := List.map_eq_singleton_iff.mp (Option.some.inj evaluated)
    unfold Stmt.places? at places
    rcases ran : Id.run ((statement.traced .detached false).run.run counting) with
      ⟨_ | ⟨exits, origins⟩, finish⟩
    · rw [ran] at places
      cases places
    · rw [ran] at places
      obtain ⟨owners, positions⟩ := Prod.mk.inj (Option.some.inj places)
      have traced : Yields (statement.traced .detached false).run counting (exits, origins) finish :=
        ran
      refine ⟨statement, exits, origins, finish, rfl, ?_, traced, owners, positions⟩
      rw [← statement.erases_traced .detached false]
      exact yields_map.mpr ⟨(exits, origins), traced, rfl⟩

end MethodPatch
