/-
**Guarded visits of statements.**

A visit keeps the branches out of loops in the visitor, where lowering hands them back. `Carries` says
that a visit does what lowering does, and that the branches that have been handed back stand at the
innermost loop of the visitor. A `break` or `continue` is refused by both or by neither, for the visitor
knows of a loop where lowering has been told of one.

* `VisitScoped.Carries`: a visit beside lowering, and how visits are put together;
* `Stmt.visit_carries`: statements, by induction;
* `Visitor.generate_eq`: **guarded visits generate what is lowered.**
-/

import MethodPatch.Visit.Stmt
import MethodPatch.Proofs.Guards.Expr
import MethodPatch.Proofs.Syntax.Loops

namespace MethodPatch

open Visit

namespace LoopExits

theorem append_none (exits : LoopExits) : exits ++ none = exits :=
  congrArg₂ mk (List.append_nil _) (List.append_nil _)

theorem append_assoc (first second third : LoopExits) :
    first ++ second ++ third = first ++ (second ++ third) :=
  congrArg₂ mk (List.append_assoc _ _ _) (List.append_assoc _ _ _)

end LoopExits

namespace VisitScoped

/-- Loops, the innermost of which has been left some branches more. -/
def handed (loops : List LoopExits) (exits : LoopExits) : List LoopExits :=
  match loops with
  | [] => []
  | innermost :: around => (innermost ++ exits) :: around

variable {α β γ δ : Type} {inLoop : Bool} {before : LoopExits} {visit : VisitScoped α}
  {action : EmitScoped β} {view : β → α} {exits : β → LoopExits} {look : δ → γ}
  {leaves : δ → LoopExits}

/-- A visit that generates does what lowering does. Before it some branches have been handed back, and
behind it those that depend on the answer; they are the ones that the innermost loop of the visitor has
been left. If lowering fails, nothing is said of the loops. -/
def Carries (inLoop : Bool) (before : LoopExits) (visit : VisitScoped α) (action : EmitScoped β)
    (view : β → α) (exits : β → LoopExits) : Prop :=
  ∀ (generator : Generator) (loops : List LoopExits) (scope : Scope), loops.isEmpty = !inLoop →
    ∃ left, visit.run.run (⟨generator, handed loops before, false⟩, scope) =
        ((action.run.run (generator, scope)).1.map view,
          (⟨(action.run.run (generator, scope)).2.1, left, false⟩,
            (action.run.run (generator, scope)).2.2)) ∧
      ∀ answer, (action.run.run (generator, scope)).1 = .ok answer →
        left = handed loops (exits answer)

/-- A step that leaves the loops alone. -/
abbrev Steps (visit : VisitScoped α) (action : EmitScoped α) : Prop :=
  ∀ inLoop before, Carries inLoop before visit action id fun _ => before

/-- A visit of statements: what lowering hands back comes behind what has been handed back. -/
abbrev Hands (inLoop : Bool) (visit : VisitScoped Unit) (action : EmitScoped LoopExits) : Prop :=
  ∀ before, Carries inLoop before visit action (fun _ => ()) fun exits => before ++ exits

theorem Carries.pure {found : α} {answer : β} (isView : found = view answer)
    (same : exits answer = before) :
    Carries inLoop before (Pure.pure found) (Pure.pure answer) view exits := by
  intro generator loops scope _
  subst isView
  refine ⟨_, rfl, ?_⟩
  rintro _ ⟨⟩
  rw [same]

theorem Carries.throw (error : SourceError) :
    Carries inLoop before (MonadExcept.throw error) (MonadExcept.throw error) view exits :=
  fun _ _ _ _ => ⟨_, rfl, nofun⟩

theorem Carries.bind {next : α → VisitScoped γ} {rest : β → EmitScoped δ}
    (here : Carries inLoop before visit action view exits)
    (behind : ∀ answer, Carries inLoop (exits answer) (next (view answer)) (rest answer) look leaves) :
    Carries inLoop before (visit >>= next) (action >>= rest) look leaves := by
  intro generator loops scope isIn
  obtain ⟨left, ran, isLeft⟩ := here generator loops scope isIn
  rw [run_bind, run_bind, ran]
  rcases result : action.run.run (generator, scope) with ⟨error | answer, generator', scope'⟩
  · exact ⟨left, rfl, nofun⟩
  · rw [result] at isLeft
    rw [isLeft answer rfl]
    exact behind answer generator' loops scope' isIn

/-- Lowering ends with what it hands back; a visit has done so already. -/
theorem Carries.handBack {visit : VisitScoped Unit} {make : β → δ}
    (here : Carries inLoop before visit action (fun _ => ()) exits)
    (same : ∀ answer, leaves (make answer) = exits answer) :
    Carries inLoop before visit (action >>= fun answer => Pure.pure (make answer)) (fun _ => ())
      leaves := by
  have whole : Carries inLoop before (visit >>= fun _ => Pure.pure ())
      (action >>= fun answer => Pure.pure (make answer)) (fun _ => ()) leaves :=
    here.bind fun answer => .pure rfl (same answer)
  rwa [bind_pure_unit] at whole

theorem Steps.lift (known : Except SourceError α) : Steps (liftExcept known) (liftExcept known) := by
  intro inLoop before
  cases known with
  | error error => exact .throw error
  | ok answer => exact .pure rfl rfl

theorem Steps.within {visit : Scope → Visit α} {emit : Scope → Emit α}
    (generates : ∀ scope, Generates (visit scope) (emit scope)) :
    Steps (VisitScoped.within visit) (EmitScoped.within emit) := by
  intro inLoop before generator loops scope _
  have ran := generates scope ⟨generator, handed loops before, false⟩ rfl
  refine ⟨handed loops before, ?_, fun _ _ => rfl⟩
  have isRun : (VisitScoped.within visit).run.run (⟨generator, handed loops before, false⟩, scope) =
      (((visit scope).run.run ⟨generator, handed loops before, false⟩).1,
        ((visit scope).run.run ⟨generator, handed loops before, false⟩).2, scope) := rfl
  rw [isRun, ran]
  refine congrArg₂ Prod.mk ?_ rfl
  exact (id_map _).symm

theorem Steps.plain {visit : Visit α} {emit : Emit α} (generates : Generates visit emit) :
    Steps (VisitScoped.plain visit) (EmitScoped.plain emit) :=
  .within fun _ => generates

theorem Steps.bindName (name : String) (slot : Slot) (type : FieldType) :
    Steps (VisitScoped.bind name slot type) (EmitScoped.bind name slot type) :=
  fun _ before _ loops _ _ => ⟨handed loops before, rfl, fun _ _ => rfl⟩

/-- Behind a look at the state, it is that of a visitor that generates. -/
theorem Carries.looking {next : Visitor × Scope → VisitScoped α}
    {rest : Generator × Scope → EmitScoped β}
    (behind : ∀ generator loops scope, Carries inLoop before (next (⟨generator, loops, false⟩, scope))
      (rest (generator, scope)) view exits) :
    Carries inLoop before (get >>= next) (get >>= rest) view exits :=
  fun generator loops scope => behind generator (handed loops before) scope generator loops scope

theorem Steps.forM {items : List γ} {visit : γ → VisitScoped Unit} {action : γ → EmitScoped Unit}
    (each : ∀ item, Steps (visit item) (action item)) :
    Steps (items.forM visit) (items.forM action) := by
  intro inLoop before
  induction items with
  | nil => exact .pure rfl rfl
  | cons first rest ih => exact (each first inLoop before).bind fun _ => ih

/-- Behind a step lowering hands back what is known. -/
theorem Steps.handBack {visit : VisitScoped Unit} {action : EmitScoped Unit} {start made : LoopExits}
    (steps : Steps visit action) (inLoop : Bool) (same : before = start ++ made) :
    Carries inLoop before visit (action >>= fun _ => Pure.pure made) (fun _ => ()) fun exits =>
      start ++ exits :=
  (steps inLoop before).handBack fun _ => same.symm

/-- An error without a place gets the one of the statement. -/
theorem Carries.statement {visit : VisitScoped Unit} {view : β → Unit} (position : Position)
    (here : Carries inLoop before visit action view exits) :
    Carries inLoop before (VisitScoped.statement position visit)
      (EmitScoped.statement position action) view exits := by
  have placed : Generates (do
      modify fun visitor =>
        { visitor with generator := { visitor.generator with position := some position } }
      Visit.setDepth 0) (do
      modify fun generator => { generator with position := some position }
      Emit.setDepth 0) :=
    Generates.bind (fun _ _ => rfl) fun _ => (Agrees.setDepth 0).generates
  refine (Steps.plain placed inLoop before).bind fun _ generator loops scope isIn => ?_
  obtain ⟨left, ran, isLeft⟩ := here generator loops scope isIn
  have run_adapt {σ ε : Type} (act : ExceptT SourceError (StateM σ) ε) (state : σ) :
      (ExceptT.adapt (·.orAt (some position)) act).run.run state =
        ((act.run.run state).1.mapError (·.orAt (some position)), (act.run.run state).2) := by
    rfl
  refine ⟨left, ?_, fun answer isOk => isLeft answer ?_⟩
  · rw [run_adapt, run_adapt, ran]
    rcases action.run.run (generator, scope) with ⟨error | answer, generator', scope'⟩ <;> rfl
  · rw [run_adapt] at isOk
    revert isOk
    cases (action.run.run (generator, scope)).1 with
    | error error => exact nofun
    | ok found => exact fun isOk => isOk

/-- The body of a loop is visited in the loop, and the branches that the loop has been left are those that
lowering hands back. -/
theorem Steps.loopBody {visit : VisitScoped Unit} {action : EmitScoped LoopExits}
    (body : Hands true visit action) : Steps (VisitScoped.loopBody visit) action := by
  intro inLoop before generator loops scope _
  obtain ⟨left, ran, isLeft⟩ := body .none generator (.none :: handed loops before) scope rfl
  -- What is left of the run is the body, and leaving the loop behind it.
  have behind : (VisitScoped.loopBody visit).run.run (⟨generator, handed loops before, false⟩, scope) =
      (visit >>= fun _ => VisitScoped.plain Visit.leaveLoop).run.run
        (⟨generator, handed (.none :: handed loops before) .none, false⟩, scope) := rfl
  rw [behind, run_bind, ran]
  rcases result : action.run.run (generator, scope) with ⟨error | exits, generator', scope'⟩
  · exact ⟨left, rfl, nofun⟩
  · rw [result] at isLeft
    rw [isLeft exits rfl]
    exact ⟨handed loops before, rfl, fun _ _ => rfl⟩

/-- `break` or `continue`. -/
theorem Hands.jump (inLoop : Bool) (position : Position) (make : Nat → LoopExits) :
    Hands inLoop (VisitScoped.plain (Visit.jump position make))
      (do return make (← EmitScoped.plain (lowerJump inLoop position))) := by
  intro before generator loops scope isIn
  cases loops with
  | nil =>
    cases inLoop with
    | true => cases isIn
    | false => exact ⟨[], rfl, nofun⟩
  | cons innermost around =>
    cases inLoop with
    | false => cases isIn
    | true =>
      refine ⟨(innermost ++ before ++ make generator.body.size) :: around, rfl, ?_⟩
      rintro _ ⟨⟩
      exact congrArg (· :: around) (LoopExits.append_assoc _ _ _)

end VisitScoped

open VisitScoped

/-! ### Statements -/

variable (site : Site)

/-- A declared variable. -/
theorem Declarator.visit_steps (declarator : Declarator) :
    Steps (declarator.visit site) (declarator.lower site) := by
  intro inLoop before
  unfold Declarator.visit Declarator.lower
  refine (Steps.lift _ inLoop before).bind fun type => .looking fun generator loops scope => ?_
  dsimp only [id_eq]
  split
  · exact fun _ _ _ _ => ⟨_, rfl, nofun⟩
  · have reserved (last : UInt16) : Generates (modify fun visitor =>
        { visitor with generator := visitor.generator.reserveLocals last })
        (modify (·.reserveLocals last)) := fun _ _ => rfl
    refine (Steps.plain (reserved _) inLoop before).bind fun _ => ?_
    cases declarator.initial with
    | none => exact Steps.bindName _ _ _ inLoop before
    | some initial =>
      refine (Steps.within (fun scope => ?_) inLoop before).bind fun _ =>
        Steps.bindName _ _ _ inLoop before
      exact (initial.guarded_value site scope).bind fun source => (Generates.lift _).bind fun instrs =>
        .after (Agrees.instrs _) fun _ => (Agrees.instr _).generates

theorem generates_return (result : Option Expr) (position : Position) (scope : Scope) :
    Generates (visitReturn site result position scope) (lowerReturn site result position scope) := by
  unfold visitReturn lowerReturn
  cases site.method.signature.result with
  | none =>
    cases result with
    | none => exact (Agrees.instr _).generates
    | some result => exact fun _ _ => rfl
  | some type =>
    cases result with
    | none => exact fun _ _ => rfl
    | some result =>
      exact (result.guarded_value site scope).bind fun source => (Generates.lift _).bind fun instrs =>
        .after (Agrees.instrs _) fun _ => (Agrees.instr _).generates

theorem generates_throw (thrown : Expr) (scope : Scope) :
    Generates (visitThrow site thrown scope) (lowerThrow site thrown scope) := by
  refine (thrown.guarded_value site scope).bind fun type => ?_
  split
  · exact Generates.bind (fun _ _ => rfl) fun _ => (Agrees.instr _).generates
  · exact (Agrees.instr _).generates

theorem generates_updates (scope : Scope) (updates : List Expr) :
    Generates (visitUpdates site scope updates) (lowerUpdates site scope updates) := by
  induction updates with
  | nil => exact .pure ()
  | cons first rest ih =>
    refine Generates.bind ?_ fun _ => ih
    exact .after (Agrees.setDepth 0) fun _ => first.guarded_effect site scope

/-- A condition. -/
theorem steps_branches (test : Expr) (outcome : Bool) :
    Steps (within fun scope => (test.guarded site scope).branches outcome)
      (EmitScoped.within fun scope => (test.lower site scope).branches outcome) :=
  .within fun scope => test.guarded_branches site scope outcome

/-- What a loop does with its branches behind its body. -/
theorem steps_land {visit : Visit Unit} {emit : Emit Unit} (inert : Inert visit emit) :
    Steps (plain visit) (EmitScoped.plain emit) :=
  .plain inert.generates

/-- The head of a loop begins with statements that hand back nothing. -/
theorem Stmt.visit_head (inLoop : Bool) {statement : Stmt} (isHead : statement.isHead = true)
    (before : LoopExits) :
    Carries inLoop before (statement.visit site) (statement.lower site inLoop) (fun _ => ()) fun _ =>
      before := by
  cases statement with
  | declare final declarators position =>
    refine .statement position (Carries.handBack (Steps.forM (fun declarator => ?_) inLoop before) fun _ => rfl)
    exact declarator.visit_steps site
  | expression expression position =>
    refine .statement position (Carries.handBack (Steps.within (fun scope => ?_) inLoop before) fun _ => rfl)
    exact expression.guarded_effect site scope
  | _ => cases isHead

theorem visitAll_heads (inLoop : Bool) {statements : List Stmt}
    (areHeads : statements.all Stmt.isHead = true) (before : LoopExits) :
    Carries inLoop before (visitAll site statements) (lowerAll site inLoop statements) (fun _ => ())
      fun _ => before := by
  induction statements with
  | nil => exact .pure rfl rfl
  | cons first rest ih =>
    obtain ⟨isFirst, areRest⟩ := Bool.and_eq_true_iff.mp areHeads
    exact (first.visit_head site inLoop isFirst before).bind fun _ => (ih areRest).handBack fun _ => rfl

open EmitScoped in
mutual

/-- **A statement is visited as it is lowered**, where the visitor knows of a loop if lowering is told of
one, and the jumps in the statement are in loops. -/
theorem Stmt.visit_carries (inLoop : Bool) : (statement : Stmt) →
    statement.jumpsInLoops inLoop = true →
    Hands inLoop (statement.visit site) (statement.lower site inLoop)
  | .declare final declarators position, _, before =>
    .statement position (Steps.handBack (.forM fun declarator => declarator.visit_steps site) inLoop
      (LoopExits.append_none before).symm)
  | .expression expression position, _, before =>
    .statement position (Steps.handBack (.within fun scope => expression.guarded_effect site scope)
      inLoop (LoopExits.append_none before).symm)
  | .branch test first none position, inLoops, before => by
    refine .statement position ((steps_branches site test false inLoop before).bind fun whenFalse => ?_)
    refine (first.visit_carries inLoop inLoops before).bind fun exits => ?_
    exact (steps_land (Agrees.landHere whenFalse)).handBack inLoop rfl
  | .branch test first (some second) position, inLoops, before => by
    obtain ⟨isFirst, isSecond⟩ := Bool.and_eq_true_iff.mp inLoops
    refine .statement position ((steps_branches site test false inLoop before).bind fun whenFalse => ?_)
    refine (first.visit_carries inLoop isFirst before).bind fun exits => ?_
    refine (Steps.plain (Agrees.branch _).generates inLoop _).bind fun finish => ?_
    refine (steps_land (Agrees.landHere whenFalse) inLoop _).bind fun _ => ?_
    refine (second.visit_carries inLoop isSecond _).bind fun others => ?_
    exact (steps_land (Agrees.landHere [finish])).handBack inLoop (LoopExits.append_assoc _ _ _)
  | .whileLoop test body position, inLoops, before => by
    refine .statement position ((Steps.plain Agrees.here.generates inLoop before).bind fun start => ?_)
    refine (steps_branches site test false inLoop before).bind fun whenFalse => ?_
    refine (Steps.loopBody (body.visit_carries true inLoops) inLoop before).bind fun exits => ?_
    refine (steps_land ?_).handBack inLoop (LoopExits.append_none before).symm
    exact .after (.instr _) fun _ => .after (.land _ _) fun _ => .landHere _
  | .doLoop body test position, inLoops, before => by
    refine .statement position ((Steps.plain Agrees.here.generates inLoop before).bind fun start => ?_)
    refine (Steps.loopBody (body.visit_carries true inLoops) inLoop before).bind fun exits => ?_
    refine (Steps.plain Agrees.here.generates inLoop before).bind fun next => ?_
    refine (steps_land (.setDepth 0) inLoop before).bind fun _ => ?_
    refine (steps_branches site test true inLoop before).bind fun whenTrue => ?_
    refine (steps_land ?_).handBack inLoop (LoopExits.append_none before).symm
    exact .after (.land _ _) fun _ => .after (.land _ _) fun _ => .landHere _
  | .forLoop start test updates body position, inLoops, before => by
    obtain ⟨areHeads, isBody⟩ := Bool.and_eq_true_iff.mp inLoops
    refine .statement position ((visitAll_heads site inLoop areHeads before).bind fun _ => ?_)
    refine (Steps.plain Agrees.here.generates inLoop before).bind fun first => ?_
    refine (steps_land (.setDepth 0) inLoop before).bind fun _ => ?_
    have behind (whenFalse : List Nat) : Carries inLoop before (do
          let exits ← loopBody (body.visit site)
          let next ← VisitScoped.plain Visit.here
          VisitScoped.within fun scope => visitUpdates site scope updates
          VisitScoped.plain do
            Visit.instr (.branch .always first)
            Visit.land exits.continues next
            Visit.landHere (whenFalse ++ exits.breaks)) (do
          let exits ← body.lower site true
          let next ← EmitScoped.plain Emit.here
          EmitScoped.within fun scope => lowerUpdates site scope updates
          EmitScoped.plain do
            Emit.instr (.branch .always first)
            Emit.land exits.continues next
            Emit.landHere (whenFalse ++ exits.breaks)
          return .none) (fun _ => ()) fun exits => before ++ exits := by
      refine (Steps.loopBody (body.visit_carries true isBody) inLoop before).bind fun exits => ?_
      refine (Steps.plain Agrees.here.generates inLoop before).bind fun next => ?_
      refine (Steps.within (generates_updates site · updates) inLoop before).bind fun _ => ?_
      refine (steps_land ?_).handBack inLoop (LoopExits.append_none before).symm
      exact .after (.instr _) fun _ => .after (.land _ _) fun _ => .landHere _
    cases test with
    | none => exact behind []
    | some test => exact (steps_branches site test false inLoop before).bind behind
  | .block body position, inLoops, before =>
    .statement position (visitAll_carries inLoop body inLoops before)
  | .ret result position, _, before =>
    .statement position (Steps.handBack (.within fun scope => generates_return site result position scope)
      inLoop (LoopExits.append_none before).symm)
  | .breakLoop position, _, before => .statement position (Hands.jump inLoop position _ before)
  | .continueLoop position, _, before => .statement position (Hands.jump inLoop position _ before)
  | .throwing thrown position, _, before =>
    .statement position (Steps.handBack (.within fun scope => generates_throw site thrown scope) inLoop
      (LoopExits.append_none before).symm)
  | .empty position, _, before => .statement position (.pure rfl (LoopExits.append_none before))

theorem visitAll_carries (inLoop : Bool) : (statements : List Stmt) →
    Stmt.allJumpsInLoops inLoop statements = true →
    Hands inLoop (visitAll site statements) (lowerAll site inLoop statements)
  | [], _, before => .pure rfl (LoopExits.append_none before)
  | first :: rest, inLoops, before => by
    obtain ⟨isFirst, areRest⟩ := Bool.and_eq_true_iff.mp inLoops
    refine (first.visit_carries inLoop isFirst before).bind fun exits => ?_
    refine Carries.handBack (visitAll_carries inLoop rest areRest (before ++ exits)) fun others => ?_
    exact (LoopExits.append_assoc _ _ _).symm

end

/-! ### Whole texts -/

namespace Visitor

variable {site : Site}

/-- One statement that stands in no loop. -/
theorem emit_eq {statement : Stmt} (inLoops : statement.jumpsInLoops false = true) (visitor : Visitor)
    (scope : Scope) :
    ∃ loops, visitor.emit site scope statement =
      ((visitor.generator.emit site scope statement).1,
        ⟨(visitor.generator.emit site scope statement).2.1, loops, false⟩,
        (visitor.generator.emit site scope statement).2.2) := by
  obtain ⟨loops, ran, -⟩ :=
    statement.visit_carries site false inLoops .none visitor.generator [] scope rfl
  exact ⟨loops, ran⟩

/-- **Guarded visits generate what is lowered**: the same answer or error, the same code and the same
scope. -/
theorem generate_eq {statements : List Stmt}
    (inLoops : ∀ statement ∈ statements, statement.jumpsInLoops false = true) (visitor : Visitor)
    (scope : Scope) :
    (visitor.generate site scope statements).1 =
        (visitor.generator.generate site scope statements).1 ∧
      (visitor.generate site scope statements).2.1.generator =
        (visitor.generator.generate site scope statements).2.1 ∧
      (visitor.generate site scope statements).2.2 =
        (visitor.generator.generate site scope statements).2.2 := by
  induction statements generalizing visitor scope with
  | nil => exact ⟨rfl, rfl, rfl⟩
  | cons first rest ih =>
    obtain ⟨isFirst, areRest⟩ := List.forall_mem_cons.mp inLoops
    obtain ⟨loops, ran⟩ := visitor.emit_eq isFirst scope
    rw [generate, Generator.generate, ran]
    rcases visitor.generator.emit site scope first with ⟨error | ⟨⟩, generator, after⟩
    · exact ⟨rfl, rfl, rfl⟩
    · exact ih areRest ⟨generator, loops, false⟩ after

end Visitor

end MethodPatch
