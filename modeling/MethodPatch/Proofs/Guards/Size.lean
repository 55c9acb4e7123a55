/-
**Internal errors are about size.**

Code can get too large for a class file: its constants, its variables or the arguments of a call are too
many. Where statements are as they were read nothing else ends their generating with an internal error,
and no guard refuses anything.

* `Sized`: actions whose internal errors are about size, and how they are put together;
* `Stmt.lower_sized`: statements that were read, by induction;
* `Visitor.generate_sized`: statements in order, under guard;
* `Stmt.internal_errors_of_parse`: **internal errors that a text can lead to.**
-/

import MethodPatch.Proofs.Guards.Blame
import MethodPatch.Proofs.Guards.Stmt

namespace MethodPatch

open Emit

/-! ### Errors -/

/-- Faults of code that is too large. -/
def InternalFault.isCapacity : InternalFault → Bool
  | .pool _ | .tooManyLocals | .tooManyArguments => true
  | _ => false

theorem InternalFault.isCapacity_of_isLimit {fault : InternalFault} (isLimit : fault.isLimit = true) :
    fault.isCapacity = true := by
  cases fault with
  | pool error => rfl
  | tooManyArguments => rfl
  | _ => cases isLimit

namespace SourceError

/-- If an error is internal, it is about the size of the code. -/
def OnlySize (error : SourceError) : Prop :=
  error.kind = .internalError → ∃ fault place,
    InternalFault.isCapacity fault = true ∧ error = notGenerated fault place

theorem OnlySize.of_capacity {fault : InternalFault} (isCapacity : fault.isCapacity = true)
    (place : Option Position) : (notGenerated fault place).OnlySize :=
  fun _ => ⟨fault, place, isCapacity, rfl⟩

theorem OnlySize.mistyped (fault : TypeFault) (place : Option Position) :
    (MethodPatch.mistyped fault place).OnlySize := nofun

theorem OnlySize.orAt {error : SourceError} (onlySize : error.OnlySize) (place : Option Position) :
    (error.orAt place).OnlySize := by
  intro isInternal
  obtain ⟨fault, found, isCapacity, rfl⟩ := onlySize isInternal
  exact ⟨fault, found <|> place, isCapacity, rfl⟩

theorem Unforeseen.onlySize {voids : List Position} {error : SourceError}
    (unforeseen : error.Unforeseen voids) : error.OnlySize := by
  cases unforeseen with
  | limit isLimit place => exact .of_capacity (InternalFault.isCapacity_of_isLimit isLimit) place
  | void isVoid => exact .mistyped _ _

/-- What is about size is refused by no guard, and it is no jump outside of a loop. -/
theorem OnlySize.ne_guard {error : SourceError} (onlySize : error.OnlySize) :
    (∀ (guard : Guard) place, error ≠ guard.error place) ∧
      ∀ place, error ≠ notGenerated .jumpOutsideLoop place := by
  constructor
  · rintro guard place rfl
    obtain ⟨fault, found, -, same⟩ := onlySize rfl
    cases same
  · rintro place rfl
    obtain ⟨fault, found, isCapacity, same⟩ := onlySize rfl
    cases same
    cases isCapacity

end SourceError

/-! ### Actions -/

/-- An action whose internal errors are about size. -/
def Sized {σ α : Type} (action : ExceptT SourceError (StateM σ) α) : Prop :=
  ∀ before error, (action.run.run before).1 = .error error → error.OnlySize

namespace Sized

variable {σ α β : Type} {action : ExceptT SourceError (StateM σ) α}

theorem pure (answer : α) : Sized (Pure.pure answer : ExceptT SourceError (StateM σ) α) := by
  rintro before _ ⟨⟩

theorem throw {error : SourceError} (onlySize : error.OnlySize) :
    Sized (MonadExcept.throw error : ExceptT SourceError (StateM σ) α) := by
  rintro before _ ⟨⟩
  exact onlySize

/-- Behind an error nothing is done. -/
theorem stop {next : α → ExceptT SourceError (StateM σ) β} {error : SourceError}
    (onlySize : error.OnlySize) : Sized (MonadExcept.throw error >>= next) := by
  rintro before _ ⟨⟩
  exact onlySize

theorem bind {next : α → ExceptT SourceError (StateM σ) β} (here : Sized action)
    (behind : ∀ answer, Sized (next answer)) : Sized (action >>= next) := by
  intro before error failed
  rw [run_bind] at failed
  rcases result : action.run.run before with ⟨found | answer, middle⟩
  · rw [result] at failed
    cases failed
    exact here before error (congrArg Prod.fst result)
  · rw [result] at failed
    exact behind answer middle error failed

theorem get : Sized (MonadState.get : ExceptT SourceError (StateM σ) σ) := by
  rintro before _ ⟨⟩

theorem modify (change : σ → σ) :
    Sized (MonadStateOf.modifyGet fun state => ((), change state) :
      ExceptT SourceError (StateM σ) Unit) := by
  rintro before _ ⟨⟩

theorem forM {γ : Type} {items : List γ} {act : γ → ExceptT SourceError (StateM σ) Unit}
    (each : ∀ item ∈ items, Sized (act item)) : Sized (items.forM act) := by
  induction items with
  | nil => exact .pure ()
  | cons first rest ih =>
    obtain ⟨here, behind⟩ := List.forall_mem_cons.mp each
    exact here.bind fun _ => ih behind

/-- What is known of the text goes wrong for the text. -/
theorem lift {known : Except SourceError α} (blames : BlamesText known) :
    Sized (liftExcept known : ExceptT SourceError (StateM σ) α) := by
  cases known with
  | error error => exact .throw fun isInternal => absurd isInternal (blames error rfl)
  | ok answer => exact .pure answer

/-- An action that types foretell fails as they do, or where a limit is reached. -/
theorem of_foretold {emit : Emit α} {view : α → β} {voids : List Position}
    {known : Except SourceError β} (foretold : ForetoldBy view voids emit known)
    (blames : BlamesText known) : Sized emit := by
  intro before error failed
  rcases foretold before with ⟨isKnown, -⟩ | ⟨other, stopped, unforeseen⟩
  · have same : known = .error error := by
      rw [← isKnown, Emit.result, failed]
      rfl
    exact fun isInternal => absurd isInternal (blames error same)
  · cases failed.symm.trans stopped
    exact unforeseen.onlySize

theorem of_proceeds {emit : Emit α} (proceeds : Proceeds emit) : Sized emit :=
  .of_foretold proceeds (.ok ())

/-! ### Actions with a scope -/

theorem within {emit : Scope → Emit α} (sized : ∀ scope, Sized (emit scope)) :
    Sized (EmitScoped.within emit) :=
  fun (generator, scope) => sized scope generator

theorem plain {emit : Emit α} (sized : Sized emit) : Sized (EmitScoped.plain emit) :=
  .within fun _ => sized

/-- A step of generating that goes on unless a limit is reached. -/
theorem step {emit : Emit α} (proceeds : Proceeds emit) : Sized (EmitScoped.plain emit) :=
  .plain (.of_proceeds proceeds)

theorem statement {action : EmitScoped α} (position : Position) (sized : Sized action) :
    Sized (EmitScoped.statement position action) := by
  refine Sized.bind (.step fun _ => .inl ⟨rfl, fun _ => rfl⟩) fun _ before error failed => ?_
  have run_adapt : ((ExceptT.adapt (·.orAt (some position)) action).run.run before).1 =
      (action.run.run before).1.mapError (·.orAt (some position)) := rfl
  rw [run_adapt] at failed
  cases result : (action.run.run before).1 with
  | ok answer =>
    rw [result] at failed
    cases failed
  | error found =>
    rw [result] at failed
    cases failed
    exact (sized before found result).orAt _

end Sized

/-! ### Expressions -/

namespace Expr

variable (site : Site) (scope : Scope) (expression : Expr)

theorem sized_value : Sized (expression.lower site scope).value :=
  .of_foretold (expression.foretold site scope).value (expression.typed_blames site scope).value

theorem sized_branches (outcome : Bool) :
    Sized ((expression.lower site scope).branches outcome) :=
  .of_foretold ((expression.foretold site scope).branches outcome)
    ((expression.typed_blames site scope).condition _)

/-- An expression that is evaluated for its effect. -/
theorem sized_effect : Sized (expression.lower site scope).effect := by
  cases leaves : expression.leavesOut with
  | false =>
    rw [lower_effect_of_drop leaves]
    exact (expression.sized_value site scope).bind fun type => .of_proceeds (.instrs _)
  | true =>
    cases expression with
    | assign target op value position =>
      rw [lower]
      refine Sized.bind ?_ fun _ => .pure ()
      have assigns : Sized (Lowered.assign site (target.lower site scope) op value
          (value.staticType site scope) (value.lower site scope) position false) :=
        .of_foretold (Lowered.foretold_assign (target.foretold site scope).place
            (value.foretold site scope).value op position false)
          ((target.typed_blames site scope).place.bind fun _ =>
            (value.typed_blames site scope).value.bind fun _ => Typed.assignment_blames _ _ _ _ _)
      cases site.intVariable? scope target with
      | none => exact assigns
      | some slot =>
        cases incrementBy? op value with
        | none => exact assigns
        | some delta => exact .of_foretold (Lowered.foretold_increment slot delta false) (.ok _)
    | update op isBefore target position =>
      rw [lower]
      refine Sized.bind ?_ fun _ => .pure ()
      cases site.intVariable? scope target with
      | none =>
        exact .of_foretold
          (Lowered.foretold_update (target.foretold site scope).place op isBefore position false)
          ((target.typed_blames site scope).place.bind fun _ =>
            (updateType_blames _ _).bind fun _ => .ok _)
      | some slot =>
        exact .of_foretold (Lowered.foretold_updateVariable op isBefore slot false) (.ok _)
    | _ => cases leaves

end Expr

/-! ### Statements -/

variable (site : Site)

/-- A condition. -/
theorem sized_condition (test : Expr) (outcome : Bool) :
    Sized (EmitScoped.within fun scope => (test.lower site scope).branches outcome) :=
  .within fun scope => test.sized_branches site scope outcome

/-- A declared variable whose type is the one that is written. -/
theorem Declarator.lower_sized {declarator : Declarator} (unpatched : declarator.isUnpatched) :
    Sized (declarator.lower site) := by
  have isType : declarator.fieldType site.host = site.host.typeOf declarator.type := by
    unfold Declarator.fieldType
    rw [unpatched.2]
  unfold Declarator.lower
  rw [isType]
  refine (Sized.lift (Host.typeOf_blames _)).bind fun type => Sized.get.bind fun state => ?_
  dsimp only
  split
  · exact .stop (.of_capacity rfl _)
  · refine (Sized.plain (.modify _)).bind fun _ => ?_
    cases declarator.initial with
    | none => exact .modify _
    | some initial =>
      refine Sized.bind (.within fun scope => ?_) fun _ => .modify _
      exact (initial.sized_value site scope).bind fun source =>
        (Sized.lift (Host.coercion_blames _ _ _)).bind fun instrs =>
          (Sized.of_proceeds (.instrs _)).bind fun _ => .of_proceeds (.instr _)

theorem lowerReturn_sized (result : Option Expr) (position : Position) (scope : Scope) :
    Sized (lowerReturn site result position scope) := by
  unfold lowerReturn
  split
  · exact .of_proceeds (.instr _)
  · exact .throw (.mistyped _ _)
  · exact .throw (.mistyped _ _)
  · next type result _ =>
    exact (result.sized_value site scope).bind fun source =>
      (Sized.lift (Host.coercion_blames _ _ _)).bind fun instrs =>
        (Sized.of_proceeds (.instrs _)).bind fun _ => .of_proceeds (.instr _)

theorem lowerThrow_sized (thrown : Expr) (scope : Scope) : Sized (lowerThrow site thrown scope) := by
  refine (thrown.sized_value site scope).bind fun type => ?_
  split
  · exact .stop (.mistyped _ _)
  · exact .of_proceeds (.instr _)

theorem lowerUpdates_sized (scope : Scope) (updates : List Expr) :
    Sized (lowerUpdates site scope updates) :=
  .forM fun update _ => (Sized.of_proceeds (.setDepth 0)).bind fun _ => update.sized_effect site scope

/-- A branch out of the loop that it is in. -/
theorem lowerJump_sized (position : Position) : Sized (lowerJump true position) :=
  .of_proceeds (.branch _)

mutual

/-- **A statement that was read fails with an internal error only where its code gets too large**: its
jumps are in loops, and its variables have the types as written. -/
theorem Stmt.lower_sized (inLoop : Bool) : (statement : Stmt) →
    statement.jumpsInLoops inLoop = true →
    (∀ declarator ∈ statement.declared, declarator.isUnpatched) → Sized (statement.lower site inLoop)
  | .declare _ declarators position, _, unpatched =>
    .statement position ((Sized.forM fun declarator isIn =>
      declarator.lower_sized site (unpatched declarator isIn)).bind fun _ => .pure _)
  | .expression expression position, _, _ =>
    .statement position ((Sized.within fun scope => expression.sized_effect site scope).bind fun _ =>
      .pure _)
  | .branch test first none position, inLoops, unpatched =>
    .statement position ((sized_condition site test false).bind fun _ =>
      (first.lower_sized inLoop inLoops unpatched).bind fun _ =>
        (Sized.step (.landHere _)).bind fun _ => .pure _)
  | .branch test first (some second) position, inLoops, unpatched => by
    obtain ⟨isFirst, isSecond⟩ := Bool.and_eq_true_iff.mp inLoops
    obtain ⟨inFirst, inSecond⟩ := List.forall_mem_append.mp unpatched
    refine .statement position ((sized_condition site test false).bind fun _ => ?_)
    refine (first.lower_sized inLoop isFirst inFirst).bind fun _ => ?_
    refine (Sized.step (.branch _)).bind fun _ => (Sized.step (.landHere _)).bind fun _ => ?_
    refine (second.lower_sized inLoop isSecond inSecond).bind fun _ => ?_
    exact (Sized.step (.landHere _)).bind fun _ => .pure _
  | .whileLoop test body position, inLoops, unpatched => by
    refine .statement position ((Sized.step .here).bind fun start => ?_)
    refine (sized_condition site test false).bind fun whenFalse => ?_
    refine (body.lower_sized true inLoops unpatched).bind fun exits => ?_
    refine Sized.bind (.step ?_) fun _ => .pure _
    exact .after (.instr _) fun _ => .after (.land _ _) fun _ => .landHere _
  | .doLoop body test position, inLoops, unpatched => by
    refine .statement position ((Sized.step .here).bind fun start => ?_)
    refine (body.lower_sized true inLoops unpatched).bind fun exits => ?_
    refine (Sized.step .here).bind fun next => (Sized.step (.setDepth 0)).bind fun _ => ?_
    refine (sized_condition site test true).bind fun whenTrue => ?_
    refine Sized.bind (.step ?_) fun _ => .pure _
    exact .after (.land _ _) fun _ => .after (.land _ _) fun _ => .landHere _
  | .forLoop start test updates body position, inLoops, unpatched => by
    obtain ⟨areHeads, isBody⟩ := Bool.and_eq_true_iff.mp inLoops
    obtain ⟨inStart, inBody⟩ := List.forall_mem_append.mp unpatched
    have startInLoops : Stmt.allJumpsInLoops inLoop start = true :=
      Stmt.allJumpsInLoops_iff.mpr fun head isIn =>
        Stmt.jumpsInLoops_of_isHead (List.all_eq_true.mp areHeads head isIn) inLoop
    refine .statement position ((lowerAll_sized inLoop start startInLoops inStart).bind fun _ => ?_)
    refine (Sized.step .here).bind fun first => (Sized.step (.setDepth 0)).bind fun _ => ?_
    have behind (whenFalse : List Nat) : Sized (do
        let exits ← body.lower site true
        let next ← EmitScoped.plain Emit.here
        EmitScoped.within fun scope => lowerUpdates site scope updates
        EmitScoped.plain do
          Emit.instr (.branch .always first)
          Emit.land exits.continues next
          Emit.landHere (whenFalse ++ exits.breaks)
        return LoopExits.none) := by
      refine (body.lower_sized true isBody inBody).bind fun exits => (Sized.step .here).bind fun next => ?_
      refine (Sized.within fun scope => lowerUpdates_sized site scope updates).bind fun _ => ?_
      refine Sized.bind (.step ?_) fun _ => .pure _
      exact .after (.instr _) fun _ => .after (.land _ _) fun _ => .landHere _
    cases test with
    | none => exact behind []
    | some test => exact (sized_condition site test false).bind behind
  | .block body position, inLoops, unpatched =>
    .statement position (lowerAll_sized inLoop body inLoops unpatched)
  | .ret result position, _, _ =>
    .statement position ((Sized.within (lowerReturn_sized site result position)).bind fun _ => .pure _)
  | .breakLoop position, inLoops, _ | .continueLoop position, inLoops, _ => by
    obtain rfl : inLoop = true := inLoops
    exact .statement position ((Sized.plain (lowerJump_sized position)).bind fun _ => .pure _)
  | .throwing thrown position, _, _ =>
    .statement position ((Sized.within (lowerThrow_sized site thrown)).bind fun _ => .pure _)
  | .empty position, _, _ => .statement position (.pure _)

theorem lowerAll_sized (inLoop : Bool) : (statements : List Stmt) →
    Stmt.allJumpsInLoops inLoop statements = true →
    (∀ declarator ∈ Stmt.declaredAll statements, declarator.isUnpatched) →
    Sized (lowerAll site inLoop statements)
  | [], _, _ => .pure _
  | first :: rest, inLoops, unpatched => by
    obtain ⟨isFirst, areRest⟩ := Bool.and_eq_true_iff.mp inLoops
    obtain ⟨inFirst, inRest⟩ := List.forall_mem_append.mp unpatched
    exact (first.lower_sized inLoop isFirst inFirst).bind fun _ =>
      (lowerAll_sized inLoop rest areRest inRest).bind fun _ => .pure _

end

/-! ### Whole texts -/

variable {site} {statements : List Stmt}

theorem Generator.generate_sized (asRead : ∀ statement ∈ statements, statement.AsRead false)
    (generator : Generator) (scope : Scope) {error : SourceError}
    (failed : (generator.generate site scope statements).1 = .error error) : error.OnlySize := by
  induction statements generalizing generator scope with
  | nil => cases failed
  | cons first rest ih =>
    obtain ⟨isFirst, areRest⟩ := List.forall_mem_cons.mp asRead
    have sized : ∀ found, (generator.emit site scope first).1 = .error found → found.OnlySize := by
      intro found stopped
      have isRun : (generator.emit site scope first).1 =
          ((first.lower site false).run.run (generator, scope)).1.map fun _ => () := rfl
      rw [isRun] at stopped
      refine first.lower_sized site false isFirst.jumps isFirst.unpatched (generator, scope) found ?_
      cases result : ((first.lower site false).run.run (generator, scope)).1 with
      | error other =>
        rw [result] at stopped
        cases stopped
        rfl
      | ok exits =>
        rw [result] at stopped
        cases stopped
    rw [Generator.generate] at failed
    rcases emitted : generator.emit site scope first with ⟨found | ⟨⟩, behind, after⟩
    · rw [emitted] at failed sized
      cases failed
      exact sized error rfl
    · rw [emitted] at failed
      exact ih areRest behind after failed

/-- The same under guard. -/
theorem Visitor.generate_sized (asRead : ∀ statement ∈ statements, statement.AsRead false)
    (visitor : Visitor) (scope : Scope) {error : SourceError}
    (failed : (visitor.generate site scope statements).1 = .error error) : error.OnlySize := by
  have same : (visitor.generate site scope statements).1 =
      (visitor.generator.generate site scope statements).1 :=
    (visitor.generate_eq (fun statement isIn => (asRead statement isIn).jumps) scope).1
  exact visitor.generator.generate_sized asRead scope (same.symm.trans failed)

/-- **Internal errors that a text can lead to.** In a text that is accepted every jump is in a loop, and
no variable has a slot or a settled type. Whatever the site, the visitor and the scope: an internal error
that ends the generating of its statements says that the constants, the variables or the arguments of a
call are too many. No guard refuses anything, and no jump is outside of a loop. What is generated is what
is lowered without guards. -/
theorem Stmt.internal_errors_of_parse {source : String} (accepted : (Stmt.parse source).1 = .ok statements) :
    (∀ statement ∈ statements, statement.jumpsInLoops false = true ∧
      ∀ declarator ∈ statement.declared, declarator.isUnpatched) ∧
    ∀ (site : Site) (visitor : Visitor) (scope : Scope),
      let generated := visitor.generate site scope statements
      (∀ error, generated.1 = .error error →
        (error.kind = .internalError → ∃ fault place,
          InternalFault.isCapacity fault = true ∧ error = notGenerated fault place) ∧
        (∀ (guard : Guard) place, error ≠ guard.error place) ∧
        ∀ place, error ≠ notGenerated .jumpOutsideLoop place) ∧
      (generated.1, generated.2.1.generator, generated.2.2) =
        visitor.generator.generate site scope statements := by
  have asRead := Stmt.parse_asRead accepted
  have inLoops : ∀ statement ∈ statements, statement.jumpsInLoops false = true :=
    fun statement isIn => (asRead statement isIn).jumps
  refine ⟨fun statement isIn => ⟨inLoops statement isIn, (asRead statement isIn).unpatched⟩, ?_⟩
  intro site visitor scope generated
  constructor
  · intro error failed
    have onlySize := visitor.generate_sized asRead scope failed
    exact ⟨onlySize, onlySize.ne_guard⟩
  · obtain ⟨isResult, isGenerator, isScope⟩ := @Visitor.generate_eq site statements inLoops visitor scope
    exact Prod.ext isResult (Prod.ext isGenerator isScope)

/-- A loop with both jumps, promoted operands and a cast. -/
theorem Stmt.internal_errors_of_loop : ∃ statements,
    (Stmt.parse
      "for (long i = 0; i < 9; i += 2) { if (i == 4) continue; byte b = (byte) i; b++; break; }").1 =
      .ok statements ∧
    ∀ (site : Site) (visitor : Visitor) (scope : Scope) error,
      (visitor.generate site scope statements).1 = .error error → error.kind = .internalError →
        ∃ fault place, InternalFault.isCapacity fault = true ∧ error = notGenerated fault place := by
  have accepts : (Stmt.parse
      "for (long i = 0; i < 9; i += 2) { if (i == 4) continue; byte b = (byte) i; b++; break; }").1.isOk =
      true := by
    decide +kernel
  rcases parsed : (Stmt.parse
      "for (long i = 0; i < 9; i += 2) { if (i == 4) continue; byte b = (byte) i; b++; break; }").1 with
    error | statements
  · rw [parsed] at accepts
    cases accepts
  · refine ⟨statements, rfl, fun site visitor scope error failed => ?_⟩
    exact (((Stmt.internal_errors_of_parse parsed).2 site visitor scope).1 error failed).1

end MethodPatch
