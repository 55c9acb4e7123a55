/-
**Statements only append code.**

A statement branches to its own instructions and to those behind it, and lands none but its own
branches: what it leaves to the loop around it is behind the code in front of the loop. So generating a
statement leaves all code that was there before as it was.

* `EmitScoped.Keeps`: an action with a scope keeps a beginning of the code;
* `LoopExits.Behind`: branches that are left to a loop, behind a beginning of the code;
* `Stmt.keeps`: a statement keeps a beginning, and so do statements in order;
* `Generator.emit_appends`: **what a statement has generated stands behind all that was there before**.
-/

import MethodPatch.Proofs.Emission.Keeps
import MethodPatch.Proofs.Emission.Stmt

namespace MethodPatch

/-! ### Actions with a scope -/

namespace EmitScoped

/-- An action with a scope keeps a beginning of the code, and its answer satisfies a condition. -/
abbrev Keeps {α : Type} (front : List Step) (action : EmitScoped α) (answers : α → Prop) : Prop :=
  MethodPatch.Keeps (fun state => state.1.Begins front) action answers

variable {α : Type} {front : List Step} {answers : α → Prop}

theorem keeps_within {emit : Scope → Emit α} (keeps : ∀ scope, Emit.Keeps front (emit scope) answers) :
    Keeps front (within emit) answers := by
  refine ⟨fun begins yields => ?_⟩
  obtain ⟨generator, emitted, rfl⟩ := yields_within.mp yields
  exact (keeps _).behind begins emitted

theorem keeps_plain {emit : Emit α} (keeps : Emit.Keeps front emit answers) :
    Keeps front (plain emit) answers :=
  keeps_within fun _ => keeps

theorem keeps_statement (position : Position) {emit : EmitScoped α} (keeps : Keeps front emit answers) :
    Keeps front (statement position emit) answers := by
  refine ⟨fun begins yields => ?_⟩
  have moved := yields_statement.mp yields
  refine keeps.behind ?_ moved
  exact begins

end EmitScoped

open EmitScoped

/-- Branches that are left to a loop are behind a beginning of the code. -/
structure LoopExits.Behind (front : List Step) (exits : LoopExits) : Prop where
  breaks : MethodPatch.Behind front exits.breaks
  continues : MethodPatch.Behind front exits.continues

variable {front : List Step} {site : Site}

theorem LoopExits.Behind.none : LoopExits.none.Behind front := ⟨behind_nil, behind_nil⟩

theorem LoopExits.Behind.append {first second : LoopExits} (isFirst : first.Behind front)
    (isSecond : second.Behind front) : (first ++ second).Behind front :=
  ⟨isFirst.breaks.append isSecond.breaks, isFirst.continues.append isSecond.continues⟩

/-! ### Statements without parts -/

theorem keeps_lowerReturn (result : Option Expr) (position : Position) (scope : Scope) :
    Emit.Keeps front (lowerReturn site result position scope) fun _ => True := by
  unfold lowerReturn
  split
  · exact Emit.keeps_instr _
  · exact .throw _
  · exact .throw _
  · exact (Expr.keeps front site scope _).value.bind fun _ _ => .check fun _ =>
      (Emit.keeps_instrs _).seq (Emit.keeps_instr _)

theorem keeps_lowerThrow (thrown : Expr) (scope : Scope) :
    Emit.Keeps front (lowerThrow site thrown scope) fun _ => True := by
  refine (thrown.keeps front site scope).value.bind fun type _ => ?_
  dsimp only
  split
  · exact Keeps.refuse _
  · exact Emit.keeps_instr _

/-- A branch out of a loop is behind all code in front of it. -/
theorem keeps_lowerJump (inLoop : Bool) (position : Position) :
    Emit.Keeps front (lowerJump inLoop position) (front.length ≤ ·) := by
  cases inLoop with
  | false => exact .refuse _
  | true => exact Emit.keeps_branch _

theorem keeps_lowerUpdates (scope : Scope) (updates : List Expr) :
    Emit.Keeps front (lowerUpdates site scope updates) fun _ => True :=
  .forM fun update => (Emit.keeps_setDepth 0).seq (update.keeps front site scope).effect

theorem Declarator.keeps (declarator : Declarator) :
    EmitScoped.Keeps front (declarator.lower site) fun _ => True := by
  refine ⟨fun {before _ _} begins yields => ?_⟩
  obtain ⟨type, generator, -, -, initialises, rfl⟩ := Declarator.yields_lower yields
  refine ⟨?_, trivial⟩
  have reserved : ∀ count, (before.1.reserveLocals count).Begins front := fun _ => begins
  unfold Declarator.Initialises at initialises
  split at initialises
  · subst initialises
    exact reserved _
  · obtain ⟨source, middle, instrs, value, -, rfl⟩ := initialises
    exact (((Expr.keeps front site _ _).value.behind (reserved _) value).1.pushAll instrs).push _

/-! ### Statements with parts -/

/-- What a `for` loop does in each round. -/
theorem keeps_round {site : Site} {test : EmitScoped (List Nat)} {body : EmitScoped LoopExits}
    (tests : EmitScoped.Keeps front test (Behind front))
    (rounds : EmitScoped.Keeps front body (LoopExits.Behind front)) (updates : List Expr) (first : Nat) :
    EmitScoped.Keeps front (do
      let whenFalse ← test
      let exits ← body
      let next ← plain Emit.here
      within fun scope => lowerUpdates site scope updates
      plain do
        Emit.instr (.branch .always first)
        Emit.land exits.continues next
        Emit.landHere (whenFalse ++ exits.breaks)
      return LoopExits.none) (LoopExits.Behind front) :=
  tests.bind fun _ areSkips => rounds.bind fun _ areExits =>
    (keeps_plain Emit.keeps_here).bind fun next _ =>
      (keeps_within fun scope => keeps_lowerUpdates scope updates).seq <|
        (keeps_plain <| Emit.keeps_emit _ <| (Emit.keeps_land areExits.continues next).seq <|
          Emit.keeps_landHere (areSkips.append areExits.breaks)).seq (.pure .none)

mutual

/-- **A statement leaves the code in front of it as it was**, and what it leaves to the loop around it
is behind that. -/
theorem Stmt.keeps (front : List Step) (site : Site) (inLoop : Bool) :
    (statement : Stmt) → EmitScoped.Keeps front (statement.lower site inLoop) (LoopExits.Behind front)
  | .declare _ _ position =>
    keeps_statement position <| (Keeps.forM fun declarator => declarator.keeps).seq (.pure .none)
  | .expression expression position =>
    keeps_statement position <|
      (keeps_within fun scope => (expression.keeps front site scope).effect).seq (.pure .none)
  | .branch test first none position =>
    keeps_statement position <|
      (keeps_within fun scope => (test.keeps front site scope).branches false).bind fun _ areSkips =>
        (first.keeps front site inLoop).bind fun _ areExits =>
          (keeps_plain (Emit.keeps_landHere areSkips)).seq (.pure areExits)
  | .branch test first (some second) position =>
    keeps_statement position <|
      (keeps_within fun scope => (test.keeps front site scope).branches false).bind fun _ areSkips =>
        (first.keeps front site inLoop).bind fun _ areExits =>
          (keeps_plain (Emit.keeps_branch .always)).bind fun _ isFinish =>
            (keeps_plain (Emit.keeps_landHere areSkips)).seq <|
              (second.keeps front site inLoop).bind fun _ areOthers =>
                (keeps_plain (Emit.keeps_landHere (behind_singleton isFinish))).seq
                  (.pure (areExits.append areOthers))
  | .whileLoop test body position =>
    keeps_statement position <| (keeps_plain Emit.keeps_here).bind fun start _ =>
      (keeps_within fun scope => (test.keeps front site scope).branches false).bind fun _ areSkips =>
        (body.keeps front site true).bind fun _ areExits =>
          (keeps_plain <| Emit.keeps_emit _ <| (Emit.keeps_land areExits.continues start).seq <|
            Emit.keeps_landHere (areSkips.append areExits.breaks)).seq (.pure .none)
  | .doLoop body test position =>
    keeps_statement position <| (keeps_plain Emit.keeps_here).bind fun start _ =>
      (body.keeps front site true).bind fun _ areExits =>
        (keeps_plain Emit.keeps_here).bind fun next _ => (keeps_plain (Emit.keeps_setDepth 0)).seq <|
          (keeps_within fun scope => (test.keeps front site scope).branches true).bind fun _ areRounds =>
            (keeps_plain <| (Emit.keeps_land areRounds start).seq <|
              (Emit.keeps_land areExits.continues next).seq <|
                Emit.keeps_landHere areExits.breaks).seq (.pure .none)
  | .forLoop start none updates body position =>
    keeps_statement position <| (lowerAll_keeps front site inLoop start).bind fun _ _ =>
      (keeps_plain Emit.keeps_here).bind fun first _ => (keeps_plain (Emit.keeps_setDepth 0)).seq <|
        keeps_round (.pure behind_nil) (body.keeps front site true) updates first
  | .forLoop start (some test) updates body position =>
    keeps_statement position <| (lowerAll_keeps front site inLoop start).bind fun _ _ =>
      (keeps_plain Emit.keeps_here).bind fun first _ => (keeps_plain (Emit.keeps_setDepth 0)).seq <|
        keeps_round (keeps_within fun scope => (test.keeps front site scope).branches false)
          (body.keeps front site true) updates first
  | .block body position => keeps_statement position (lowerAll_keeps front site inLoop body)
  | .ret result position =>
    keeps_statement position <| (keeps_within (keeps_lowerReturn result position)).seq (.pure .none)
  | .breakLoop position =>
    keeps_statement position <| (keeps_plain (keeps_lowerJump inLoop position)).bind fun _ isBehind =>
      .pure ⟨behind_singleton isBehind, behind_nil⟩
  | .continueLoop position =>
    keeps_statement position <| (keeps_plain (keeps_lowerJump inLoop position)).bind fun _ isBehind =>
      .pure ⟨behind_nil, behind_singleton isBehind⟩
  | .throwing thrown position =>
    keeps_statement position <| (keeps_within (keeps_lowerThrow thrown)).seq (.pure .none)
  | .empty position => keeps_statement position (.pure .none)

/-- Statements in order leave the code in front of them as it was. -/
theorem lowerAll_keeps (front : List Step) (site : Site) (inLoop : Bool) :
    (statements : List Stmt) →
      EmitScoped.Keeps front (lowerAll site inLoop statements) (LoopExits.Behind front)
  | [] => .pure .none
  | first :: rest =>
    (first.keeps front site inLoop).bind fun _ areExits =>
      (lowerAll_keeps front site inLoop rest).bind fun _ areOthers => .pure (areExits.append areOthers)

end

/-- **What a statement has generated stands behind all that was there before.** -/
theorem Generator.emit_appends {generator after : Generator} {statement : Stmt} {scope behind : Scope}
    (done : generator.emit site scope statement = (.ok (), after, behind)) :
    generator.body.code.toList <+: after.body.code.toList := by
  obtain ⟨exits, yields⟩ := emit_eq done
  have here : generator.Begins generator.body.code.toList := List.prefix_rfl
  exact ((statement.keeps generator.body.code.toList site false).behind here yields).1

end MethodPatch
