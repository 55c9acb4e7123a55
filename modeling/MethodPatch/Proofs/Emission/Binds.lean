/-
**The variables that code binds.**

The code of a statement binds the variables declared in it, in source order, each to its slot and to
its type. Nothing else of the scope changes.

* `Declarator.lower_binds`: one variable;
* `Stmt.lower_binds`, `lowerAll_binds`: the variables of statements.
-/

import Mathlib.Data.List.Forall2
import MethodPatch.Proofs.Emission.Stmt
import MethodPatch.Proofs.Locals.Scope

namespace MethodPatch

/-- The local that a declared variable is bound to: its slot is the one that has been settled, or the
next one, and its type the one that has been settled, or the one as written. -/
structure Declarator.Binds (host : Host) (declarator : Declarator) (bound : Local) : Prop where
  name : bound.name = declarator.name
  slot : ∃ next, bound.slot = declarator.place next
  type : declarator.fieldType host = .ok bound.type

variable {site : Site}

/-- **The code of a declared variable binds its name** to the slot that it is stored in. -/
theorem Declarator.lower_binds {declarator : Declarator} {start finish : Generator × Scope}
    {done : Unit} (yields : Yields (declarator.lower site) start done finish) :
    ∃ bound, declarator.Binds site.host bound ∧ finish.2 = start.2.bindAll [bound] := by
  obtain ⟨type, _, isType, _, _, rfl⟩ := Declarator.yields_lower yields
  exact ⟨⟨declarator.name, declarator.place start.1.maxLocals, type⟩, ⟨rfl, ⟨_, rfl⟩, isType⟩, rfl⟩

/-- The scope behind a piece of code binds the variables that are declared in it. -/
def Binds (host : Host) (declared : List Declarator) (before after : Scope) : Prop :=
  ∃ bound, List.Forall₂ (Declarator.Binds host) declared bound ∧ after = before.bindAll bound

namespace Binds

variable {host : Host} {first second : List Declarator} {before middle after : Scope}

theorem none (host : Host) (scope : Scope) : Binds host [] scope scope := ⟨[], .nil, rfl⟩

theorem append (here : Binds host first before middle) (behind : Binds host second middle after) :
    Binds host (first ++ second) before after := by
  obtain ⟨bound, all, rfl⟩ := here
  obtain ⟨more, others, rfl⟩ := behind
  exact ⟨bound ++ more, List.rel_append all others, (Scope.bindAll_append ..).symm⟩

end Binds

theorem declarators_bind {declarators : List Declarator} {start finish : Generator × Scope}
    {done : Unit} (yields : Yields (declarators.forM (·.lower site)) start done finish) :
    Binds site.host declarators start.2 finish.2 := by
  induction declarators generalizing start with
  | nil =>
    obtain ⟨_, rfl⟩ := yields_forM_nil.mp yields
    exact .none ..
  | cons first rest ih =>
    obtain ⟨_, _, isFirst, isRest⟩ := yields_forM_cons.mp yields
    obtain ⟨bound, binds, same⟩ := Declarator.lower_binds isFirst
    exact Binds.append ⟨[bound], .cons binds .nil, same⟩ (ih isRest)

mutual

/-- **The code of a statement binds the variables that are declared in it**, in source order. -/
theorem Stmt.lower_binds : (statement : Stmt) → ∀ {inLoop : Bool} {start exits finish},
    Yields (statement.lower site inLoop) start exits finish →
      Binds site.host statement.declared start.2 finish.2
  | .declare final declarators position, inLoop, start, exits, finish, yields => by
    simp only [Stmt.lower, EmitScoped.yields_statement, yields_bind, yields_pure] at yields
    obtain ⟨_, _, declared, rfl, rfl⟩ := yields
    exact (declarators_bind declared :)
  | .expression expression position, inLoop, start, exits, finish, yields => by
    simp only [Stmt.lower, EmitScoped.yields_statement, EmitScoped.yields_within, yields_bind,
      yields_pure] at yields
    obtain ⟨_, _, ⟨_, _, rfl⟩, rfl, rfl⟩ := yields
    exact .none ..
  | .branch test first none position, inLoop, start, exits, finish, yields => by
    obtain ⟨_, _, _, _, isFirst, rfl⟩ := Stmt.yields_ifThen yields
    exact (Stmt.lower_binds first isFirst :)
  | .branch test first (some second) position, inLoop, start, exits, finish, yields => by
    obtain ⟨_, _, _, _, _, _, _, isFirst, isSecond, rfl, rfl⟩ := Stmt.yields_ifElse yields
    exact ((Stmt.lower_binds first isFirst).append (Stmt.lower_binds second isSecond :) :)
  | .whileLoop test body position, inLoop, start, exits, finish, yields => by
    obtain ⟨_, _, _, _, _, isBody, rfl, rfl⟩ := Stmt.yields_whileLoop yields
    exact (Stmt.lower_binds body isBody :)
  | .doLoop body test position, inLoop, start, exits, finish, yields => by
    obtain ⟨_, _, _, _, isBody, _, rfl, rfl⟩ := Stmt.yields_doLoop yields
    exact (Stmt.lower_binds body isBody :)
  | .forLoop before test updates body position, inLoop, start, exits, finish, yields => by
    obtain ⟨_, _, _, _, _, _, _, isStart, _, isBody, _, rfl, rfl⟩ := Stmt.yields_forLoop yields
    exact ((lowerAll_binds before isStart).append (Stmt.lower_binds body isBody :) :)
  | .block body position, inLoop, start, exits, finish, yields => by
    simp only [Stmt.lower, EmitScoped.yields_statement] at yields
    exact (lowerAll_binds body yields :)
  | .ret result position, inLoop, start, exits, finish, yields => by
    simp only [Stmt.lower, EmitScoped.yields_statement, EmitScoped.yields_within, yields_bind,
      yields_pure] at yields
    obtain ⟨_, _, ⟨_, _, rfl⟩, rfl, rfl⟩ := yields
    exact .none ..
  | .breakLoop position, inLoop, start, exits, finish, yields => by
    simp only [Stmt.lower, EmitScoped.yields_statement, EmitScoped.yields_plain, yields_bind,
      yields_pure] at yields
    obtain ⟨_, _, ⟨_, _, rfl⟩, rfl, rfl⟩ := yields
    exact .none ..
  | .continueLoop position, inLoop, start, exits, finish, yields => by
    simp only [Stmt.lower, EmitScoped.yields_statement, EmitScoped.yields_plain, yields_bind,
      yields_pure] at yields
    obtain ⟨_, _, ⟨_, _, rfl⟩, rfl, rfl⟩ := yields
    exact .none ..
  | .throwing thrown position, inLoop, start, exits, finish, yields => by
    simp only [Stmt.lower, EmitScoped.yields_statement, EmitScoped.yields_within, yields_bind,
      yields_pure] at yields
    obtain ⟨_, _, ⟨_, _, rfl⟩, rfl, rfl⟩ := yields
    exact .none ..
  | .empty position, inLoop, start, exits, finish, yields => by
    simp only [Stmt.lower, EmitScoped.yields_statement, yields_pure] at yields
    obtain ⟨rfl, rfl⟩ := yields
    exact .none ..

/-- Statements in order. -/
theorem lowerAll_binds : (statements : List Stmt) → ∀ {inLoop : Bool} {start exits finish},
    Yields (lowerAll site inLoop statements) start exits finish →
      Binds site.host (Stmt.declaredAll statements) start.2 finish.2
  | [], inLoop, start, exits, finish, yields => by
    simp only [lowerAll, yields_pure] at yields
    obtain ⟨rfl, rfl⟩ := yields
    exact .none ..
  | first :: rest, inLoop, start, exits, finish, yields => by
    simp only [lowerAll, yields_bind, yields_pure] at yields
    obtain ⟨_, _, isFirst, _, _, isRest, rfl, rfl⟩ := yields
    exact (Stmt.lower_binds first isFirst).append (lowerAll_binds rest isRest)

end

end MethodPatch
