/-
**Runs of statements that succeed.**

What the code of a statement does to a generator and to the scope, taken apart into what the parts of
the statement do: for each statement with parts one fact that names the states between them.

* `Declarator.yields_lower`: the slot is reserved, the initial value is stored there, and the name is
  bound behind the code;
* `Stmt.yields_whileLoop`, `Stmt.yields_doLoop`, `Stmt.yields_forLoop`: loops;
* `emit_eq`: a statement in no loop.
-/

import MethodPatch.Proofs.Emission.Yields

namespace MethodPatch

/-- The slot of a declared variable: the one that has been settled, or the next one. -/
def Declarator.place (declarator : Declarator) (next : Slot) : Slot :=
  declarator.slot.getD next

/-- The code of the initial value of a variable, which is stored in its slot. -/
def Declarator.Initialises (declarator : Declarator) (site : Site) (scope : Scope)
    (type : FieldType) (slot : Slot) (before after : Generator) : Prop :=
  match declarator.initial with
  | none => after = before
  | some initial => ∃ source middle instrs,
    Yields (initial.lower site scope).value before source middle ∧
      site.host.coercion source type initial = .ok instrs ∧
        after = (middle.pushAll instrs).push (.store type.storage slot)

variable {site : Site} {scope : Scope} {before after : Generator}

theorem Declarator.yields_lower {declarator : Declarator} {done : Unit}
    {behind : Generator × Scope}
    (yields : Yields (declarator.lower site) (before, scope) done behind) :
    ∃ type generator, declarator.fieldType site.host = .ok type ∧
      (declarator.place before.maxLocals).toNat + type.width ≤ 65535 ∧
      declarator.Initialises site scope type (declarator.place before.maxLocals)
        (before.reserveLocals
          (UInt16.ofNat ((declarator.place before.maxLocals).toNat + type.width))) generator ∧
      behind =
        (generator, scope.bind declarator.name (declarator.place before.maxLocals) type) := by
  simp only [Declarator.lower, yields_bind, yields_liftExcept, yields_get, yields_ite] at yields
  obtain ⟨type, _, ⟨isType, rfl⟩, _, _, ⟨rfl, rfl⟩, ⟨_, _, _, failed, _⟩ | ⟨few, yields⟩⟩ := yields
  · exact absurd failed yields_throw
  · simp only [EmitScoped.yields_plain, yields_modify] at yields
    obtain ⟨_, _, ⟨_, rfl, rfl⟩, yields⟩ := yields
    refine ⟨type, ?_⟩
    unfold Declarator.Initialises
    cases initial : declarator.initial with
    | none =>
      simp only [initial, EmitScoped.yields_bindName] at yields
      exact ⟨_, isType, Nat.le_of_not_lt few, rfl, yields⟩
    | some initial =>
      simp only [initial, yields_bind, EmitScoped.yields_within, yields_liftExcept,
        Emit.yields_instrs, Emit.yields_instr] at yields
      obtain ⟨_, _, ⟨generator, ⟨source, middle, value, instrs, _, ⟨coerced, rfl⟩, _, _, rfl, rfl⟩,
        rfl⟩, bound⟩ := yields
      rw [EmitScoped.yields_bindName] at bound
      exact ⟨_, isType, Nat.le_of_not_lt few, ⟨source, _, instrs, value, coerced, rfl⟩, bound⟩

theorem yields_jump {inLoop : Bool} {position : Position} {branch : Nat}
    (yields : Yields (lowerJump inLoop position) before branch after) :
    inLoop = true ∧ branch = before.size ∧ after = before.push (.branch .always 0) := by
  cases inLoop with
  | false =>
    simp only [lowerJump, yields_bind, yields_ite] at yields
    obtain ⟨_, _, _, failed, _⟩ | ⟨impossible, _⟩ := yields
    · exact absurd failed yields_throw
    · exact absurd rfl impossible
  | true =>
    simp only [lowerJump, yields_bind, yields_ite, Emit.yields_branch] at yields
    obtain ⟨impossible, _⟩ | ⟨_, rfl, rfl⟩ := yields
    · cases impossible
    · exact ⟨rfl, rfl, rfl⟩

/-! ### Statements with parts -/

/-- The branches of the test of a `for` loop, which need not be there. -/
def forTest (site : Site) (scope : Scope) : Option Expr → Emit (List Nat)
  | some test => (test.lower site scope).branches false
  | none => return []

namespace Stmt

variable {inLoop : Bool} {position : Position} {test : Expr} {first second body : Stmt}
  {exits : LoopExits} {start finish : Generator × Scope}

-- Every fact of this section opens `lower`, so its equations are worked out once, here.
attribute [local simp] lower

theorem yields_ifThen
    (yields : Yields ((Stmt.branch test first none position).lower site inLoop) start exits finish) :
    ∃ skips tested chosen,
      Yields ((test.lower site start.2).branches false) ((start.1.moveTo position).setDepth 0) skips
        tested ∧
      Yields (first.lower site inLoop) (tested, start.2) exits chosen ∧
      finish = (chosen.1.land skips chosen.1.size, chosen.2) := by
  simp only [Stmt.lower, EmitScoped.yields_statement, EmitScoped.yields_within,
    EmitScoped.yields_plain, Emit.yields_landHere, yields_bind, yields_pure] at yields
  obtain ⟨skips, _, ⟨_, tested, rfl⟩, _, chosen, isFirst, _, _, ⟨_, rfl, rfl⟩, rfl, rfl⟩ := yields
  exact ⟨skips, _, chosen, tested, isFirst, rfl⟩

theorem yields_ifElse
    (yields : Yields ((Stmt.branch test first (some second) position).lower site inLoop) start exits
      finish) :
    ∃ skips tested inner chosen others other,
      Yields ((test.lower site start.2).branches false) ((start.1.moveTo position).setDepth 0) skips
        tested ∧
      Yields (first.lower site inLoop) (tested, start.2) inner chosen ∧
      Yields (second.lower site inLoop) ((chosen.1.push (.branch .always 0)).land skips
        (chosen.1.push (.branch .always 0)).size, chosen.2) others other ∧
      exits = inner ++ others ∧ finish = (other.1.land [chosen.1.size] other.1.size, other.2) := by
  simp only [Stmt.lower, EmitScoped.yields_statement, EmitScoped.yields_within,
    EmitScoped.yields_plain, Emit.yields_landHere, Emit.yields_branch, yields_bind,
    yields_pure] at yields
  obtain ⟨skips, _, ⟨_, tested, rfl⟩, inner, chosen, isFirst, _, _, ⟨_, ⟨rfl, rfl⟩, rfl⟩,
    _, _, ⟨_, rfl, rfl⟩, others, other, isSecond, _, _, ⟨_, rfl, rfl⟩, rfl, rfl⟩ := yields
  exact ⟨skips, _, inner, chosen, others, other, tested, isFirst, isSecond, rfl, rfl⟩

theorem yields_whileLoop
    (yields : Yields ((Stmt.whileLoop test body position).lower site inLoop) start exits finish) :
    ∃ skips tested inner round,
      Yields ((test.lower site start.2).branches false) ((start.1.moveTo position).setDepth 0) skips
        tested ∧
      Yields (body.lower site true) (tested, start.2) inner round ∧
      exits = .none ∧
      finish = (((round.1.push (.branch .always start.1.size)).land inner.continues
        start.1.size).land (skips ++ inner.breaks)
          ((round.1.push (.branch .always start.1.size)).land inner.continues start.1.size).size,
        round.2) := by
  simp only [Stmt.lower, EmitScoped.yields_statement, EmitScoped.yields_within,
    EmitScoped.yields_plain, Emit.yields_here, Emit.yields_instr, Emit.yields_land,
    Emit.yields_landHere, yields_bind, yields_pure] at yields
  obtain ⟨_, _, ⟨_, ⟨rfl, rfl⟩, rfl⟩, skips, _, ⟨_, tested, rfl⟩, inner, round, isBody,
    _, _, ⟨_, ⟨_, _, rfl, _, _, rfl, rfl⟩, rfl⟩, rfl, rfl⟩ := yields
  exact ⟨skips, _, inner, round, tested, isBody, rfl, rfl⟩

theorem yields_doLoop
    (yields : Yields ((Stmt.doLoop body test position).lower site inLoop) start exits finish) :
    ∃ inner round skips tested,
      Yields (body.lower site true) ((start.1.moveTo position).setDepth 0, start.2) inner round ∧
      Yields ((test.lower site round.2).branches true) (round.1.setDepth 0) skips tested ∧
      exits = .none ∧
      finish = (((tested.land skips start.1.size).land inner.continues round.1.size).land
        inner.breaks ((tested.land skips start.1.size).land inner.continues round.1.size).size,
        round.2) := by
  simp only [Stmt.lower, EmitScoped.yields_statement, EmitScoped.yields_within,
    EmitScoped.yields_plain, Emit.yields_here, Emit.yields_land, Emit.yields_setDepth,
    Emit.yields_landHere, yields_bind, yields_pure] at yields
  obtain ⟨_, _, ⟨_, ⟨rfl, rfl⟩, rfl⟩, inner, round, isBody, _, _, ⟨_, ⟨rfl, rfl⟩, rfl⟩,
    _, _, ⟨_, rfl, rfl⟩, skips, _, ⟨_, tested, rfl⟩,
    _, _, ⟨_, ⟨_, _, rfl, _, _, rfl, rfl⟩, rfl⟩, rfl, rfl⟩ := yields
  exact ⟨inner, round, skips, _, isBody, tested, rfl, rfl⟩

theorem yields_forLoop {before : List Stmt} {test : Option Expr} {updates : List Expr}
    (yields : Yields ((Stmt.forLoop before test updates body position).lower site inLoop) start
      exits finish) :
    ∃ others started skips tested inner round updated,
      Yields (lowerAll site inLoop before) ((start.1.moveTo position).setDepth 0, start.2) others
        started ∧
      Yields (forTest site started.2 test) (started.1.setDepth 0) skips tested ∧
      Yields (body.lower site true) (tested, started.2) inner round ∧
      Yields (lowerUpdates site round.2 updates) round.1 () updated ∧
      exits = .none ∧
      finish = (((updated.push (.branch .always started.1.size)).land inner.continues
        round.1.size).land (skips ++ inner.breaks)
          ((updated.push (.branch .always started.1.size)).land inner.continues
            round.1.size).size, round.2) := by
  cases test with
  | some test =>
    simp only [Stmt.lower, EmitScoped.yields_statement, EmitScoped.yields_plain,
      EmitScoped.yields_within, Emit.yields_here, Emit.yields_instr, Emit.yields_land,
      Emit.yields_setDepth, Emit.yields_landHere, yields_bind, yields_pure] at yields
    obtain ⟨others, started, isStart, _, _, ⟨_, ⟨rfl, rfl⟩, rfl⟩, _, _, ⟨_, rfl, rfl⟩,
      skips, _, ⟨_, tested, rfl⟩, inner, round, isBody, _, _, ⟨_, ⟨rfl, rfl⟩, rfl⟩,
      _, _, ⟨_, updated, rfl⟩, _, _, ⟨_, ⟨_, _, rfl, _, _, rfl, rfl⟩, rfl⟩, rfl, rfl⟩ := yields
    exact ⟨others, started, skips, _, inner, round, _, isStart, tested, isBody, updated, rfl, rfl⟩
  | none =>
    simp only [Stmt.lower, EmitScoped.yields_statement, EmitScoped.yields_plain,
      EmitScoped.yields_within, Emit.yields_here, Emit.yields_instr, Emit.yields_land,
      Emit.yields_setDepth, Emit.yields_landHere, yields_bind, yields_pure] at yields
    obtain ⟨others, started, isStart, _, _, ⟨_, ⟨rfl, rfl⟩, rfl⟩, _, _, ⟨_, rfl, rfl⟩,
      skips, _, ⟨rfl, rfl⟩, inner, round, isBody, _, _, ⟨_, ⟨rfl, rfl⟩, rfl⟩,
      _, _, ⟨_, updated, rfl⟩, _, _, ⟨_, ⟨_, _, rfl, _, _, rfl, rfl⟩, rfl⟩, rfl, rfl⟩ := yields
    exact ⟨others, started, [], _, inner, round, _, isStart, yields_pure.mpr ⟨rfl, rfl⟩, isBody,
      updated, rfl, rfl⟩

end Stmt

theorem emit_eq {generator after : Generator} {statement : Stmt} {scope behind : Scope}
    (done : generator.emit site scope statement = (.ok (), after, behind)) :
    ∃ exits, Yields (statement.lower site false) (generator, scope) exits (after, behind) := by
  unfold Generator.emit at done
  cases run : (statement.lower site false).run.run (generator, scope) with
  | mk result state =>
    rw [run] at done
    cases result with
    | error error => cases done
    | ok exits =>
      cases done
      exact ⟨exits, run⟩

end MethodPatch
