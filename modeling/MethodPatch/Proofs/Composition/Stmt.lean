/-
**Code for statements is composed of code for expressions and of declarations.**

`EmitScoped.Composed` lifts composed code to a scope that changes: code that is generated within the
scope as it is, and declared variables, which get their slots, their initial values and their names.
It says which names are pending in front of the code and behind it.

* `EmitScoped.Composed`: actions that are composed of code and of declarations;
* `Stmt.composed`: **the code of a statement is composed**, and a name is pending behind it unless it
  is declared there.
-/

import MethodPatch.Proofs.Composition.Expr
import MethodPatch.Proofs.Composition.Parts

namespace MethodPatch

/-- Code that is composed of primitive actions in every scope and is the same in scopes that agree on
all names but the pending ones. It may need more locals than the scope has. -/
structure Scope.Emits (types : FieldType → Prop) (needs : (Storage → Slot → Prop) → Prop)
    (site : Site) (pending : String → Prop) {α : Type} (emit : Scope → Emit α) : Prop where
  composed : ∀ slots scope, Covers types slots site scope → needs slots →
    Emit.Composed types slots site (emit scope) fun _ => True
  same : ∀ scope other, scope.AgreeBut pending other → emit scope = emit other

/-- Actions that are composed of code and of declarations, with the names that are pending in front
and behind. Slots and types of declared variables are as given. -/
inductive EmitScoped.Composed (types : FieldType → Prop) (declares : Slot → FieldType → Prop)
    (site : Site) : {α : Type} → (String → Prop) → EmitScoped α → (String → Prop) → Prop
  | pure {α : Type} {pending : String → Prop} (answer : α) :
    Composed types declares site pending (Pure.pure answer) pending
  | bind {α β : Type} {before middle after : String → Prop} {action : EmitScoped α}
    {next : α → EmitScoped β} (here : Composed types declares site before action middle)
    (behind : ∀ answer, Composed types declares site middle (next answer) after) :
    Composed types declares site before (action >>= next) after
  | throw {α : Type} {before after : String → Prop} (error : SourceError) :
    Composed types declares site before (MonadExcept.throw error : EmitScoped α) after
  | within {α : Type} {pending : String → Prop} {emit : Scope → Emit α}
    (emits : Scope.Emits types (fun _ => True) site pending emit) :
    Composed types declares site pending (EmitScoped.within emit) pending
  | statement {α : Type} {before after : String → Prop} {action : EmitScoped α} (position : Position)
    (inner : Composed types declares site before action after) :
    Composed types declares site before (EmitScoped.statement position action) after
  | declare {pending : String → Prop} {name : String} {slot : Slot} {type : FieldType}
    {initialise : Scope → Emit Unit} (isType : types type) (isDeclared : declares slot type)
    (fits : slot.toNat + type.width ≤ 65535)
    (emits : Scope.Emits types (fun slots => slots type.storage slot) site pending initialise) :
    Composed types declares site pending
      (do
        EmitScoped.plain (modify (·.reserveLocals (UInt16.ofNat (slot.toNat + type.width))))
        EmitScoped.within initialise
        EmitScoped.bind name slot type)
      (fun other => pending other ∧ other ≠ name)

variable {types : FieldType → Prop} {declares : Slot → FieldType → Prop} {site : Site}
  {pending fewer : String → Prop} {α β : Type}

namespace EmitScoped

/-! ### Composing -/

section

variable {before middle after : String → Prop}

theorem Composed.seq {action : EmitScoped α} {next : EmitScoped β}
    (here : Composed types declares site before action middle)
    (behind : Composed types declares site middle next after) :
    Composed types declares site before (action >>= fun _ => next) after :=
  here.bind fun _ => behind

/-- An answer that does not depend on the code. -/
theorem Composed.answer {action : EmitScoped α}
    (here : Composed types declares site before action after) (answer : α → β) :
    Composed types declares site before (action >>= fun found => Pure.pure (answer found)) after :=
  here.bind fun found => .pure (answer found)

/-- Code that does not depend on the scope. -/
theorem Composed.plain {emit : Emit α}
    (composed : ∀ slots, Emit.Composed types slots site emit fun _ => True) :
    Composed types declares site pending (EmitScoped.plain emit) pending :=
  .within ⟨fun slots _ _ _ => composed slots, fun _ _ _ => rfl⟩

end

end EmitScoped

/-! ### Code within a scope -/

section

variable {expression : Expr} {needs : (Storage → Slot → Prop) → Prop} (speaks : site.Speaks types)

include speaks

theorem Scope.emits_branches (meant : expression.Means types site.host)
    (avoid : Avoid pending expression.names) (outcome : Bool) :
    Scope.Emits types needs site pending fun scope =>
      (expression.lower site scope).branches outcome where
  composed _ scope covers _ := (expression.composed speaks covers meant).branches outcome
  same scope other agree := by rw [expression.lower_congr agree avoid]

theorem Scope.emits_effect (meant : expression.Means types site.host)
    (avoid : Avoid pending expression.names) :
    Scope.Emits types needs site pending fun scope => (expression.lower site scope).effect
    where
  composed _ scope covers _ := (expression.composed speaks covers meant).effect
  same scope other agree := by rw [expression.lower_congr agree avoid]

/-- The value of an expression, and what is done with it. -/
theorem Scope.emits_value (meant : expression.Means types site.host)
    (avoid : Avoid pending expression.names) {next : StaticType → Emit α}
    (behind : ∀ slots, needs slots → ∀ type, Emit.Composed types slots site (next type) fun _ => True) :
    Scope.Emits types needs site pending fun scope => (expression.lower site scope).value >>= next
    where
  composed slots scope covers needed :=
    (expression.composed speaks covers meant).value.bind fun type _ => behind slots needed type
  same scope other agree := by rw [expression.lower_congr agree avoid]

theorem Scope.emits_updates {updates : List Expr}
    (meant : ∀ update ∈ updates, update.Means types site.host)
    (avoid : ∀ update ∈ updates, Avoid pending update.names) :
    Scope.Emits types needs site pending fun scope => lowerUpdates site scope updates := by
  induction updates with
  | nil => exact ⟨fun _ _ _ _ => .pure trivial, fun _ _ _ => rfl⟩
  | cons first rest ih =>
    have others := ih (List.forall_mem_cons.mp meant).2 (List.forall_mem_cons.mp avoid).2
    have here : Scope.Emits types needs site pending fun scope => (first.lower site scope).effect :=
      Scope.emits_effect speaks (List.forall_mem_cons.mp meant).1 (List.forall_mem_cons.mp avoid).1
    refine ⟨fun slots scope covers needed => ?_, fun scope other agree => ?_⟩
    · exact ((Emit.Composed.setDepth 0).seq (here.composed slots scope covers needed)).seq
        (others.composed slots scope covers needed)
    · show (do (do Emit.setDepth 0; (first.lower site scope).effect); lowerUpdates site scope rest) = _
      rw [here.same scope other agree, others.same scope other agree]
      rfl

/-- The code of `return`. -/
theorem Scope.emits_return {result : Option Expr} (position : Position)
    (meant : ∀ expression ∈ result, expression.Means types site.host)
    (avoid : ∀ expression ∈ result, Avoid pending expression.names) :
    Scope.Emits types needs site pending (lowerReturn site result position) := by
  unfold lowerReturn
  cases site.method.signature.result with
  | none =>
    cases result with
    | none => exact ⟨fun _ _ _ _ => .instr rfl, fun _ _ _ => rfl⟩
    | some expression => exact ⟨fun _ _ _ _ => .throw _, fun _ _ _ => rfl⟩
  | some type =>
    cases result with
    | none => exact ⟨fun _ _ _ _ => .throw _, fun _ _ _ => rfl⟩
    | some expression =>
      exact Scope.emits_value speaks (meant expression rfl) (avoid expression rfl) fun _ _ _ =>
        .check fun _ coerced =>
          (Emit.composed_instrs (Emit.accesses_coercion coerced)).seq (.instr rfl)

/-- The code of `throw`. -/
theorem Scope.emits_throw (meant : expression.Means types site.host)
    (avoid : Avoid pending expression.names) :
    Scope.Emits types needs site pending (lowerThrow site expression) :=
  Scope.emits_value speaks meant avoid fun _ _ type => by
    cases site.host.isThrowable type with
    | true => exact .instr rfl
    | false => exact .throw _

end

/-! ### Declarations -/

/-- The code of the initial value of a variable. -/
def Declarator.emitInitial (declarator : Declarator) (site : Site) (type : FieldType) (slot : Slot)
    (scope : Scope) : Emit Unit :=
  match declarator.initial with
  | none => pure ()
  | some initial => do
    let source ← (initial.lower site scope).value
    Emit.instrs (← liftExcept (site.host.coercion source type initial))
    Emit.instr (.store type.storage slot)

theorem Declarator.lower_settled {declarator : Declarator} {slot : Slot} {type : FieldType}
    (isSlot : declarator.slot = some slot) (isType : declarator.fieldType site.host = .ok type) :
    declarator.lower site =
      if 65535 < slot.toNat + type.width then
        throw (notGenerated .tooManyLocals (some declarator.position))
      else (do
        EmitScoped.plain (modify (·.reserveLocals (UInt16.ofNat (slot.toNat + type.width))))
        EmitScoped.within (declarator.emitInitial site type slot)
        EmitScoped.bind declarator.name slot type) := by
  have ignored : ∀ next : EmitScoped Unit, (get >>= fun _ => next) = next := fun _ => rfl
  have thrown : ∀ (error : SourceError) (next : Unit → EmitScoped Unit),
      throw error >>= next = throw error := fun _ _ => rfl
  unfold Declarator.lower Declarator.emitInitial
  simp only [isType, isSlot, liftExcept, pure_bind, Option.getD_some, ignored, thrown]
  cases declarator.initial <;> rfl

theorem Declarator.composed (speaks : site.Speaks types) {declarator : Declarator}
    (fine : (Part.declare declarator).Fine types declares site.host)
    (avoid : ∀ expression ∈ declarator.initial, Avoid pending expression.names) :
    EmitScoped.Composed types declares site pending (declarator.lower site)
      ((Part.declare declarator).behind pending) := by
  obtain ⟨slot, isSlot, known⟩ := fine.settled declarator rfl
  cases isType : declarator.fieldType site.host with
  | error error =>
    unfold Declarator.lower
    rw [isType]
    exact .throw error
  | ok type =>
    rw [Declarator.lower_settled isSlot isType]
    split
    · exact .throw _
    · next few =>
      refine .declare (known type isType).1 (known type isType).2 (Nat.le_of_not_lt few) ?_
      have means : ∀ expression ∈ declarator.initial.toList, expression.Means types site.host :=
        fine.means
      unfold Declarator.emitInitial
      cases initial : declarator.initial with
      | none => exact ⟨fun _ _ _ _ => .pure trivial, fun _ _ _ => rfl⟩
      | some expression =>
        rw [initial] at means avoid
        exact Scope.emits_value speaks (means expression List.mem_cons_self) (avoid expression rfl)
          fun slots isSlot _ => .check fun _ coerced =>
            (Emit.composed_instrs (Emit.accesses_coercion coerced)).seq (.instr isSlot)

theorem declarators_composed (speaks : site.Speaks types) {declarators : List Declarator}
    (fine : ∀ part ∈ declarators.map Part.declare, part.Fine types declares site.host)
    (clear : Clear pending (declarators.map .declare)) :
    EmitScoped.Composed types declares site pending (declarators.forM (·.lower site))
      (pendingBehind pending (declarators.map .declare)) := by
  induction declarators generalizing pending with
  | nil => exact .pure ()
  | cons first rest ih =>
    obtain ⟨avoid, others⟩ := clear
    obtain ⟨isFirst, isRest⟩ := List.forall_mem_cons.mp fine
    have initial : ∀ expression ∈ first.initial, Avoid pending expression.names :=
      fun expression isIn => avoid expression (Option.mem_toList.mpr isIn)
    exact (Declarator.composed speaks isFirst initial).seq (ih isRest others)

/-! ### Statements -/

theorem composed_jump {slots : Storage → Slot → Prop} (inLoop : Bool) (position : Position) :
    Emit.Composed types slots site (lowerJump inLoop position) fun _ => True := by
  cases inLoop with
  | true => exact Emit.composed_branch .always
  | false => exact .throw _

mutual

/-- **The code of a statement is composed** of code that accesses variables of the scope and of
declarations. A name is pending behind it unless it is declared there. -/
theorem Stmt.composed (speaks : site.Speaks types) : (statement : Stmt) → ∀ {pending} {inLoop : Bool},
    (∀ part ∈ statement.parts, part.Fine types declares site.host) →
      Clear pending statement.parts →
        EmitScoped.Composed types declares site pending (statement.lower site inLoop)
          (pendingBehind pending statement.parts)
  | .declare final declarators position, pending, inLoop, fine, clear =>
    .statement position ((declarators_composed speaks fine clear).answer _)
  | .expression expression position, pending, inLoop, fine, clear => by
    have means := (fine _ List.mem_cons_self).means expression List.mem_cons_self
    have avoid := clear.1 expression List.mem_cons_self
    exact .statement position
      ((EmitScoped.Composed.within (Scope.emits_effect speaks means avoid)).answer _)
  | .branch test first none position, pending, inLoop, fine, clear => by
    obtain ⟨isTest, isFirst⟩ := List.forall_mem_cons.mp fine
    have means := isTest.means test List.mem_cons_self
    have avoid := clear.1 test List.mem_cons_self
    exact .statement position <| .bind (.within (Scope.emits_branches speaks means avoid false))
      fun skips => .bind (first.composed speaks isFirst clear.2) fun exits =>
        .seq (.plain fun _ => (Emit.composed_landHere skips)) (.pure exits)
  | .branch test first (some second) position, pending, inLoop, fine, clear => by
    obtain ⟨isTest, isBoth⟩ := List.forall_mem_cons.mp fine
    obtain ⟨isFirst, isSecond⟩ := List.forall_mem_append.mp isBoth
    obtain ⟨here, behind⟩ := clear_append.mp clear.2
    have means := isTest.means test List.mem_cons_self
    have avoid := clear.1 test List.mem_cons_self
    have isLast : EmitScoped.Composed types declares site _ (second.lower site inLoop) _ :=
      second.composed speaks isSecond behind
    rw [← pendingBehind_append] at isLast
    exact .statement position <| .bind (.within (Scope.emits_branches speaks means avoid false))
      fun skips => .bind (first.composed speaks isFirst here) fun exits =>
        .bind (.plain fun _ => (Emit.composed_branch .always)) fun finish =>
          .seq (.plain fun _ => (Emit.composed_landHere skips)) <| .bind isLast fun others =>
            .seq (.plain fun _ => (Emit.composed_landHere [finish])) (.pure _)
  | .whileLoop test body position, pending, inLoop, fine, clear => by
    obtain ⟨isTest, isBody⟩ := List.forall_mem_cons.mp fine
    have means := isTest.means test List.mem_cons_self
    have avoid := clear.1 test List.mem_cons_self
    exact .statement position <| .bind (.plain fun _ => .here) fun start =>
      .bind (.within (Scope.emits_branches speaks means avoid false)) fun skips =>
        .bind (body.composed speaks isBody clear.2) fun exits =>
          .seq (.plain fun _ => (.emit rfl (.seq (.land _ _) (Emit.composed_landHere _)))) (.pure _)
  | .doLoop body test position, pending, inLoop, fine, clear => by
    obtain ⟨isBody, isTest⟩ := List.forall_mem_append.mp fine
    obtain ⟨here, behind⟩ := clear_append.mp clear
    have means := (isTest _ List.mem_cons_self).means test List.mem_cons_self
    have avoid := behind.1 test List.mem_cons_self
    rw [Stmt.parts, pendingBehind_append]
    exact .statement position <| .bind (.plain fun _ => .here) fun start =>
      .bind (body.composed speaks isBody here) fun exits =>
        .bind (.plain fun _ => .here) fun next =>
          .seq (.plain fun _ => (.setDepth 0)) <|
            .bind (.within (Scope.emits_branches speaks means avoid true)) fun whenTrue =>
              .seq (.plain fun _ => (.seq (.land _ _) (.seq (.land _ _) (Emit.composed_landHere _))))
                (.pure _)
  | .forLoop start test updates body position, pending, inLoop, fine, clear => by
    obtain ⟨isHead, isBody⟩ := List.forall_mem_append.mp fine
    obtain ⟨isStart, isRound⟩ := List.forall_mem_append.mp isHead
    obtain ⟨head, behind⟩ := clear_append.mp clear
    obtain ⟨here, avoid⟩ := clear_append.mp head
    rw [pendingBehind_append, pendingBehind_evaluate] at behind
    rw [Stmt.parts, pendingBehind_append, pendingBehind_append, pendingBehind_evaluate]
    have means : ∀ expression ∈ test.toList ++ updates, expression.Means types site.host :=
      fun expression isIn =>
        (isRound _ (List.mem_map_of_mem isIn)).means expression List.mem_cons_self
    obtain ⟨testMeans, updatesMean⟩ := List.forall_mem_append.mp means
    obtain ⟨testAvoids, updatesAvoid⟩ := List.forall_mem_append.mp (clear_evaluate.mp avoid)
    -- The updates are generated behind the body, where fewer names are pending than in front of it.
    have updatesAvoidLess : ∀ update ∈ updates, Avoid
        (pendingBehind (pendingBehind pending (Stmt.partsAll start)) body.parts) update.names :=
      fun update isIn => (updatesAvoid update isIn).mono fun _ => pending_of_behind
    have round : ∀ (first : Nat) (whenFalse : List Nat), EmitScoped.Composed types declares site
        (pendingBehind pending (Stmt.partsAll start))
        (do
          let exits ← body.lower site true
          let next ← EmitScoped.plain Emit.here
          EmitScoped.within fun scope => lowerUpdates site scope updates
          EmitScoped.plain do
            Emit.instr (.branch .always first)
            Emit.land exits.continues next
            Emit.landHere (whenFalse ++ exits.breaks)
          return LoopExits.none)
        (pendingBehind (pendingBehind pending (Stmt.partsAll start)) body.parts) :=
      fun first whenFalse => .bind (body.composed speaks isBody behind) fun exits =>
        .bind (.plain fun _ => .here) fun next =>
          .seq (.within (Scope.emits_updates speaks updatesMean updatesAvoidLess)) <|
            .seq (.plain fun _ => (.emit rfl (.seq (.land _ _) (Emit.composed_landHere _)))) (.pure _)
    refine .statement position <| .bind (lowerAll_composed speaks start isStart here) fun _ =>
      .bind (.plain fun _ => .here) fun first => .seq (.plain fun _ => (.setDepth 0)) ?_
    cases test with
    | none => exact .bind (.pure []) (round first)
    | some test =>
      exact .bind (.within (Scope.emits_branches speaks (testMeans test List.mem_cons_self)
        (testAvoids test List.mem_cons_self) false)) (round first)
  | .block body position, pending, inLoop, fine, clear =>
    .statement position (lowerAll_composed speaks body fine clear)
  | .ret none position, pending, inLoop, fine, clear => by
    refine .statement position (.answer (.within (Scope.emits_return speaks position ?_ ?_)) _)
    · rintro expression ⟨⟩
    · rintro expression ⟨⟩
  | .ret (some result) position, pending, inLoop, fine, clear => by
    have means := (fine _ List.mem_cons_self).means result List.mem_cons_self
    have avoid := clear.1 result List.mem_cons_self
    refine .statement position (.answer (.within (Scope.emits_return speaks position ?_ ?_)) _)
    · rintro expression ⟨⟩
      exact means
    · rintro expression ⟨⟩
      exact avoid
  | .breakLoop position, pending, inLoop, fine, clear =>
    .statement position (.answer (.plain fun _ => (composed_jump inLoop position)) _)
  | .continueLoop position, pending, inLoop, fine, clear =>
    .statement position (.answer (.plain fun _ => (composed_jump inLoop position)) _)
  | .throwing thrown position, pending, inLoop, fine, clear => by
    have means := (fine _ List.mem_cons_self).means thrown List.mem_cons_self
    have avoid := clear.1 thrown List.mem_cons_self
    exact .statement position
      ((EmitScoped.Composed.within (Scope.emits_throw speaks means avoid)).answer _)
  | .empty position, _, _, _, _ => .statement position (.pure _)

/-- The code of statements in order is composed. -/
theorem lowerAll_composed (speaks : site.Speaks types) : (statements : List Stmt) →
    ∀ {pending} {inLoop : Bool},
    (∀ part ∈ Stmt.partsAll statements, part.Fine types declares site.host) →
      Clear pending (Stmt.partsAll statements) →
        EmitScoped.Composed types declares site pending (lowerAll site inLoop statements)
          (pendingBehind pending (Stmt.partsAll statements))
  | [], _, _, _, _ => .pure _
  | first :: rest, pending, inLoop, fine, clear => by
    obtain ⟨isFirst, isRest⟩ := List.forall_mem_append.mp fine
    obtain ⟨here, behind⟩ := clear_append.mp clear
    rw [Stmt.partsAll, pendingBehind_append]
    exact .bind (first.composed speaks isFirst here) fun _ =>
      (lowerAll_composed speaks rest isRest behind).answer _

end

end MethodPatch
