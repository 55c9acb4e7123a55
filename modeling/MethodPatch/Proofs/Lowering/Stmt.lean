/-
**Lowered statements do what they say.**

A statement declares variables as it goes. `Stmt.IsLocal` follows the names that are bound and the
next slot through a statement, and says that every expression is over variables of a frame that are
bound where it stands, and that every declared variable gets the slot and the type of the frame. Then
the machine, begun with an empty stack in front of the code of the statement, arrives behind it with
what the statement leaves in the variables, or it never leaves the code if the statement does not
end.

* `Stmt.executes`: each statement by its parts;
* `Stmt.emit_preserves`: what the machine does with an emitted statement.
-/

import MethodPatch.Proofs.Lowering.Executes
import MethodPatch.Proofs.Lowering.Expr
import MethodPatch.Proofs.Stack.Stmt

namespace MethodPatch

/-! ### Statements over local variables -/

/-- The names that are bound and the next slot, at some place in a statement. -/
structure Bindings where
  scope : Scope
  next : Slot

/-- What is bound where a generator is. -/
def Bindings.ofState (state : Generator × Scope) : Bindings := ⟨state.2, state.1.maxLocals⟩

/-- A declared variable is bound as a frame has it. -/
def Bindings.declare (frame : Frame) (bindings : Bindings) (declarator : Declarator) : Bindings :=
  match frame declarator.name with
  | some (slot, type) =>
    ⟨bindings.scope.bind declarator.name slot type,
      max bindings.next (UInt16.ofNat (slot.toNat + type.width))⟩
  | none => bindings

/-- What is bound behind declarations. -/
def Bindings.behind (frame : Frame) (bindings : Bindings) (declared : List Declarator) : Bindings :=
  declared.foldl (declare frame) bindings

/-- A declared variable is one of a frame. -/
structure Declarator.IsLocal (declarator : Declarator) (host : Host) (frame : Frame)
    (bindings : Bindings) : Prop where
  isVariable : ∃ type, declarator.fieldType host = .ok type ∧
    frame declarator.name = some (declarator.place bindings.next, type)
  initial : ∀ initial, declarator.initial = some initial →
    initial.IsScalar (frame.Binds bindings.scope)

/-- Declared variables are those of a frame. -/
def declaredLocal (host : Host) (frame : Frame) : List Declarator → Bindings → Prop
  | [], _ => True
  | first :: rest, bindings =>
    first.IsLocal host frame bindings ∧ declaredLocal host frame rest (bindings.declare frame first)

mutual

/-- A statement is over variables of a frame, and control does not leave the method. -/
def Stmt.IsLocal (host : Host) (frame : Frame) : Stmt → Bindings → Prop
  | .declare _ declarators _, bindings => declaredLocal host frame declarators bindings
  | .expression expression _, bindings => expression.IsScalar (frame.Binds bindings.scope)
  | .branch test first none _, bindings =>
    test.IsScalar (frame.Binds bindings.scope) ∧ first.IsLocal host frame bindings
  | .branch test first (some second) _, bindings =>
    test.IsScalar (frame.Binds bindings.scope) ∧ first.IsLocal host frame bindings ∧
      second.IsLocal host frame (bindings.behind frame first.declared)
  | .whileLoop test body _, bindings =>
    test.IsScalar (frame.Binds bindings.scope) ∧ body.IsLocal host frame bindings
  | .doLoop body test _, bindings =>
    body.IsLocal host frame bindings ∧
      test.IsScalar (frame.Binds (bindings.behind frame body.declared).scope)
  | .forLoop start test updates body _, bindings =>
    let started := bindings.behind frame (Stmt.declaredAll start)
    allLocal host frame start bindings ∧
      (∀ condition, test = some condition → condition.IsScalar (frame.Binds started.scope)) ∧
      body.IsLocal host frame started ∧
      ∀ update ∈ updates, update.IsScalar (frame.Binds (started.behind frame body.declared).scope)
  | .block body _, bindings => allLocal host frame body bindings
  | .breakLoop _, _ | .continueLoop _, _ | .empty _, _ => True
  | .ret _ _, _ | .throwing _ _, _ => False

/-- Statements in order are over variables of a frame. -/
def allLocal (host : Host) (frame : Frame) : List Stmt → Bindings → Prop
  | [], _ => True
  | first :: rest, bindings =>
    first.IsLocal host frame bindings ∧
      allLocal host frame rest (bindings.behind frame first.declared)

end

theorem Bindings.behind_append (frame : Frame) (bindings : Bindings)
    (first second : List Declarator) :
    bindings.behind frame (first ++ second) = (bindings.behind frame first).behind frame second :=
  List.foldl_append

/-! ### Parts of statements -/

section Parts

open Generator

variable {frame : Frame} {site : Site} {scope : Scope} {before after : Generator}

/-- An expression is evaluated for its effect. -/
theorem Expr.applies (separate : frame.Separate) {expression : Expr}
    (isScalar : expression.IsScalar (frame.Binds scope)) {done : Unit}
    (yields : Yields (expression.lower site scope).effect before done after) :
    before.Applies frame (expression.perform frame.types) after := by
  refine ((Expr.means site separate isScalar).effect yields).applies fun store final _ isFinal => ?_
  obtain ⟨⟨value, _⟩, evaluated, rfl⟩ := Option.map_eq_some_iff.mp isFinal
  exact ⟨value, evaluated, rfl⟩

theorem updates_apply (separate : frame.Separate) {updates : List Expr}
    (areScalar : ∀ update ∈ updates, update.IsScalar (frame.Binds scope)) {done : Unit}
    (yields : Yields (lowerUpdates site scope updates) before done after) :
    before.Applies frame (performAll frame.types updates) after := by
  induction updates generalizing before with
  | nil =>
    rw [lowerUpdates, yields_forM_nil] at yields
    rw [yields]
    exact .nil before
  | cons first rest ih =>
    simp only [lowerUpdates, yields_forM_cons, yields_bind, Emit.yields_setDepth] at yields
    obtain ⟨_, _, ⟨_, _, rfl, isFirst⟩, isRest⟩ := yields
    have here : before.Applies frame (first.perform frame.types) _ :=
      (Expr.applies separate (areScalar first (List.mem_cons_self ..)) isFirst).ofSame rfl rfl rfl
    exact here.seq (ih (fun update isIn => areScalar update (List.mem_cons_of_mem _ isIn)) isRest)

/-- A declared variable gets its value and its name. -/
theorem Declarator.executes (separate : frame.Separate) {declarator : Declarator}
    (isLocal : declarator.IsLocal site.host frame (.ofState (before, scope))) {done : Unit}
    {state : Generator × Scope} (yields : Yields (declarator.lower site) (before, scope) done state) :
    before.Executes frame (fun _ => declarator.initialise frame.types) .none state.1 ∧
      Bindings.ofState state = (Bindings.ofState (before, scope)).declare frame declarator := by
  obtain ⟨type, generator, isType, _, initialises, rfl⟩ := Declarator.yields_lower yields
  obtain ⟨⟨_, alsoType, isVariable⟩, initialScalar⟩ := isLocal
  rw [isType] at alsoType
  cases alsoType
  have bound : ∀ {generator : Generator}, generator.maxLocals =
      (before.reserveLocals
        (UInt16.ofNat ((declarator.place before.maxLocals).toNat + type.width))).maxLocals →
        Bindings.ofState
            (generator, scope.bind declarator.name (declarator.place before.maxLocals) type) =
          (Bindings.ofState (before, scope)).declare frame declarator := by
    intro generator maxLocals
    rw [Bindings.declare, isVariable, Bindings.ofState, maxLocals]
    rfl
  unfold Declarator.Initialises at initialises
  unfold Declarator.initialise
  cases isInitial : declarator.initial with
  | none =>
    rw [isInitial] at initialises
    cases initialises
    exact ⟨(Applies.nil _).executes.ofSame rfl rfl, bound rfl⟩
  | some initial =>
    rw [isInitial] at initialises
    obtain ⟨source, middle, instrs, value, coerced, rfl⟩ := initialises
    have isScalar := initialScalar initial isInitial
    obtain ⟨_, _, _, performs⟩ := Lowered.performs_coercion separate isScalar
      (separate.scalars _ _ _ isVariable) (Expr.means site separate isScalar) value coerced
    have stores := performs.trans (performs_store separate isVariable _)
    refine ⟨?_, bound ?_⟩
    · refine Executes.ofSame (stores.applies fun store final agrees computed => ?_).executes rfl rfl
      simp only [Frame.types_eq isVariable, Option.bind_eq_bind, Option.bind_eq_some_iff,
        Option.bind_some, Option.pure_def, Option.some.injEq] at computed
      obtain ⟨⟨result, middle⟩, evaluated, rfl⟩ := computed
      exact ⟨⟨[(result.convert type).word], middle⟩, ⟨result, evaluated, rfl⟩,
        result.convert type, [], Scalar.type_ofInt (separate.scalars _ _ _ isVariable) _, rfl, rfl⟩
    · obtain ⟨block, laid, _⟩ := stores
      exact laid.maxLocals

theorem declarators_execute (separate : frame.Separate) {declarators : List Declarator}
    {start state : Generator × Scope} {bindings : Bindings} {done : Unit}
    (yields : Yields (declarators.forM fun declarator => declarator.lower site) start done state)
    (here : Bindings.ofState start = bindings)
    (areLocal : declaredLocal site.host frame declarators bindings) :
    start.1.Executes frame (fun _ => initialiseAll frame.types declarators) .none state.1 ∧
      Bindings.ofState state = bindings.behind frame declarators := by
  induction declarators generalizing start bindings with
  | nil =>
    rw [yields_forM_nil] at yields
    rw [yields]
    exact ⟨(Applies.nil start.1).executes, here⟩
  | cons first rest ih =>
    rw [yields_forM_cons] at yields
    obtain ⟨_, middle, isFirst, isRest⟩ := yields
    obtain ⟨isLocal, areLocal⟩ := areLocal
    subst here
    obtain ⟨executes, bound⟩ := Declarator.executes separate isLocal isFirst
    obtain ⟨goesOn, boundBehind⟩ := ih isRest bound areLocal
    exact ⟨executes.seq goesOn, boundBehind⟩

/-- The test of a statement, which branches away if it has an outcome. -/
theorem Expr.asks (separate : frame.Separate) {test : Expr}
    (isScalar : test.IsScalar (frame.Binds scope)) {outcome : Bool} {skips : List Nat}
    (yields : Yields ((test.lower site scope).branches outcome) before skips after) :
    before.Asks frame (test.Answers frame.types outcome) skips after ∧
      after.maxLocals = before.maxLocals := by
  obtain ⟨_, condition, laid, tests⟩ := (Expr.means site separate isScalar).branches yields
  exact ⟨⟨condition, laid, tests⟩, laid.maxLocals⟩

theorem forTest_asks (separate : frame.Separate) {test : Option Expr}
    (isScalar : ∀ condition, test = some condition → condition.IsScalar (frame.Binds scope))
    {skips : List Nat} (yields : Yields (forTest site scope test) before skips after) :
    before.AsksAny frame test skips after ∧ after.maxLocals = before.maxLocals := by
  cases test with
  | some test =>
    obtain ⟨asks, maxLocals⟩ := Expr.asks separate (isScalar test rfl) yields
    exact ⟨.test asks, maxLocals⟩
  | none =>
    obtain ⟨rfl, rfl⟩ := yields_pure.mp yields
    exact ⟨.none, rfl⟩

/-! ### Statements -/

/-- Code that takes no slots leaves the bindings as they are. -/
theorem Bindings.ofState_kept {kept : Generator} (maxLocals : kept.maxLocals = before.maxLocals) :
    Bindings.ofState (kept, scope) = .ofState (before, scope) := by
  rw [ofState, ofState, maxLocals]

mutual

/-- **Lowered statements do what they say**, and bind what they declare. -/
theorem Stmt.executes (separate : frame.Separate) :
    (statement : Stmt) → ∀ {inLoop : Bool} {start : Generator × Scope} {exits : LoopExits}
      {finish : Generator × Scope} {bindings : Bindings},
      Yields (statement.lower site inLoop) start exits finish → Bindings.ofState start = bindings →
      statement.IsLocal site.host frame bindings →
        start.1.Executes frame (fun limit => statement.exec frame.types limit) exits finish.1 ∧
          Bindings.ofState finish = bindings.behind frame statement.declared
  | .declare final declarators position, inLoop, start, exits, finish, bindings, yields, here,
      isLocal => by
    simp only [Stmt.lower, EmitScoped.yields_statement, yields_bind, yields_pure] at yields
    obtain ⟨_, _, declared, rfl, rfl⟩ := yields
    obtain ⟨executes, bound⟩ := declarators_execute separate declared here isLocal
    exact ⟨.moved executes, bound⟩
  | .expression expression position, inLoop, start, exits, finish, bindings, yields, here,
      isLocal => by
    simp only [Stmt.lower, EmitScoped.yields_statement, EmitScoped.yields_within, yields_bind,
      yields_pure] at yields
    obtain ⟨_, _, ⟨_, effect, rfl⟩, rfl, rfl⟩ := yields
    subst here
    have applies := Expr.applies separate isLocal effect
    exact ⟨.moved applies.executes, Bindings.ofState_kept applies.maxLocals⟩
  | .branch test first none position, inLoop, start, exits, finish, bindings, yields, here,
      isLocal => by
    obtain ⟨_, _, _, tested, isFirst, rfl⟩ := Stmt.yields_ifThen yields
    obtain ⟨isTest, isLocal⟩ := isLocal
    subst here
    obtain ⟨asks, maxLocals⟩ := Expr.asks separate isTest tested
    obtain ⟨executes, bound⟩ :=
      Stmt.executes separate first isFirst (Bindings.ofState_kept maxLocals) isLocal
    exact ⟨.moved (.ifThen asks executes), bound⟩
  | .branch test first (some second) position, inLoop, start, exits, finish, bindings, yields, here,
      isLocal => by
    obtain ⟨_, _, _, _, _, _, tested, isFirst, isSecond, rfl, rfl⟩ := Stmt.yields_ifElse yields
    obtain ⟨isTest, isLocal, alsoLocal⟩ := isLocal
    subst here
    obtain ⟨asks, maxLocals⟩ := Expr.asks separate isTest tested
    obtain ⟨executes, bound⟩ :=
      Stmt.executes separate first isFirst (Bindings.ofState_kept maxLocals) isLocal
    obtain ⟨otherwise, boundBehind⟩ := Stmt.executes separate second isSecond bound alsoLocal
    refine ⟨.moved (.ifElse asks executes otherwise), ?_⟩
    exact boundBehind.trans (Bindings.behind_append ..).symm
  | .whileLoop test body position, inLoop, start, exits, finish, bindings, yields, here,
      isLocal => by
    obtain ⟨_, _, _, _, tested, isBody, rfl, rfl⟩ := Stmt.yields_whileLoop yields
    obtain ⟨isTest, isLocal⟩ := isLocal
    subst here
    obtain ⟨asks, maxLocals⟩ := Expr.asks separate isTest tested
    obtain ⟨executes, bound⟩ :=
      Stmt.executes separate body isBody (Bindings.ofState_kept maxLocals) isLocal
    exact ⟨.moved (.whileLoop asks executes), bound⟩
  | .doLoop body test position, inLoop, start, exits, finish, bindings, yields, here,
      isLocal => by
    obtain ⟨_, round, _, _, isBody, tested, rfl, rfl⟩ := Stmt.yields_doLoop yields
    obtain ⟨isLocal, isTest⟩ := isLocal
    obtain ⟨executes, bound⟩ := Stmt.executes separate body isBody here isLocal
    rw [← bound] at isTest
    obtain ⟨asks, maxLocals⟩ := Expr.asks separate isTest tested
    exact ⟨.moved (.doLoop executes asks), (Bindings.ofState_kept maxLocals).trans bound⟩
  | .forLoop before test updates body position, inLoop, start, exits, finish, bindings, yields, here,
      isLocal => by
    obtain ⟨_, _, _, _, _, round, _, isStart, tested, isBody, updated, rfl, rfl⟩ :=
      Stmt.yields_forLoop yields
    obtain ⟨startLocal, isTest, bodyLocal, areUpdates⟩ := isLocal
    obtain ⟨begins, started⟩ := lowerAll_executes separate before isStart here startLocal
    rw [← started] at isTest
    obtain ⟨asks, maxLocals⟩ := forTest_asks separate isTest tested
    obtain ⟨executes, bound⟩ := Stmt.executes separate body isBody
      ((Bindings.ofState_kept maxLocals).trans started) bodyLocal
    rw [← bound] at areUpdates
    have update := updates_apply separate areUpdates updated
    refine ⟨.moved (.forLoop begins asks executes update), ?_⟩
    exact (Bindings.ofState_kept update.maxLocals).trans
      (bound.trans (Bindings.behind_append ..).symm)
  | .block body position, inLoop, start, exits, finish, bindings, yields, here,
      isLocal => by
    simp only [Stmt.lower, EmitScoped.yields_statement] at yields
    obtain ⟨executes, bound⟩ := lowerAll_executes separate body yields here isLocal
    exact ⟨.moved executes, bound⟩
  | .ret result position, _, _, _, _, _, _, _, isLocal => isLocal.elim
  | .breakLoop position, inLoop, start, exits, finish, bindings, yields, here,
      isLocal => by
    simp only [Stmt.lower, EmitScoped.yields_statement, EmitScoped.yields_plain, yields_bind,
      yields_pure] at yields
    obtain ⟨_, _, ⟨_, jumped, rfl⟩, rfl, rfl⟩ := yields
    obtain ⟨_, rfl, rfl⟩ := yields_jump jumped
    exact ⟨.moved (.leave _ .out fun way => by cases way <;> rfl), here⟩
  | .continueLoop position, inLoop, start, exits, finish, bindings, yields, here,
      isLocal => by
    simp only [Stmt.lower, EmitScoped.yields_statement, EmitScoped.yields_plain, yields_bind,
      yields_pure] at yields
    obtain ⟨_, _, ⟨_, jumped, rfl⟩, rfl, rfl⟩ := yields
    obtain ⟨_, rfl, rfl⟩ := yields_jump jumped
    exact ⟨.moved (.leave _ .next fun way => by cases way <;> rfl), here⟩
  | .throwing thrown position, _, _, _, _, _, _, _, isLocal => isLocal.elim
  | .empty position, inLoop, start, exits, finish, bindings, yields, here,
      isLocal => by
    simp only [Stmt.lower, EmitScoped.yields_statement, yields_pure] at yields
    obtain ⟨rfl, rfl⟩ := yields
    exact ⟨.moved (Applies.nil _).executes, here⟩

/-- Statements in order. -/
theorem lowerAll_executes (separate : frame.Separate) :
    (statements : List Stmt) → ∀ {inLoop : Bool} {start : Generator × Scope} {exits : LoopExits}
      {finish : Generator × Scope} {bindings : Bindings},
      Yields (lowerAll site inLoop statements) start exits finish →
      Bindings.ofState start = bindings → allLocal site.host frame statements bindings →
        start.1.Executes frame (fun limit => execAll frame.types limit statements) exits finish.1 ∧
          Bindings.ofState finish = bindings.behind frame (Stmt.declaredAll statements)
  | [], inLoop, start, exits, finish, bindings, yields, here, areLocal => by
    simp only [lowerAll, yields_pure] at yields
    obtain ⟨rfl, rfl⟩ := yields
    exact ⟨(Applies.nil _).executes, here⟩
  | first :: rest, inLoop, start, exits, finish, bindings, yields, here, areLocal => by
    simp only [lowerAll, yields_bind, yields_pure] at yields
    obtain ⟨_, _, isFirst, _, _, isRest, rfl, rfl⟩ := yields
    obtain ⟨isLocal, areLocal⟩ := areLocal
    obtain ⟨executes, bound⟩ := Stmt.executes separate first isFirst here isLocal
    obtain ⟨goesOn, boundBehind⟩ := lowerAll_executes separate rest isRest bound areLocal
    refine ⟨executes.seq goesOn, ?_⟩
    exact boundBehind.trans (Bindings.behind_append ..).symm

end

end Parts

/-! ### Runs -/

/-- **Lowering preserves what statements do.** If a statement ends, the machine, begun with an empty
stack in front of its code, arrives behind the code with an empty stack and with what the statement
leaves in the variables; other slots keep what they hold. If a statement does not end, the machine is
never found outside its code. -/
theorem Stmt.emit_preserves {frame : Frame} (separate : frame.Separate) {site : Site}
    {scope bound : Scope} {before after : Generator} {statement : Stmt}
    (isLocal : statement.IsLocal site.host frame (.ofState (before, scope)))
    (emitted : before.emit site scope statement = (.ok (), after, bound))
    (fits : before.body.pool.Fits) {store : Store} {locals : Locals}
    (holds : frame.Holds store locals) :
    (∀ final, statement.Terminates frame.types store final →
      ∃ behind, frame.Holds final behind ∧ frame.Keeps locals behind ∧
        Leads after.instrs after.body.pool ⟨before.size, ⟨[], locals⟩⟩
          ⟨after.size, ⟨[], behind⟩⟩) ∧
    (statement.Diverges frame.types store →
      ∀ state, Leads after.instrs after.body.pool ⟨before.size, ⟨[], locals⟩⟩ state →
        before.size ≤ state.pc ∧ state.pc < after.size) := by
  obtain ⟨exits, yields⟩ := emit_eq emitted
  obtain ⟨executes, _⟩ := Stmt.executes separate statement yields rfl isLocal
  obtain ⟨arrives, goesOn⟩ := executes.runs fits holds
  constructor
  · rintro final ⟨limit, ends⟩
    obtain ⟨behind, holds, keeps, reaches⟩ := arrives limit final ends
    exact ⟨behind, holds, keeps, reaches.leads⟩
  · intro diverges state leads
    exact (goesOn diverges).inside leads

/-- Two `int` variables in slots 0 and 1. -/
def bouncingFrame : Frame := fun name =>
  if name = "x" then some (0, .int) else if name = "y" then some (1, .int) else none

def bouncingScope : Scope := .root [.bound "x" 0 .int]

/-- A generator that has taken slot 0. -/
def bouncingGenerator : Generator := (Generator.ofPool .detached .empty).reserveLocals 1

/-- A count that is thrown back from 4 for ever, unless it meets `x` before:
`for (int y = 0; ; y++) { if (y == 4) { y--; continue; } if (y == x) break; }`. -/
def bouncing : Stmt :=
  let origin : Position := ⟨1, 1, 0⟩
  let x : Expr := .name "x" origin
  let y : Expr := .name "y" origin
  let number (value : Int32) : Expr := .literal (.int value) origin
  .forLoop [.declare false [⟨"y", ⟨.primitive .int, 0, none⟩, some (number 0), none, none, origin⟩]
      origin] none [.update .increment false y origin]
    (.block [
      .branch (.binary (.compare .eq) y (number 4) origin)
        (.block [.expression (.update .decrement false y origin) origin, .continueLoop origin] origin)
        none origin,
      .branch (.binary (.compare .eq) y x origin) (.breakLoop origin) none origin] origin) origin

def bouncingStore (x : Int32) : Store := fun name => if name = "x" then some (.int x) else none

def bouncingLocals (x : Int32) : Locals := fun slot =>
  if slot = 0 then some (.word (Scalar.int x).word) else none

theorem bouncingFrame_cases {name : String} {slot : Slot} {type : FieldType}
    (isVariable : bouncingFrame name = some (slot, type)) :
    (name = "x" ∧ slot = 0 ∧ type = .int) ∨ (name = "y" ∧ slot = 1 ∧ type = .int) := by
  unfold bouncingFrame at isVariable
  split at isVariable
  · next isX =>
    cases isVariable
    exact .inl ⟨isX, rfl, rfl⟩
  · split at isVariable
    · next isY =>
      cases isVariable
      exact .inr ⟨isY, rfl, rfl⟩
    · cases isVariable

theorem separate_bouncing : bouncingFrame.Separate where
  scalars := by
    intro name slot type isVariable
    obtain ⟨_, _, rfl⟩ | ⟨_, _, rfl⟩ := bouncingFrame_cases isVariable <;> rfl
  disjoint := by
    intro first second slot type otherSlot otherType different isFirst isSecond
    obtain ⟨rfl, rfl, rfl⟩ | ⟨rfl, rfl, rfl⟩ := bouncingFrame_cases isFirst <;>
      obtain ⟨rfl, rfl, rfl⟩ | ⟨rfl, rfl, rfl⟩ := bouncingFrame_cases isSecond
    · exact absurd rfl different
    · exact .inl (by decide)
    · exact .inr (by decide)
    · exact absurd rfl different

theorem isLocal_bouncing :
    bouncing.IsLocal .detached bouncingFrame (.ofState (bouncingGenerator, bouncingScope)) := by
  refine ⟨⟨⟨⟨⟨.int, rfl, rfl⟩, ?_⟩, trivial⟩, trivial⟩, ?_, ?_, ?_⟩
  · rintro _ ⟨⟩
    exact .literal _ rfl
  · rintro _ ⟨⟩
  · exact ⟨⟨.compare _ _ (.name _ ⟨1, .int, rfl, rfl⟩) (.literal _ rfl),
      .update _ _ _ _ ⟨1, .int, rfl, rfl⟩, trivial, trivial⟩,
      ⟨.compare _ _ (.name _ ⟨1, .int, rfl, rfl⟩) (.name _ ⟨0, .int, rfl, rfl⟩), trivial⟩, trivial⟩
  · intro update isUpdate
    cases List.mem_singleton.mp isUpdate
    exact .update _ _ _ _ ⟨1, .int, rfl, rfl⟩

theorem holds_bouncing (x : Int32) :
    bouncingFrame.Holds (bouncingStore x) (bouncingLocals x) where
  agrees := by
    intro name value isValue
    unfold bouncingStore at isValue
    split at isValue
    · next same =>
      cases isValue
      rw [same]
      rfl
    · cases isValue
  loads := by
    intro name slot type value isVariable isValue
    obtain ⟨rfl, rfl, rfl⟩ | ⟨rfl, rfl, rfl⟩ := bouncingFrame_cases isVariable <;>
      cases isValue
    rfl

theorem terminates_bouncing : bouncing.Terminates bouncingFrame.types (bouncingStore 3)
    ((bouncingStore 3).set "y" (.int 3)) := by
  have ends : bouncing.exec bouncingFrame.types 4 (bouncingStore 3) = .passed
      (((((bouncingStore 3).set "y" (.int 0)).set "y" (.int 1)).set "y" (.int 2)).set "y" (.int 3)) :=
    rfl
  simp only [Store.set_set] at ends
  exact ⟨4, ends⟩

theorem diverges_bouncing : bouncing.Diverges bouncingFrame.types (bouncingStore 9) := by
  intro limit
  refine Outcome.rounds_endless
    (fun store => ∃ count ∈ [0, 1, 2, 3, 4], store = (bouncingStore 9).set "y" (.int count))
    ?_ limit _ ⟨0, by decide, rfl⟩
  rintro _ ⟨count, isCount, rfl⟩
  simp only [List.mem_cons, List.not_mem_nil, or_false] at isCount
  rcases isCount with rfl | rfl | rfl | rfl | rfl
  · exact ⟨_, rfl, 1, by decide, Store.set_set⟩
  · exact ⟨_, rfl, 2, by decide, Store.set_set⟩
  · exact ⟨_, rfl, 3, by decide, Store.set_set⟩
  · exact ⟨_, rfl, 4, by decide, Store.set_set⟩
  · exact ⟨_, rfl, 4, by decide, Store.set_set.trans Store.set_set⟩

/-- With 3 in `x` the machine arrives behind the loop with 3 in `y`, with 9 it never arrives. -/
theorem Stmt.emit_preserves_bouncing :
    bouncingFrame.Separate ∧
      bouncing.IsLocal .detached bouncingFrame (.ofState (bouncingGenerator, bouncingScope)) ∧
      bouncingGenerator.body.pool.Fits ∧
      (∀ x, bouncingFrame.Holds (bouncingStore x) (bouncingLocals x)) ∧
      ∃ after bound, bouncingGenerator.emit .detached bouncingScope bouncing = (.ok (), after, bound) ∧
        (∃ behind, behind.load 1 .int = some (.int 3) ∧
          Leads after.instrs after.body.pool ⟨0, ⟨[], bouncingLocals 3⟩⟩
            ⟨after.size, ⟨[], behind⟩⟩) ∧
        ∀ state, Leads after.instrs after.body.pool ⟨0, ⟨[], bouncingLocals 9⟩⟩ state →
          state.pc < after.size := by
  have fits : bouncingGenerator.body.pool.Fits := Pool.fits_ofReserved 1
  obtain ⟨after, bound, emitted⟩ : ∃ after bound,
      bouncingGenerator.emit .detached bouncingScope bouncing = (.ok (), after, bound) := ⟨_, _, rfl⟩
  have preserves := fun x => Stmt.emit_preserves separate_bouncing isLocal_bouncing emitted fits
    (holds_bouncing x)
  refine ⟨separate_bouncing, isLocal_bouncing, fits, holds_bouncing, after, bound, emitted, ?_, ?_⟩
  · obtain ⟨behind, holds, _, leads⟩ := (preserves 3).1 _ terminates_bouncing
    exact ⟨behind, holds.loads "y" 1 .int (.int 3) rfl rfl, leads⟩
  · intro state leads
    exact ((preserves 9).2 diverges_bouncing state leads).2

end MethodPatch
