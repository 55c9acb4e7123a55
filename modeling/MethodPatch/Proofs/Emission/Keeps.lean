/-
**Code that was there before.**

Generating appends instructions and gives branches their targets. The branches are those that were
generated in between, for the indices that an action answers with are behind all code in front of it. So
the code that was there before stays as it was, whatever host and scope the action refers to.

* `Keeps`: what holds in front of an action holds behind it, and its answer satisfies a condition;
* `Generator.Begins`: the code of a generator begins with some instructions;
* `Lowered.Keeps`: all ways of lowering an expression keep a beginning, and answer with branches behind it;
* `Expr.keeps`: **code for expressions leaves the code in front of it as it was**.
-/

import MethodPatch.Proofs.Emission.Yields

namespace MethodPatch

/-! ### What an action keeps -/

/-- What holds in front of an action holds behind it, and what it answers with satisfies a condition. -/
structure Keeps {σ α : Type} (holds : σ → Prop) (action : ExceptT SourceError (StateM σ) α)
    (answers : α → Prop) : Prop where
  behind {before : σ} {answer : α} {after : σ} : holds before → Yields action before answer after →
    holds after ∧ answers answer

namespace Keeps

variable {σ α β : Type} {holds : σ → Prop} {action : ExceptT SourceError (StateM σ) α}
  {next : α → ExceptT SourceError (StateM σ) β} {first : α → Prop} {answers : β → Prop}

theorem pure {answer : β} (satisfied : answers answer) :
    Keeps holds (Pure.pure answer : ExceptT SourceError (StateM σ) β) answers := by
  refine ⟨fun here yields => ?_⟩
  obtain ⟨rfl, rfl⟩ := yields_pure.mp yields
  exact ⟨here, satisfied⟩

theorem bind (here : Keeps holds action first)
    (behind : ∀ answer, first answer → Keeps holds (next answer) answers) :
    Keeps holds (action >>= next) answers := by
  refine ⟨fun held yields => ?_⟩
  obtain ⟨found, middle, isFirst, isNext⟩ := yields_bind.mp yields
  obtain ⟨between, satisfied⟩ := here.behind held isFirst
  exact (behind found satisfied).behind between isNext

theorem seq {other : ExceptT SourceError (StateM σ) β} (here : Keeps holds action first)
    (behind : Keeps holds other answers) : Keeps holds (action >>= fun _ => other) answers :=
  here.bind fun _ _ => behind

theorem throw (error : SourceError) :
    Keeps holds (MonadExcept.throw error : ExceptT SourceError (StateM σ) β) answers :=
  ⟨fun _ yields => absurd yields yields_throw⟩

/-- Nothing comes behind an error. -/
theorem refuse (error : SourceError) : Keeps holds (MonadExcept.throw error >>= next) answers := by
  refine ⟨fun _ yields => ?_⟩
  obtain ⟨_, _, failed, -⟩ := yields_bind.mp yields
  exact absurd failed yields_throw

/-- A check leaves everything as it is. -/
theorem check {result : Except SourceError α}
    (behind : ∀ answer, Keeps holds (next answer) answers) :
    Keeps holds (liftExcept result >>= next) answers := by
  refine ⟨fun held yields => ?_⟩
  obtain ⟨found, middle, isFirst, isNext⟩ := yields_bind.mp yields
  obtain ⟨-, rfl⟩ := yields_liftExcept.mp isFirst
  exact (behind found).behind held isNext

theorem lift (result : Except SourceError α) : Keeps holds (liftExcept result) fun _ => True := by
  refine ⟨fun held yields => ?_⟩
  obtain ⟨-, rfl⟩ := yields_liftExcept.mp yields
  exact ⟨held, trivial⟩

theorem forM {γ : Type} {body : γ → ExceptT SourceError (StateM σ) PUnit} {members : List γ}
    (each : ∀ member, Keeps holds (body member) fun _ => True) :
    Keeps holds (members.forM body) fun _ => True := by
  induction members with
  | nil => exact .pure trivial
  | cons member rest ih => exact (each member).seq ih

end Keeps

/-! ### Beginnings of code -/

/-- The code of a generator begins with these instructions. -/
def Generator.Begins (front : List Step) (generator : Generator) : Prop :=
  front <+: generator.body.code.toList

namespace Generator.Begins

variable {front : List Step} {generator : Generator}

/-- What is generated stands behind the beginning. -/
theorem length_le (begins : generator.Begins front) : front.length ≤ generator.size := by
  have length := List.IsPrefix.length_le begins
  rwa [Array.length_toList] at length

theorem push (begins : generator.Begins front) (instr : Instr) : (generator.push instr).Begins front := by
  have code : (generator.push instr).body.code.toList = generator.body.code.toList ++ [_] := Array.toList_push
  unfold Begins
  rw [code]
  exact List.IsPrefix.trans begins (List.prefix_append ..)

theorem pushAll (begins : generator.Begins front) (instrs : List Instr) :
    (generator.pushAll instrs).Begins front := by
  induction instrs generalizing generator with
  | nil => exact begins
  | cons instr rest ih => exact ih (begins.push instr)

/-- Branches behind the beginning get their target without changing it. -/
theorem land {branches : List Nat} (begins : generator.Begins front)
    (behind : ∀ branch ∈ branches, front.length ≤ branch) (target : Nat) :
    (generator.land branches target).Begins front := by
  induction branches generalizing generator with
  | nil => exact begins
  | cons branch rest ih =>
    obtain ⟨isBehind, others⟩ := List.forall_mem_cons.mp behind
    rw [Generator.land_cons]
    refine ih (List.prefix_iff_getElem?.mpr fun index isFront => ?_) others
    have different : branch ≠ index := Nat.ne_of_gt (Nat.lt_of_lt_of_le isFront isBehind)
    have here := List.prefix_iff_getElem?.mp begins index isFront
    rw [Array.getElem?_toList] at here ⊢
    show (generator.body.code.modify branch _)[index]? = _
    rw [Array.getElem?_modify, if_neg different, here]

end Generator.Begins

/-- Branches that are behind the beginning of the code. -/
def Behind (front : List Step) (branches : List Nat) : Prop := ∀ branch ∈ branches, front.length ≤ branch

theorem Behind.append {front : List Step} {first second : List Nat} (isFirst : Behind front first)
    (isSecond : Behind front second) : Behind front (first ++ second) :=
  List.forall_mem_append.mpr ⟨isFirst, isSecond⟩

theorem behind_nil {front : List Step} : Behind front [] := nofun

theorem behind_singleton {front : List Step} {branch : Nat} (isBehind : front.length ≤ branch) :
    Behind front [branch] :=
  List.forall_mem_singleton.mpr isBehind

namespace Emit

/-- An action keeps a beginning of the code, and its answer satisfies a condition. -/
abbrev Keeps {α : Type} (front : List Step) (action : Emit α) (answers : α → Prop) : Prop :=
  MethodPatch.Keeps (Generator.Begins front) action answers

variable {α : Type} {front : List Step} {answers : α → Prop}

theorem keeps_instr (instr : Instr) : Keeps front (Emit.instr instr) fun _ => True := by
  refine ⟨fun begins yields => ?_⟩
  obtain rfl := yields_instr.mp yields
  exact ⟨begins.push instr, trivial⟩

/-- An instruction in front of other code. -/
theorem keeps_emit (instr : Instr) {next : Emit α} (behind : Keeps front next answers) :
    Keeps front (Emit.instr instr >>= fun _ => next) answers :=
  (keeps_instr instr).seq behind

theorem keeps_instrs (instrs : List Instr) : Keeps front (Emit.instrs instrs) fun _ => True := by
  refine ⟨fun begins yields => ?_⟩
  obtain rfl := yields_instrs.mp yields
  exact ⟨begins.pushAll instrs, trivial⟩

theorem keeps_here : Keeps front Emit.here (front.length ≤ ·) := by
  refine ⟨fun begins yields => ?_⟩
  obtain ⟨rfl, rfl⟩ := yields_here.mp yields
  exact ⟨begins, begins.length_le⟩

theorem keeps_depth : Keeps front Emit.depth fun _ => True := by
  refine ⟨fun begins yields => ?_⟩
  obtain ⟨-, rfl⟩ := yields_depth.mp yields
  exact ⟨begins, trivial⟩

theorem keeps_setDepth (depth : Nat) : Keeps front (Emit.setDepth depth) fun _ => True := by
  refine ⟨fun begins yields => ?_⟩
  obtain rfl := yields_setDepth.mp yields
  exact ⟨begins, trivial⟩

theorem keeps_constant (add : Pool.Adding PoolIndex) : Keeps front (Emit.constant add) fun _ => True := by
  refine ⟨fun begins yields => ?_⟩
  obtain ⟨pool, -, rfl⟩ := yields_constant.mp yields
  exact ⟨begins, trivial⟩

theorem keeps_land {branches : List Nat} (behind : Behind front branches) (target : Nat) :
    Keeps front (Emit.land branches target) fun _ => True := by
  refine ⟨fun begins yields => ?_⟩
  obtain rfl := yields_land.mp yields
  exact ⟨begins.land behind target, trivial⟩

theorem keeps_landHere {branches : List Nat} (behind : Behind front branches) :
    Keeps front (Emit.landHere branches) fun _ => True :=
  keeps_here.bind fun target _ => keeps_land behind target

/-- A branch is behind all code in front of it. -/
theorem keeps_branch (test : Test) : Keeps front (Emit.branch test) (front.length ≤ ·) :=
  keeps_here.bind fun _ isBehind => keeps_emit _ (.pure isBehind)

/-- A constant and an instruction that refers to it. -/
theorem keeps_refer (add : Pool.Adding PoolIndex) (use : PoolIndex → Instr) :
    Keeps front (Emit.constant add >>= fun index => Emit.instr (use index)) fun _ => True :=
  (keeps_constant add).bind fun _ _ => keeps_instr _

/-! ### Literals, members and places -/

theorem keeps_number (small : Option Instr) (load : PoolIndex → Instr) (value : Constant) :
    Keeps front (Emit.number small load value) fun _ => True := by
  cases small with
  | some instr => exact keeps_instr instr
  | none => exact keeps_refer ..

theorem keeps_literal (value : Literal) : Keeps front (Emit.literal value) fun _ => True := by
  cases value with
  | int | long | float | double | char => exact keeps_number ..
  | string => exact keeps_refer ..
  | boolean | null => exact keeps_instr _

theorem keeps_field (ofClass ofObject : FieldAccess) (field : FieldRef) :
    Keeps front (Emit.field ofClass ofObject field) fun _ => True :=
  keeps_refer ..

theorem keeps_read (place : Place) : Keeps front (Emit.read place) fun _ => True := by
  cases place with
  | «variable» | element => exact keeps_instr _
  | field found => exact keeps_field ..

theorem keeps_write (place : Place) : Keeps front (Emit.write place) fun _ => True := by
  cases place with
  | «variable» | element => exact keeps_instr _
  | field found => exact keeps_field ..

theorem keeps_invoke (dispatch : Dispatch) (method : MethodRef) :
    Keeps front (Emit.invoke dispatch method) fun _ => True := by
  unfold Emit.invoke
  refine (keeps_constant _).bind fun index _ => ?_
  dsimp only
  split
  · exact ⟨fun _ yields => absurd yields yields_fail⟩
  · exact keeps_instr _

theorem keeps_newObject (className : String) : Keeps front (Emit.newObject className) fun _ => True :=
  (keeps_constant _).bind fun _ _ => keeps_emit _ (keeps_instr _)

theorem keeps_readField (field : FieldRef) (qualifier : Qualifier) :
    Keeps front (do Emit.readField field; return qualifier) fun _ => True :=
  (keeps_field ..).seq (.pure trivial)

theorem keeps_name (site : Site) (scope : Scope) (name : String) (position : Position) :
    Keeps front (Emit.name site scope name position) fun _ => True := by
  unfold Emit.name
  split
  · exact keeps_emit _ (.pure trivial)
  · refine .check fun _ => ?_
    split
    · exact keeps_emit _ (keeps_readField ..)
    · exact keeps_readField ..
  · exact .pure trivial
  · exact .pure trivial

theorem keeps_member (site : Site) (qualifier : Qualifier) (name : String) (position : Position) :
    Keeps front (Emit.member site qualifier name position) fun _ => True := by
  refine .check fun member => ?_
  cases member with
  | package | classRef => exact .pure trivial
  | length => exact keeps_emit _ (.pure trivial)
  | field field dropsValue =>
    cases dropsValue with
    | false => exact keeps_readField ..
    | true => exact keeps_emit _ (keeps_readField ..)

theorem keeps_namePlace (site : Site) (scope : Scope) (name : String) (position : Position) :
    Keeps front (Emit.namePlace site scope name position) fun _ => True := by
  refine .check fun place => ?_
  split
  · exact keeps_emit _ (.pure trivial)
  · exact .pure trivial

theorem keeps_memberPlace (site : Site) (qualifier : Qualifier) (name : String) (position : Position) :
    Keeps front (Emit.memberPlace site qualifier name position) fun _ => True := by
  refine .check fun (field, dropsValue) => ?_
  cases dropsValue with
  | false => exact .pure trivial
  | true => exact keeps_emit _ (.pure trivial)

/-! ### Strings from their parts -/

theorem keeps_emptyBuilder : Keeps front Emit.emptyBuilder fun _ => True :=
  (keeps_newObject _).seq (keeps_invoke ..)

theorem keeps_builderOfString : Keeps front Emit.builderOfString fun _ => True :=
  (keeps_invoke ..).seq <| (keeps_constant _).bind fun _ _ =>
    keeps_emit _ ((keeps_instrs _).seq (keeps_invoke ..))

theorem keeps_append (type : StaticType) (position : Position) :
    Keeps front (Emit.append type position) fun _ => True := by
  unfold Emit.append
  split
  · exact .throw _
  · exact keeps_invoke ..

theorem keeps_builtString : Keeps front Emit.builtString fun _ => True := keeps_invoke ..

/-! ### Conditions -/

theorem keeps_booleanOf {branches : Emit (List Nat)} (test : Keeps front branches (Behind front)) :
    Keeps front (Emit.booleanOf branches) fun _ => True :=
  test.bind fun _ areBehind => keeps_depth.bind fun depth _ => keeps_emit _ <|
    (keeps_branch .always).bind fun _ isBehind => (keeps_landHere areBehind).seq <|
      (keeps_setDepth depth).seq <| keeps_emit _ <|
        (keeps_landHere (behind_singleton isBehind)).seq (.pure trivial)

theorem keeps_branchOnValue (type : StaticType) (position : Position) (outcome : Bool) :
    Keeps front (Emit.branchOnValue type position outcome) (Behind front) :=
  .check fun _ => (keeps_branch _).bind fun _ isBehind => .pure (behind_singleton isBehind)

theorem keeps_branchesOf (op : LogicalOp) {left right : Bool → Emit (List Nat)}
    (first : ∀ outcome, Keeps front (left outcome) (Behind front))
    (second : ∀ outcome, Keeps front (right outcome) (Behind front)) (outcome : Bool) :
    Keeps front (Emit.branchesOf op left right outcome) (Behind front) := by
  unfold Emit.branchesOf
  split
  · exact (first _).bind fun _ isFirst => (second _).bind fun _ isSecond => .pure (isFirst.append isSecond)
  · exact (first _).bind fun _ areSkips => (second _).bind fun _ areJumps =>
      (keeps_landHere areSkips).seq (.pure areJumps)

theorem keeps_compareNumbers (type : Numeric) (wanted taken : Comparison) :
    Keeps front (Emit.compareNumbers type wanted taken) (front.length ≤ ·) := by
  cases type with
  | int => exact keeps_branch _
  | long | float | double => exact keeps_emit _ (keeps_branch _)

end Emit

/-! ### Ways of lowering -/

open Emit

/-- The ways of lowering an expression keep a beginning of the code, and their branches are behind it. -/
structure Lowered.Keeps (front : List Step) (lowered : Lowered) : Prop where
  value : Emit.Keeps front lowered.value fun _ => True
  qualifier : Emit.Keeps front lowered.qualifier fun _ => True
  branches : ∀ outcome, Emit.Keeps front (lowered.branches outcome) (Behind front)
  place : Emit.Keeps front lowered.place fun _ => True
  effect : Emit.Keeps front lowered.effect fun _ => True
  append : Emit.Keeps front lowered.append fun _ => True

namespace Lowered

variable {front : List Step} {site : Site} {scope : Scope} {first second operand : Lowered}
  {position : Position}

theorem Keeps.ofValue (position : Position) {value : Emit StaticType}
    (keeps : Emit.Keeps front value fun _ => True) : (Lowered.ofValue position value).Keeps front where
  value := keeps
  qualifier := keeps.bind fun _ _ => .pure trivial
  branches outcome := keeps.bind fun type _ => keeps_branchOnValue type position outcome
  place := .throw _
  effect := keeps.bind fun _ _ => keeps_instrs _
  append := keeps.bind fun type _ => keeps_append type position

theorem Keeps.ofCondition {branches : Bool → Emit (List Nat)}
    (keeps : ∀ outcome, Emit.Keeps front (branches outcome) (Behind front)) :
    (Lowered.ofCondition position branches).Keeps front :=
  { Keeps.ofValue position (keeps_booleanOf (keeps false)) with branches := keeps }

theorem Keeps.ofQualifier {unknown : String → ReferenceFault} {qualifier : Emit Qualifier}
    {place : Emit Place} (stands : Emit.Keeps front qualifier fun _ => True)
    (places : Emit.Keeps front place fun _ => True) :
    (Lowered.ofQualifier position unknown qualifier place).Keeps front :=
  { Keeps.ofValue position (stands.bind fun _ _ => .lift _) with
    qualifier := stands
    place := places }

theorem Keeps.boolean (value : Bool) : (Lowered.boolean position value).Keeps front := by
  refine { Keeps.ofValue position ((keeps_literal (.boolean value)).seq (.pure trivial)) with
    branches := fun outcome => ?_ }
  dsimp only [Lowered.boolean]
  split
  · exact (keeps_branch .always).bind fun _ isBehind => .pure (behind_singleton isBehind)
  · exact .pure (List.forall_mem_nil _)

theorem Keeps.ofWanted {value : Bool → Emit StaticType}
    (keeps : ∀ wanted, Emit.Keeps front (value wanted) fun _ => True) :
    (Lowered.ofWanted position value).Keeps front :=
  { Keeps.ofValue position (keeps true) with effect := (keeps false).seq (.pure trivial) }

/-! ### Elements and arguments -/

theorem keeps_elementPlace (indexPosition position : Position) (array : first.Keeps front)
    (index : second.Keeps front) :
    Emit.Keeps front (elementPlace first second indexPosition position) fun _ => True :=
  array.value.bind fun _ _ => .check fun _ => index.value.bind fun _ _ => .check fun _ => .pure trivial

theorem Keeps.element {indexPosition : Position} (array : first.Keeps front) (index : second.Keeps front) :
    (Lowered.element first second indexPosition position).Keeps front := by
  have places := keeps_elementPlace indexPosition position array index
  have value : Emit.Keeps front (do
      let type ← elementPlace first second indexPosition position
      Emit.read (.element type)
      return StaticType.value type) fun _ => True :=
    places.bind fun _ _ => (keeps_read _).seq (.pure trivial)
  exact { Keeps.ofValue position value with place := places.bind fun _ _ => .pure trivial }

theorem keeps_argument (host : Host) (argument : Expr) (parameter : FieldType) (value : operand.Keeps front) :
    Emit.Keeps front (Lowered.argument host argument operand parameter) fun _ => True :=
  value.value.bind fun _ _ => .check fun _ => keeps_instrs _

theorem keeps_convertedTo (type : StaticType) (value : operand.Keeps front) :
    Emit.Keeps front (operand.convertedTo type) fun _ => True := by
  refine value.value.bind fun source _ => ?_
  cases type with
  | value target => exact keeps_instrs _
  | void | null => exact .pure trivial

/-! ### Operators -/

theorem keeps_comparison (wanted : Comparison) (plan : ComparisonPlan) (right : Expr)
    (left : first.Keeps front) (other : second.Keeps front) (outcome : Bool) :
    Emit.Keeps front (Lowered.comparison wanted plan right first second outcome) (front.length ≤ ·) := by
  cases plan with
  | leftWithNull => exact left.value.seq (keeps_branch _)
  | rightWithNull => exact other.value.seq (keeps_branch _)
  | identity | booleans => exact left.value.seq (other.value.seq (keeps_branch _))
  | numbers type =>
    refine (keeps_convertedTo _ left).seq ?_
    split
    · exact keeps_branch _
    · exact (keeps_convertedTo _ other).seq (keeps_compareNumbers ..)

theorem keeps_compute (plan : ComputePlan) (left : first.Keeps front) (right : second.Keeps front) :
    Emit.Keeps front (Lowered.compute plan first second) fun _ => True :=
  (keeps_convertedTo _ left).seq <| (keeps_convertedTo _ right).seq <| keeps_emit _ (.pure trivial)

theorem keeps_joined (left : first.Keeps front) (right : second.Keeps front) :
    Emit.Keeps front (Lowered.joined first second) fun _ => True :=
  keeps_emptyBuilder.seq <| left.append.seq <| right.append.seq <| keeps_builtString.seq (.pure trivial)

/-- An operator that computes, whether it joins strings or not. -/
theorem Keeps.compute (op : ComputeOp) (found : Except SourceError (StaticType × StaticType))
    (left : first.Keeps front) (right : second.Keeps front) :
    Lowered.Keeps front
      (let value : Emit StaticType := do
        let (leftType, rightType) ← liftExcept found
        if joinsStrings op leftType rightType then Lowered.joined first second
        else
          let plan ← liftExcept (computePlan op leftType rightType position)
          Lowered.compute plan first second
      { Lowered.ofValue position value with
        append := do
          let (leftType, rightType) ← liftExcept found
          if joinsStrings op leftType rightType then
            first.append
            second.append
          else Emit.append (← value) position }) := by
  have value : Emit.Keeps front (do
      let (leftType, rightType) ← liftExcept found
      if joinsStrings op leftType rightType then Lowered.joined first second
      else
        let plan ← liftExcept (computePlan op leftType rightType position)
        Lowered.compute plan first second) fun _ => True := by
    refine .check fun (leftType, rightType) => ?_
    dsimp only
    split
    · exact keeps_joined left right
    · exact .check fun plan => keeps_compute plan left right
  refine { Keeps.ofValue position value with append := ?_ }
  refine .check fun (leftType, rightType) => ?_
  dsimp only
  split
  · exact left.append.seq right.append
  · exact value.bind fun type _ => keeps_append type position

theorem keeps_unary (op : UnaryOp) (position : Position) (value : operand.Keeps front) :
    Emit.Keeps front (Lowered.unary op operand position) fun _ => True := by
  refine value.value.bind fun source _ => .check fun type => (keeps_instrs _).seq ?_
  cases op with
  | minus => exact keeps_emit _ (.pure trivial)
  | plus | not => exact .pure trivial
  | complement => cases type <;> exact (keeps_number ..).seq (keeps_emit _ (.pure trivial))

theorem keeps_conditional {test : Lowered} (type : StaticType) (condition : test.Keeps front)
    (left : first.Keeps front) (right : second.Keeps front) :
    Emit.Keeps front (Lowered.conditional test first second type) fun _ => True :=
  (condition.branches false).bind fun _ areBehind => keeps_depth.bind fun depth _ =>
    (keeps_convertedTo type left).seq <| (keeps_branch .always).bind fun _ isBehind =>
      (keeps_landHere areBehind).seq <| (keeps_setDepth depth).seq <|
        (keeps_convertedTo type right).seq <|
          (keeps_landHere (behind_singleton isBehind)).seq (.pure trivial)

theorem keeps_cast (target : FieldType) (position : Position) (value : operand.Keeps front) :
    Emit.Keeps front (Lowered.cast site target operand position) fun _ => True := by
  refine value.value.bind fun source _ => ?_
  split
  · exact (keeps_instrs _).seq (.pure trivial)
  · exact (keeps_constant _).bind fun _ _ => keeps_emit _ (.pure trivial)
  · exact .throw _

theorem keeps_instanceOf (target : FieldType) (position : Position) (value : operand.Keeps front) :
    Emit.Keeps front (Lowered.instanceOf target operand position) fun _ => True := by
  refine value.value.bind fun source _ => ?_
  split
  · exact (keeps_constant _).bind fun _ _ => keeps_emit _ (.pure trivial)
  · exact .throw _

theorem keeps_newArray (element : FieldType) (lengthPosition : Position) (length : operand.Keeps front) :
    Emit.Keeps front (Lowered.newArray element operand lengthPosition) fun _ => True := by
  refine length.value.bind fun _ _ => .check fun _ => ?_
  split
  · exact keeps_emit _ (.pure trivial)
  · exact (keeps_constant _).bind fun _ _ => keeps_emit _ (.pure trivial)
  · exact .pure trivial

/-! ### Assignments -/

theorem keeps_combine (op : ComputeOp) (target : FieldType) (valueType : StaticType) (position : Position)
    (value : operand.Keeps front) :
    Emit.Keeps front (Lowered.combine op target valueType operand position) fun _ => True := by
  unfold Lowered.combine
  split
  · exact keeps_builderOfString.seq <| value.value.bind fun type _ =>
      (keeps_append type position).seq keeps_builtString
  · exact .check fun plan => (keeps_instrs _).seq <| (keeps_convertedTo _ value).seq <|
      keeps_emit _ (keeps_instrs _)

theorem keeps_store (place : Place) (wanted : Bool) :
    Emit.Keeps front (do
      if wanted then Emit.instr place.copyValue
      Emit.write place
      return StaticType.value place.type) fun _ => True := by
  have stores : Emit.Keeps front (do
      Emit.write place
      return StaticType.value place.type) fun _ => True := (keeps_write place).seq (.pure trivial)
  cases wanted with
  | false => exact stores
  | true => exact keeps_emit _ stores

theorem keeps_assign (op : Option ComputeOp) (source : Expr) (valueType : Except SourceError StaticType)
    (position : Position) (wanted : Bool) (target : first.Keeps front) (value : second.Keeps front) :
    Emit.Keeps front (Lowered.assign site first op source valueType second position wanted)
      fun _ => True := by
  refine target.place.bind fun place _ => ?_
  cases op with
  | none =>
    exact value.value.bind fun _ _ => .check fun _ => (keeps_instrs _).seq (keeps_store place wanted)
  | some op =>
    exact (keeps_instrs _).seq <| (keeps_read place).seq <| .check fun valueType =>
      (keeps_combine op place.type valueType position value).seq (keeps_store place wanted)

theorem keeps_increment (slot : Slot) (delta : Int16) (wanted : Bool) :
    Emit.Keeps front (Lowered.increment slot delta wanted) fun _ => True := by
  refine keeps_emit _ ?_
  cases wanted with
  | false => exact .pure trivial
  | true => exact keeps_emit _ (.pure trivial)

theorem keeps_updateVariable (op : UpdateOp) (before : Bool) (slot : Slot) (wanted : Bool) :
    Emit.Keeps front (Lowered.updateVariable op before slot wanted) fun _ => True := by
  cases wanted with
  | false => exact keeps_emit _ (.pure trivial)
  | true => cases before <;> exact keeps_emit _ (keeps_emit _ (.pure trivial))

theorem keeps_update (op : UpdateOp) (before wanted : Bool) (position : Position)
    (target : operand.Keeps front) :
    Emit.Keeps front (Lowered.update op before operand position wanted) fun _ => True := by
  refine target.place.bind fun place _ => .check fun type => ?_
  have steps : Emit.Keeps front (do
      Emit.instrs (conversion place.type type.type)
      Emit.instr (oneOf type)
      Emit.instr (.arithmetic (if op = .increment then .add else .sub) type)
      Emit.instrs (conversion type.type place.type)
      if wanted && before then Emit.instr place.copyValue
      Emit.write place
      return StaticType.value place.type) fun _ => True :=
    (keeps_instrs _).seq <| keeps_emit _ <| keeps_emit _ <| (keeps_instrs _).seq (keeps_store place _)
  refine (keeps_instrs _).seq <| (keeps_read place).seq ?_
  cases before with
  | true => cases wanted <;> exact steps
  | false =>
    cases wanted with
    | true => exact keeps_emit _ steps
    | false => exact steps

/-! ### Calls -/

theorem keeps_call (method : MethodRef) (receiver : Receiver) {arguments : List FieldType → Emit Unit}
    (passes : ∀ parameters, Emit.Keeps front (arguments parameters) fun _ => True) :
    Emit.Keeps front (Lowered.call site method receiver arguments) fun _ => True := by
  have calls : Emit.Keeps front (do
      arguments method.signature.parameters
      Emit.invoke (site.host.dispatch method) method
      return method.resultType) fun _ => True := (passes _).seq ((keeps_invoke ..).seq (.pure trivial))
  unfold Lowered.call
  cases receiver with
  | classRef => exact calls
  | object | implicit =>
    cases method.isStatic with
    | false => first | exact calls | exact keeps_emit _ calls
    | true => first | exact calls | exact keeps_emit _ calls

end Lowered

open Lowered in
mutual

/-- **Code for an expression leaves the code in front of it as it was**, and its branches are behind
that. -/
theorem Expr.keeps (front : List Step) (site : Site) (scope : Scope) :
    (expression : Expr) → (expression.lower site scope).Keeps front
  | .literal (.boolean value) _ => .boolean value
  | .literal (.int value) position | .literal (.long value) position | .literal (.float value) position
  | .literal (.double value) position | .literal (.char value) position
  | .literal (.string value) position | .literal .null position =>
    .ofValue position ((keeps_literal _).seq (.pure trivial))
  | .name name position => .ofQualifier (keeps_name ..) (keeps_namePlace ..)
  | .this position => .ofValue position (.check fun _ => keeps_emit _ (.pure trivial))
  | .member object name position =>
    have keeps := object.keeps front site scope
    .ofQualifier (keeps.qualifier.bind fun _ _ => keeps_member ..)
      (keeps.qualifier.bind fun _ _ => keeps_memberPlace ..)
  | .call none name arguments position =>
    .ofValue position <| .check fun _ => .check fun method =>
      keeps_call method .implicit (arguments_keeps front site scope arguments)
  | .call (some callee) name arguments position =>
    .ofValue position <| (callee.keeps front site scope).qualifier.bind fun _ _ =>
      .check fun (_, receiver) => .check fun _ => .check fun method =>
        keeps_call method receiver (arguments_keeps front site scope arguments)
  | .new type arguments position =>
    .ofValue position <| .check fun className => .check fun _ => .check fun _ =>
      (keeps_newObject className).seq <| (arguments_keeps front site scope arguments _).seq <|
        (keeps_invoke ..).seq (.pure trivial)
  | .newArray element length position =>
    .ofValue position <| .check fun type =>
      keeps_newArray type length.position (length.keeps front site scope)
  | .index array index position => .element (array.keeps front site scope) (index.keeps front site scope)
  | .assign target op value position => by
    refine .ofWanted fun wanted => ?_
    split
    · exact keeps_increment ..
    · exact keeps_assign op value _ position wanted (target.keeps front site scope)
        (value.keeps front site scope)
  | .update op before target position => by
    refine .ofWanted fun wanted => ?_
    split
    · exact keeps_updateVariable ..
    · exact keeps_update op before wanted position (target.keeps front site scope)
  | .unary .not operand position =>
    .ofCondition fun outcome => (operand.keeps front site scope).branches (!outcome)
  | .unary .minus operand position | .unary .plus operand position
  | .unary .complement operand position =>
    .ofValue position (keeps_unary _ position (operand.keeps front site scope))
  | .binary (.compare wanted) left right position =>
    .ofCondition fun outcome => .check fun _ => .check fun _ => .check fun plan =>
      (keeps_comparison wanted plan right (left.keeps front site scope) (right.keeps front site scope)
        outcome).bind fun _ isBehind => .pure (behind_singleton isBehind)
  | .binary (.compute op) left right position =>
    .compute op _ (left.keeps front site scope) (right.keeps front site scope)
  | .logical op left right position =>
    .ofCondition (keeps_branchesOf op (left.keeps front site scope).branches
      (right.keeps front site scope).branches)
  | .conditional test first second position =>
    .ofValue position <| .check fun _ => .check fun _ => .check fun type =>
      keeps_conditional type (test.keeps front site scope) (first.keeps front site scope)
        (second.keeps front site scope)
  | .cast type operand position =>
    .ofValue position <| .check fun target => keeps_cast target position (operand.keeps front site scope)
  | .instanceOf operand type position =>
    .ofValue position <| .check fun target =>
      keeps_instanceOf target position (operand.keeps front site scope)

/-- The code of arguments leaves the code in front of it as it was. -/
theorem arguments_keeps (front : List Step) (site : Site) (scope : Scope) :
    (arguments : List Expr) → ∀ parameters,
      Emit.Keeps front (lowerArguments site scope arguments parameters) fun _ => True
  | [], _ => .pure trivial
  | _ :: _, [] => .pure trivial
  | first :: rest, parameter :: parameters =>
    (keeps_argument site.host first parameter (first.keeps front site scope)).seq
      (arguments_keeps front site scope rest parameters)

end

end MethodPatch
