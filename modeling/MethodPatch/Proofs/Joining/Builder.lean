/-
**Joining is what nested operators mean.**

The code of an expression that joins strings makes one builder, appends its summands to it in order,
and takes its string. While it runs, the text of the builder is that of the summands so far. In the
end it is the text of all of them, which is what the nested operators mean.

* `Emit.Appends`, `Joiner.Does`: code that is appended, and what the machine does with it;
* `Joiner.Pushes`: code that pushes a value and has no effect;
* `Joiner.does_appendAll`: the text of the builder grows by those of the summands;
* `Expr.joins_correctly`: **joined strings have the value of the nested operators.**
-/

import MethodPatch.Proofs.Joining.Machine
import MethodPatch.Proofs.Probing.Expr

namespace MethodPatch

variable {V W α β : Type} {joiner : Joiner V W} {data : JoinData V W}

/-! ### Code that is appended -/

/-- Whatever an action generates, it appends instructions and constants and changes none. -/
def Emit.Appends (action : Emit α) : Prop :=
  ∀ ⦃before answer after⦄, Yields action before answer after →
    before.instrs <+: after.instrs ∧ before.body.pool.Grows after.body.pool

namespace Emit

theorem Appends.pure (answer : α) : Appends (Pure.pure answer) := by
  intro before _ after yields
  obtain ⟨_, rfl⟩ := yields_pure.mp yields
  exact ⟨List.prefix_refl _, .refl _⟩

theorem Appends.bind {action : Emit α} {next : α → Emit β} (here : Appends action)
    (behind : ∀ answer, Appends (next answer)) : Appends (action >>= next) := by
  intro before _ after yields
  obtain ⟨answer, middle, first, rest⟩ := yields_bind.mp yields
  obtain ⟨isPrefix, grows⟩ := here first
  obtain ⟨isLonger, growsOn⟩ := behind answer rest
  exact ⟨isPrefix.trans isLonger, grows.trans growsOn⟩

theorem Appends.forM {action : β → Emit Unit} (all : List β) (each : ∀ one ∈ all, Appends (action one)) :
    Appends (all.forM action) := by
  induction all with
  | nil => exact .pure ()
  | cons first rest ih =>
    obtain ⟨here, others⟩ := List.forall_mem_cons.mp each
    exact here.bind fun _ => ih others

/-- One instruction, and constants that it may refer to. -/
theorem appends_of_push {action : Emit α}
    (pushes : ∀ ⦃before answer after⦄, Yields action before answer after → ∃ pool instr,
      before.body.pool.Grows pool ∧ after = (before.withPool pool).push instr) : Appends action := by
  intro before _ after yields
  obtain ⟨pool, instr, grows, rfl⟩ := pushes yields
  exact ⟨by simp, grows⟩

theorem appends_instr (instr : Instr) : Appends (Emit.instr instr) :=
  appends_of_push fun _ _ _ yields => ⟨_, instr, .refl _, yields_instr.mp yields⟩

end Emit

/-! ### What the machine does -/

namespace Joiner

/-- The machine runs the code that an action generates, wherever it stands and with whatever constants
behind it, from given data to data that have a property. -/
def Does (joiner : Joiner V W) (action : Emit α) (data : JoinData V W)
    (holds : α → JoinData V W → Prop) : Prop :=
  ∀ ⦃before answer after⦄, Yields action before answer after → before.body.pool.Fits →
    ∀ ⦃code pool⦄, PartAt code before.size (after.instrs.drop before.size) →
      after.body.pool.Grows pool →
        ∃ last, holds answer last ∧ joiner.Leads code pool (before.size, data) (after.size, last)

/-- **An action pushes a value and has no effect**: builders that have been made on the way are all
that is new. -/
structure Pushes (joiner : Joiner V W) (action : Emit StaticType) (value : V) : Prop where
  appends : Emit.Appends action
  does : ∀ data : JoinData V W, joiner.Does action data fun _ last =>
    ∃ more, last = ⟨.value value :: data.stack, data.builders ++ more, data.world⟩

variable {holds : α → JoinData V W → Prop} {follows : β → JoinData V W → Prop}

theorem Does.pure {answer : α} (isSo : holds answer data) : joiner.Does (Pure.pure answer) data holds := by
  intro before _ after yields _ code pool _ _
  obtain ⟨rfl, rfl⟩ := yields_pure.mp yields
  exact ⟨data, isSo, .refl⟩

theorem Does.mono {action : Emit α} {weaker : α → JoinData V W → Prop}
    (does : joiner.Does action data holds) (imp : ∀ answer last, holds answer last → weaker answer last) :
    joiner.Does action data weaker := by
  intro before answer after yields fits code pool here grows
  obtain ⟨last, isSo, leads⟩ := does yields fits here grows
  exact ⟨last, imp answer last isSo, leads⟩

/-- Code behind code. -/
theorem Does.bind {action : Emit α} {next : α → Emit β} (appends : Emit.Appends action)
    (appendsNext : ∀ answer, Emit.Appends (next answer)) (does : joiner.Does action data holds)
    (behind : ∀ answer last, holds answer last → joiner.Does (next answer) last follows) :
    joiner.Does (action >>= next) data follows := by
  intro before _ after yields fits code pool here grows
  obtain ⟨answer, middle, first, rest⟩ := yields_bind.mp yields
  obtain ⟨⟨part, isMiddle⟩, grown⟩ := appends first
  obtain ⟨⟨others, isAfter⟩, grownOn⟩ := appendsNext answer rest
  have isPart : middle.instrs.drop before.size = part := by
    rw [← isMiddle, ← Generator.length_instrs, List.drop_left]
  have areOthers : after.instrs.drop middle.size = others := by
    rw [← isAfter, ← Generator.length_instrs, List.drop_left]
  have isWhole : after.instrs.drop before.size = part ++ others := by
    rw [← isAfter, ← isMiddle, List.append_assoc, ← Generator.length_instrs, List.drop_left]
  have isEnd : before.size + part.length = middle.size := by
    rw [← Generator.length_instrs, ← Generator.length_instrs, ← isMiddle, List.length_append]
  rw [isWhole] at here
  have further := here.right
  rw [isEnd, ← areOthers] at further
  obtain ⟨between, isSo, leads⟩ := does first fits (isPart ▸ here.left) (grownOn.trans grows)
  obtain ⟨last, isLast, leadsOn⟩ := behind answer between isSo rest (grown.fits fits) further grows
  exact ⟨last, isLast, leads.trans leadsOn⟩

/-- One instruction, and constants that it may refer to. -/
theorem does_of_push {action : Emit α} {last : JoinData V W}
    (pushes : ∀ ⦃before answer after⦄, Yields action before answer after → before.body.pool.Fits →
      ∃ pool instr, after = (before.withPool pool).push instr ∧ ∀ later, pool.Grows later →
        joiner.execute later instr (before.size, data) = some (before.size + 1, last)) :
    joiner.Does action data fun _ final => final = last := by
  intro before _ after yields fits code pool here grows
  obtain ⟨added, instr, rfl, executes⟩ := pushes yields fits
  have isPart : ((before.withPool added).push instr).instrs.drop before.size = [instr] := by
    rw [Generator.instrs_push, Generator.instrs_withPool, ← Generator.length_instrs, List.drop_left]
  rw [isPart] at here
  refine ⟨last, rfl, .single ?_⟩
  simp only [step, here.head, Option.bind_some, executes pool grows, Generator.size_push,
    Generator.size_withPool]

theorem does_instr {instr : Instr} {last : JoinData V W}
    (executes : ∀ pool index, joiner.execute pool instr (index, data) = some (index + 1, last)) :
    joiner.Does (Emit.instr instr) data fun _ final => final = last :=
  does_of_push fun _ _ _ yields _ =>
    ⟨_, instr, Emit.yields_instr.mp yields, fun pool _ => executes pool _⟩

theorem execute_of_perform {pool : Pool} {instr : Instr} {index : Nat} {last : JoinData V W}
    (performs : joiner.perform pool instr data = some last) :
    joiner.execute pool instr (index, data) = some (index + 1, last) := by
  rw [execute, performs]

theorem execute_of_others {pool : Pool} {instr : Instr} {state : Nat × JoinData V W}
    (nothing : joiner.perform pool instr state.2 = none) :
    joiner.execute pool instr state = joiner.others pool instr state := by
  rw [execute, nothing]

end Joiner

/-! ### Calls of builders -/

namespace Emit

/-- A call of a builder is one instruction, which refers to the method. -/
theorem yields_builderCall {call : BuilderCall} {before after : Generator} {done : Unit}
    (yields : Yields (Emit.invoke call.dispatch call.method) before done after) :
    ∃ pool index arguments results, before.body.pool.Grows pool ∧
      after = (before.withPool pool).push (.invoke call.dispatch index arguments results) ∧
      (before.body.pool.Fits → ∀ later, pool.Grows later → later.method? index =
        some (call.method.owner, call.method.name, call.method.signature.descriptor)) := by
  have isMethod : call.dispatch ≠ .interface := by cases call <;> nofun
  simp only [Emit.invoke, if_neg isMethod, yields_bind, yields_constant, yields_instr, yields_ite,
    yields_fail] at yields
  obtain ⟨index, _, ⟨pool, added, rfl⟩, ⟨_, _, _, failed, _⟩ | ⟨_, rfl⟩⟩ := yields
  · cases failed
  · have grows := Pool.growing_addMember .method call.method.owner call.method.name
      call.method.signature.descriptor before.body.pool
    rw [show Pool.addMember .method = Pool.addMethod from rfl, added] at grows
    refine ⟨pool, index, _, _, grows, rfl, fun fits later grown => ?_⟩
    exact Pool.method?_of_isMember (Pool.leaves_addMember .method _ _ _ _ _ _ _ fits added grown)

theorem appends_builderCall (call : BuilderCall) :
    Appends (Emit.invoke call.dispatch call.method) := by
  refine appends_of_push fun before _ after yields => ?_
  obtain ⟨pool, index, _, _, grows, rfl, _⟩ := yields_builderCall yields
  exact ⟨pool, _, grows, rfl⟩

theorem yields_newBuilder {before after : Generator} {done : Unit}
    (yields : Yields (Emit.classConstant builderClass >>= fun index => Emit.instr (.new index)) before
      done after) :
    ∃ pool index, before.body.pool.Grows pool ∧ after = (before.withPool pool).push (.new index) ∧
      (before.body.pool.Fits → ∀ later, pool.Grows later →
        later.className? index = some builderClass) := by
  simp only [Emit.classConstant, yields_bind, yields_constant, yields_instr] at yields
  obtain ⟨index, _, ⟨pool, added, rfl⟩, rfl⟩ := yields
  have grows := Pool.growing_addClass builderClass before.body.pool
  rw [added] at grows
  refine ⟨pool, index, grows, rfl, fun fits later grown => ?_⟩
  exact Pool.className?_of_isClass (Pool.leaves_addClass _ _ _ _ _ fits added grown)

/-- A new builder is copied before it is called for the first time. -/
theorem emptyBuilder_eq : Emit.emptyBuilder =
    (Emit.classConstant builderClass >>= fun index => Emit.instr (.new index)) >>= fun _ =>
      Emit.instr (.stack .dup) >>= fun _ =>
        Emit.invoke BuilderCall.empty.dispatch BuilderCall.empty.method := by
  simp only [Emit.emptyBuilder, Emit.newObject, bind_assoc]
  rfl

theorem appends_newBuilder :
    Appends (Emit.classConstant builderClass >>= fun index => Emit.instr (.new index)) := by
  refine appends_of_push fun before _ after yields => ?_
  obtain ⟨pool, index, grows, rfl, _⟩ := yields_newBuilder yields
  exact ⟨pool, _, grows, rfl⟩

theorem appends_emptyBuilder : Appends Emit.emptyBuilder := by
  rw [emptyBuilder_eq]
  exact appends_newBuilder.bind fun _ => (appends_instr _).bind fun _ => appends_builderCall .empty

theorem appends_append (type : StaticType) (position : Position) :
    Appends (Emit.append type position) := by
  unfold Emit.append
  cases appendedType? type with
  | none => exact fun _ _ _ yields => absurd yields yields_throw
  | some parameter => exact appends_builderCall (.append parameter)

end Emit

namespace Joiner

theorem does_builderCall (call : BuilderCall) {last : JoinData V W} (isCall : call ∈ BuilderCall.all)
    (called : joiner.call data call = some last) :
    joiner.Does (Emit.invoke call.dispatch call.method) data fun _ final => final = last := by
  refine does_of_push fun before _ after yields fits => ?_
  obtain ⟨pool, index, _, _, _, rfl, isMethod⟩ := Emit.yields_builderCall yields
  refine ⟨pool, _, rfl, fun later grows => execute_of_perform ?_⟩
  simp only [perform_invoke, isMethod fits later grows, builderCall?_method isCall, Option.bind_eq_bind,
    Option.bind_some, called]

/-- The data with a builder on top that has been made on them, and builders made since. -/
def building (data : JoinData V W) (text : String) (more : List String) : JoinData V W :=
  ⟨.builder data.builders.length :: data.stack, data.builders ++ text :: more, data.world⟩

theorem does_emptyBuilder : joiner.Does Emit.emptyBuilder data fun _ last => last = building data "" [] := by
  have made : joiner.Does (Emit.classConstant builderClass >>= fun index => Emit.instr (.new index)) data
      fun _ final => final = building data "" [] := by
    refine does_of_push fun before _ after yields fits => ?_
    obtain ⟨pool, index, _, rfl, isClass⟩ := Emit.yields_newBuilder yields
    refine ⟨pool, _, rfl, fun later grows => execute_of_perform ?_⟩
    rw [perform_new (isClass fits later grows)]
    rfl
  rw [Emit.emptyBuilder_eq]
  refine made.bind Emit.appends_newBuilder
    (fun _ => (Emit.appends_instr _).bind fun _ => Emit.appends_builderCall _) ?_
  rintro _ _ rfl
  refine (does_instr fun _ _ => execute_of_perform rfl).bind (Emit.appends_instr _)
    (fun _ => Emit.appends_builderCall _) ?_
  rintro _ _ rfl
  exact does_builderCall _ (by decide) rfl

/-- **A value is appended to the builder beneath it.** -/
theorem does_append {type : StaticType} {position : Position} {text : String} {more : List String}
    (value : V) : joiner.Does (Emit.append type position)
      { building data text more with stack := .value value :: (building data text more).stack }
      fun _ last => last = building data (text ++ joiner.conversion.text type value) more := by
  unfold Emit.append
  cases isParameter : appendedType? type with
  | none => exact fun _ _ _ yields => absurd yields yields_throw
  | some parameter =>
    refine does_builderCall (.append parameter) (mem_all_of_appended isParameter) ?_
    simp [call, building, joiner.conversion.appended_eq_text isParameter]

theorem does_builtString {text : String} {more : List String} :
    joiner.Does Emit.builtString (building data text more) fun _ last => last =
      ⟨.value (joiner.conversion.ofString text) :: data.stack, data.builders ++ text :: more,
        data.world⟩ :=
  does_builderCall .built (by decide) (by simp [call, building])

end Joiner

/-! ### Summands -/

variable {site : Site} {scope : Scope}

/-- Code that leaves a value leaves one of the type that is known. -/
theorem Expr.staticType_of_yields {expression : Expr} {before after : Generator} {type : StaticType}
    (yields : Yields (expression.lower site scope).value before type after) :
    expression.staticType site scope = .ok type := by
  have answered : (expression.lower site scope).value.result before = .ok type :=
    congrArg Prod.fst yields
  obtain ⟨isKnown, _⟩ | ⟨_, failed, _⟩ := (Expr.foretold site scope expression).value before
  · rw [answered] at isKnown
    exact isKnown.symm
  · rw [answered] at failed
    cases failed

namespace Joiner

theorem Pushes.appendAlone {operand : Expr} {value : V}
    (pushes : joiner.Pushes (operand.lower site scope).value value) :
    Emit.Appends (operand.appendAlone site scope) :=
  pushes.appends.bind fun _ => Emit.appends_append ..

/-- An operand is evaluated and its text is appended. -/
theorem Pushes.does_appendAlone {operand : Expr} {value : V} {text : String} {more : List String}
    (pushes : joiner.Pushes (operand.lower site scope).value value) :
    joiner.Does (operand.appendAlone site scope) (building data text more) fun _ last =>
      ∃ others, last =
        building data (text ++ operand.textOf joiner.conversion site scope value) others := by
  -- The type by which the text is appended is the one that is known of the operand.
  have typed : joiner.Does (operand.lower site scope).value (building data text more) fun type last =>
      operand.staticType site scope = .ok type ∧ ∃ others, last =
        { building data text others with stack := .value value :: (building data text others).stack } := by
    intro before type after yields fits code pool here grows
    obtain ⟨last, ⟨others, rfl⟩, leads⟩ := pushes.does _ yields fits here grows
    refine ⟨_, ⟨Expr.staticType_of_yields yields, more ++ others, ?_⟩, leads⟩
    simp [building]
  refine typed.bind pushes.appends (fun _ => Emit.appends_append ..) ?_
  rintro type _ ⟨isType, others, rfl⟩
  refine (does_append value).mono ?_
  rintro _ _ rfl
  exact ⟨others, by rw [Expr.textOf, isType]⟩

/-- **The text of the builder grows by the texts of the summands in order.** -/
theorem does_appendAll {value : Expr → V} {operands : List Expr} {text : String} {more : List String}
    (pushes : ∀ operand ∈ operands, joiner.Pushes (operand.lower site scope).value (value operand)) :
    joiner.Does (operands.forM (·.appendAlone site scope)) (building data text more) fun _ last =>
      ∃ others, last = building data (text ++ String.join (operands.map fun operand =>
        operand.textOf joiner.conversion site scope (value operand))) others := by
  induction operands generalizing text more with
  | nil => exact .pure ⟨more, by simp⟩
  | cons first rest ih =>
    obtain ⟨here, behind⟩ := List.forall_mem_cons.mp pushes
    refine here.does_appendAlone.bind here.appendAlone
      (fun _ => .forM rest fun operand isIn => (behind operand isIn).appendAlone) ?_
    rintro _ _ ⟨others, rfl⟩
    refine (ih behind).mono ?_
    rintro _ _ ⟨last, rfl⟩
    exact ⟨last, by simp [String.append_assoc]⟩

/-- **Joining pushes the texts of the operands in order**, if each of them pushes its value. -/
theorem pushes_joinAll {value : Expr → V} {operands : List Expr}
    (pushes : ∀ operand ∈ operands, joiner.Pushes (operand.lower site scope).value (value operand)) :
    joiner.Pushes (Emit.joinAll site scope operands)
      (joiner.conversion.ofString (String.join (operands.map fun operand =>
        operand.textOf joiner.conversion site scope (value operand)))) := by
  have appendsAll : Emit.Appends (operands.forM (·.appendAlone site scope)) :=
    .forM operands fun operand isIn => (pushes operand isIn).appendAlone
  have appendsBuilt : Emit.Appends (Emit.builtString >>= fun _ =>
      (Pure.pure (.value .string) : Emit StaticType)) :=
    (Emit.appends_builderCall .built).bind fun _ => .pure _
  refine ⟨Emit.appends_emptyBuilder.bind fun _ => appendsAll.bind fun _ => appendsBuilt, fun data => ?_⟩
  refine does_emptyBuilder.bind Emit.appends_emptyBuilder
    (fun _ => appendsAll.bind fun _ => appendsBuilt) ?_
  rintro _ _ rfl
  refine (does_appendAll pushes).bind appendsAll (fun _ => appendsBuilt) ?_
  rintro _ _ ⟨others, rfl⟩
  refine does_builtString.bind (Emit.appends_builderCall .built) (fun _ => .pure _) ?_
  rintro _ _ rfl
  rw [String.empty_append]
  exact .pure ⟨_, rfl⟩

end Joiner

/-- **Joined strings have the value of the nested operators.** Let a sum have the type of strings. Its
code makes one builder, appends the summands in order, each of them once, and takes the string. A sum is
taken apart, into the summands of its left operand and those of its right operand behind them, if its
own type is that of strings; every other expression is one summand, so no sum of numbers is taken apart.
If the code of each summand pushes a value and has no effect, then so does the whole, and the value is
that of the nested sums, each of which evaluates its operands and puts their texts together. -/
theorem Expr.joins_correctly (joiner : Joiner V W) (site : Site) (scope : Scope) {left right : Expr}
    {position : Position} {value : Expr → V}
    (isString : (Expr.binary (.compute (.arithmetic .add)) left right position).staticType site scope =
      .ok (.value .string))
    (pushes : ∀ operand ∈
        (Expr.binary (.compute (.arithmetic .add)) left right position).summands site scope,
      joiner.Pushes (operand.lower site scope).value (value operand)) :
    let sum := Expr.binary (.compute (.arithmetic .add)) left right position
    (sum.lower site scope).value = Emit.joinAll site scope (sum.summands site scope) ∧
      (∀ inner : Expr, inner.isJoin site scope = true ↔
        (∃ left right position, inner = .binary (.compute (.arithmetic .add)) left right position) ∧
          inner.staticType site scope = .ok (.value .string)) ∧
      (∀ op left right position,
        (Expr.binary (.compute op) left right position).isJoin site scope = true →
          (Expr.binary (.compute op) left right position).summands site scope =
            left.summands site scope ++ right.summands site scope) ∧
      (∀ inner : Expr, inner.isJoin site scope = false → inner.summands site scope = [inner]) ∧
      joiner.Pushes (sum.lower site scope).value
        (sum.joinedValue joiner.conversion site scope value) := by
  intro sum
  have joins : sum.isJoin site scope = true := Expr.isJoin_of_staticType rfl isString
  refine ⟨Expr.value_eq joins, fun inner => Expr.isJoin_iff_staticType,
    fun _ _ _ _ => Expr.summands_of_isJoin, fun _ => Expr.summands_of_not_isJoin, ?_⟩
  rw [Expr.value_eq joins, Expr.joinedValue_eq joins]
  exact Joiner.pushes_joinAll pushes

/-! ### A sum of numbers among strings -/

/-- Numbers, and strings or `null`. -/
inductive PlainValue where
  | number (number : Int32)
  | text (text : Option String)

/-- Constants, and sums of numbers. -/
def plainJoiner : Joiner PlainValue Unit where
  conversion :=
    { null := .text none
      ofString := fun text => .text (some text)
      primitive := fun _ value =>
        match value with
        | .number number => toString number
        | .text _ => ""
      reference := fun value =>
        match value with
        | .text (some text) => text
        | _ => "null"
      reference_null := rfl
      reference_ofString := fun _ => rfl }
  others pool instr state :=
    let pushed (value : PlainValue) (rest : List (Item PlainValue)) :=
      some (state.1 + 1, { state.2 with stack := .value value :: rest })
    match instr, state.2.stack with
    | .aconstNull, stack => pushed (.text none) stack
    | .iconst value, stack => pushed (.number value.toInt32) stack
    | .ldc index, stack =>
      match pool.get? index.toNat with
      | some (.string text) => pushed (.text (pool.text? text)) stack
      | _ => none
    | .arithmetic .add .int, .value (.number right) :: .value (.number left) :: rest =>
      pushed (.number (left + right)) rest
    | _, _ => none

theorem execute_ldc {pool : Pool} {index text : PoolIndex} {here : Nat} {data : JoinData PlainValue Unit}
    (found : pool.get? index.toNat = some (.string text)) :
    plainJoiner.execute pool (.ldc index) (here, data) =
      some (here + 1, { data with stack := .value (.text (pool.text? text)) :: data.stack }) := by
  rw [Joiner.execute_of_others rfl]
  show (match pool.get? index.toNat with
    | some (.string text) =>
      some (here + 1, { data with stack := .value (PlainValue.text (pool.text? text)) :: data.stack })
    | _ => none) = _
  rw [found]

/-- A string, a sum of numbers, and `null`: `"a" + (1 + 2) + null`. -/
def mixedSum : Expr :=
  let plus (left right : Expr) : Expr := .binary (.compute (.arithmetic .add)) left right .start
  plus (plus (.literal (.string "a") .start)
    (plus (.literal (.int 1) .start) (.literal (.int 2) .start))) (.literal .null .start)

theorem pushes_text (text : String) : plainJoiner.Pushes
    ((Expr.literal (.string text) .start).lower .detached (.root [])).value (.text (some text)) := by
  have refers : ∀ ⦃before answer after⦄, Yields (Emit.literal (.string text)) before answer after →
      ∃ pool index, before.body.pool.Grows pool ∧ after = (before.withPool pool).push (.ldc index) ∧
        (before.body.pool.Fits → ∀ later, pool.Grows later → Pool.IsString text later index) := by
    intro before _ after yields
    simp only [Emit.literal, yields_bind, Emit.yields_constant, Emit.yields_instr] at yields
    obtain ⟨index, _, ⟨pool, added, rfl⟩, rfl⟩ := yields
    have grows := Pool.growing_addString text before.body.pool
    rw [added] at grows
    exact ⟨pool, index, grows, rfl,
      fun fits later grown => Pool.leaves_addString text _ _ _ _ fits added grown⟩
  have appends : Emit.Appends (Emit.literal (.string text)) := by
    refine Emit.appends_of_push fun before _ after yields => ?_
    obtain ⟨pool, index, grows, rfl, _⟩ := refers yields
    exact ⟨pool, _, grows, rfl⟩
  refine ⟨appends.bind fun _ => .pure _, fun data => ?_⟩
  have loads : plainJoiner.Does (Emit.literal (.string text)) data fun _ last =>
      last = { data with stack := .value (.text (some text)) :: data.stack } := by
    refine Joiner.does_of_push fun before _ after yields fits => ?_
    obtain ⟨pool, index, _, rfl, isString⟩ := refers yields
    refine ⟨pool, _, rfl, fun later grows => ?_⟩
    obtain ⟨first, isText, found⟩ := isString fits later grows
    rw [execute_ldc found, Pool.text?_of_isText isText]
  refine loads.bind appends (fun _ => .pure _) ?_
  rintro _ _ rfl
  exact .pure ⟨[], by simp⟩

/-- An instruction of the machine for constants and sums. -/
theorem does_plain {instr : Instr} {next : Emit α} {data : JoinData PlainValue Unit}
    (last : JoinData PlainValue Unit) {follows : α → JoinData PlainValue Unit → Prop}
    (appends : Emit.Appends next)
    (executes : ∀ pool index, plainJoiner.execute pool instr (index, data) = some (index + 1, last))
    (behind : plainJoiner.Does next last follows) :
    plainJoiner.Does (Emit.instr instr >>= fun _ => next) data follows := by
  refine (Joiner.does_instr executes).bind (Emit.appends_instr instr) (fun _ => appends) ?_
  rintro _ _ rfl
  exact behind

theorem pushes_null : plainJoiner.Pushes
    ((Expr.literal .null .start).lower .detached (.root [])).value (.text none) := by
  refine ⟨(Emit.appends_instr .aconstNull).bind fun _ => .pure _, fun data => ?_⟩
  refine does_plain (⟨.value (.text none) :: data.stack, data.builders, data.world⟩) (.pure _)
    (fun _ _ => rfl) (.pure ⟨[], ?_⟩)
  rw [List.append_nil]

theorem pushes_three : plainJoiner.Pushes
    ((Expr.binary (.compute (.arithmetic .add)) (.literal (.int 1) .start) (.literal (.int 2) .start)
      .start).lower .detached (.root [])).value (.number 3) := by
  have isCode : ((Expr.binary (.compute (.arithmetic .add)) (.literal (.int 1) .start)
      (.literal (.int 2) .start) .start).lower .detached (.root [])).value = (do
        Emit.instr (.iconst 1)
        Emit.instr (.iconst 2)
        Emit.instr (.arithmetic .add .int)
        return .value .int) := rfl
  have appendsLast : Emit.Appends (Emit.instr (.arithmetic .add .int) >>= fun _ =>
      (Pure.pure (.value .int) : Emit StaticType)) :=
    (Emit.appends_instr _).bind fun _ => .pure _
  have appendsRest := (Emit.appends_instr (.iconst 2)).bind fun _ => appendsLast
  rw [isCode]
  refine ⟨(Emit.appends_instr _).bind fun _ => appendsRest, fun data => ?_⟩
  let pushed (values : List (Item PlainValue)) : JoinData PlainValue Unit :=
    ⟨values ++ data.stack, data.builders, data.world⟩
  refine does_plain (pushed [.value (.number 1)]) appendsRest (fun _ _ => rfl) ?_
  refine does_plain (pushed [.value (.number 2), .value (.number 1)]) appendsLast
    (fun _ _ => rfl) ?_
  refine does_plain (pushed [.value (.number 3)]) (.pure _) (fun _ _ => rfl) (.pure ⟨[], ?_⟩)
  rw [List.append_nil]
  rfl

/-- What the summands of `mixedSum` mean. -/
def plainValue : Expr → PlainValue
  | .literal (.string text) _ => .text (some text)
  | .literal _ _ => .text none
  | _ => .number 3

/-- `"a" + (1 + 2) + null` is `"a3null"`: three summands, of which one is a sum. -/
theorem Expr.joins_correctly_mixedSum :
    mixedSum.staticType .detached (.root []) = .ok (.value .string) ∧
      (mixedSum.summands .detached (.root [])).length = 3 ∧
      (∀ operand ∈ mixedSum.summands .detached (.root []),
        plainJoiner.Pushes (operand.lower .detached (.root [])).value (plainValue operand)) ∧
      ∃ after last, Yields (mixedSum.lower .detached (.root [])).value (.ofPool .detached .empty)
          (.value .string) after ∧ last.stack = [.value (.text (some "a3null"))] ∧
        plainJoiner.Leads after.instrs after.body.pool (0, ⟨[], [], ()⟩) (after.size, last) := by
  have pushes : ∀ operand ∈ mixedSum.summands .detached (.root []),
      plainJoiner.Pushes (operand.lower .detached (.root [])).value (plainValue operand) := by
    show ∀ operand ∈ ([_, _, _] : List Expr), _
    simp only [List.forall_mem_cons]
    exact ⟨pushes_text "a", pushes_three, pushes_null, List.forall_mem_nil _⟩
  obtain ⟨_, _, _, _, whole⟩ := Expr.joins_correctly plainJoiner .detached (.root []) rfl pushes
  obtain ⟨after, yields⟩ : ∃ after, Yields (mixedSum.lower .detached (.root [])).value
      (.ofPool .detached .empty) (.value .string) after := ⟨_, rfl⟩
  obtain ⟨last, ⟨more, rfl⟩, leads⟩ := whole.does ⟨[], [], ()⟩ yields (Pool.fits_ofReserved 1)
    (.refl after.instrs) (.refl _)
  exact ⟨rfl, rfl, pushes, after, _, yields, rfl, leads⟩

end MethodPatch
