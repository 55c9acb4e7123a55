/-
**Visited operators, assignments and calls.**

Operators find the types of their operands by probes before they visit them. Some of these visits end
there if the visitor probes itself; behind that point visits only have to generate what is lowered.
The facts are about operands that agree, and say the same of the whole.

* `agrees_relation`, `agrees_binary`, `agrees_unary`: operators;
* `agrees_assign`, `agrees_update`: places that are stored in;
* `agrees_conditional`, `agrees_cast`, `agrees_call`: other expressions.
-/

import MethodPatch.Proofs.Probing.Expr
import MethodPatch.Proofs.Visiting.Visited

namespace MethodPatch

namespace Visit.Agrees

/-- Two probes give what is known of two operands. -/
theorem probeBoth {α γ δ : Type} {look : γ → δ} {first second : Visit α}
    {knownFirst knownSecond : Except SourceError α} {next : α → α → Visit γ}
    {rest : α × α → Emit γ} {following : α × α → Except SourceError δ}
    (isFirst : Probes id first knownFirst) (isSecond : Probes id second knownSecond)
    (behind : ∀ one other, knownFirst = .ok one → knownSecond = .ok other →
      Agrees look (next one other) (rest (one, other)) (following (one, other))) :
    Agrees look (do
        let one ← Visit.probe first
        let other ← Visit.probe second
        next one other)
      (liftExcept (do return (← knownFirst, ← knownSecond)) >>= rest)
      ((do return (← knownFirst, ← knownSecond)) >>= following) := by
  have whole : Agrees look (do
        let one ← Visit.probe first
        let other ← Visit.probe second
        next one other) (do
        let one ← liftExcept knownFirst
        let other ← liftExcept knownSecond
        rest (one, other)) (do
        let one ← knownFirst
        let other ← knownSecond
        following (one, other)) :=
    probe isFirst fun one isOne => probe isSecond fun other isOther =>
      behind one other isOne isOther
  cases knownFirst <;> cases knownSecond <;> exact whole

end Visit.Agrees

/-- Two probes on the way of a visit that generates. -/
theorem Visit.Generates.probeBoth {α γ : Type} {first second : Visit α}
    {knownFirst knownSecond : Except SourceError α} {next : α → α → Visit γ} {rest : α × α → Emit γ}
    (isFirst : Probes id first knownFirst) (isSecond : Probes id second knownSecond)
    (behind : ∀ one other, Generates (next one other) (rest (one, other))) :
    Generates (do
        let one ← Visit.probe first
        let other ← Visit.probe second
        next one other)
      (liftExcept (do return (← knownFirst, ← knownSecond)) >>= rest) := by
  have whole := (Generates.probe isFirst).bind fun one => (Generates.probe isSecond).bind (behind one)
  cases knownFirst <;> cases knownSecond <;> exact whole

namespace Visited

open Visit

variable {first second third : Visited} {firstLowered secondLowered thirdLowered : Lowered}
  {firstTyped secondTyped thirdTyped : Typed}
  {firstPosition secondPosition thirdPosition position : Position} {site : Site}

/-! ### Operands -/

theorem agrees_convertedTo (operand : first.Agrees firstLowered firstTyped firstPosition)
    (type : StaticType) :
    Visit.Agrees id (first.convertedTo type) (firstLowered.convertedTo type)
      (firstTyped.value.map fun _ => ()) := by
  refine operand.value.made fun source => ?_
  cases type with
  | value target => exact .instrs _
  | void => exact .pure ()
  | null => exact .pure ()

theorem generates_argument (operand : first.Agrees firstLowered firstTyped firstPosition)
    (host : Host) (argument : Expr) (parameter : FieldType) :
    Generates (first.argument host argument parameter)
      (firstLowered.argument host argument parameter) :=
  .after operand.value fun _ => (Generates.lift _).bind fun _ => (Visit.Agrees.instrs _).generates

/-! ### Operators -/

theorem generates_comparison (isFirst : first.Agrees firstLowered firstTyped firstPosition)
    (isSecond : second.Agrees secondLowered secondTyped secondPosition) (wanted : Comparison)
    (plan : ComparisonPlan) (expression : Expr) (outcome : Bool) :
    Generates (Visited.comparison wanted plan expression first second outcome)
      (Lowered.comparison wanted plan expression firstLowered secondLowered outcome) := by
  have both : ∀ test, Generates (do
      let _ ← first.value
      let _ ← second.value
      Visit.branch test) (do
      let _ ← firstLowered.value
      let _ ← secondLowered.value
      Emit.branch test) := fun test =>
    .after isFirst.value fun _ => .after isSecond.value fun _ => (Visit.Agrees.branch test).generates
  cases plan with
  | leftWithNull => exact .after isFirst.value fun _ => (Visit.Agrees.branch _).generates
  | rightWithNull => exact .after isSecond.value fun _ => (Visit.Agrees.branch _).generates
  | identity => exact both _
  | booleans => exact both _
  | numbers type =>
    refine .after (agrees_convertedTo isFirst _) fun _ => ?_
    split
    · exact (Visit.Agrees.branch _).generates
    · exact .after (agrees_convertedTo isSecond _) fun _ => (inert_compareNumbers type _ _).generates

theorem agrees_relation (isFirst : first.Agrees firstLowered firstTyped firstPosition)
    (isSecond : second.Agrees secondLowered secondTyped secondPosition) (wanted : Comparison)
    (expression : Expr) (position : Position) (outcome : Bool) :
    Visit.Agrees (fun _ => ()) (Visited.relation wanted expression first second position outcome)
      (do
        let firstType ← liftExcept firstTyped.value
        let secondType ← liftExcept secondTyped.value
        let plan ← liftExcept (comparisonPlan wanted firstType secondType position)
        return [← Lowered.comparison wanted plan expression firstLowered secondLowered outcome])
      (do
        let firstType ← firstTyped.value
        let secondType ← secondTyped.value
        let _ ← comparisonPlan wanted firstType secondType position
        return ()) :=
  .probe isFirst.value.probes fun _ _ => .probe isSecond.value.probes fun _ _ =>
    .check fun plan _ => .early
      ((generates_comparison isFirst isSecond wanted plan expression outcome).bind fun jump =>
        .pure [jump]) []

theorem agrees_joined (isFirst : first.Agrees firstLowered firstTyped firstPosition)
    (isSecond : second.Agrees secondLowered secondTyped secondPosition) :
    Visit.Agrees id (Visited.joined first second) (Lowered.joined firstLowered secondLowered)
      (.ok (.value .string)) :=
  .early (generates_emptyBuilder.bind fun _ => isFirst.append.bind fun _ =>
    isSecond.append.bind fun _ => .after inert_builtString fun _ => .pure _) _

theorem agrees_compute (isFirst : first.Agrees firstLowered firstTyped firstPosition)
    (isSecond : second.Agrees secondLowered secondTyped secondPosition) (plan : ComputePlan) :
    Visit.Agrees id (Visited.compute plan first second)
      (Lowered.compute plan firstLowered secondLowered) (.ok (.value plan.result)) :=
  .early (.after (agrees_convertedTo isFirst _) fun _ =>
    .after (agrees_convertedTo isSecond _) fun _ => .after (.instr _) fun _ => .pure _) _

/-- An operator on two values, as it is lowered. -/
theorem agrees_binary (isFirst : first.Agrees firstLowered firstTyped firstPosition)
    (isSecond : second.Agrees secondLowered secondTyped secondPosition) (op : ComputeOp)
    (position : Position) :
    Visit.Agrees id (Visited.binary op first second position)
      (do
        let (firstType, secondType) ← liftExcept (do
          return (← firstTyped.value, ← secondTyped.value))
        if joinsStrings op firstType secondType then Lowered.joined firstLowered secondLowered
        else
          let plan ← liftExcept (computePlan op firstType secondType position)
          Lowered.compute plan firstLowered secondLowered)
      (do
        let (firstType, secondType) ← (do return (← firstTyped.value, ← secondTyped.value))
        Typed.computed op firstType secondType position) := by
  refine .probeBoth isFirst.value.probes isSecond.value.probes fun firstType secondType _ _ => ?_
  dsimp only
  unfold Typed.computed
  split
  · exact agrees_joined isFirst isSecond
  · exact .check fun plan _ => agrees_compute isFirst isSecond plan

/-- An operator on two values is appended as it is lowered. -/
theorem generates_appendBinary (isFirst : first.Agrees firstLowered firstTyped firstPosition)
    (isSecond : second.Agrees secondLowered secondTyped secondPosition) (op : ComputeOp)
    (position : Position) {value : Emit StaticType}
    (isValue : Generates (Visited.binary op first second position) value) :
    Generates (Visited.appendBinary op first second position)
      (do
        let (firstType, secondType) ← liftExcept (do
          return (← firstTyped.value, ← secondTyped.value))
        if joinsStrings op firstType secondType then
          firstLowered.append
          secondLowered.append
        else Emit.append (← value) position) := by
  refine .probeBoth isFirst.value.probes isSecond.value.probes fun firstType secondType => ?_
  dsimp only
  split
  · exact isFirst.append.bind fun _ => isSecond.append
  · exact isValue.bind fun type => (agrees_append type position).generates

theorem agrees_unary (operand : first.Agrees firstLowered firstTyped firstPosition) (op : UnaryOp)
    (position : Position) :
    Visit.Agrees id (Visited.unary op first position) (Lowered.unary op firstLowered position) (do
      let type ← unaryType op (← firstTyped.value) position
      return .value type.type) := by
  refine operand.value.bind fun source => .check fun type _ => .after (.instrs _) fun _ => ?_
  cases op with
  | minus => exact .after (.instr _) fun _ => .pure _
  | plus => exact .pure _
  | not => exact .pure _
  | complement =>
    cases type with
    | long => exact .after (inert_number _ _ _) fun _ => .after (.instr _) fun _ => .pure _
    | _ => exact .after (inert_number _ _ _) fun _ => .after (.instr _) fun _ => .pure _

/-! ### Places -/

theorem agrees_combine (value : first.Agrees firstLowered firstTyped firstPosition) (op : ComputeOp)
    (target : FieldType) (position : Position) :
    Visit.Agrees id (Visited.combine op target first position)
      (do Lowered.combine op target (← liftExcept firstTyped.value) firstLowered position)
      (do
        let type ← firstTyped.value
        if op = .arithmetic .add ∧ target.isString then requireValue type position
        else
          let _ ← computePlan op (.value target) type position) := by
  refine .probe value.value.probes fun type isType => ?_
  unfold Lowered.combine
  split
  · refine .after inert_builderOfString fun _ => ?_
    show Visit.Agrees id _ _
      ((Except.ok type : Except SourceError StaticType) >>= (requireValue · position))
    rw [← isType]
    exact value.value.bind fun source =>
      (agrees_append source position).followed fun _ => inert_builtString
  · refine .check fun plan _ => .after (.instrs _) fun _ => ?_
    have converted := agrees_convertedTo value (.value plan.right)
    rw [isType] at converted
    exact .after converted fun _ => .after (.instr _) fun _ => .instrs _

theorem agrees_assign (target : first.Agrees firstLowered firstTyped firstPosition)
    (value : second.Agrees secondLowered secondTyped secondPosition) (op : Option ComputeOp)
    (source : Expr) (position : Position) :
    Visit.Agrees id (Visited.assign site first op source second position)
      (Lowered.assign site firstLowered op source secondTyped.value secondLowered position true)
      (do
        let place ← firstTyped.place
        let valueType ← secondTyped.value
        Typed.assignment site place op source valueType position) := by
  refine target.place.bind fun place => ?_
  have stored : Visit.Agrees id (do
        Visit.instr place.copyValue
        Visit.write place
        return StaticType.value place.type) (do
        Emit.instr place.copyValue
        Emit.write place
        return StaticType.value place.type) (.ok (.value place.type)) :=
    .after (.instr _) fun _ => .after (inert_write place) fun _ => .pure _
  cases op with
  | none =>
    exact value.value.bind fun type => .check fun instrs _ => .after (.instrs _) fun _ => stored
  | some op =>
    refine .after (.instrs _) fun _ => .after (inert_read place) fun _ => ?_
    have combined := (agrees_combine value op place.type position).giving fun _ => stored
    rw [bind_assoc] at combined
    simp only [Typed.assignment_combined]
    exact (congrArg (Visit.Agrees _ _ _) (map_bind _ _ _)).mp combined

/-- `++` or `--` of a place. -/
theorem agrees_update (target : first.Agrees firstLowered firstTyped firstPosition) (op : UpdateOp)
    (before : Bool) (position : Position) :
    Visit.Agrees id (Visited.update op before first position)
      (Lowered.update op before firstLowered position true) (do
        let place ← firstTyped.place
        let _ ← updateType op place.type position
        return .value place.type) := by
  refine target.place.bind fun place => .check fun type _ => .after (.instrs _) fun _ => ?_
  cases before with
  | false =>
    exact .after (inert_read place) fun _ => .after (.instr _) fun _ => .after (.instrs _) fun _ =>
      .after (.instr _) fun _ => .after (.instr _) fun _ => .after (.instrs _) fun _ =>
        .after (inert_write place) fun _ => .pure _
  | true =>
    exact .after (inert_read place) fun _ => .after (.instrs _) fun _ =>
      .after (.instr _) fun _ => .after (.instr _) fun _ => .after (.instrs _) fun _ =>
        .after (.instr _) fun _ => .after (inert_write place) fun _ => .pure _

theorem agrees_updateVariable (op : UpdateOp) (before : Bool) (slot : Slot) :
    Visit.Agrees id (Visited.updateVariable op before slot)
      (Lowered.updateVariable op before slot true) (.ok (.value .int)) := by
  cases before with
  | false => exact .after (.instr _) fun _ => .after (.instr _) fun _ => .pure _
  | true => exact .after (.instr _) fun _ => .after (.instr _) fun _ => .pure _

theorem agrees_increment (slot : Slot) (delta : Int16) :
    Visit.Agrees id (Visited.increment slot delta) (Lowered.increment slot delta true)
      (.ok (.value .int)) :=
  .after (.instr _) fun _ => .after (.instr _) fun _ => .pure _

/-! ### Conditionals, casts and calls -/

/-- A conditional whose branches have a common type. -/
theorem agrees_conditional (test : first.Agrees firstLowered firstTyped firstPosition)
    (isSecond : second.Agrees secondLowered secondTyped secondPosition)
    (isThird : third.Agrees thirdLowered thirdTyped thirdPosition) (position : Position) :
    Visit.Agrees id (Visited.conditional site first second third position)
      (do
        let secondType ← liftExcept secondTyped.value
        let thirdType ← liftExcept thirdTyped.value
        let type ← liftExcept (site.host.conditionalType secondType thirdType position)
        Lowered.conditional firstLowered secondLowered thirdLowered type)
      (do
        let secondType ← secondTyped.value
        let thirdType ← thirdTyped.value
        let type ← site.host.conditionalType secondType thirdType position
        firstTyped.condition firstPosition
        return type) :=
  .probe isSecond.value.probes fun _ _ => .probe isThird.value.probes fun _ _ =>
    .check fun type _ => (test.branches false).bind fun _ => .early
      (.after .depth fun _ => .after (agrees_convertedTo isSecond type) fun _ =>
        .after (.branch _) fun _ => .after (.landHere _) fun _ => .after (.setDepth _) fun _ =>
          .after (agrees_convertedTo isThird type) fun _ => .after (.landHere _) fun _ => .pure _)
      type

theorem agrees_cast (operand : first.Agrees firstLowered firstTyped firstPosition)
    (target : FieldType) (position : Position) :
    Visit.Agrees id (Visited.cast site target first position)
      (Lowered.cast site target firstLowered position) (do
        let source ← firstTyped.value
        match site.host.castPlan? source target with
        | some _ => return .value target
        | none => throw (mistyped (.inconvertible source (.value target)) (some position))) := by
  refine operand.value.bind fun source => ?_
  rw [id_eq]
  cases site.host.castPlan? source target with
  | none => exact .throw _
  | some plan =>
    cases plan with
    | convert instrs => exact .after (.instrs _) fun _ => .pure _
    | check className => exact .after (.constant _) fun _ => .after (.instr _) fun _ => .pure _

theorem agrees_instanceOf (operand : first.Agrees firstLowered firstTyped firstPosition)
    (target : FieldType) (position : Position) :
    Visit.Agrees id (Visited.instanceOf target first position)
      (Lowered.instanceOf target firstLowered position) (do
        let source ← firstTyped.value
        if !(source.isReference && target.isReference) then
          throw (mistyped (.notTestable source target) (some position))
        return .value .boolean) := by
  refine operand.value.bind fun source => ?_
  rw [id_eq, ← target.classConstant?_isSome]
  cases target.classConstant? with
  | none =>
    rw [Option.isSome_none, Bool.and_false]
    exact .throw _
  | some className =>
    cases source.isReference with
    | false => exact .throw _
    | true => exact .after (.constant _) fun _ => .after (.instr _) fun _ => .pure _

theorem agrees_newArray (length : first.Agrees firstLowered firstTyped firstPosition)
    (element : FieldType) (position : Position) :
    Visit.Agrees id (Visited.newArray element first position)
      (Lowered.newArray element firstLowered position) (do
        requireInt (← firstTyped.value) position
        return .value (.array element)) := by
  refine length.value.bind fun source => .check fun _ _ => ?_
  cases element.primitiveElement? with
  | some primitive => exact .after (.instr _) fun _ => .pure _
  | none =>
    cases element.classConstant? with
    | some className => exact .after (.constant _) fun _ => .after (.instr _) fun _ => .pure _
    | none => exact .pure _

/-- A call of a selected method. -/
theorem agrees_call {method : MethodRef} {arguments : List FieldType → Visit Unit}
    {lowered : List FieldType → Emit Unit}
    (generates : ∀ parameters, Generates (arguments parameters) (lowered parameters))
    (receiver : Receiver) :
    Visit.Agrees id (Visited.call site method receiver arguments)
      (Lowered.call site method receiver lowered) (.ok method.resultType) := by
  refine .early (.maybe (.instr _) (.maybe (.instr _) ?_)) _
  exact (generates _).bind fun _ => (generates_invoke _ _).bind fun _ => .pure _

/-- A new object that is made by a known constructor. -/
theorem agrees_new {method : MethodRef} {arguments : List FieldType → Visit Unit}
    {lowered : List FieldType → Emit Unit}
    (generates : ∀ parameters, Generates (arguments parameters) (lowered parameters))
    (className : String) :
    Visit.Agrees id (Visited.new site className method arguments)
      (do
        Emit.newObject className
        lowered method.signature.parameters
        Emit.invoke (site.host.dispatch method) method
        return .value (.object className))
      (.ok (.value (.object className))) :=
  .early (.after (inert_newObject className) fun _ => (generates _).bind fun _ =>
    (generates_invoke _ _).bind fun _ => .pure _) _

end Visited

end MethodPatch
