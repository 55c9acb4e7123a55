/-
**The creation of an object with many arguments.**

The slots of arguments are counted in 16 bits. `new C(0L, ..., 0L)` pushes two slots for each zero, and
where no constructor of the class is offered, one is assumed that takes them all.

* `Pool.Takes`: adding constants succeeds where there is room for them;
* `Stmt.parse_creation`: the text of the creation is read as one statement;
* `Expr.lower_creation`: **the code of the creation** pushes all zeros, and calls a constructor that is
  said to take as many slots as 16 bits count.
-/

import Mathlib.Algebra.Ring.Int.Defs
import MethodPatch.Proofs.Constants.Calls
import MethodPatch.Proofs.Emission.Yields
import MethodPatch.Proofs.Syntax.Parsing
import MethodPatch.Proofs.Types.Grammar
import MethodPatch.Syntax.Parse.Stmt

namespace MethodPatch

/-! ### Constants that there is room for -/

namespace Pool

/-- An action adds constants of at most so many slots, and succeeds if the pool has room for them. -/
def Takes (slots : Nat) (add : Adding PoolIndex) : Prop :=
  ∀ pool : Pool, pool.next + slots ≤ maxCount → ∃ index later,
    add.run.run pool = (.ok index, later) ∧ later.next ≤ pool.next + slots

theorem takes_insert (constant : Constant) (short : excessLength? constant = none) :
    Takes constant.slots (insert constant) := by
  intro pool room
  cases known : pool.indexOf? constant with
  | some index => exact ⟨_, pool, insert_of_indexOf known, Nat.le_add_right ..⟩
  | none =>
    refine ⟨UInt16.ofNat pool.next, pool.push constant, ?_, Nat.le_of_eq (next_push pool constant)⟩
    show insert constant pool = _
    simp only [insert, known, short, if_neg (Nat.not_lt.mpr room)]

theorem Takes.bind {first second : Nat} {add : Adding PoolIndex}
    {next : PoolIndex → Adding PoolIndex} (here : Takes first add)
    (behind : ∀ index, Takes second (next index)) : Takes (first + second) (add >>= next) := by
  intro pool room
  obtain ⟨index, middle, added, least⟩ := here pool (by omega)
  obtain ⟨answer, later, addedNext, most⟩ := behind index middle (by omega)
  exact ⟨answer, later, run_bind_ok.mpr ⟨index, middle, added, addedNext⟩, by omega⟩

theorem takes_addClass {name : String} (short : excessLength? (.utf8 name) = none) :
    Takes 2 (addClass name) :=
  (takes_insert _ short).bind fun index => takes_insert (.classRef index) rfl

theorem takes_addMethod {owner name descriptor : String}
    (ownerShort : excessLength? (.utf8 owner) = none)
    (nameShort : excessLength? (.utf8 name) = none)
    (descriptorShort : excessLength? (.utf8 descriptor) = none) :
    Takes 6 (addMethod owner name descriptor) :=
  (takes_addClass ownerShort).bind fun owner =>
    ((takes_insert _ nameShort).bind fun name =>
      (takes_insert _ descriptorShort).bind fun descriptor =>
        takes_insert (.nameAndType name descriptor) rfl).bind fun nameAndType =>
          takes_insert (.method owner nameAndType) rfl

end Pool

/-! ### The text of a creation -/

/-- A text that spells the creation of an object is one statement, which is that creation. -/
theorem Stmt.parse_of_spells {type : TypeRef} {values : List Expr} {position : Position}
    (printable : (Expr.new type values position).isPrintable = true) {text : String}
    (spells : Spells (Expr.new type values position).tokens text.toList) : ∃ read place,
      Stmt.parse text = (.ok [.expression read place], #[]) ∧
        read.unplaced = (Expr.new type values position).unplaced := by
  obtain ⟨items, ending, isLexed, isTokens⟩ := lexemes_of_spells spells
  obtain ⟨place, others, rfl, _⟩ := Parse.exists_lexeme isTokens
  rw [← List.append_nil (Expr.tokens _)] at isTokens
  have reads : Parse.ReadsTo _ _ (Parse.expression (.ok ending) _) :=
    Parse.isRead_of_isPrintable printable isTokens rfl
  obtain ⟨read, ⟨rest, fewer⟩, isRead, isRest, same⟩ := reads
  obtain rfl : rest = [] := List.map_eq_nil_iff.mp isRest
  have stands : read.isStatement = true := by
    cases read with
    | new => rfl
    | call callee => cases callee <;> cases same
    | _ => cases same
  have isStatement : Parse.expressionStatement (.ok ending) (⟨.keyword .newWord, place⟩ :: others) =
      .ok (.expression read place, ⟨[], fewer⟩) := by
    have isPlace : Parse.place (.ok ending) (⟨.keyword .newWord, place⟩ :: others) = .ok place := rfl
    have isEnd : Parse.endStatement (.ok ending) _ [] fewer = .ok ⟨[], fewer⟩ := rfl
    simp only [Parse.expressionStatement, isPlace, isRead, Parse.checkStatement, if_pos stands, isEnd,
      bind, Except.bind, pure, Except.pure]
  have isFirst : Yields (Parse.statement (.ok ending) false (⟨.keyword .newWord, place⟩ :: others)) #[]
      (.expression read place, ⟨[], fewer⟩) #[] := by
    have noDeclaration : Parse.startsDeclaration (.ok ending) (⟨.keyword .newWord, place⟩ :: others) =
        false := rfl
    rw [Parse.statement]
    · simp only [Parse.simpleStatement, noDeclaration, Bool.false_eq_true, if_false]
      exact yields_liftExcept.mpr ⟨isStatement, rfl⟩
    all_goals simp
  have isLast : Yields (Parse.statements (.ok ending) [.expression read place] []) #[]
      [.expression read place] #[] := by
    rw [Parse.statements]
    exact yields_bind.mpr ⟨_, _, yields_liftExcept.mpr ⟨rfl, rfl⟩, yields_pure.mpr ⟨rfl, rfl⟩⟩
  have isAll : Yields (Parse.statements (.ok ending) [] (⟨.keyword .newWord, place⟩ :: others)) #[]
      [.expression read place] #[] := by
    rw [Parse.statements]
    exact yields_bind.mpr ⟨_, _, yields_liftExcept.mpr ⟨rfl, rfl⟩, yields_bind.mpr ⟨_, _, isFirst, isLast⟩⟩
  refine ⟨read, place, ?_, same⟩
  rw [Stmt.parse, isLexed]
  exact isAll

/-- The `long` zero as a literal. -/
def Expr.IsZero (expression : Expr) : Prop := ∃ position, expression = .literal (.long 0) position

theorem Expr.isZero_of_unplaced {expression : Expr}
    (same : expression.unplaced = .literal (.long 0) .start) : expression.IsZero := by
  cases expression with
  | literal value position =>
    cases same
    exact ⟨position, rfl⟩
  | call callee => cases callee <;> cases same
  | _ => cases same

/-- A new object of a class, made from some zeros. -/
def creation (className : String) (count : Nat) : Expr :=
  .new ⟨.named className, 0, none⟩ (List.replicate count (.literal (.long 0) .start)) .start

theorem isPrintable_creation {className : String} (isName : BaseType.isPrintable (.named className) = true)
    (count : Nat) : (creation className count).isPrintable = true := by
  have zeros : Expr.allPrintable (List.replicate count (.literal (.long 0) .start)) = true := by
    induction count with
    | zero => rfl
    | succ count ih =>
      rw [List.replicate_succ, Expr.allPrintable, ih]
      rfl
  rw [creation, Expr.isPrintable, zeros, TypeRef.isPrintable, isName]
  rfl

/-- The text of a creation from zeros is read as one statement. -/
theorem Stmt.parse_creation {className : String}
    (isName : BaseType.isPrintable (.named className) = true) (count : Nat) :
    ∃ typePlace values position place,
      Stmt.parse (creation className count).print =
        (.ok [.expression (.new ⟨.named className, 0, typePlace⟩ values position) place], #[]) ∧
      values.length = count ∧ ∀ value ∈ values, value.IsZero := by
  have printable := isPrintable_creation isName count
  obtain ⟨read, place, parsed, same⟩ := Stmt.parse_of_spells printable (Expr.spells_print printable)
  cases read with
  | new type values position =>
    obtain ⟨base, dimensions, typePlace⟩ := type
    simp only [Expr.unplaced, TypeRef.unplaced, Expr.unplacedAll_eq_map, List.map_replicate,
      Expr.new.injEq, TypeRef.mk.injEq, and_true] at same
    obtain ⟨⟨rfl, rfl⟩, zeros⟩ := same
    refine ⟨typePlace, values, position, place, parsed, ?_, fun value isIn => ?_⟩
    · simpa using congrArg List.length zeros
    · have isZero := List.mem_map_of_mem (f := Expr.unplaced) isIn
      rw [zeros] at isZero
      exact Expr.isZero_of_unplaced (List.eq_of_mem_replicate isZero)
  | call callee => cases callee <;> cases same
  | _ => cases same

/-! ### The code of a creation -/

namespace Generator

variable (generator : Generator) (instrs : List Instr)

@[simp] theorem instrs_pushAll : (generator.pushAll instrs).instrs = generator.instrs ++ instrs := by
  induction instrs generalizing generator with
  | nil => simp
  | cons first rest ih => simp [ih]

@[simp] theorem pool_pushAll : (generator.pushAll instrs).body.pool = generator.body.pool := by
  induction instrs generalizing generator with
  | nil => rfl
  | cons first rest ih => exact ih _

end Generator

/-- The code that makes an object from some zeros with a constructor, and drops it. -/
def creationCode (object constructor : PoolIndex) (argumentSlots : UInt8) (count : Nat) : List Instr :=
  .new object :: .stack .dup :: (List.replicate count (.lconst 0) ++
    [.invoke .special constructor argumentSlots 0, .stack .pop])

theorem sum_effects_creationCode (object constructor : PoolIndex) (argumentSlots : UInt8) (count : Nat) :
    ((creationCode object constructor argumentSlots count).map Instr.effect).sum =
      2 * count - argumentSlots.toNat := by
  have zeros : (List.replicate count (Instr.lconst 0).effect).sum = count * 2 :=
    List.sum_replicate_int
  rw [creationCode, List.map_cons, List.map_cons, List.map_append, List.map_replicate,
    List.sum_cons, List.sum_cons, List.sum_append, zeros]
  simp only [List.map_cons, List.map_nil, List.sum_cons, List.sum_nil, Instr.effect, Instr.pushes,
    Instr.pops, StackOp.slots, Dispatch.receiver]
  push_cast
  omega

theorem goesOn_creationCode {object constructor : PoolIndex} {argumentSlots : UInt8} {count : Nat} :
    ∀ instr ∈ creationCode object constructor argumentSlots count,
      instr.isUnconditional = false ∧ instr.target? = none := by
  intro instr isIn
  simp only [creationCode, List.mem_cons, List.mem_append, List.mem_replicate, List.not_mem_nil,
    or_false] at isIn
  rcases isIn with rfl | rfl | ⟨_, rfl⟩ | rfl | rfl <;> exact ⟨rfl, rfl⟩

theorem constructor_mem_creationCode (object constructor : PoolIndex) (argumentSlots : UInt8)
    (count : Nat) : .invoke .special constructor argumentSlots 0 ∈
      creationCode object constructor argumentSlots count := by
  simp [creationCode]

theorem size_creationCode (object constructor : PoolIndex) (argumentSlots : UInt8) (count : Nat) :
    total Instr.size (creationCode object constructor argumentSlots count) = count + 8 := by
  rw [creationCode, total_cons, total_cons, total_append, total_replicate]
  show 3 + (1 + (count * 1 + 4)) = count + 8
  omega

section Code

variable {site : Site} {scope : Scope} {before : Generator} {values : List Expr}

theorem argumentTypes_zeros (zeros : ∀ value ∈ values, value.IsZero) :
    argumentTypes site scope values = .ok (List.replicate values.length (.value .long)) := by
  induction values with
  | nil => rfl
  | cons first rest ih =>
    obtain ⟨⟨position, rfl⟩, others⟩ := List.forall_mem_cons.mp zeros
    rw [argumentTypes, ih others]
    rfl

/-- Each zero is pushed as it is. -/
theorem lowerArguments_zeros (zeros : ∀ value ∈ values, value.IsZero) :
    Yields (lowerArguments site scope values (List.replicate values.length .long)) before ()
      (before.pushAll (List.replicate values.length (.lconst 0))) := by
  induction values generalizing before with
  | nil => exact yields_pure.mpr ⟨rfl, rfl⟩
  | cons first rest ih =>
    obtain ⟨⟨position, rfl⟩, others⟩ := List.forall_mem_cons.mp zeros
    have isZero : Yields (Lowered.argument site.host (.literal (.long 0) position)
        ((Expr.literal (.long 0) position).lower site scope) .long) before ()
        (before.push (.lconst 0)) := rfl
    rw [List.length_cons, List.replicate_succ, List.replicate_succ, lowerArguments]
    exact yields_bind.mpr ⟨_, _, isZero, ih others⟩

/-- A constructor that takes some `long` numbers. -/
def ofLongs (owner : String) (count : Nat) : MethodRef :=
  ⟨owner, constructorName, ⟨List.replicate count .long, none⟩, false, false⟩

theorem slots_ofLongs (owner : String) (count : Nat) : (ofLongs owner count).signature.slots = count * 2 :=
  total_replicate FieldType.width count .long

/-- The descriptor of such a constructor has a character for each number. -/
theorem short_ofLongs (owner : String) {count : Nat} (few : count + 3 ≤ Pool.maxTextLength) :
    Pool.excessLength? (.utf8 (ofLongs owner count).signature.descriptor) = none := by
  have spelled : (ofLongs owner count).signature.descriptor.toList =
      '(' :: (List.replicate count 'J' ++ [')', 'V']) := by
    rw [Signature.toList_descriptor, ofLongs, List.map_replicate]
    show '(' :: ((List.replicate count ['J']).flatten ++ [')', 'V']) = _
    rw [List.flatten_replicate_singleton]
  have units : Text.utf16 (List.replicate count 'J') = List.replicate count 74 := by
    rw [Text.utf16, List.flatMap_replicate]
    exact List.flatten_replicate_singleton
  have length : Text.ModifiedUtf8.length (ofLongs owner count).signature.descriptor.toList =
      count + 3 := by
    rw [spelled, Text.ModifiedUtf8.length]
    show total Text.ModifiedUtf8.unitLength (40 :: Text.utf16 (List.replicate count 'J' ++ [')', 'V'])) = _
    rw [Text.utf16_append, units, total_cons, total_append, total_replicate]
    show 1 + (count * 1 + 2) = _
    omega
  simp only [Pool.excessLength?, length, if_neg (Nat.not_lt.mpr few)]

theorem Site.constructor_zeros {owner : String} {position : Position} (count : Nat)
    (offered : site.host.methods owner constructorName = []) :
    site.constructor owner (List.replicate count (.value .long)) position =
      .ok (ofLongs owner count) := by
  rw [Site.constructor, offered, List.map_replicate]
  rfl

/-- A call of a constructor that takes few slots, as 16 bits count them. -/
theorem Emit.yields_ofLongs {owner : String} {count : Nat}
    (few : (ofLongs owner count).signature.parameterSlots ≤ 255)
    (room : before.body.pool.next + 6 ≤ Pool.maxCount)
    (ownerShort : Pool.excessLength? (.utf8 owner) = none)
    (short : Pool.excessLength? (.utf8 (ofLongs owner count).signature.descriptor) = none) :
    ∃ index pool, Yields (Emit.invoke .special (ofLongs owner count)) before ()
        ((before.withPool pool).push
          (.invoke .special index (ofLongs owner count).signature.parameterSlots.toUInt8 0)) ∧
      Pool.IsMember .method owner constructorName (ofLongs owner count).signature.descriptor pool
        index := by
  have nameShort : Pool.excessLength? (.utf8 constructorName) = none := by decide
  obtain ⟨index, pool, added, _⟩ := Pool.takes_addMethod ownerShort nameShort short _ room
  have isMember := Pool.leaves_addMember .method owner constructorName _ _ _ _ _
    (Nat.le_trans (Nat.le_add_right ..) room) added (.refl _)
  refine ⟨index, pool, ?_, isMember⟩
  rw [Emit.invoke]
  refine yields_bind.mpr ⟨_, _, Emit.yields_constant.mpr ⟨pool, added, rfl⟩, ?_⟩
  exact yields_ite.mpr (.inr ⟨UInt16.not_lt.mpr few, Emit.yields_instr.mpr rfl⟩)

/-- **The code of a creation from zeros** pushes all of them. The constructor that it calls is said to
take as many slots as 16 bits count. -/
theorem Expr.lower_creation (site : Site) (scope : Scope) (before : Generator) {owner : String}
    {type : TypeRef} {position : Position}
    (zeros : ∀ value ∈ values, value.IsZero)
    (isClass : site.instantiated type position = .ok owner)
    (offered : site.host.methods owner constructorName = [])
    (few : (ofLongs owner values.length).signature.parameterSlots ≤ 255)
    (room : before.body.pool.next + 8 ≤ Pool.maxCount)
    (ownerShort : Pool.excessLength? (.utf8 owner) = none)
    (short : Pool.excessLength? (.utf8 (ofLongs owner values.length).signature.descriptor) = none) :
    ∃ object index after,
      Yields ((Expr.new type values position).lower site scope).effect before () after ∧
      after.instrs = before.instrs ++ creationCode object index
        (ofLongs owner values.length).signature.parameterSlots.toUInt8 values.length ∧
      Pool.IsMember .method owner constructorName (ofLongs owner values.length).signature.descriptor
        after.body.pool index := by
  obtain ⟨object, pool, added, most⟩ :=
    Pool.takes_addClass ownerShort before.body.pool (by omega)
  let allocated := ((before.withPool pool).push (.new object)).push (.stack .dup)
  let passed := allocated.pushAll (List.replicate values.length (.lconst 0))
  have allocates : Yields (Emit.newObject owner) before () allocated := by
    rw [Emit.newObject]
    refine yields_bind.mpr ⟨object, _, Emit.yields_constant.mpr ⟨pool, added, rfl⟩, ?_⟩
    exact yields_bind.mpr ⟨(), _, Emit.yields_instr.mpr rfl, Emit.yields_instr.mpr rfl⟩
  have passes : Yields (lowerArguments site scope values
      (ofLongs owner values.length).signature.parameters) allocated () passed :=
    lowerArguments_zeros zeros
  have roomBehind : passed.body.pool.next + 6 ≤ Pool.maxCount := by
    rw [Generator.pool_pushAll]
    exact Nat.le_trans (Nat.add_le_add_right most 6) room
  obtain ⟨index, last, calls, isMember⟩ := Emit.yields_ofLongs few roomBehind ownerShort short
  refine ⟨object, index, ((passed.withPool last).push (.invoke .special index
    (ofLongs owner values.length).signature.parameterSlots.toUInt8 0)).push (.stack .pop), ?_, ?_,
    isMember⟩
  · rw [Expr.lower, Lowered.ofValue]
    refine yields_bind.mpr ⟨.value (.object owner), _, ?_, Emit.yields_instrs.mpr rfl⟩
    refine yields_bind.mpr ⟨owner, _, yields_liftExcept.mpr ⟨isClass, rfl⟩, ?_⟩
    refine yields_bind.mpr ⟨_, _, yields_liftExcept.mpr ⟨argumentTypes_zeros zeros, rfl⟩, ?_⟩
    refine yields_bind.mpr ⟨_, _, yields_liftExcept.mpr ⟨site.constructor_zeros _ offered, rfl⟩, ?_⟩
    refine yields_bind.mpr ⟨(), _, allocates, ?_⟩
    refine yields_bind.mpr ⟨(), _, passes, ?_⟩
    exact yields_bind.mpr ⟨(), _, calls, yields_pure.mpr ⟨rfl, rfl⟩⟩
  · simp [passed, allocated, creationCode]

/-- **A creation from zeros as it is written**: its text is one statement, whose code pushes all zeros. -/
theorem Stmt.lower_creation (site : Site) (className owner : String) (count : Nat)
    (isName : BaseType.isPrintable (.named className) = true)
    (isClass : ∀ typePlace position,
      site.instantiated ⟨.named className, 0, typePlace⟩ position = .ok owner)
    (offered : site.host.methods owner constructorName = [])
    (ownerShort : Pool.excessLength? (.utf8 owner) = none)
    (few : count + 3 ≤ Pool.maxTextLength)
    (counted : (ofLongs owner count).signature.parameterSlots ≤ 255) :
    ∃ created place,
      Stmt.parse (creation className count).print = (.ok [.expression created place], #[]) ∧
      ∀ (scope : Scope) (before : Generator), before.body.pool.next + 8 ≤ Pool.maxCount →
        ∃ object index after,
          Yields ((Stmt.expression created place).lower site false) (before, scope) .none
            (after, scope) ∧
          after.instrs = before.instrs ++ creationCode object index
            (ofLongs owner count).signature.parameterSlots.toUInt8 count ∧
          Pool.IsMember .method owner constructorName (ofLongs owner count).signature.descriptor
            after.body.pool index := by
  obtain ⟨typePlace, values, position, place, parsed, rfl, zeros⟩ := Stmt.parse_creation isName count
  refine ⟨_, place, parsed, fun scope before room => ?_⟩
  obtain ⟨object, index, after, yields, instrs, isMember⟩ :=
    Expr.lower_creation site scope ((before.moveTo place).setDepth 0) zeros
      (isClass typePlace position) offered counted room ownerShort (short_ofLongs owner few)
  refine ⟨object, index, after, ?_, instrs, isMember⟩
  rw [Stmt.lower, EmitScoped.yields_statement]
  exact yields_bind.mpr ⟨(), _, EmitScoped.yields_within.mpr ⟨after, yields, rfl⟩,
    yields_pure.mpr ⟨rfl, rfl⟩⟩

end Code

end MethodPatch
