/-
**What the operands of instructions stand for.**

A local that an instruction accesses has a slot among those in use, and a constant that it refers to
is in the pool, is of the right kind and describes a member of the right width. Every primitive
action keeps this of the code so far, so all composed code has it.

* `Instr.Stands`: the operands of an instruction are as they should be;
* `Emit.Composed.carried`: a relation that primitive actions keep holds over all composed code;
* `Emit.Composed.grows`: code adds constants and leaves the number of slots in use;
* `EmitScoped.Composed.stands`: **the operands of all code stand for what they should.**
-/

import MethodPatch.Proofs.Composition.Stmt
import MethodPatch.Proofs.Constants.Calls
import MethodPatch.Proofs.Emission.Stmt
import MethodPatch.Proofs.Locals.Scope

namespace MethodPatch

/-! ### Constants of the right kind -/

namespace Pool

/-- The descriptor in a name and type. -/
def descriptor? (pool : Pool) (nameAndType : PoolIndex) : Option String :=
  match pool.get? nameAndType.toNat with
  | some (.nameAndType _ descriptor) =>
    match pool.get? descriptor.toNat with
    | some (.utf8 text) => some text
    | _ => none
  | _ => none

variable {pool : Pool}

/-- What is appended to a pool has an index behind the reserved ones. -/
theorem reserved_le_of_get? {index : Nat} {constant : Constant}
    (found : pool.get? index = some constant) : pool.reserved ≤ index :=
  (le_of_mem_layout (get?_eq_some_iff.mp found)).1

/-- The name and type of a member has its descriptor. -/
theorem IsMember.described {member : PoolIndex → PoolIndex → Constant} {name descriptor owner : String}
    {index : PoolIndex} (isMember : IsMember member owner name descriptor pool index) :
    ∃ owner nameAndType, pool.get? index.toNat = some (member owner nameAndType) ∧
      pool.descriptor? nameAndType = some descriptor := by
  obtain ⟨first, _, second, ⟨_, _, text, isText, isBoth⟩, found⟩ := isMember
  refine ⟨first, second, found, ?_⟩
  unfold IsText at isText
  unfold Pool.descriptor?
  rw [isBoth]
  dsimp only
  rw [isText]

end Pool

/-- Constants that are loaded as one slot. -/
def Constant.IsSingle : Constant → Prop
  | .integer _ | .float _ | .string _ => True
  | _ => False

/-- Constants that are loaded as two slots. -/
def Constant.IsDouble : Constant → Prop
  | .long _ | .double _ => True
  | _ => False

/-- The operands of an instruction are as they should be: a local has its slots among given ones or is
the object of the method, and an index has a constant of the right kind in the pool. A field has the
width of the instruction, and a method is one that the site calls in this way and has the slots of
the instruction; their types are from a set. -/
def Instr.Stands (types : FieldType → Prop) (slots : Storage → Slot → Prop) (site : Site)
    (pool : Pool) : Instr → Prop
  | .load storage slot =>
    slots storage slot ∨ site.method.isStatic = false ∧ storage = .ref ∧ slot = 0
  | .store storage slot => slots storage slot
  | .iinc slot _ => slots .int slot
  | .ldc index => ∃ constant, pool.get? index.toNat = some constant ∧ constant.IsSingle
  | .ldc2 index => ∃ constant, pool.get? index.toNat = some constant ∧ constant.IsDouble
  | .new index | .anewArray index | .checkCast index | .instanceOf index =>
    ∃ name, pool.get? index.toNat = some (.classRef name)
  | .field _ index width => ∃ field : FieldRef,
    Pool.IsMember .field field.owner field.name field.type.descriptor pool index ∧ types field.type ∧
      width.toNat = field.type.width
  | .invoke dispatch index argumentSlots resultSlots => ∃ method : MethodRef,
    site.Calls dispatch method ∧
      Pool.IsMember dispatch.constant method.owner method.name method.signature.descriptor pool index ∧
      method.signature.Over types ∧ argumentSlots.toNat = method.signature.parameterSlots.toNat ∧
      resultSlots.toNat = method.signature.resultSlots
  | _ => True

variable {types : FieldType → Prop} {slots more : Storage → Slot → Prop} {site : Site}
  {pool later : Pool} {instr : Instr}

theorem Instr.Accesses.stands (accesses : instr.Accesses slots) :
    instr.Stands types slots site pool := by
  cases instr <;> first | exact accesses | exact .inl accesses | exact trivial | cases accesses

/-- Operands stay as they should be when slots and constants are added. -/
theorem Instr.Stands.mono (stands : instr.Stands types slots site pool)
    (wider : ∀ storage slot, slots storage slot → more storage slot) (grows : pool.Grows later) :
    instr.Stands types more site later := by
  cases instr with
  | load storage slot => exact stands.imp_left (wider _ _)
  | store storage slot => exact wider _ _ stands
  | iinc slot delta => exact wider _ _ stands
  | ldc index | ldc2 index =>
    obtain ⟨constant, found, kind⟩ := stands
    exact ⟨constant, grows.get? found, kind⟩
  | new index | anewArray index | checkCast index | instanceOf index =>
    obtain ⟨name, found⟩ := stands
    exact ⟨name, grows.get? found⟩
  | field access index width =>
    obtain ⟨field, isMember, isType, wide⟩ := stands
    exact ⟨field, isMember.mono grows, isType, wide⟩
  | invoke dispatch index argumentSlots resultSlots =>
    obtain ⟨method, isCalled, isMember, isOver, same⟩ := stands
    exact ⟨method, isCalled, isMember.mono grows, isOver, same⟩
  | _ => exact trivial

theorem Instr.stands_retarget (target : Nat) (stands : instr.Stands types slots site pool) :
    (instr.retarget target).Stands types slots site pool := by
  cases instr <;> exact stands

/-- What a reference refers to is in the pool behind it. -/
theorem Reference.stands {add : Pool.Adding PoolIndex} {use : PoolIndex → Instr} {index : PoolIndex}
    (reference : Reference types site add use) (added : add.run.run pool = (.ok index, later))
    (fits : pool.Fits) : (use index).Stands types slots site later := by
  cases reference with
  | int | float | long | double =>
    exact ⟨_, Pool.get?_of_insert added fits (.refl _), trivial⟩
  | string text =>
    obtain ⟨text, _, found⟩ := Pool.leaves_addString text _ _ _ _ fits added (.refl _)
    exact ⟨_, found, trivial⟩
  | new name | anewArray name | checkCast name | instanceOf name =>
    obtain ⟨text, _, found⟩ := Pool.leaves_addClass name _ _ _ _ fits added (.refl _)
    exact ⟨text, found⟩
  | field access field isType =>
    have isMember := Pool.leaves_addMember _ _ _ _ _ _ _ _ fits added (.refl _)
    exact ⟨field, isMember, isType, field.type.toNat_width⟩
  | call dispatch method isOver isCalled few =>
    have slotCount := Signature.toNat_parameterSlots_toUInt8 few
    have isMember := dispatch.leaves_constant _ _ _ _ _ _ _ fits added (.refl _)
    exact ⟨method, isCalled, isMember, isOver, slotCount, method.signature.toNat_resultSlots⟩

/-! ### Relations that code keeps -/

/-- A relation between the generators in front of an action and behind it, which every primitive
action keeps. -/
structure Emit.Carries (types : FieldType → Prop) (slots : Storage → Slot → Prop) (site : Site)
    (related : Generator → Generator → Prop) : Prop where
  refl : ∀ generator, related generator generator
  trans : ∀ {first second third}, related first second → related second third → related first third
  instr : ∀ generator {instr : Instr}, instr.Accesses slots → related generator (generator.push instr)
  this : site.method.isStatic = false → ∀ generator, related generator (generator.push (.load .ref 0))
  setDepth : ∀ generator depth, related generator (generator.setDepth depth)
  land : ∀ generator branches target, related generator (generator.land branches target)
  refer : ∀ (generator : Generator) {add : Pool.Adding PoolIndex} {use : PoolIndex → Instr}
    {index : PoolIndex} {pool : Pool}, Reference types site add use →
      add.run.run generator.body.pool = (.ok index, pool) →
        related generator ((generator.withPool pool).push (use index))
  leave : ∀ (generator : Generator) {add : Pool.Adding PoolIndex} {index : PoolIndex} {pool : Pool},
    Pool.Alike add add → add.run.run generator.body.pool = (.ok index, pool) →
      related generator (generator.withPool pool)

namespace Emit

variable {related : Generator → Generator → Prop} {α : Type} {action : Emit α} {answers : α → Prop}
  {before after : Generator} {answer : α}

/-- **A relation that primitive actions keep holds over all composed code**, which answers as it
should. -/
theorem Composed.carried (composed : Composed types slots site action answers)
    (carries : Carries types slots site related) (yields : Yields action before answer after) :
    answers answer ∧ related before after := by
  induction composed generalizing before after with
  | pure holds =>
    obtain ⟨rfl, rfl⟩ := yields_pure.mp yields
    exact ⟨holds, carries.refl _⟩
  | bind _ _ ihFirst ihNext =>
    obtain ⟨found, middle, yieldsFirst, yieldsNext⟩ := yields_bind.mp yields
    obtain ⟨isFirst, first⟩ := ihFirst yieldsFirst
    obtain ⟨isSecond, second⟩ := ihNext found isFirst yieldsNext
    exact ⟨isSecond, carries.trans first second⟩
  | throw error => exact absurd yields yields_throw
  | fail fault => exact absurd yields yields_fail
  | instr accesses =>
    cases yields_instr.mp yields
    exact ⟨trivial, carries.instr _ accesses⟩
  | this isInstance =>
    cases yields_instr.mp yields
    exact ⟨trivial, carries.this isInstance _⟩
  | here =>
    obtain ⟨rfl, rfl⟩ := yields_here.mp yields
    exact ⟨trivial, carries.refl _⟩
  | depth =>
    obtain ⟨rfl, rfl⟩ := yields_depth.mp yields
    exact ⟨trivial, carries.refl _⟩
  | setDepth depth =>
    cases yields_setDepth.mp yields
    exact ⟨trivial, carries.setDepth ..⟩
  | land branches target =>
    cases yields_land.mp yields
    exact ⟨trivial, carries.land ..⟩
  | refer reference =>
    simp only [yields_bind, yields_constant, yields_instr] at yields
    obtain ⟨index, _, ⟨pool, added, rfl⟩, rfl⟩ := yields
    exact ⟨trivial, carries.refer _ reference added⟩
  | leave alike =>
    simp only [yields_bind, yields_constant, yields_pure] at yields
    obtain ⟨index, _, ⟨pool, added, rfl⟩, _, rfl⟩ := yields
    exact ⟨trivial, carries.leave _ alike added⟩

end Emit

/-- Constants may be added between two states of a generator, but the slots in use are the same. -/
structure Generator.Grows (before after : Generator) : Prop where
  pool : before.body.pool.Grows after.body.pool
  maxLocals : after.maxLocals = before.maxLocals

theorem Emit.carries_grows : Emit.Carries types slots site Generator.Grows where
  refl generator := ⟨.refl _, rfl⟩
  trans first second := ⟨first.pool.trans second.pool, second.maxLocals.trans first.maxLocals⟩
  instr generator _ _ := ⟨.refl _, rfl⟩
  this _ generator := ⟨.refl _, rfl⟩
  setDepth generator depth := ⟨.refl _, rfl⟩
  land generator branches target := ⟨by rw [Generator.pool_land]; exact .refl _, rfl⟩
  refer _ _ _ _ _ reference added := ⟨reference.alike.growing.grows added, rfl⟩
  leave _ _ _ _ alike added := ⟨alike.growing.grows added, rfl⟩

/-- Code adds constants and leaves the number of slots in use. -/
theorem Emit.Composed.grows {α : Type} {action : Emit α} {answers : α → Prop}
    {before after : Generator} {answer : α} (composed : Composed types slots site action answers)
    (yields : Yields action before answer after) : before.Grows after :=
  (composed.carried carries_grows yields).2

/-! ### Operands of code -/

/-- The constants of a generator fit into a class file, and the operands of its instructions are as
they should be. -/
structure Generator.Stands (types : FieldType → Prop) (slots : Storage → Slot → Prop) (site : Site)
    (generator : Generator) : Prop where
  fits : generator.body.pool.Fits
  instrs : ∀ instr ∈ generator.instrs, instr.Stands types slots site generator.body.pool

namespace Generator.Stands

variable {generator : Generator}

theorem withPool (stands : generator.Stands types slots site) (grows : generator.body.pool.Grows pool) :
    (generator.withPool pool).Stands types slots site where
  fits := grows.fits stands.fits
  instrs instr isIn := (stands.instrs instr isIn).mono (fun _ _ => id) grows

theorem push (stands : generator.Stands types slots site)
    (isInstr : instr.Stands types slots site generator.body.pool) :
    (generator.push instr).Stands types slots site where
  fits := stands.fits
  instrs other isIn := by
    rw [Generator.instrs_push] at isIn
    rcases List.mem_append.mp isIn with isOld | isNew
    · exact stands.instrs other isOld
    · rw [List.mem_singleton.mp isNew]
      exact isInstr

theorem land (stands : generator.Stands types slots site) (branches : List Nat) (target : Nat) :
    (generator.land branches target).Stands types slots site := by
  refine ⟨by rw [Generator.pool_land]; exact stands.fits, fun instr isIn => ?_⟩
  rw [Generator.pool_land]
  rw [Generator.instrs_land] at isIn
  obtain ⟨index, inRange, rfl⟩ := List.mem_mapIdx.mp isIn
  have isOld := stands.instrs _ (List.getElem_mem inRange)
  split
  · exact Instr.stands_retarget target isOld
  · exact isOld

end Generator.Stands

theorem Emit.carries_stands : Emit.Carries types slots site fun before after =>
    before.Stands types slots site → after.Stands types slots site where
  refl _ := id
  trans first second := second ∘ first
  instr _ _ accesses stands := stands.push accesses.stands
  this isInstance _ stands := stands.push (.inr ⟨isInstance, rfl, rfl⟩)
  setDepth _ _ stands := ⟨stands.fits, stands.instrs⟩
  land _ _ _ stands := stands.land ..
  refer _ _ _ _ _ reference added stands :=
    (stands.withPool (reference.alike.growing.grows added)).push (reference.stands added stands.fits)
  leave _ _ _ _ alike added stands := stands.withPool (alike.growing.grows added)

theorem Emit.Composed.stands {α : Type} {action : Emit α} {answers : α → Prop}
    {before after : Generator} {answer : α} (composed : Composed types slots site action answers)
    (yields : Yields action before answer after) (stands : before.Stands types slots site) :
    after.Stands types slots site :=
  (composed.carried carries_stands yields).2 stands

/-! ### Statements -/

/-- Locals whose slots are below a limit. -/
def Below (limit : Nat) (storage : Storage) (slot : Slot) : Prop := slot.toNat + storage.width ≤ limit

/-- A state of a generator that comes behind another one: constants were added, and more slots may be
in use, but only those of declared variables. -/
structure Generator.Advances (declares : Slot → FieldType → Prop) (before after : Generator) :
    Prop where
  pool : before.body.pool.Grows after.body.pool
  atLeast : before.maxLocals ≤ after.maxLocals
  atMost : ∀ {limit : Nat}, (∀ slot type, declares slot type → slot.toNat + type.width ≤ limit) →
    after.maxLocals.toNat ≤ max before.maxLocals.toNat limit

variable {declares : Slot → FieldType → Prop} {scope : Scope}

theorem Generator.Advances.refl (generator : Generator) : generator.Advances declares generator :=
  ⟨.refl _, UInt16.le_refl _, fun _ => Nat.le_max_left ..⟩

theorem Generator.Advances.trans {first second third : Generator}
    (here : first.Advances declares second) (behind : second.Advances declares third) :
    first.Advances declares third where
  pool := here.pool.trans behind.pool
  atLeast := UInt16.le_trans here.atLeast behind.atLeast
  atMost bounded := by
    have := here.atMost bounded
    have := behind.atMost bounded
    omega

theorem Generator.Grows.advances {before after : Generator} (grows : before.Grows after) :
    before.Advances declares after :=
  ⟨grows.pool, UInt16.le_of_eq grows.maxLocals.symm, fun _ => grows.maxLocals ▸ Nat.le_max_left ..⟩

theorem Covers.mono (covers : Covers types slots site scope)
    (wider : ∀ storage slot, slots storage slot → more storage slot) : Covers types more site scope :=
  ⟨fun bound => ⟨(covers.bound bound).1, wider _ _ (covers.bound bound).2⟩⟩

theorem Covers.bind {name : String} {slot : Slot} {type : FieldType}
    (covers : Covers types slots site scope) (isType : types type) (isSlot : slots type.storage slot) :
    Covers types slots site (scope.bind name slot type) where
  bound := by
    intro other found kind isBound
    rw [Scope.binding?_bind] at isBound
    split at isBound
    · cases isBound
      exact ⟨isType, isSlot⟩
    · exact covers.bound isBound

/-- **The operands of all code stand for what they should**, and the variables that are bound behind
it have slots in use. -/
theorem EmitScoped.Composed.stands {α : Type} {pending behind : String → Prop} {action : EmitScoped α}
    {start finish : Generator × Scope} {answer : α}
    (composed : EmitScoped.Composed types declares site pending action behind)
    (yields : Yields action start answer finish)
    (covers : Covers types (Below start.1.maxLocals.toNat) site start.2) :
    Covers types (Below finish.1.maxLocals.toNat) site finish.2 ∧
      start.1.Advances declares finish.1 ∧
      (start.1.Stands types (Below start.1.maxLocals.toNat) site →
        finish.1.Stands types (Below finish.1.maxLocals.toNat) site) := by
  induction composed generalizing start finish with
  | pure =>
    obtain ⟨rfl, rfl⟩ := yields_pure.mp yields
    exact ⟨covers, .refl .., id⟩
  | bind _ _ ihFirst ihNext =>
    obtain ⟨found, middle, yieldsFirst, yieldsNext⟩ := yields_bind.mp yields
    obtain ⟨covered, first, standsFirst⟩ := ihFirst yieldsFirst covers
    obtain ⟨coveredNext, next, standsNext⟩ := ihNext found yieldsNext covered
    exact ⟨coveredNext, first.trans next, standsNext ∘ standsFirst⟩
  | throw error => exact absurd yields yields_throw
  | within emits =>
    obtain ⟨generator, emitted, rfl⟩ := yields_within.mp yields
    have composed := emits.composed _ start.2 covers trivial
    have grows := composed.grows emitted
    dsimp only
    rw [grows.maxLocals]
    exact ⟨covers, grows.advances, composed.stands emitted⟩
  | statement position _ ih =>
    rw [yields_statement] at yields
    obtain ⟨covered, advances, stands⟩ := ih yields covers
    exact ⟨covered, ⟨advances.pool, advances.atLeast, advances.atMost⟩,
      fun before => stands ⟨before.fits, before.instrs⟩⟩
  | @declare pending name slot type initialise isType isDeclared fits emits =>
    simp only [yields_bind, yields_plain, yields_modify, yields_within, yields_bindName] at yields
    obtain ⟨_, _, ⟨_, rfl, rfl⟩, _, _, ⟨generator, emitted, rfl⟩, rfl⟩ := yields
    have wider : ∀ storage slot', Below start.1.maxLocals.toNat storage slot' →
        Below (max start.1.maxLocals.toNat (slot.toNat + type.width)) storage slot' :=
      fun storage slot' below => Nat.le_trans below (Nat.le_max_left ..)
    have isSlot : Below (max start.1.maxLocals.toNat (slot.toNat + type.width)) type.storage slot :=
      Nat.le_max_right ..
    have composed := emits.composed _ start.2 (covers.mono wider) isSlot
    have grows := composed.grows emitted
    have reserved : generator.maxLocals.toNat =
        max start.1.maxLocals.toNat (slot.toNat + type.width) := by
      have taken : (UInt16.ofNat (slot.toNat + type.width)).toNat = slot.toNat + type.width := by
        rw [UInt16.toNat_ofNat']
        omega
      rw [grows.maxLocals, Generator.reserveLocals, UInt16.toNat_max, taken]
    dsimp only
    rw [reserved]
    refine ⟨(covers.mono wider).bind isType isSlot, ⟨grows.pool, ?_, fun bounded => ?_⟩,
      fun before => composed.stands emitted ⟨before.fits, fun instr isIn =>
        (before.instrs instr isIn).mono wider (.refl _)⟩⟩
    · rw [UInt16.le_iff_toNat_le, reserved]
      exact Nat.le_max_left ..
    · have := bounded slot type isDeclared
      rw [reserved]
      omega

end MethodPatch
