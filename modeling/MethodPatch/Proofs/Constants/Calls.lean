/-
**Pools after any calls.**

Constants are added by calls, each of which inserts a few constants and stops where one of them
cannot be added. Whatever the calls are and however they end, a pool keeps its indices within a class
file and no constant in it comes twice; everything else that is expected of a pool follows.

* `Pool.Call.add`, `Pool.after`: what a call does to a pool, and a pool behind several calls;
* `Pool.Sound`, `Pool.sound_insert`: what one insertion keeps, and `Pool.sound_after`: what any calls
  keep;
* `Pool.Call.Means`, `Pool.Call.leaves`: what a call that succeeds has left at its index;
* `Pool.consistent_after`: **the entries, their indices and both look-ups agree after any calls.**
-/

import Mathlib.Data.List.Nodup
import MethodPatch.Class.StoredPool
import MethodPatch.Proofs.Constants.Again

namespace MethodPatch.Pool

/-! ### Calls -/

/-- What a call does to a pool. -/
def Call.add : Call → Adding PoolIndex
  | .ofConstant constant => insert constant
  | .ofText text => addText text
  | .ofClass name => addClass name
  | .ofString text => addString text
  | .ofNameAndType name descriptor => addNameAndType name descriptor
  | .ofField owner name descriptor => addField owner name descriptor
  | .ofMethod owner name descriptor => addMethod owner name descriptor
  | .ofInterfaceMethod owner name descriptor => addInterfaceMethod owner name descriptor

theorem Call.addBy_insert (call : Call) : call.addBy insert = call.add := by
  cases call <;> rfl

/-- The pool behind calls in order. What a call has added before it fails stays. -/
def after (pool : Pool) (calls : List Call) : Pool :=
  calls.foldl (fun pool call => (call.add.run.run pool).2) pool

/-- Every call inserts constants one after the other. -/
theorem Call.alike (call : Call) : Alike call.add call.add := by
  cases call with
  | ofConstant constant => exact .insert rfl
  | ofText text => exact .addText text
  | ofClass name => exact .addClass name
  | ofString text => exact .addString text
  | ofNameAndType name descriptor => exact .addNameAndType name descriptor
  | ofField owner name descriptor => exact .addMember (fun _ _ => rfl) owner name descriptor
  | ofMethod owner name descriptor => exact .addMember (fun _ _ => rfl) owner name descriptor
  | ofInterfaceMethod owner name descriptor => exact .addMember (fun _ _ => rfl) owner name descriptor

/-- What one insertion keeps, whether it succeeds or not, is kept by actions that insert. -/
theorem Alike.keeps {holds : Pool → Prop} {first second : Adding PoolIndex}
    (step : ∀ constant pool, holds pool → holds (Pool.insert constant pool).2)
    (alike : Alike first second) {pool : Pool} (here : holds pool) :
    holds (first.run.run pool).2 := by
  induction alike generalizing pool with
  | @insert constant => exact step constant pool here
  | @bind first _ next _ _ _ ihHere ihBehind =>
    have middle := ihHere here
    rw [run_bind]
    generalize first.run.run pool = ran at middle ⊢
    obtain ⟨_ | index, between⟩ := ran
    · exact middle
    · exact ihBehind index index middle

/-! ### What calls keep -/

/-- The indices are those of a class file, which can hold every text, and no constant comes twice. -/
structure Sound (pool : Pool) : Prop where
  fits : pool.Fits
  legal : pool.Legal
  distinct : pool.constants.toList.Nodup

theorem sound_ofReserved (count : UInt16) : (ofReserved count).Sound :=
  ⟨fits_ofReserved count, legal_ofReserved count, .nil⟩

theorem map_snd_layout (base : Nat) (constants : List Constant) :
    (layout base constants).map Prod.snd = constants := by
  induction constants generalizing base with
  | nil => rfl
  | cons first rest ih => rw [layout, List.map_cons, ih]

theorem mem_constants_iff {pool : Pool} {constant : Constant} :
    constant ∈ pool.constants.toList ↔ ∃ index, (index, constant) ∈ pool.entries := by
  rw [← map_snd_layout pool.reserved pool.constants.toList]
  simp [entries]

theorem indexOf?_eq_none_iff {pool : Pool} {constant : Constant} :
    pool.indexOf? constant = none ↔ constant ∉ pool.constants.toList := by
  rw [mem_constants_iff, indexOf?, Option.map_eq_none_iff, List.find?_eq_none]
  constructor
  · rintro unknown ⟨index, isEntry⟩
    simpa using unknown _ isEntry
  · intro unknown entry isEntry same
    rw [← of_decide_eq_true same] at unknown
    exact unknown ⟨entry.1, isEntry⟩

theorem Sound.push {pool : Pool} {constant : Constant} (sound : pool.Sound)
    (unknown : pool.indexOf? constant = none) (short : excessLength? constant = none)
    (room : pool.next + constant.slots ≤ maxCount) : (pool.push constant).Sound where
  fits := (grows_push room).fits sound.fits
  legal := by
    intro other isIn
    rw [Pool.push, Array.toList_push] at isIn
    rcases List.mem_append.mp isIn with isOld | isNew
    · exact sound.legal other isOld
    · rwa [List.mem_singleton.mp isNew]
  distinct := by
    rw [Pool.push, Array.toList_push, List.nodup_append]
    refine ⟨sound.distinct, List.nodup_singleton constant, ?_⟩
    intro old isOld new isNew
    obtain rfl := List.mem_singleton.mp isNew
    exact fun same => indexOf?_eq_none_iff.mp unknown (same ▸ isOld)

/-- **An insertion keeps a pool sound**, whether it succeeds or not. -/
theorem sound_insert (constant : Constant) (pool : Pool) (sound : pool.Sound) :
    (insert constant pool).2.Sound := by
  unfold insert
  split
  · exact sound
  · next unknown =>
    split
    · exact sound
    · next short =>
      split
      · exact sound
      · next room => exact sound.push unknown short (Nat.le_of_not_lt room)

/-- A relation that one call keeps is kept by several. -/
theorem after_of_step {holds : Pool → Prop}
    (step : ∀ (call : Call) (pool : Pool), holds pool → holds (call.add.run.run pool).2)
    {pool : Pool} (here : holds pool) (calls : List Call) : holds (pool.after calls) := by
  induction calls generalizing pool with
  | nil => exact here
  | cons call rest ih => exact ih (step call pool here)

/-- **Calls keep a pool sound**, those that fail included. -/
theorem sound_after {pool : Pool} (sound : pool.Sound) (calls : List Call) :
    (pool.after calls).Sound :=
  after_of_step (fun call _ => call.alike.keeps sound_insert) sound calls

/-- Calls change a pool at its end alone. -/
theorem grows_after (pool : Pool) (calls : List Call) : pool.Grows (pool.after calls) :=
  after_of_step (fun call middle grown => grown.trans (call.alike.growing middle)) (.refl pool) calls

/-! ### What a call has left -/

/-- What holds at the index that an action gives, in its pool and in all that grow from it. -/
def Leaves (add : Adding PoolIndex) (means : Pool → PoolIndex → Prop) : Prop :=
  ∀ before after later index, before.Fits → add.run.run before = (.ok index, after) →
    after.Grows later → means later index

theorem leaves_insert (constant : Constant) :
    Leaves (insert constant) fun pool index => pool.get? index.toNat = some constant :=
  fun _ _ _ _ fits added grown => get?_of_insert added fits grown

theorem Leaves.bind {add : Adding PoolIndex} {next : PoolIndex → Adding PoolIndex}
    {means : Pool → PoolIndex → Prop} {others : PoolIndex → Pool → PoolIndex → Prop}
    (growing : Growing add) (growingNext : ∀ index, Growing (next index)) (first : Leaves add means)
    (second : ∀ index, Leaves (next index) (others index)) :
    Leaves (add >>= next) fun pool index =>
      ∃ part, means pool part ∧ others part pool index := by
  intro before after later index fits added grown
  obtain ⟨part, middle, addedFirst, addedSecond⟩ := run_bind_ok.mp added
  have grownSecond := (growingNext part).grows addedSecond
  have fitsMiddle := (growing.grows addedFirst).fits fits
  exact ⟨part, first _ _ _ _ fits addedFirst (grownSecond.trans grown),
    second part _ _ _ _ fitsMiddle addedSecond grown⟩

/-- An index stands for a text. -/
def IsText (text : String) (pool : Pool) (index : PoolIndex) : Prop :=
  pool.get? index.toNat = some (.utf8 text)

/-- An index stands for a class. -/
def IsClass (name : String) (pool : Pool) (index : PoolIndex) : Prop :=
  ∃ text, IsText name pool text ∧ pool.get? index.toNat = some (.classRef text)

/-- An index stands for a string literal. -/
def IsString (literal : String) (pool : Pool) (index : PoolIndex) : Prop :=
  ∃ text, IsText literal pool text ∧ pool.get? index.toNat = some (.string text)

/-- An index stands for the name and the descriptor of a member. -/
def IsNameAndType (name descriptor : String) (pool : Pool) (index : PoolIndex) : Prop :=
  ∃ first, IsText name pool first ∧ ∃ second, IsText descriptor pool second ∧
    pool.get? index.toNat = some (.nameAndType first second)

/-- An index stands for a member of a class. -/
def IsMember (member : PoolIndex → PoolIndex → Constant) (owner name descriptor : String)
    (pool : Pool) (index : PoolIndex) : Prop :=
  ∃ first, IsClass owner pool first ∧ ∃ second, IsNameAndType name descriptor pool second ∧
    pool.get? index.toNat = some (member first second)

/-! What an index stands for stays when a pool grows. -/

section Growing

variable {pool later : Pool} {index : PoolIndex}

theorem IsText.mono {text : String} (isText : IsText text pool index) (grows : pool.Grows later) :
    IsText text later index :=
  grows.get? isText

theorem IsClass.mono {name : String} (isClass : IsClass name pool index) (grows : pool.Grows later) :
    IsClass name later index := by
  obtain ⟨text, isText, found⟩ := isClass
  exact ⟨text, isText.mono grows, grows.get? found⟩

theorem IsNameAndType.mono {name descriptor : String}
    (isBoth : IsNameAndType name descriptor pool index) (grows : pool.Grows later) :
    IsNameAndType name descriptor later index := by
  obtain ⟨first, isName, second, isDescriptor, found⟩ := isBoth
  exact ⟨first, isName.mono grows, second, isDescriptor.mono grows, grows.get? found⟩

theorem IsMember.mono {member : PoolIndex → PoolIndex → Constant} {owner name descriptor : String}
    (isMember : IsMember member owner name descriptor pool index) (grows : pool.Grows later) :
    IsMember member owner name descriptor later index := by
  obtain ⟨first, isClass, second, isBoth, found⟩ := isMember
  exact ⟨first, isClass.mono grows, second, isBoth.mono grows, grows.get? found⟩

end Growing

/-- An index stands for what a call asks for. -/
def Call.Means : Call → Pool → PoolIndex → Prop
  | .ofConstant constant => fun pool index => pool.get? index.toNat = some constant
  | .ofText text => IsText text
  | .ofClass name => IsClass name
  | .ofString text => IsString text
  | .ofNameAndType name descriptor => IsNameAndType name descriptor
  | .ofField owner name descriptor => IsMember .field owner name descriptor
  | .ofMethod owner name descriptor => IsMember .method owner name descriptor
  | .ofInterfaceMethod owner name descriptor => IsMember .interfaceMethod owner name descriptor

theorem leaves_addText (text : String) : Leaves (addText text) (IsText text) := leaves_insert _

theorem leaves_addClass (name : String) : Leaves (addClass name) (IsClass name) :=
  .bind (growing_insert _) (fun _ => growing_insert _) (leaves_addText name)
    fun _ => leaves_insert _

theorem leaves_addString (text : String) : Leaves (addString text) (IsString text) :=
  .bind (growing_insert _) (fun _ => growing_insert _) (leaves_addText text)
    fun _ => leaves_insert _

theorem leaves_addNameAndType (name descriptor : String) :
    Leaves (addNameAndType name descriptor) (IsNameAndType name descriptor) :=
  .bind (growing_insert _) (fun _ => (growing_insert _).bind fun _ => growing_insert _)
    (leaves_addText name) fun _ =>
      .bind (growing_insert _) (fun _ => growing_insert _) (leaves_addText descriptor)
        fun _ => leaves_insert _

theorem leaves_addMember (member : PoolIndex → PoolIndex → Constant)
    (owner name descriptor : String) :
    Leaves (addMember member owner name descriptor) (IsMember member owner name descriptor) :=
  .bind (growing_addClass owner)
    (fun _ => (growing_addNameAndType name descriptor).bind fun _ => growing_insert _)
    (leaves_addClass owner) fun _ =>
      .bind (growing_addNameAndType name descriptor) (fun _ => growing_insert _)
        (leaves_addNameAndType name descriptor) fun _ => leaves_insert _

/-- A call that succeeds gives an index of what it asks for. -/
theorem Call.leaves (call : Call) : Leaves call.add call.Means := by
  cases call with
  | ofConstant constant => exact leaves_insert constant
  | ofText text => exact leaves_addText text
  | ofClass name => exact leaves_addClass name
  | ofString text => exact leaves_addString text
  | ofNameAndType name descriptor => exact leaves_addNameAndType name descriptor
  | ofField owner name descriptor => exact leaves_addMember .field owner name descriptor
  | ofMethod owner name descriptor => exact leaves_addMember .method owner name descriptor
  | ofInterfaceMethod owner name descriptor =>
    exact leaves_addMember .interfaceMethod owner name descriptor

/-! ### Consistency -/

/-- Entries are numbered without a gap from one index up to another, each constant taking its
slots. -/
inductive Numbered : Nat → List (Nat × Constant) → Nat → Prop
  | nil (index : Nat) : Numbered index [] index
  | cons {index next : Nat} {constant : Constant} {rest : List (Nat × Constant)}
    (behind : Numbered (index + constant.slots) rest next) :
    Numbered index ((index, constant) :: rest) next

theorem numbered_layout (base : Nat) (constants : List Constant) :
    Numbered base (layout base constants) (base + totalSlots constants) := by
  induction constants generalizing base with
  | nil => exact .nil base
  | cons first rest ih =>
    have behind := ih (base + first.slots)
    rw [Nat.add_assoc] at behind
    exact .cons behind

theorem entries_of_grows {before after : Pool} (grows : before.Grows after) :
    before.entries <+: after.entries := by
  obtain ⟨more, constants⟩ := grows.constants
  rw [entries, entries, grows.reserved, ← constants, layout_append]
  exact List.prefix_append ..

/-- A constant that comes once has the one index at which it is found. -/
theorem Sound.indexOf?_eq_some_iff {pool : Pool} (sound : pool.Sound) {constant : Constant}
    {index : Nat} : pool.indexOf? constant = some index ↔ (index, constant) ∈ pool.entries := by
  refine ⟨mem_of_indexOf?, fun isEntry => ?_⟩
  have unique : (pool.entries.map Prod.snd).Nodup := by
    rw [entries, map_snd_layout]
    exact sound.distinct
  cases found : pool.indexOf? constant with
  | none => exact absurd (mem_constants_iff.mpr ⟨index, isEntry⟩) (indexOf?_eq_none_iff.mp found)
  | some other =>
    have same := List.inj_on_of_nodup_map unique (mem_of_indexOf? found) isEntry rfl
    cases same
    rfl

theorem Sound.toNat_count {pool : Pool} (sound : pool.Sound) : pool.count.toNat = pool.next := by
  have fits := sound.fits
  unfold Fits maxCount at fits
  rw [count, maxCount, UInt16.toNat_ofNat']
  omega

/-- **The entries of a pool, their indices and both look-ups agree after any calls.** The entries are
numbered without a gap behind the reserved indices, within those of a class file, so that the count of
indices is exact. No constant comes twice. A constant is found at an index, and an index has a
constant, if and only if there is this entry. Any further call leaves all entries as they are, and if
it succeeds, its index stands for what it has asked for. -/
theorem consistent_after (reserved : UInt16) (calls : List Call) :
    let pool := (ofReserved reserved).after calls
    Numbered (max reserved.toNat 1) pool.entries pool.next ∧ pool.next ≤ 65535 ∧
    pool.count.toNat = pool.next ∧ (pool.entries.map Prod.snd).Nodup ∧
    (∀ constant index, pool.indexOf? constant = some index ↔ (index, constant) ∈ pool.entries) ∧
    (∀ index constant, pool.get? index = some constant ↔ (index, constant) ∈ pool.entries) ∧
    ∀ call : Call, pool.entries <+: (call.add.run.run pool).2.entries ∧
      ∀ index later, call.add.run.run pool = (.ok index, later) → call.Means later index := by
  intro pool
  have sound : pool.Sound := sound_after (sound_ofReserved reserved) calls
  have isReserved : pool.reserved = max reserved.toNat 1 := (grows_after _ calls).reserved
  refine ⟨?_, sound.fits, sound.toNat_count, ?_, fun _ _ => sound.indexOf?_eq_some_iff,
    fun _ _ => get?_eq_some_iff, fun call => ⟨entries_of_grows (call.alike.growing pool), ?_⟩⟩
  · rw [← isReserved]
    exact numbered_layout ..
  · rw [entries, map_snd_layout]
    exact sound.distinct
  · exact fun index later added => call.leaves _ _ _ _ sound.fits added (.refl later)

end MethodPatch.Pool
