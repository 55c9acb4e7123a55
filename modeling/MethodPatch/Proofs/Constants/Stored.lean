/-
**Pools that are kept.**

A stored pool has its entries, its table and its first free index apart from each other. They say the
same as long as each agrees with what the constants alone tell, and every addition that is made from
there leaves them in agreement, whether it succeeds or not.

* `StoredPool.Agrees`: entries, table and first free index are those of the constants;
* `StoredPool.Simulates`: an action on stored pools does what one on pools does;
* `StoredPool.simulates_add`, `StoredPool.simulates_addBy`: one addition, and a whole call;
* `StoredPool.consistent_behind`: **entries, table, first free index and search agree after any calls.**
-/

import MethodPatch.Proofs.Constants.Calls

namespace MethodPatch

/-! ### What calls ask for -/

namespace Pool.Call

/-- An index stands for what a call asks for, in a pool that answers what is at an index. -/
def Asks (get? : PoolIndex → Option Constant) : Call → PoolIndex → Prop
  | .ofConstant constant, index => get? index = some constant
  | .ofText text, index => get? index = some (.utf8 text)
  | .ofClass name, index => ∃ text, get? text = some (.utf8 name) ∧ get? index = some (.classRef text)
  | .ofString literal, index =>
    ∃ text, get? text = some (.utf8 literal) ∧ get? index = some (.string text)
  | .ofNameAndType name descriptor, index => IsNameAndType name descriptor index
  | .ofField owner name descriptor, index => IsMember .field owner name descriptor index
  | .ofMethod owner name descriptor, index => IsMember .method owner name descriptor index
  | .ofInterfaceMethod owner name descriptor, index =>
    IsMember .interfaceMethod owner name descriptor index
where
  IsNameAndType (name descriptor : String) (index : PoolIndex) : Prop :=
    ∃ first, get? first = some (.utf8 name) ∧ ∃ second, get? second = some (.utf8 descriptor) ∧
      get? index = some (.nameAndType first second)
  IsMember (member : PoolIndex → PoolIndex → Constant) (owner name descriptor : String)
      (index : PoolIndex) : Prop :=
    ∃ first, (∃ text, get? text = some (.utf8 owner) ∧ get? first = some (.classRef text)) ∧
      ∃ second, IsNameAndType name descriptor second ∧ get? index = some (member first second)

theorem asks_iff {call : Call} {pool : Pool} {index : PoolIndex} :
    call.Asks (fun index => pool.get? index.toNat) index ↔ call.Means pool index := by
  cases call <;> exact .rfl

end Pool.Call

namespace StoredPool

variable {stored : StoredPool} {constant : Constant} {index : PoolIndex}

/-! ### Agreement -/

/-- Entries, table and first free index are those that the constants alone tell. -/
structure Agrees (stored : StoredPool) : Prop where
  sound : stored.toPool.Sound
  numbered : stored.numbered = stored.toPool.entries
  next : stored.next.toNat = stored.toPool.next
  interned : ∀ constant, stored.indexOf? constant =
    (stored.toPool.indexOf? constant).map UInt16.ofNat

theorem toPool_ofReserved (count : UInt16) : (ofReserved count).toPool = Pool.ofReserved count := by
  have isReserved : (ofReserved count).reserved.toNat = max count.toNat 1 := UInt16.toNat_max count 1
  have noEntries : (ofReserved count).entries.map Prod.snd = #[] := Array.map_empty
  rw [toPool, isReserved, noEntries, Pool.ofReserved]

theorem agrees_ofReserved (count : UInt16) : (ofReserved count).Agrees where
  sound := toPool_ofReserved count ▸ Pool.sound_ofReserved count
  numbered := by rw [toPool_ofReserved]; rfl
  next := by rw [toPool_ofReserved]; exact (UInt16.toNat_toUInt32 _).trans (UInt16.toNat_max count 1)
  interned _ := by rw [toPool_ofReserved]; rfl

theorem mem_numbered_iff : (index.toNat, constant) ∈ stored.numbered ↔
    (index, constant) ∈ stored.entries := by
  rw [numbered, List.mem_map, ← Array.mem_toList_iff]
  constructor
  · rintro ⟨⟨other, _⟩, isEntry, same⟩
    obtain ⟨sameIndex, rfl⟩ := Prod.mk.inj same
    rwa [← UInt16.toNat_inj.mp sameIndex]
  · exact fun isEntry => ⟨_, isEntry, rfl⟩

theorem map_snd_numbered (stored : StoredPool) :
    stored.numbered.map Prod.snd = stored.entries.toList.map Prod.snd := by
  rw [numbered, List.map_map]
  rfl

/-- Room for a constant is room in 32 bits. -/
theorem toNat_next_add (fits : stored.next.toNat ≤ 65535) (constant : Constant) :
    (stored.next + UInt32.ofNat constant.slots).toNat = stored.next.toNat + constant.slots := by
  have narrow : constant.slots ≤ 2 := by cases constant <;> simp [Constant.slots]
  have slots : (UInt32.ofNat constant.slots).toNat = constant.slots :=
    UInt32.toNat_ofNat_of_lt' (by rw [UInt32.size]; omega)
  rw [UInt32.toNat_add, slots, Nat.mod_eq_of_lt (by omega)]

/-- An addition overflows where the constant would reach behind the indices of a class file. -/
theorem maxCount_le_iff (fits : stored.next.toNat ≤ 65535) (constant : Constant) :
    maxCount ≤ stored.next + UInt32.ofNat constant.slots - 1 ↔
      Pool.maxCount < stored.next.toNat + constant.slots := by
  have occupied := constant.slots_pos
  have sum := toNat_next_add fits constant
  have one : (1 : UInt32) ≤ stored.next + UInt32.ofNat constant.slots :=
    UInt32.le_iff_toNat_le.mpr (by rw [sum]; exact Nat.le_trans occupied (Nat.le_add_left ..))
  have limit : maxCount.toNat = Pool.maxCount := rfl
  rw [UInt32.le_iff_toNat_le, UInt32.toNat_sub_of_le _ _ one, sum, limit]
  exact (Nat.le_sub_iff_add_le (Nat.le_trans occupied (Nat.le_add_left ..)))

/-! ### Simulation -/

/-- From pools in agreement, an action on stored pools answers as one on pools does, makes the same
constants of them, and leaves them in agreement. -/
def Simulates {α : Type} (action : Adding α) (other : Pool.Adding α) : Prop :=
  ∀ stored : StoredPool, stored.Agrees → (action.run.run stored).2.Agrees ∧
    other.run.run stored.toPool = ((action.run.run stored).1, (action.run.run stored).2.toPool)

theorem Simulates.bind {α β : Type} {action : Adding α} {other : Pool.Adding α}
    {next : α → Adding β} {following : α → Pool.Adding β} (here : Simulates action other)
    (behind : ∀ answer, Simulates (next answer) (following answer)) :
    Simulates (action >>= next) (other >>= following) := by
  intro stored agrees
  obtain ⟨agreesMiddle, same⟩ := here stored agrees
  rw [run_bind, run_bind, same]
  generalize action.run.run stored = ran at agreesMiddle ⊢
  obtain ⟨_ | answer, middle⟩ := ran
  · exact ⟨agreesMiddle, rfl⟩
  · exact behind answer middle agreesMiddle

/-- What is appended goes to the entries, to the table and to the first free index alike. -/
theorem Agrees.append (agrees : stored.Agrees) (unknown : stored.toPool.indexOf? constant = none)
    (sound : (stored.toPool.push constant).Sound) :
    let later : StoredPool := { stored with
      next := stored.next + UInt32.ofNat constant.slots
      interned := (constant, stored.next.toUInt16) :: stored.interned
      entries := stored.entries.push (stored.next.toUInt16, constant) }
    later.toPool = stored.toPool.push constant ∧ later.Agrees := by
  intro later
  have isPushed : later.toPool = stored.toPool.push constant := by
    simp [later, toPool, Pool.push]
  have fits : stored.next.toNat ≤ 65535 := agrees.next ▸ agrees.sound.fits
  have isIndex : stored.next.toUInt16.toNat = stored.toPool.next := by
    rw [UInt32.toNat_toUInt16, agrees.next]
    exact Nat.mod_eq_of_lt (Nat.lt_succ_of_le (agrees.next ▸ fits))
  refine ⟨isPushed, isPushed ▸ sound, ?numbered, ?next, fun other => ?interned⟩
  case numbered =>
    have appended : later.numbered = stored.numbered ++ [(stored.toPool.next, constant)] := by
      simp [later, StoredPool.numbered, isIndex]
    rw [appended, isPushed, Pool.entries_push, agrees.numbered]
  case next =>
    rw [isPushed, Pool.next_push, ← agrees.next]
    exact toNat_next_add fits constant
  case interned =>
    have looked : later.indexOf? other =
        if other = constant then some stored.next.toUInt16 else stored.indexOf? other := by
      simp only [later, StoredPool.indexOf?, List.lookup_cons]
      by_cases same : other = constant
      · simp [same]
      · rw [beq_false_of_ne same, if_neg same]
    rw [looked, isPushed, Pool.indexOf?_push unknown, agrees.interned]
    split
    · rw [Option.map_some, ← isIndex, UInt16.ofNat_toNat]
    · rfl

/-- **One addition keeps entries, table and first free index in agreement.** -/
theorem simulates_add (constant : Constant) : Simulates (add constant) (Pool.insert constant) := by
  intro stored agrees
  show (add constant stored).2.Agrees ∧
    Pool.insert constant stored.toPool = ((add constant stored).1, (add constant stored).2.toPool)
  have kept := Pool.sound_insert constant stored.toPool agrees.sound
  have fits : stored.next.toNat ≤ 65535 := agrees.next ▸ agrees.sound.fits
  have overflows := maxCount_le_iff fits constant
  rw [agrees.next] at overflows
  unfold Pool.insert at kept ⊢
  unfold add
  rw [agrees.interned]
  cases known : stored.toPool.indexOf? constant with
  | some index => exact ⟨agrees, rfl⟩
  | none =>
    rw [known] at kept
    dsimp only [Option.map_none] at kept ⊢
    cases long : Pool.excessLength? constant with
    | some length => exact ⟨agrees, rfl⟩
    | none =>
      rw [long] at kept
      dsimp only at kept ⊢
      by_cases full : Pool.maxCount < stored.toPool.next + constant.slots
      · rw [if_pos full, if_pos (overflows.mpr full)]
        exact ⟨agrees, rfl⟩
      · rw [if_neg full] at kept ⊢
        rw [if_neg (full ∘ overflows.mp)]
        obtain ⟨isPushed, agreesLater⟩ := agrees.append known kept
        refine ⟨agreesLater, ?_⟩
        rw [← isPushed, ← agrees.next]
        rfl

/-- **A call does the same to a stored pool as to its constants.** -/
theorem simulates_addBy (call : Pool.Call) : Simulates (call.addBy add) call.add := by
  rw [← call.addBy_insert]
  have single := simulates_add
  have classBy (name : String) :
      Simulates (Pool.Call.classBy add name) (Pool.Call.classBy Pool.insert name) :=
    (single _).bind fun _ => single _
  have nameAndTypeBy (name descriptor : String) :
      Simulates (Pool.Call.nameAndTypeBy add name descriptor)
        (Pool.Call.nameAndTypeBy Pool.insert name descriptor) :=
    (single _).bind fun _ => (single _).bind fun _ => single _
  have memberBy (member : PoolIndex → PoolIndex → Constant) (owner name descriptor : String) :
      Simulates (Pool.Call.memberBy add member owner name descriptor)
        (Pool.Call.memberBy Pool.insert member owner name descriptor) :=
    (classBy owner).bind fun _ => (nameAndTypeBy name descriptor).bind fun _ => single _
  cases call with
  | ofConstant constant => exact single constant
  | ofText text => exact single _
  | ofClass name => exact classBy name
  | ofString text => exact (single _).bind fun _ => single _
  | ofNameAndType name descriptor => exact nameAndTypeBy name descriptor
  | ofField owner name descriptor => exact memberBy .field owner name descriptor
  | ofMethod owner name descriptor => exact memberBy .method owner name descriptor
  | ofInterfaceMethod owner name descriptor => exact memberBy .interfaceMethod owner name descriptor

/-- **Calls in order do the same to a stored pool as to its constants**, and leave it in agreement. -/
theorem Agrees.after (agrees : stored.Agrees) (calls : List Pool.Call) :
    (stored.after calls).Agrees ∧ (stored.after calls).toPool = stored.toPool.after calls := by
  unfold StoredPool.after Pool.after
  induction calls generalizing stored with
  | nil => exact ⟨agrees, rfl⟩
  | cons call rest ih =>
    obtain ⟨agreesHere, same⟩ := simulates_addBy call stored agrees
    rw [List.foldl_cons, List.foldl_cons, same]
    exact ih agreesHere

/-! ### Consistency -/

theorem Agrees.indexOf?_eq_some_iff (agrees : stored.Agrees) :
    stored.indexOf? constant = some index ↔ (index, constant) ∈ stored.entries := by
  rw [agrees.interned, ← mem_numbered_iff, agrees.numbered, Option.map_eq_some_iff]
  constructor
  · rintro ⟨number, found, rfl⟩
    have isEntry := Pool.mem_of_indexOf? found
    rwa [Pool.index_lt_of_fits agrees.sound.fits isEntry]
  · exact fun isEntry =>
      ⟨_, agrees.sound.indexOf?_eq_some_iff.mpr isEntry, UInt16.ofNat_toNat⟩

theorem Agrees.get?_eq (agrees : stored.Agrees) (index : PoolIndex) :
    stored.get? index = stored.toPool.get? index.toNat := by
  rw [get?, agrees.numbered]
  rfl

theorem Agrees.get?_eq_some_iff (agrees : stored.Agrees) :
    stored.get? index = some constant ↔ (index, constant) ∈ stored.entries := by
  rw [agrees.get?_eq, ← mem_numbered_iff, agrees.numbered]
  exact Pool.get?_eq_some_iff

theorem Agrees.toNat_count (agrees : stored.Agrees) : stored.count.toNat = stored.next.toNat := by
  have fits : stored.next.toNat ≤ 65535 := agrees.next ▸ agrees.sound.fits
  have within : min stored.next.toNat maxCount.toNat = stored.next.toNat := Nat.min_eq_left fits
  rw [count, UInt32.toNat_toUInt16, UInt32.toNat_min, within]
  exact Nat.mod_eq_of_lt (Nat.lt_succ_of_le fits)

/-- Where the constants grow, the entries do. -/
theorem Agrees.entries_of_grows {later : StoredPool} (agrees : stored.Agrees)
    (agreesLater : later.Agrees) (grows : stored.toPool.Grows later.toPool) :
    stored.entries.toList <+: later.entries.toList := by
  have entries := Pool.entries_of_grows grows
  rw [← agrees.numbered, ← agreesLater.numbered] at entries
  refine (List.prefix_map_iff_of_injective ?_).mp entries
  rintro ⟨_, _⟩ ⟨_, _⟩ same
  obtain ⟨sameIndex, sameConstant⟩ := Prod.mk.inj same
  exact Prod.ext (UInt16.toNat_inj.mp sameIndex) sameConstant

/-- **Entries, table, first free index and search agree after any calls.** The entries are numbered
without a gap behind the reserved indices, within those of a class file, so that the count of indices
is exact. No constant comes twice. The table has an index for a constant, and the search finds a
constant at an index, if and only if there is this entry. Any further call leaves all entries as they
are, and if it succeeds, its index stands for what it has asked for. -/
theorem consistent_behind (reserved : UInt16) (calls : List Pool.Call) :
    let pool := (ofReserved reserved).after calls
    Pool.Numbered (max reserved.toNat 1) pool.numbered pool.next.toNat ∧
    pool.next.toNat ≤ 65535 ∧ pool.count.toNat = pool.next.toNat ∧
    (pool.entries.toList.map Prod.snd).Nodup ∧
    (∀ constant index, pool.indexOf? constant = some index ↔ (index, constant) ∈ pool.entries) ∧
    (∀ index constant, pool.get? index = some constant ↔ (index, constant) ∈ pool.entries) ∧
    ∀ call : Pool.Call,
      pool.entries.toList <+: ((call.addBy add).run.run pool).2.entries.toList ∧
      ∀ index later, (call.addBy add).run.run pool = (.ok index, later) →
        call.Asks later.get? index := by
  intro pool
  obtain ⟨agrees, isBehind⟩ := (agrees_ofReserved reserved).after calls
  rw [toPool_ofReserved] at isBehind
  obtain ⟨numbered, fits, _, distinct, _, _, behind⟩ := Pool.consistent_after reserved calls
  rw [← isBehind] at numbered fits distinct behind
  rw [← agrees.numbered, ← agrees.next] at numbered
  rw [← agrees.numbered, map_snd_numbered] at distinct
  refine ⟨numbered, agrees.next ▸ fits, agrees.toNat_count, distinct,
    fun _ _ => agrees.indexOf?_eq_some_iff, fun _ _ => agrees.get?_eq_some_iff, fun call => ?_⟩
  obtain ⟨agreesLater, same⟩ := simulates_addBy call pool agrees
  obtain ⟨_, means⟩ := behind call
  refine ⟨agrees.entries_of_grows agreesLater ?_, fun index later added => ?_⟩
  · have grows := call.alike.growing pool.toPool
    rwa [same] at grows
  · rw [added] at same agreesLater
    have asked := Pool.Call.asks_iff.mpr (means index later.toPool same)
    rwa [← funext agreesLater.get?_eq] at asked

end StoredPool

end MethodPatch
