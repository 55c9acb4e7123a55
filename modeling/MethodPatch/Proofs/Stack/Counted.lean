/-
**Calls whose arguments are counted in full.**

A call takes as many slots from the stack as it counts for its arguments. The count is made in 16
bits, so that it is right for methods whose parameters take at most 65535 slots, and it starts over
for all others. What is said of the stack is said of code whose calls are of the first kind.

* `Instr.Counted`: the methods that a call can mean are of the first kind;
* `Instr.counted_of_shortTexts`: all calls are, unless a text of the pool is long;
* `Generator.Counted.front`: in front of counted code everything is counted;
* `Signature.toNat_argumentSlots`: a call of the first kind counts its arguments in full.
-/

import MethodPatch.Proofs.Constants.Calls
import MethodPatch.Proofs.Emission.Lays

namespace MethodPatch

/-- The constants of methods that are called in a way: those of interfaces, or those of classes. -/
def Dispatch.constant (dispatch : Dispatch) : PoolIndex → PoolIndex → Constant :=
  if dispatch = .interface then .interfaceMethod else .method

/-- What is added for a call stands for the method. -/
theorem Dispatch.leaves_constant (dispatch : Dispatch) (owner name descriptor : String) :
    Pool.Leaves
      ((if dispatch = .interface then Pool.addInterfaceMethod else Pool.addMethod) owner name
        descriptor)
      (Pool.IsMember dispatch.constant owner name descriptor) := by
  unfold Dispatch.constant
  split
  · exact Pool.leaves_addMember .interfaceMethod owner name descriptor
  · exact Pool.leaves_addMember .method owner name descriptor

/-! ### Slots of parameters -/

theorem FieldType.length_descriptor_pos (type : FieldType) : 0 < type.descriptor.length := by
  rw [← String.length_toList]
  cases type <;> simp [descriptor]

namespace Signature

variable {signature : Signature}

/-- What a call counts fits into one byte. -/
theorem toNat_parameterSlots_toUInt8 (few : signature.parameterSlots ≤ 255) :
    signature.parameterSlots.toUInt8.toNat = signature.parameterSlots.toNat := by
  have small : signature.parameterSlots.toNat ≤ 255 := UInt16.le_iff_toNat_le.mp few
  rw [UInt16.toNat_toUInt8]
  omega

/-- The arguments of a method are counted in full if its parameters take at most 65535 slots. -/
theorem toNat_argumentSlots (few : signature.parameterSlots ≤ 255)
    (counted : signature.slots ≤ 65535) :
    signature.parameterSlots.toUInt8.toNat = signature.slots :=
  (toNat_parameterSlots_toUInt8 few).trans (signature.toNat_parameterSlots_eq_iff.mpr counted)

/-- A parameter is described by a character at least and takes two slots at most. -/
theorem slots_le_length_descriptor (signature : Signature) :
    signature.slots ≤ 2 * signature.descriptor.length := by
  have described : ∀ parameters : List FieldType, total FieldType.width parameters ≤
      2 * (String.join (parameters.map FieldType.descriptor)).length := by
    intro parameters
    induction parameters with
    | nil => exact Nat.zero_le _
    | cons first rest ih =>
      have narrow : first.width ≤ 2 := by
        rw [FieldType.width_eq]
        split <;> decide
      have spelled := first.length_descriptor_pos
      rw [total_cons, List.map_cons, String.join_cons, String.length_append]
      omega
  have parameters := described signature.parameters
  simp only [slots, descriptor, String.length_append]
  omega

end Signature

/-! ### Counted calls -/

/-- The parameters of the method that a call means take at most 65535 slots. -/
def Instr.Counted (pool : Pool) : Instr → Prop
  | .invoke dispatch index _ _ => ∀ (owner name : String) (signature : Signature),
    Pool.IsMember dispatch.constant owner name signature.descriptor pool index →
      signature.slots ≤ 65535
  | _ => True

theorem Instr.Counted.of_grows {instr : Instr} {pool later : Pool} (counted : instr.Counted later)
    (grows : pool.Grows later) : instr.Counted pool := by
  cases instr with
  | invoke dispatch index argumentSlots resultSlots =>
    exact fun owner name signature isMember => counted owner name signature (isMember.mono grows)
  | _ => exact trivial

/-- The texts of a pool are too short to describe parameters of more than 65535 slots. -/
def Pool.hasShortTexts (pool : Pool) : Bool :=
  pool.constants.toList.all fun
    | .utf8 text => text.length ≤ 32767
    | _ => true

theorem Instr.counted_of_shortTexts {pool : Pool} (short : pool.hasShortTexts = true)
    (instr : Instr) : instr.Counted pool := by
  cases instr with
  | invoke dispatch index argumentSlots resultSlots =>
    rintro owner name signature ⟨_, _, _, ⟨_, _, text, isText, _⟩, _⟩
    have isIn := Pool.mem_constants_iff.mpr ⟨_, Pool.get?_eq_some_iff.mp isText⟩
    have few : signature.descriptor.length ≤ 32767 :=
      of_decide_eq_true (List.all_eq_true.mp short _ isIn)
    exact Nat.le_trans signature.slots_le_length_descriptor (by omega)
  | _ => exact trivial

theorem Instr.counted_retarget {instr : Instr} {pool : Pool} {target : Nat} :
    (instr.retarget target).Counted pool ↔ instr.Counted pool := by
  cases instr <;> exact .rfl

namespace Generator

/-- The constants fit into a class file, and the arguments of every call are counted in full. -/
structure Counted (generator : Generator) : Prop where
  fits : generator.body.pool.Fits
  calls : ∀ instr ∈ generator.instrs, instr.Counted generator.body.pool

variable {before middle after : Generator}

/-- In front of counted code everything is counted. -/
theorem Counted.front (counted : after.Counted) {code : List Instr}
    (instrs : after.instrs = before.instrs ++ code) (grows : before.body.pool.Grows after.body.pool) :
    before.Counted where
  fits := grows.fits_front counted.fits
  calls instr isIn :=
    (counted.calls instr (instrs ▸ List.mem_append_left code isIn)).of_grows grows

theorem Counted.ofLays {block : Block} (counted : after.Counted) (laid : before.Lays block after) :
    before.Counted :=
  counted.front laid.instrs laid.pool

theorem Counted.ofBranches {condition : Condition} {branches : List Nat} (counted : after.Counted)
    (laid : before.Branches condition branches after) : before.Counted :=
  counted.front laid.instrs laid.pool

theorem Counted.ofPush {instr : Instr} (counted : (before.push instr).Counted) : before.Counted :=
  counted.ofLays (.push before instr)

theorem Counted.ofSetDepth {depth : Nat} (counted : (before.setDepth depth).Counted) :
    before.Counted :=
  ⟨counted.fits, counted.calls⟩

/-- Where branches go does not matter for calls. -/
theorem Counted.ofLand {branches : List Nat} {target : Nat}
    (counted : (before.land branches target).Counted) : before.Counted where
  fits := pool_land before branches target ▸ counted.fits
  calls := by
    intro instr isIn
    obtain ⟨index, inRange, rfl⟩ := List.getElem_of_mem isIn
    have isLanded : (if 0 + index ∈ branches then before.instrs[index].retarget target
        else before.instrs[index]) ∈ (before.land branches target).instrs := by
      rw [instrs_land]
      exact List.mem_mapIdx.mpr ⟨index, inRange, rfl⟩
    have calls := counted.calls _ isLanded
    rw [pool_land] at calls
    split at calls
    · exact Instr.counted_retarget.mp calls
    · exact calls

end Generator

end MethodPatch
