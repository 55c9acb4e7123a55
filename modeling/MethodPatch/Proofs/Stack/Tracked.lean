/-
**The largest depth that a body records.**

A body follows the depth of the operand stack while instructions are added, and goes on with a depth
that it had before where branches meet. Depths have no limit, but the largest one is recorded in the
sixteen bits of a class file. Code that is short enough to be encoded may be deeper than that: one
byte can push two slots.

* `Body.Tracks`: a body behind calls that follow the depth, and the depths that it had;
* `Tracks.maxStack`: what is recorded is the largest of the recorded parts of these depths;
* `Tracks.le_codeSize`: depths are bounded by the size of the code;
* `Body.bounds_depths_iff`: **the recorded maximum bounds all depths exactly if sixteen bits hold
  them**, as they do in code that is short for what its instructions push;
* `Body.understates_depth`: code that can be encoded, and whose recorded maximum is too small.
-/

import MethodPatch.Proofs.Encoding.Body

namespace MethodPatch.Body

/-! ### Depths along calls -/

/-- A body behind calls that follow the depth of the stack, begun without instructions, and the
depths so far, the last one first. Each instruction finds what it pops, and where a depth is set, it
is one that there was before. -/
inductive Tracks : Body → List Nat → Prop
  | start (pool : Pool) : Tracks (.ofPool pool) [0]
  | emit {body : Body} {depth : Nat} {earlier : List Nat} {instr : Instr}
    (tracks : Tracks body (depth :: earlier)) (enough : instr.pops ≤ depth)
    (position : Option Position) :
    Tracks (body.emit instr position) ((depth - instr.pops + instr.pushes) :: depth :: earlier)
  | setDepth {body : Body} {depth : Nat} {depths : List Nat} (tracks : Tracks body depths)
    (before : depth ∈ depths) : Tracks (body.withDepth depth) (depth :: depths)

variable {body : Body} {depths : List Nat}

theorem recordedDepth_le (depth : Nat) : recordedDepth depth ≤ 65535 :=
  Nat.le_of_lt_succ (Nat.mod_lt depth (by decide))

theorem recordedDepth_eq {depth : Nat} (few : depth ≤ 65535) : recordedDepth depth = depth :=
  Nat.mod_eq_of_lt (Nat.lt_succ_of_le few)

/-- The body is at the last depth. -/
theorem Tracks.depth (tracks : body.Tracks depths) : depths.head? = some body.depth := by
  induction tracks with
  | start pool => rfl
  | @emit body depth earlier instr tracks enough position ih =>
    cases ih
    exact congrArg some (instr.effect_eq body.depth enough).symm
  | setDepth tracks before ih => rfl

/-- The largest of the recorded parts of some depths. -/
structure IsRecorded (maxStack : Nat) (depths : List Nat) : Prop where
  bounds : ∀ depth ∈ depths, recordedDepth depth ≤ maxStack
  reached : ∃ depth ∈ depths, recordedDepth depth = maxStack

theorem IsRecorded.cons {maxStack : Nat} (recorded : IsRecorded maxStack depths) (depth : Nat) :
    IsRecorded (max maxStack (recordedDepth depth)) (depth :: depths) where
  bounds other isDepth := by
    rcases List.mem_cons.mp isDepth with rfl | isEarlier
    · exact Nat.le_max_right ..
    · exact Nat.le_trans (recorded.bounds other isEarlier) (Nat.le_max_left ..)
  reached := by
    rcases Nat.le_total maxStack (recordedDepth depth) with small | large
    · exact ⟨depth, List.mem_cons_self, (Nat.max_eq_right small).symm⟩
    · obtain ⟨other, isEarlier, same⟩ := recorded.reached
      exact ⟨other, List.mem_cons_of_mem _ isEarlier, same.trans (Nat.max_eq_left large).symm⟩

/-- **What is recorded is the largest of the recorded parts of all depths.** -/
theorem Tracks.maxStack (tracks : body.Tracks depths) : IsRecorded body.maxStack depths := by
  induction tracks with
  | start pool => exact ⟨by simp [recordedDepth], 0, List.mem_singleton.mpr rfl, rfl⟩
  | @emit body depth earlier instr tracks enough position ih =>
    obtain rfl : depth = body.depth := Option.some.inj tracks.depth
    rw [← instr.effect_eq _ enough]
    exact ih.cons (body.depth + instr.effect).toNat
  | setDepth tracks before ih => exact ih.cons _

/-! ### Depths and sizes -/

/-- No instruction of the code adds more slots to the stack than so many for each of its bytes. -/
def Rises (body : Body) (rate : Nat) : Prop :=
  ∀ step ∈ body.code.toList, step.instr.pushes ≤ step.instr.pops + rate * step.instr.size

theorem toList_code_emit (body : Body) (instr : Instr) (position : Option Position) :
    (body.emit instr position).code.toList = body.code.toList ++ [⟨instr, position⟩] :=
  Array.toList_push

/-- No depth is more than the code can have pushed. -/
theorem Tracks.le_codeSize (tracks : body.Tracks depths) {rate : Nat} (rises : body.Rises rate) :
    ∀ depth ∈ depths, depth ≤ rate * body.codeSize := by
  induction tracks with
  | start pool => exact fun depth isDepth => List.mem_singleton.mp isDepth ▸ Nat.zero_le _
  | @emit body depth earlier instr tracks enough position ih =>
    unfold Rises at rises
    rw [toList_code_emit, List.forall_mem_append, List.forall_mem_singleton] at rises
    have size : (body.emit instr position).codeSize = body.codeSize + instr.size := by
      rw [codeSize, toList_code_emit, total_append]
      rfl
    have here : depth ≤ rate * body.codeSize := ih rises.1 depth List.mem_cons_self
    have added : instr.pushes ≤ instr.pops + rate * instr.size := rises.2
    rw [size, Nat.mul_add]
    intro other isDepth
    rcases List.mem_cons.mp isDepth with rfl | isEarlier
    · omega
    · exact Nat.le_trans (ih rises.1 other isEarlier) (Nat.le_add_right ..)
  | setDepth tracks before ih =>
    intro other isDepth
    rcases List.mem_cons.mp isDepth with rfl | isEarlier
    · exact ih rises _ before
    · exact ih rises other isEarlier

/-- **The recorded maximum bounds all depths exactly if sixteen bits hold them.** They do in code that
is encoded in few bytes for what its instructions push, and then the maximum is one of the depths. -/
theorem bounds_depths_iff (tracks : body.Tracks depths) {bytes : List UInt8}
    (encoded : body.encode = .ok bytes) :
    ((∀ depth ∈ depths, depth ≤ body.maxStack) ↔ ∀ depth ∈ depths, depth ≤ 65535) ∧
      ∀ rate, body.Rises rate → rate * bytes.length ≤ 65535 →
        (∀ depth ∈ depths, depth ≤ body.maxStack) ∧ body.maxStack ∈ depths := by
  obtain ⟨bounds, largest, isDepth, isLargest⟩ := tracks.maxStack
  have exactly : (∀ depth ∈ depths, depth ≤ body.maxStack) ↔ ∀ depth ∈ depths, depth ≤ 65535 := by
    constructor
    · intro bounded depth here
      exact Nat.le_trans (bounded depth here) (isLargest ▸ recordedDepth_le largest)
    · intro few depth here
      have recorded := bounds depth here
      rwa [recordedDepth_eq (few depth here)] at recorded
  refine ⟨exactly, fun rate rises short => ?_⟩
  have size : bytes.length = body.codeSize := by
    obtain ⟨_, pieces, isPieces, rfl⟩ := encode_eq_ok.mp encoded
    exact length_encodeFrom isPieces
  have few : ∀ depth ∈ depths, depth ≤ 65535 := fun depth here =>
    Nat.le_trans (tracks.le_codeSize rises depth here) (size ▸ short)
  refine ⟨exactly.mpr few, ?_⟩
  rw [recordedDepth_eq (few largest isDepth)] at isLargest
  rwa [← isLargest]

/-! ### Code that is too deep -/

/-- Code that pushes the `long` zero again and again. -/
def zeros : Nat → Body
  | 0 => .ofPool .empty
  | count + 1 => (zeros count).emit (.lconst 0) none

theorem tracks_zeros (count : Nat) : ∃ earlier, (zeros count).Tracks (2 * count :: earlier) := by
  induction count with
  | zero => exact ⟨[], .start .empty⟩
  | succ count ih =>
    obtain ⟨earlier, tracks⟩ := ih
    have enough : (Instr.lconst 0).pops ≤ 2 * count := Nat.zero_le _
    exact ⟨_, tracks.emit enough none⟩

theorem code_zeros (count : Nat) :
    (zeros count).code.toList = List.replicate count ⟨.lconst 0, none⟩ := by
  induction count with
  | zero => rfl
  | succ count ih => rw [zeros, toList_code_emit, ih, List.replicate_succ']

theorem codeSize_zeros (count : Nat) : (zeros count).codeSize = count := by
  rw [codeSize, code_zeros]
  induction count with
  | zero => rfl
  | succ count ih =>
    rw [List.replicate_succ, total_cons, ih]
    exact Nat.add_comm 1 count

theorem exists_encode_zeros {count : Nat} (short : count ≤ 65535) :
    ∃ bytes, (zeros count).encode = .ok bytes := by
  refine encode_ok_iff.mpr ⟨?_, fun index instr target found => ?_⟩
  · exact Nat.le_trans (Nat.le_of_eq (codeSize_zeros count)) short
  -- There are no branches.
  have isZero : instr = .lconst 0 := by
    obtain ⟨step, isStep, rfl⟩ := Iff.mp getElem?_instrs found
    have isIn := List.mem_of_getElem? isStep
    rw [code_zeros] at isIn
    rw [List.eq_of_mem_replicate isIn]
  rw [isZero]
  exact nofun

theorem rises_zeros (count : Nat) : (zeros count).Rises 2 := by
  intro step isStep
  rw [code_zeros] at isStep
  rw [List.eq_of_mem_replicate isStep]
  decide

/-- Half as many instructions keep within sixteen bits. -/
theorem bounds_depths_zeros : ∃ depths bytes, (zeros 32767).Tracks depths ∧
    (zeros 32767).encode = .ok bytes ∧ (zeros 32767).Rises 2 ∧ 2 * bytes.length ≤ 65535 ∧
      65534 ∈ depths ∧ (∀ depth ∈ depths, depth ≤ (zeros 32767).maxStack) := by
  obtain ⟨earlier, tracks⟩ := tracks_zeros 32767
  obtain ⟨bytes, encoded⟩ := exists_encode_zeros (by decide : 32767 ≤ 65535)
  have size : bytes.length = 32767 := by
    obtain ⟨_, pieces, isPieces, rfl⟩ := encode_eq_ok.mp encoded
    exact (length_encodeFrom isPieces).trans (codeSize_zeros 32767)
  have short : 2 * bytes.length ≤ 65535 := by omega
  exact ⟨_, bytes, tracks, encoded, rises_zeros _, short, List.mem_cons_self,
    ((bounds_depths_iff tracks encoded).2 2 (rises_zeros _) short).1⟩

/-- **A recorded maximum can be too small for code that can be encoded.** -/
theorem understates_depth : ∃ depths bytes, (zeros 32768).Tracks depths ∧
    (zeros 32768).encode = .ok bytes ∧ ∃ depth ∈ depths, (zeros 32768).maxStack < depth := by
  obtain ⟨earlier, tracks⟩ := tracks_zeros 32768
  obtain ⟨bytes, encoded⟩ := exists_encode_zeros (by decide : 32768 ≤ 65535)
  obtain ⟨largest, -, isLargest⟩ := tracks.maxStack.reached
  exact ⟨_, bytes, tracks, encoded, 2 * 32768, List.mem_cons_self,
    isLargest ▸ Nat.lt_succ_of_le (recordedDepth_le largest)⟩

end MethodPatch.Body
