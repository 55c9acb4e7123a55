/-
**The encoding of a body is exact.**

A body has bytes if its size and the distances of its branches allow them. Each instruction has the
bytes between its offset and the next, a branch holds the distance to its target, and the decoder
reads the instructions back, so bytes belong to one list of instructions alone.

* `encode_ok_iff`: which bodies have bytes;
* `encodedAs_of_encode`: what the bytes are;
* `Body.encode_exact`: both, and that equal bytes come from equal instructions.
-/

import MethodPatch.Proofs.Encoding.Instr
import MethodPatch.Proofs.Layout.Block

namespace MethodPatch

/-! ### Sizes and offsets -/

theorem Instr.length_plainBytes (instr : Instr) (plain : instr.target? = none) :
    instr.plainBytes.length = instr.size := by
  cases instr with
  | ldc index =>
    unfold plainBytes size
    dsimp only
    split <;> rfl
  | load storage slot | store storage slot =>
    unfold plainBytes size
    dsimp only
    split
    · rfl
    · split <;> rfl
  | iinc slot delta =>
    unfold plainBytes size
    dsimp only
    split <;> rfl
  | field access index width => cases access <;> rfl
  | invoke dispatch index argumentSlots resultSlots => cases dispatch <;> rfl
  | branch test target => simp [target?] at plain
  | _ => rfl

namespace Body

theorem le_of_mem_offsetsFrom {base offset : Nat} {steps : List Step}
    (isOffset : offset ∈ offsetsFrom base steps) : base ≤ offset := by
  induction steps generalizing base with
  | nil => exact Nat.le_of_eq (List.mem_singleton.mp isOffset).symm
  | cons step rest ih =>
    rcases List.mem_cons.mp isOffset with rfl | inRest
    · exact Nat.le_refl _
    · exact Nat.le_trans (Nat.le_add_right _ _) (ih inRest)

/-- Instructions begin at different offsets. -/
theorem nodup_offsetsFrom (base : Nat) (steps : List Step) : (offsetsFrom base steps).Nodup := by
  induction steps generalizing base with
  | nil => simp [offsetsFrom]
  | cons step rest ih =>
    refine List.nodup_cons.mpr ⟨fun again => ?_, ih _⟩
    have := le_of_mem_offsetsFrom again
    have := step.instr.size_pos
    omega

end Body

/-! ### One instruction among others -/

namespace Instr

variable {offsets : Array Nat} {index : Nat} {instr : Instr} {piece : List UInt8}

theorem encode_plain (plain : instr.target? = none) :
    instr.encode offsets index = .ok instr.plainBytes := by
  unfold encode
  rw [plain]

/-- The bytes of a branch exist if its target does and is near enough. -/
theorem encode_branch {test : Test} {target : Nat} :
    (branch test target).encode offsets index = .ok piece ↔
      ∃ destination, offsets[target]? = some destination ∧
        -32768 ≤ (destination - (offsets[index]?.getD 0 : Nat) : Int) ∧
        (destination - (offsets[index]?.getD 0 : Nat) : Int) ≤ 32767 ∧
        piece = opcode (branch test target) ::
          bytes16 (Int16.ofInt (destination - (offsets[index]?.getD 0 : Nat))).toUInt16 := by
  unfold encode
  simp only [target?]
  cases offsets[target]? with
  | none => simp
  | some destination =>
    dsimp only
    constructor
    · intro ok
      split at ok
      · next near =>
        cases ok
        exact ⟨destination, rfl, near.1, near.2, rfl⟩
      · cases ok
    · rintro ⟨other, same, above, below, rfl⟩
      cases same
      exact if_pos ⟨above, below⟩

theorem length_encode (ok : instr.encode offsets index = .ok piece) :
    piece.length = instr.size := by
  cases isTarget : instr.target? with
  | none =>
    rw [encode_plain isTarget] at ok
    cases ok
    exact instr.length_plainBytes isTarget
  | some target =>
    cases instr <;> cases isTarget
    rw [encode_branch] at ok
    obtain ⟨_, _, _, _, rfl⟩ := ok
    rfl

/-- The instruction as the decoder first finds it, with its branch to a byte offset. -/
def located (offsets : Array Nat) (instr : Instr) : Instr :=
  match instr.target? with
  | none => instr.bare
  | some target => instr.retarget (offsets[target]?.getD 0)

theorem encodes_encode {start : Nat} (valid : instr.Valid) (begins : offsets[index]? = some start)
    (ok : instr.encode offsets index = .ok piece) : Encodes start piece (instr.located offsets) := by
  unfold located
  cases isTarget : instr.target? with
  | none =>
    rw [encode_plain isTarget] at ok
    cases ok
    exact encodes_plain instr valid isTarget
  | some target =>
    cases instr with
    | branch test target =>
      cases isTarget
      rw [encode_branch] at ok
      obtain ⟨destination, lands, above, below, rfl⟩ := ok
      simp only [begins, lands, Option.getD_some] at above below ⊢
      refine .branch ?_ (by omega) above below
      cases test with
      | zero comparison | ints comparison => cases comparison <;> rfl
      | _ => rfl
    | _ => cases isTarget

end Instr

/-! ### All instructions -/

namespace Body

variable {offsets : Array Nat} {index base : Nat} {steps : List Step} {pieces : List (List UInt8)}

theorem encodeFrom_cons {step : Step} {rest : List Step} :
    encodeFrom offsets index (step :: rest) = .ok pieces ↔
      ∃ piece others, step.instr.encode offsets index = .ok piece ∧
        encodeFrom offsets (index + 1) rest = .ok others ∧ pieces = piece :: others := by
  rw [encodeFrom]
  cases step.instr.encode offsets index with
  | error error => simp
  | ok piece =>
    cases encodeFrom offsets (index + 1) rest with
    | error error => simp
    | ok others => simp [eq_comm]

theorem offsetsFrom_zero (base : Nat) (steps : List Step) :
    (offsetsFrom base steps)[0]? = some base := by
  cases steps <;> rfl

/-- Each piece stands between the offset of its instruction and the next. -/
theorem partAt_encodeFrom (front : List UInt8) {place : Nat} {step : Step}
    (ok : encodeFrom offsets index steps = .ok pieces) (long : front.length = base)
    (found : steps[place]? = some step) :
    ∃ piece start, step.instr.encode offsets (index + place) = .ok piece ∧
      (offsetsFrom base steps)[place]? = some start ∧
      (offsetsFrom base steps)[place + 1]? = some (start + piece.length) ∧
      PartAt (front ++ pieces.flatten) start piece := by
  induction steps generalizing index base front pieces place with
  | nil => cases found
  | cons first rest ih =>
    rw [encodeFrom_cons] at ok
    obtain ⟨piece, others, isPiece, isRest, rfl⟩ := ok
    have length := Instr.length_encode isPiece
    cases place with
    | zero =>
      cases found
      refine ⟨piece, base, isPiece, rfl, ?_, front, others.flatten, by simp, long⟩
      rw [length]
      exact offsetsFrom_zero _ rest
    | succ place =>
      obtain ⟨later, start, isLater, begins, ends, here⟩ :=
        ih (front ++ piece) isRest (by rw [List.length_append, long, length]) found
      refine ⟨later, start, ?_, begins, ends, ?_⟩
      · rwa [Nat.add_right_comm] at isLater
      · rwa [List.append_assoc] at here

theorem encodeFrom_ok_iff : (∃ pieces, encodeFrom offsets index steps = .ok pieces) ↔
    ∀ (place : Nat) (step : Step), steps[place]? = some step →
      ∃ piece, step.instr.encode offsets (index + place) = .ok piece := by
  constructor
  · rintro ⟨pieces, ok⟩ place step found
    obtain ⟨piece, _, isPiece, _⟩ := partAt_encodeFrom [] ok rfl found
    exact ⟨piece, isPiece⟩
  · intro each
    induction steps generalizing index with
    | nil => exact ⟨[], rfl⟩
    | cons first rest ih =>
      obtain ⟨piece, isPiece⟩ := each 0 first rfl
      have isRest : ∃ others, encodeFrom offsets (index + 1) rest = .ok others := by
        refine ih fun place step found => ?_
        rw [Nat.add_right_comm]
        exact each (place + 1) step found
      obtain ⟨others, isRest⟩ := isRest
      simp only [encodeFrom_cons]
      exact ⟨_, piece, others, isPiece, isRest, rfl⟩

theorem length_encodeFrom (ok : encodeFrom offsets index steps = .ok pieces) :
    pieces.flatten.length = total (fun step => step.instr.size) steps := by
  induction steps generalizing index pieces with
  | nil =>
    cases ok
    rfl
  | cons step rest ih =>
    rw [encodeFrom_cons] at ok
    obtain ⟨piece, others, isPiece, isRest, rfl⟩ := ok
    rw [List.flatten_cons, List.length_append, Instr.length_encode isPiece, ih isRest, total_cons]

/-- The instructions as the decoder first finds them. -/
def placedFrom (offsets : Array Nat) (base : Nat) : List Step → List (Nat × Instr)
  | [] => []
  | step :: rest =>
    (base, step.instr.located offsets) :: placedFrom offsets (base + step.instr.size) rest

theorem decodeFrom_encodeFrom (valid : ∀ step ∈ steps, step.instr.Valid)
    (ok : encodeFrom offsets index steps = .ok pieces)
    (here : PartAt offsets.toList index (offsetsFrom base steps)) :
    decodeFrom base pieces.flatten = some (placedFrom offsets base steps) := by
  induction steps generalizing index base pieces with
  | nil =>
    cases ok
    exact decodeFrom.eq_1 base
  | cons step rest ih =>
    rw [encodeFrom_cons] at ok
    obtain ⟨piece, others, isPiece, isRest, rfl⟩ := ok
    have begins : offsets[index]? = some base := by
      rw [← Array.getElem?_toList]
      exact here.head
    have encodes := Instr.encodes_encode (valid step (List.mem_cons_self ..)) begins isPiece
    have others := ih (fun step inRest => valid step (List.mem_cons_of_mem _ inRest)) isRest
      here.tail
    rw [List.flatten_cons, decodeFrom_append encodes, Instr.length_encode isPiece, others]
    rfl

theorem starts_placedFrom (offsets : Array Nat) (base : Nat) (steps : List Step) :
    (placedFrom offsets base steps).map Prod.fst ++
      [base + total (fun step => step.instr.size) steps] = offsetsFrom base steps := by
  induction steps generalizing base with
  | nil => rfl
  | cons step rest ih =>
    rw [offsetsFrom, ← ih, Nat.add_assoc]
    rfl

theorem idxOf?_eq_some {starts : List Nat} {target destination : Nat} (unique : starts.Nodup)
    (found : starts[target]? = some destination) : starts.idxOf? destination = some target := by
  obtain ⟨inside, rfl⟩ := List.getElem?_eq_some_iff.mp found
  refine List.idxOf?_eq_some_iff.mpr ⟨inside, rfl, fun earlier before same => ?_⟩
  exact Nat.ne_of_lt before ((List.getElem_inj unique).mp same)

/-- The decoder finds the target of a branch at the byte offset that its bytes hold. -/
theorem resolve_located {starts : List Nat} {instr : Instr} {piece : List UInt8}
    (unique : starts.Nodup) (ok : instr.encode starts.toArray index = .ok piece) :
    (instr.located starts.toArray).resolve starts = some instr.bare := by
  cases instr with
  | branch test target =>
    rw [Instr.encode_branch] at ok
    obtain ⟨destination, lands, _⟩ := ok
    have found : starts[target]? = some destination := by
      rwa [List.getElem?_toArray] at lands
    show (starts.idxOf? (starts.toArray[target]?.getD 0)).map _ = _
    rw [lands, Option.getD_some, idxOf?_eq_some unique found]
    rfl
  | invoke dispatch index argumentSlots resultSlots => cases dispatch <;> rfl
  | _ => rfl

theorem resolve_placedFrom {starts : List Nat} (unique : starts.Nodup)
    (ok : encodeFrom starts.toArray index steps = .ok pieces) :
    (placedFrom starts.toArray base steps).mapM (fun found => found.2.resolve starts) =
      some (steps.map fun step => step.instr.bare) := by
  induction steps generalizing index base pieces with
  | nil => rfl
  | cons step rest ih =>
    rw [encodeFrom_cons] at ok
    obtain ⟨piece, others, isPiece, isRest, rfl⟩ := ok
    rw [placedFrom, List.mapM_cons, ih isRest]
    simp only [resolve_located unique isPiece]
    rfl

/-! ### The whole code -/

/-- The instructions, without the places they were made from. -/
def instrs (body : Body) : List Instr := body.code.toList.map Step.instr

/-- The byte offset of an instruction, or of the end. -/
def offsetOf (body : Body) (index : Nat) : Nat := body.offsets.getD index 0

/-- The code is short enough, and each branch has a target that is near enough. -/
def Encodable (body : Body) : Prop :=
  body.codeSize ≤ maxCodeSize ∧
    ∀ (index : Nat) (instr : Instr) (target : Nat), body.instrs[index]? = some instr →
      instr.target? = some target → target ≤ body.size ∧
        -32768 ≤ (body.offsetOf target - body.offsetOf index : Int) ∧
        (body.offsetOf target - body.offsetOf index : Int) ≤ 32767

/-- What the bytes of a body are: the encodings of its instructions between their offsets, with the
distances of the branches, and they are decoded to the instructions that they hold. -/
structure EncodedAs (body : Body) (bytes : List UInt8) : Prop where
  length : bytes.length = body.codeSize
  slices : ∀ (index : Nat) (instr : Instr), body.instrs[index]? = some instr →
    ∃ start stop, body.offsets[index]? = some start ∧ body.offsets[index + 1]? = some stop ∧
      stop = start + instr.size ∧ stop ≤ bytes.length ∧
      instr.encode body.offsets.toArray index = .ok (bytes.extract start stop)
  branches : ∀ (index : Nat) (test : Test) (target : Nat),
    body.instrs[index]? = some (.branch test target) →
    ∃ start destination high low, body.offsets[index]? = some start ∧
      body.offsets[target]? = some destination ∧
      bytes[start + 1]? = some high ∧ bytes[start + 2]? = some low ∧
      start + (join16 high low).toInt16.toInt = destination
  decoded : decode bytes = some (body.instrs.map Instr.bare)

variable {body : Body} {bytes : List UInt8}

theorem encode_eq_ok : body.encode = .ok bytes ↔ body.codeSize ≤ maxCodeSize ∧
    ∃ pieces, encodeFrom body.offsets.toArray 0 body.code.toList = .ok pieces ∧
      bytes = pieces.flatten := by
  unfold encode
  split
  · next large => simp [Nat.not_le_of_lt large]
  · next fits =>
    rw [and_iff_right (Nat.le_of_not_lt fits)]
    cases encodeFrom body.offsets.toArray 0 body.code.toList with
    | error error => simp [Except.map]
    | ok pieces => simp [Except.map, eq_comm]

/-- Code without branches is encoded if it is short enough. -/
theorem encode_of_plain (short : body.codeSize ≤ maxCodeSize)
    (plain : ∀ instr ∈ body.instrs, instr.target? = none) : ∃ bytes, body.encode = .ok bytes := by
  have pieces : ∃ pieces, encodeFrom body.offsets.toArray 0 body.code.toList = .ok pieces := by
    refine encodeFrom_ok_iff.mpr fun place step found => ?_
    have isIn := List.mem_map_of_mem (f := Step.instr) (List.mem_of_getElem? found)
    exact ⟨_, Instr.encode_plain (plain _ isIn)⟩
  obtain ⟨pieces, encoded⟩ := pieces
  exact ⟨_, encode_eq_ok.mpr ⟨short, pieces, encoded, rfl⟩⟩

theorem getElem?_instrs {index : Nat} {instr : Instr} : body.instrs[index]? = some instr ↔
    ∃ step, body.code.toList[index]? = some step ∧ step.instr = instr := by
  simp [instrs]

theorem getElem?_offsets {index : Nat} (inside : index ≤ body.size) :
    body.offsets[index]? = some (body.offsetOf index) := by
  have length := body.offsets_length
  rw [offsetOf, List.getD_eq_getElem?_getD,
    List.getElem?_eq_getElem (show index < body.offsets.length by omega), Option.getD_some]

theorem lt_size {index : Nat} {instr : Instr} (found : body.instrs[index]? = some instr) :
    index < body.size := by
  have inside := (List.getElem?_eq_some_iff.mp found).1
  rwa [instrs, List.length_map, Array.length_toList] at inside

/-- What a branch asks for its bytes, in terms of the body. -/
theorem encode_instr_iff {index : Nat} {instr : Instr}
    (found : body.instrs[index]? = some instr) :
    (∃ piece, instr.encode body.offsets.toArray index = .ok piece) ↔
      ∀ target, instr.target? = some target → target ≤ body.size ∧
        -32768 ≤ (body.offsetOf target - body.offsetOf index : Int) ∧
        (body.offsetOf target - body.offsetOf index : Int) ≤ 32767 := by
  have begins := getElem?_offsets (Nat.le_of_lt (lt_size found))
  cases isTarget : instr.target? with
  | none =>
    exact ⟨fun _ _ => nofun, fun _ => ⟨_, Instr.encode_plain isTarget⟩⟩
  | some target =>
    cases instr <;> cases isTarget
    simp only [Instr.encode_branch, List.getElem?_toArray, begins, Option.getD_some]
    constructor
    · rintro ⟨_, destination, lands, above, below, _⟩ _ same
      cases same
      have inside := (List.getElem?_eq_some_iff.mp lands).1
      rw [body.offsets_length] at inside
      rw [getElem?_offsets (Nat.le_of_lt_succ inside)] at lands
      cases lands
      exact ⟨Nat.le_of_lt_succ inside, above, below⟩
    · intro fits
      obtain ⟨inside, above, below⟩ := fits target rfl
      exact ⟨_, _, getElem?_offsets inside, above, below, rfl⟩

theorem encode_ok_iff : (∃ bytes, body.encode = .ok bytes) ↔ body.Encodable := by
  have whole : (∃ bytes, body.encode = .ok bytes) ↔ body.codeSize ≤ maxCodeSize ∧
      ∃ pieces, encodeFrom body.offsets.toArray 0 body.code.toList = .ok pieces := by
    simp only [encode_eq_ok]
    exact ⟨fun ⟨_, small, pieces, ok, _⟩ => ⟨small, pieces, ok⟩,
      fun ⟨small, pieces, ok⟩ => ⟨_, small, pieces, ok, rfl⟩⟩
  rw [whole, encodeFrom_ok_iff, Encodable]
  refine and_congr_right fun _ => ⟨?_, ?_⟩
  · intro each index instr target found
    obtain ⟨step, atIndex, rfl⟩ := Iff.mp getElem?_instrs found
    have ok := each index step atIndex
    rw [Nat.zero_add] at ok
    exact (encode_instr_iff found).mp ok target
  · intro each place step atIndex
    have found : body.instrs[place]? = some step.instr := by
      rw [getElem?_instrs]
      exact ⟨step, atIndex, rfl⟩
    rw [Nat.zero_add]
    exact (encode_instr_iff found).mpr fun target => each place step.instr target found

theorem encodedAs_of_encode (valid : ∀ instr ∈ body.instrs, instr.Valid)
    (ok : body.encode = .ok bytes) : body.EncodedAs bytes := by
  rw [encode_eq_ok] at ok
  obtain ⟨_, pieces, isPieces, rfl⟩ := ok
  have each : ∀ (index : Nat) (instr : Instr), body.instrs[index]? = some instr →
      ∃ piece start, instr.encode body.offsets.toArray index = .ok piece ∧
        body.offsets[index]? = some start ∧
        body.offsets[index + 1]? = some (start + piece.length) ∧
        PartAt pieces.flatten start piece := by
    intro index instr found
    rw [getElem?_instrs] at found
    obtain ⟨step, atIndex, rfl⟩ := found
    have there := partAt_encodeFrom [] isPieces rfl atIndex
    rwa [Nat.zero_add] at there
  refine ⟨length_encodeFrom isPieces, ?_, ?_, ?_⟩
  · intro index instr found
    obtain ⟨piece, start, isPiece, begins, ends, here⟩ := each index instr found
    refine ⟨start, _, begins, ends, ?_, here.le_length, ?_⟩
    · rw [Instr.length_encode isPiece]
    · rw [isPiece, here.extract]
  · intro index test target found
    obtain ⟨piece, start, isPiece, begins, _, here⟩ := each index _ found
    rw [Instr.encode_branch] at isPiece
    obtain ⟨destination, lands, above, below, rfl⟩ := isPiece
    rw [List.getElem?_toArray] at lands
    simp only [List.getElem?_toArray, begins, Option.getD_some] at above below here
    refine ⟨start, destination, _, _, begins, lands, here.tail.head, here.tail.tail.head, ?_⟩
    rw [join16_bytes16, Int16.toInt16_toUInt16,
      Int16.toInt_ofInt_of_le above (Int.lt_add_one_of_le below)]
    omega
  · have unique : body.offsets.Nodup := nodup_offsetsFrom 0 _
    have placed := decodeFrom_encodeFrom (fun step isStep => valid _ (List.mem_map_of_mem isStep))
      isPieces (.refl body.offsets)
    have starts : (placedFrom body.offsets.toArray 0 body.code.toList).map Prod.fst ++
        [pieces.flatten.length] = body.offsets := by
      rw [length_encodeFrom isPieces, ← Nat.zero_add (total _ _)]
      exact starts_placedFrom body.offsets.toArray 0 body.code.toList
    unfold decode
    rw [placed]
    simp only [Option.bind_eq_bind, Option.bind_some, starts]
    rw [resolve_placedFrom unique isPieces, instrs, List.map_map]
    rfl

/-- **The encoding of a body is exact.** Bodies have bytes exactly if sizes and distances allow them,
the bytes are those of the instructions in their places and are decoded to them, and bodies with
equal bytes have equal instructions up to what the bytes do not hold. -/
theorem encode_exact (body : Body) (valid : ∀ instr ∈ body.instrs, instr.Valid) :
    ((∃ bytes, body.encode = .ok bytes) ↔ body.Encodable) ∧
      (∀ bytes, body.encode = .ok bytes → body.EncodedAs bytes) ∧
      ∀ (other : Body) (bytes : List UInt8), (∀ instr ∈ other.instrs, instr.Valid) →
        body.encode = .ok bytes → other.encode = .ok bytes →
        body.instrs.map Instr.bare = other.instrs.map Instr.bare := by
  refine ⟨encode_ok_iff, fun bytes ok => encodedAs_of_encode valid ok, ?_⟩
  intro other bytes validOther ok okOther
  have decoded := (encodedAs_of_encode valid ok).decoded
  rw [(encodedAs_of_encode validOther okOther).decoded] at decoded
  exact (Option.some.inj decoded).symm

/-- A loop that counts a local variable down, which only the wide form reaches. -/
def countdown : Body :=
  ⟨#[⟨.iinc 300 (-1), none⟩, ⟨.load .int 300, none⟩, ⟨.branch (.zero .ne) 0, none⟩,
    ⟨.ret none, none⟩], .empty, 0, 0⟩

theorem valid_countdown : ∀ instr ∈ countdown.instrs, instr.Valid := by
  show ∀ instr ∈ [Instr.iinc 300 (-1), .load .int 300, .branch (.zero .ne) 0, .ret none], instr.Valid
  simp only [List.forall_mem_cons]
  exact ⟨trivial, trivial, trivial, trivial, List.forall_mem_nil _⟩

theorem encode_exact_countdown : (∀ instr ∈ countdown.instrs, instr.Valid) ∧
    countdown.EncodedAs [0xC4, 0x84, 0x01, 0x2C, 0xFF, 0xFF, 0xC4, 0x15, 0x01, 0x2C,
      0x9A, 0xFF, 0xF6, 0xB1] :=
  ⟨valid_countdown, (encode_exact countdown valid_countdown).2.1 _ rfl⟩

end Body

end MethodPatch
