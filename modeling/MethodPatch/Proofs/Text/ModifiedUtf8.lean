/-
**Modified UTF-8 read back.**

A reader of class files tells by the first byte how long a group is. A text is read back from its
code units: a supplementary character is a pair of surrogates, and a surrogate alone is no text.

* `Text.ofUtf16?`, `Text.ofUtf16?_utf16`: a text from its code units;
* `Text.ModifiedUtf8.readUnits`, `readUnits_encodeUnits`: code units from their groups;
* `Text.ModifiedUtf8.decode_encode`: **a text is read back from its bytes**;
* `Text.ModifiedUtf8.encode_faithful`: **the bytes are as many as were counted, none is zero, and they
  say which code units the text has.**
-/

import MethodPatch.Text.Utf16

namespace MethodPatch.Text

/-! ### Code units -/

/-- The character of a code point, unless that is a surrogate or too large. -/
def charOf? (code : Nat) : Option Char := if code.isValidChar then some (Char.ofNat code) else none

theorem charOf?_toNat (c : Char) : charOf? c.toNat = some c := by
  have valid : c.toNat.isValidChar := c.valid
  rw [charOf?, if_pos valid, Char.ofNat_toNat]

/-- The code point of a pair of surrogates. -/
def joined? (high low : Unit16) : Option Nat :=
  if 0xD800 ≤ high.toNat ∧ high.toNat < 0xDC00 ∧ 0xDC00 ≤ low.toNat ∧ low.toNat < 0xE000 then
    some (0x10000 + (high.toNat - 0xD800) * 0x400 + (low.toNat - 0xDC00))
  else none

/-- The text of code units. -/
def ofUtf16? : List Unit16 → Option (List Char)
  | [] => some []
  | unit :: rest =>
    match charOf? unit.toNat with
    | some c => (ofUtf16? rest).map (c :: ·)
    | none =>
      match rest with
      | [] => none
      | low :: behind => do
        let c ← (joined? unit low).bind charOf?
        (ofUtf16? behind).map (c :: ·)

/-- A high surrogate is no character by itself. -/
theorem charOf?_high {offset : Nat} (few : offset < 0x400) : charOf? (0xD800 + offset) = none := by
  refine if_neg ?_
  simp only [Nat.isValidChar]
  omega

theorem joined?_surrogates {high low : Nat} (fewHigh : high < 0x400) (fewLow : low < 0x400) :
    joined? (UInt16.ofNat (0xD800 + high)) (UInt16.ofNat (0xDC00 + low)) =
      some (0x10000 + high * 0x400 + low) := by
  have isHigh : (UInt16.ofNat (0xD800 + high)).toNat = 0xD800 + high := by
    rw [UInt16.toNat_ofNat']
    omega
  have isLow : (UInt16.ofNat (0xDC00 + low)).toNat = 0xDC00 + low := by
    rw [UInt16.toNat_ofNat']
    omega
  rw [joined?, isHigh, isLow, if_pos (by omega), Nat.add_sub_cancel_left, Nat.add_sub_cancel_left]

/-- A supplementary character is read back from its surrogates. -/
theorem ofUtf16?_pair {c : Char} {high low : Nat} (fewHigh : high < 0x400) (fewLow : low < 0x400)
    (isCode : 0x10000 + high * 0x400 + low = c.toNat) (rest : List Unit16) :
    ofUtf16? (UInt16.ofNat (0xD800 + high) :: UInt16.ofNat (0xDC00 + low) :: rest) =
      (ofUtf16? rest).map (c :: ·) := by
  have isHigh : (UInt16.ofNat (0xD800 + high)).toNat = 0xD800 + high := by
    rw [UInt16.toNat_ofNat']
    omega
  rw [ofUtf16?.eq_def]
  dsimp only
  rw [isHigh, charOf?_high fewHigh, joined?_surrogates fewHigh fewLow, isCode]
  simp only [Option.bind_eq_bind, Option.bind_some, charOf?_toNat]

/-- A character is read back from its code units, whatever is behind them. -/
theorem ofUtf16?_units (c : Char) (rest : List Unit16) :
    ofUtf16? (units c ++ rest) = (ofUtf16? rest).map (c :: ·) := by
  have valid : c.toNat.isValidChar := c.valid
  simp only [Nat.isValidChar] at valid
  unfold units
  dsimp only
  by_cases small : c.toNat < 0x10000
  · have isCode : (UInt16.ofNat c.toNat).toNat = c.toNat := by
      rw [UInt16.toNat_ofNat']
      omega
    rw [if_pos small, List.singleton_append, ofUtf16?.eq_def]
    dsimp only
    rw [isCode, charOf?_toNat]
  · rw [if_neg small]
    exact ofUtf16?_pair (by omega) (by omega) (by omega) rest

/-- A text is read back from its code units. -/
theorem ofUtf16?_utf16 (text : List Char) : ofUtf16? (utf16 text) = some text := by
  induction text with
  | nil => rfl
  | cons c rest ih =>
    rw [utf16, List.flatMap_cons, ofUtf16?_units]
    rw [utf16] at ih
    rw [ih]
    rfl

/-! ### Groups of bytes -/

namespace ModifiedUtf8

/-- The six bits that a byte adds to a group, if it is not the first of one. -/
def extra? (byte : UInt8) : Option Nat :=
  if 0x80 ≤ byte.toNat ∧ byte.toNat < 0xC0 then some (byte.toNat - 0x80) else none

/-- The code units of groups of bytes. The byte zero begins no group. -/
def readUnits : List UInt8 → Option (List Unit16)
  | [] => some []
  | first :: rest =>
    if 0 < first.toNat ∧ first.toNat < 0x80 then
      (readUnits rest).map (UInt16.ofNat first.toNat :: ·)
    else if 0xC0 ≤ first.toNat ∧ first.toNat < 0xE0 then
      match rest with
      | second :: rest => do
        let low ← extra? second
        (readUnits rest).map (UInt16.ofNat ((first.toNat - 0xC0) * 0x40 + low) :: ·)
      | _ => none
    else if 0xE0 ≤ first.toNat ∧ first.toNat < 0xF0 then
      match rest with
      | second :: third :: rest => do
        let middle ← extra? second
        let low ← extra? third
        (readUnits rest).map
          (UInt16.ofNat ((first.toNat - 0xE0) * 0x1000 + middle * 0x40 + low) :: ·)
      | _ => none
    else none

/-- The text of bytes. -/
def decode (bytes : List UInt8) : Option (List Char) := (readUnits bytes).bind ofUtf16?

theorem extra?_ofNat {bits : Nat} (few : bits < 0x40) :
    extra? (UInt8.ofNat (0x80 + bits)) = some bits := by
  have isByte : (UInt8.ofNat (0x80 + bits)).toNat = 0x80 + bits := by
    rw [UInt8.toNat_ofNat']
    omega
  rw [extra?, isByte, if_pos (by omega), Nat.add_sub_cancel_left]

/-- A group is read back, whatever is behind it. -/
theorem readUnits_encodeUnit (unit : Unit16) (rest : List UInt8) :
    readUnits (encodeUnit unit ++ rest) = (readUnits rest).map (unit :: ·) := by
  have bound := unit.toNat_lt
  unfold encodeUnit
  dsimp only
  split
  · next one =>
    have isFirst : (UInt8.ofNat unit.toNat).toNat = unit.toNat := by
      rw [UInt8.toNat_ofNat']
      omega
    rw [List.singleton_append, readUnits.eq_def]
    dsimp only
    rw [isFirst, if_pos (by omega), UInt16.ofNat_toNat]
  · next notOne =>
    split
    · next two =>
      have isFirst : (UInt8.ofNat (0xC0 + unit.toNat / 0x40)).toNat = 0xC0 + unit.toNat / 0x40 := by
        rw [UInt8.toNat_ofNat']
        omega
      have same : (0xC0 + unit.toNat / 0x40 - 0xC0) * 0x40 + unit.toNat % 0x40 = unit.toNat := by
        omega
      rw [List.cons_append, List.singleton_append, readUnits.eq_def]
      dsimp only
      rw [isFirst, if_neg (by omega), if_pos (by omega), extra?_ofNat (Nat.mod_lt _ (by decide))]
      dsimp only [Option.bind_eq_bind, Option.bind_some]
      rw [same, UInt16.ofNat_toNat]
    · next notTwo =>
      have isFirst :
          (UInt8.ofNat (0xE0 + unit.toNat / 0x1000)).toNat = 0xE0 + unit.toNat / 0x1000 := by
        rw [UInt8.toNat_ofNat']
        omega
      have same : (0xE0 + unit.toNat / 0x1000 - 0xE0) * 0x1000 + unit.toNat / 0x40 % 0x40 * 0x40 +
          unit.toNat % 0x40 = unit.toNat := by
        omega
      rw [List.cons_append, List.cons_append, List.singleton_append, readUnits.eq_def]
      dsimp only
      rw [isFirst, if_neg (by omega), if_neg (by omega), if_pos (by omega),
        extra?_ofNat (Nat.mod_lt _ (by decide)), extra?_ofNat (Nat.mod_lt _ (by decide))]
      dsimp only [Option.bind_eq_bind, Option.bind_some]
      rw [same, UInt16.ofNat_toNat]

/-- Code units are read back from their groups. -/
theorem readUnits_encodeUnits (units : List Unit16) :
    readUnits (units.flatMap encodeUnit) = some units := by
  induction units with
  | nil => rfl
  | cons unit rest ih =>
    rw [List.flatMap_cons, readUnits_encodeUnit, ih]
    rfl

/-- **A text is read back from its bytes.** -/
theorem decode_encode (text : List Char) : decode (encode text) = some text := by
  rw [decode, encode, readUnits_encodeUnits, Option.bind_some, ofUtf16?_utf16]

theorem bounds_ofNat {code : Nat} (positive : 0 < code) (small : code ≤ 0xEF) :
    0 < (UInt8.ofNat code).toNat ∧ (UInt8.ofNat code).toNat ≤ 0xEF := by
  rw [UInt8.toNat_ofNat', Nat.mod_eq_of_lt (by omega)]
  exact ⟨positive, small⟩

/-- No byte of a group is zero, and none is a byte that groups of four begin with. -/
theorem bounds_of_mem_encodeUnit {unit : Unit16} {byte : UInt8} (isByte : byte ∈ encodeUnit unit) :
    0 < byte.toNat ∧ byte.toNat ≤ 0xEF := by
  have bound := unit.toNat_lt
  unfold encodeUnit at isByte
  dsimp only at isByte
  split at isByte
  · cases List.mem_singleton.mp isByte
    exact bounds_ofNat (by omega) (by omega)
  · split at isByte
    · simp only [List.mem_cons, List.not_mem_nil, or_false] at isByte
      rcases isByte with rfl | rfl <;> exact bounds_ofNat (by omega) (by omega)
    · simp only [List.mem_cons, List.not_mem_nil, or_false] at isByte
      rcases isByte with rfl | rfl | rfl <;> exact bounds_ofNat (by omega) (by omega)

/-- Different texts have different bytes. -/
theorem encode_inj {text other : List Char} : encode text = encode other ↔ text = other := by
  refine ⟨fun same => ?_, congrArg encode⟩
  have read := decode_encode text
  rw [same, decode_encode] at read
  exact (Option.some.inj read).symm

/-- **The bytes of a text are faithful to it.** They are as many as its length says, none is zero and
none above 0xEF, and a reader of class files finds the code units of the text in them. So texts with
equal bytes are equal, and a text in two parts is encoded part by part. -/
theorem encode_faithful (text : List Char) :
    (encode text).length = length text ∧
    (∀ byte ∈ encode text, 0 < byte.toNat ∧ byte.toNat ≤ 0xEF) ∧
    readUnits (encode text) = some (utf16 text) ∧
    (∀ other, encode text = encode other ↔ text = other) ∧
    ∀ more, encode (text ++ more) = encode text ++ encode more := by
  refine ⟨length_encode text, fun byte isByte => ?_, readUnits_encodeUnits _, fun _ => encode_inj,
    encode_append text⟩
  obtain ⟨unit, -, inGroup⟩ := List.mem_flatMap.mp isByte
  exact bounds_of_mem_encodeUnit inGroup

end ModifiedUtf8

end MethodPatch.Text
