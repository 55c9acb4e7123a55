/-
**Constants read back.**

The constants of a class file as the virtual machine finds them: a tag says how many bytes follow and
what they mean, a text has its length in front of it, and each constant is numbered behind the slots
of the one before it.

* `Constant.read`, `Constant.read_payload`: one constant from its bytes, whatever is behind them;
* `Pool.readEntries`, `Pool.readEntries_layout`: constants one after the other;
* `Pool.encoding_decodes`: **what a pool has written from an index on is read back**, whatever calls
  have made the pool.
-/

import MethodPatch.Proofs.Constants.Calls
import MethodPatch.Proofs.Encoding.Instr
import MethodPatch.Proofs.Text.ModifiedUtf8

namespace MethodPatch

/-! ### Numbers -/

/-- The big-endian number that four bytes make. -/
def join32 (first second third last : UInt8) : UInt32 :=
  UInt32.ofNat ((join16 first second).toNat * 0x10000 + (join16 third last).toNat)

/-- The 16-bit number in front of some bytes. -/
def read16 : List UInt8 → Option UInt16
  | high :: low :: _ => some (join16 high low)
  | _ => none

/-- The 32-bit number in front of some bytes. -/
def read32 : List UInt8 → Option UInt32
  | first :: second :: third :: last :: _ => some (join32 first second third last)
  | _ => none

/-- The 64-bit number in front of some bytes. -/
def read64 (bytes : List UInt8) : Option UInt64 := do
  let high ← read32 bytes
  let low ← read32 (bytes.drop 4)
  return UInt64.ofNat (high.toNat * 0x100000000 + low.toNat)

theorem read16_bytes16 (value : UInt16) (rest : List UInt8) :
    read16 (bytes16 value ++ rest) = some value :=
  congrArg some (join16_bytes16 value)

theorem join32_bytes32 (value : UInt32) :
    join32 (UInt8.ofNat (value.toNat / 0x1000000)) (UInt8.ofNat (value.toNat / 0x10000))
      (UInt8.ofNat (value.toNat / 0x100)) (UInt8.ofNat value.toNat) = value := by
  apply UInt32.toNat_inj.mp
  have := value.toNat_lt
  simp only [join32, join16, UInt32.toNat_ofNat', UInt16.toNat_ofNat', UInt8.toNat_ofNat']
  omega

theorem read32_bytes32 (value : UInt32) (rest : List UInt8) :
    read32 (bytes32 value ++ rest) = some value :=
  congrArg some (join32_bytes32 value)

theorem read64_bytes64 (value : UInt64) (rest : List UInt8) :
    read64 (bytes64 value ++ rest) = some value := by
  have bound := value.toNat_lt
  have behind : (bytes64 value ++ rest).drop 4 =
      bytes32 (UInt32.ofNat value.toNat) ++ rest := rfl
  rw [read64, behind, read32_bytes32, bytes64, List.append_assoc, read32_bytes32]
  refine congrArg some (UInt64.toNat_inj.mp ?_)
  simp only [UInt64.toNat_ofNat', UInt32.toNat_ofNat']
  omega

/-! ### One constant -/

namespace Constant

/-- The text behind its length, and the number of bytes of both. -/
def readText (bytes : List UInt8) : Option (Constant × Nat) := do
  let length ← read16 bytes
  let content := (bytes.drop 2).take length.toNat
  guard (content.length = length.toNat)
  let text ← Text.ModifiedUtf8.decode content
  return (.utf8 (String.ofList text), 2 + length.toNat)

/-- The constant that one number makes, which takes a number of bytes. -/
def readSingle {α : Type} (make : α → Constant) (width : Nat) (number : Option α) :
    Option (Constant × Nat) :=
  number.map fun value => (make value, width)

/-- The constant that two indices make. -/
def readPair (make : PoolIndex → PoolIndex → Constant) (bytes : List UInt8) :
    Option (Constant × Nat) := do
  let first ← read16 bytes
  let second ← read16 (bytes.drop 2)
  return (make first second, 4)

/-- The constant with a tag, from the bytes behind the tag, and the number of them that it takes. -/
def read (tag : UInt8) (bytes : List UInt8) : Option (Constant × Nat) :=
  match tag.toNat with
  | 1 => readText bytes
  | 3 => readSingle (fun value => .integer value.toInt32) 4 (read32 bytes)
  | 4 => readSingle .float 4 (read32 bytes)
  | 5 => readSingle (fun value => .long value.toInt64) 8 (read64 bytes)
  | 6 => readSingle .double 8 (read64 bytes)
  | 7 => readSingle .classRef 2 (read16 bytes)
  | 8 => readSingle .string 2 (read16 bytes)
  | 9 => readPair .field bytes
  | 10 => readPair .method bytes
  | 11 => readPair .interfaceMethod bytes
  | 12 => readPair .nameAndType bytes
  | _ => none

theorem readSingle_of_eq_some {α : Type} {make : α → Constant} {width : Nat} {number : Option α}
    {value : α} (isNumber : number = some value) :
    readSingle make width number = some (make value, width) := by
  rw [isNumber, readSingle, Option.map_some]

theorem readPair_bytes16 (make : PoolIndex → PoolIndex → Constant) (first second : PoolIndex)
    (rest : List UInt8) :
    readPair make (bytes16 first ++ bytes16 second ++ rest) = some (make first second, 4) := by
  have behind : (bytes16 first ++ bytes16 second ++ rest).drop 2 = bytes16 second ++ rest := rfl
  rw [readPair, behind, read16_bytes16, List.append_assoc, read16_bytes16]
  rfl

/-- The length in front of a text that is short enough is its length. -/
theorem toNat_length_of_short {text : String} (short : Pool.excessLength? (.utf8 text) = none) :
    (UInt16.ofNat (Text.ModifiedUtf8.encode text.toList).length).toNat =
      (Text.ModifiedUtf8.encode text.toList).length := by
  have bound : Text.ModifiedUtf8.length text.toList ≤ Pool.maxTextLength := by
    refine Nat.le_of_not_lt fun long => ?_
    rw [Pool.excessLength?, if_pos long] at short
    cases short
  rw [Text.ModifiedUtf8.length_encode, UInt16.toNat_ofNat']
  unfold Pool.maxTextLength at bound
  omega

theorem readText_payload {text : String} (short : Pool.excessLength? (.utf8 text) = none)
    (rest : List UInt8) :
    readText ((Constant.utf8 text).payload ++ rest) =
      some (.utf8 text, (Constant.utf8 text).payload.length) := by
  have isLength := toNat_length_of_short short
  have decoded := Text.ModifiedUtf8.decode_encode text.toList
  unfold payload readText
  dsimp only
  generalize Text.ModifiedUtf8.encode text.toList = bytes at isLength decoded ⊢
  have behind (length : UInt16) : (bytes16 length ++ bytes ++ rest).drop 2 = bytes ++ rest := rfl
  rw [behind, List.append_assoc, read16_bytes16]
  simp [isLength, decoded, bytes16_length, guard]

/-- **A constant is read back**, whatever is behind it, unless it is a text too long for its
length. -/
theorem read_payload {constant : Constant} (short : Pool.excessLength? constant = none)
    (rest : List UInt8) :
    read constant.tag (constant.payload ++ rest) = some (constant, constant.payload.length) := by
  cases constant with
  | utf8 text => exact readText_payload short rest
  | integer value => exact readSingle_of_eq_some (read32_bytes32 value.toUInt32 rest)
  | float bits => exact readSingle_of_eq_some (read32_bytes32 bits rest)
  | long value => exact readSingle_of_eq_some (read64_bytes64 value.toUInt64 rest)
  | double bits => exact readSingle_of_eq_some (read64_bytes64 bits rest)
  | classRef name => exact readSingle_of_eq_some (read16_bytes16 name rest)
  | string text => exact readSingle_of_eq_some (read16_bytes16 text rest)
  | field owner member => exact readPair_bytes16 ..
  | method owner member => exact readPair_bytes16 ..
  | interfaceMethod owner member => exact readPair_bytes16 ..
  | nameAndType name descriptor => exact readPair_bytes16 ..

end Constant

/-! ### Constants one after the other -/

namespace Pool

/-- The constants of some bytes, numbered from an index. All bytes have to belong to one. -/
def readEntries (index : Nat) : List UInt8 → Option (List (Nat × Constant))
  | [] => some []
  | tag :: bytes => do
    let (constant, taken) ← Constant.read tag bytes
    let others ← readEntries (index + constant.slots) (bytes.drop taken)
    some ((index, constant) :: others)
  termination_by bytes => bytes.length
  decreasing_by
    rw [List.length_cons, List.length_drop]
    omega

/-- Constants are read back with their indices. -/
theorem readEntries_layout {constants : List Constant}
    (legal : ∀ constant ∈ constants, excessLength? constant = none) (index : Nat) :
    readEntries index ((layout index constants).flatMap fun entry => entry.2.encode) =
      some (layout index constants) := by
  induction constants generalizing index with
  | nil => rw [layout, List.flatMap_nil, readEntries]
  | cons first rest ih =>
    obtain ⟨short, others⟩ := List.forall_mem_cons.mp legal
    rw [layout, List.flatMap_cons, Constant.encode, List.cons_append, readEntries,
      Constant.read_payload short]
    simp only [Option.bind_eq_bind, Option.bind_some, List.drop_left, ih others]

/-- The constants from an index on are the last ones, and are numbered from the first index that any
of them has. -/
theorem entriesFrom_layout (base count : Nat) (constants : List Constant) :
    ∃ first kept, kept <:+ constants ∧
      (layout base constants).filter (fun entry => count ≤ entry.1) = layout first kept := by
  induction constants generalizing base with
  | nil => exact ⟨base, [], List.suffix_refl _, rfl⟩
  | cons head rest ih =>
    by_cases isBehind : count ≤ base
    · refine ⟨base, head :: rest, List.suffix_refl _, List.filter_eq_self.mpr ?_⟩
      rintro ⟨index, constant⟩ isEntry
      exact decide_eq_true (Nat.le_trans isBehind (le_of_mem_layout isEntry).1)
    · obtain ⟨first, kept, isLast, filtered⟩ := ih (base + head.slots)
      refine ⟨first, kept, isLast.trans (List.suffix_cons ..), ?_⟩
      rw [layout, List.filter_cons_of_neg (by simpa using isBehind), filtered]

/-- The first index from a count on that a constant of the pool has; behind the last constant it is
the count itself. -/
def firstFrom (pool : Pool) (count : Nat) : Nat :=
  ((pool.entries.map Prod.fst).find? (count ≤ ·)).getD count

/-- **What a pool has written from an index on is read back.** -/
theorem read_encodeFrom {pool : Pool} (legal : pool.Legal) (count : Nat) :
    readEntries (pool.firstFrom count) (pool.encodeFrom count) = some (pool.entriesFrom count) := by
  obtain ⟨first, kept, isLast, filtered⟩ :=
    entriesFrom_layout pool.reserved count pool.constants.toList
  have legalKept : ∀ constant ∈ kept, excessLength? constant = none :=
    fun constant isKept => legal constant (isLast.mem isKept)
  have isEntries : pool.entriesFrom count = layout first kept := filtered
  have isFirst : pool.firstFrom count = ((layout first kept).head?.map Prod.fst).getD count := by
    rw [firstFrom, List.find?_map, ← isEntries, entriesFrom, List.head?_filter]
    rfl
  have readBack := readEntries_layout legalKept
  rw [isFirst, encodeFrom, isEntries]
  cases kept with
  | nil => exact readBack count
  | cons head rest => exact readBack first

/-- The bytes of all constants determine them, for pools that begin at one index. -/
theorem entries_eq_of_encodeFrom_eq {first second : Pool} (legalFirst : first.Legal)
    (legalSecond : second.Legal) (begins : first.reserved = second.reserved)
    (same : first.encodeFrom first.reserved = second.encodeFrom second.reserved) :
    first.entries = second.entries := by
  have readFirst := readEntries_layout legalFirst first.reserved
  have readSecond := readEntries_layout legalSecond second.reserved
  rw [encodeFrom, encodeFrom, entriesFrom_reserved, entriesFrom_reserved, entries, entries,
    begins] at same
  rw [begins, same, readSecond] at readFirst
  rw [entries, entries, begins]
  exact (Option.some.inj readFirst).symm

/-- **The bytes of a pool's constants are read back as these constants**, whatever calls have made the
pool: no byte is left, and the constants have the indices that they have in the pool. The length in
front of a text is the length of the text, and two pools that begin at one index and have the same
bytes have the same constants. -/
theorem encoding_decodes (reserved : UInt16) (calls : List Call) :
    let pool := (ofReserved reserved).after calls
    (∀ count, readEntries (pool.firstFrom count) (pool.encodeFrom count) =
      some (pool.entriesFrom count)) ∧
    (∀ index text, (index, Constant.utf8 text) ∈ pool.entries →
      (UInt16.ofNat (Text.ModifiedUtf8.encode text.toList).length).toNat =
        (Text.ModifiedUtf8.encode text.toList).length) ∧
    ∀ (otherReserved : UInt16) (otherCalls : List Call),
      let other := (ofReserved otherReserved).after otherCalls
      pool.reserved = other.reserved →
      pool.encodeFrom pool.reserved = other.encodeFrom other.reserved →
      pool.entries = other.entries := by
  intro pool
  have legal : pool.Legal := (sound_after (sound_ofReserved reserved) calls).legal
  refine ⟨read_encodeFrom legal, fun index text isEntry => ?_, fun otherReserved otherCalls => ?_⟩
  · exact Constant.toNat_length_of_short (legal _ (mem_constants_iff.mpr ⟨index, isEntry⟩))
  · intro other begins same
    have legalOther : other.Legal := (sound_after (sound_ofReserved otherReserved) otherCalls).legal
    exact entries_eq_of_encodeFrom_eq legal legalOther begins same

/-- A text with a zero and a character outside the basic plane, and a number of two slots. The same
bytes come from calls that add each part by itself. -/
theorem encoding_decodes_text_and_long :
    let calls := [Call.ofString "a\x00😀", .ofConstant (.long 7), .ofText "b"]
    let parts := [Call.ofText "a\x00😀", .ofConstant (.string 1), .ofConstant (.long 7), .ofText "b"]
    let pool := (ofReserved 0).after calls
    let other := (ofReserved 1).after parts
    readEntries 5 (pool.encodeFrom 4) = some [(5, .utf8 "b")] ∧
    (UInt16.ofNat (Text.ModifiedUtf8.encode "a\x00😀".toList).length).toNat = 9 ∧
    (pool.encodeFrom pool.reserved = other.encodeFrom other.reserved ∧
      pool.entries = other.entries) := by
  intro calls parts pool other
  obtain ⟨decodes, lengths, injective⟩ := encoding_decodes 0 calls
  have begins : pool.reserved = other.reserved := by decide
  have same : pool.encodeFrom pool.reserved = other.encodeFrom other.reserved := by decide
  have isFirst : pool.firstFrom 4 = 5 := by decide
  have isEntries : pool.entriesFrom 4 = [(5, .utf8 "b")] := by decide
  refine ⟨?_, ?_, same, injective 1 parts begins same⟩
  · calc readEntries 5 (pool.encodeFrom 4)
      _ = readEntries (pool.firstFrom 4) (pool.encodeFrom 4) := by rw [isFirst]
      _ = some (pool.entriesFrom 4) := decodes 4
      _ = some [(5, .utf8 "b")] := by rw [isEntries]
  · rw [lengths 1 "a\x00😀" (by decide)]
    decide

end Pool

end MethodPatch
