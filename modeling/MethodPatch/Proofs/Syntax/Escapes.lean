/-
**Texts spelled in escapes.**

Every text is a sequence of UTF-16 code units, and each of them can be spelled with a backslash, a `u`
and four hexadecimal digits. The lexer reads one escape at a time and wants a character of each. So a text
is read from such a literal if each of its characters is one unit. A character from 0x10000 on is a pair
of surrogates, neither of which is a character: the literal is refused, like one with a surrogate that has
no other half.

* `Text.isSurrogate`: the units that are no characters;
* `Escaped`, `escaped_units`: texts that spell code units, and one for any units;
* `Scan.scanStringFrom_escaped`, `Scan.scanStringFrom_surrogate`: what is read of the escapes;
* `lexemes_escaped_iff`: **which of these literals are read as their texts, and which are refused.**
-/

import Mathlib.Logic.Basic
import MethodPatch.Proofs.Syntax.Spelling
import MethodPatch.Proofs.Text.ModifiedUtf8

namespace MethodPatch

/-! ### Surrogates -/

namespace Text

/-- The halves of the pairs that spell characters from 0x10000 on. -/
def isSurrogate (unit : Unit16) : Bool := 0xD800 ≤ unit.toNat && unit.toNat ≤ 0xDFFF

/-- A unit is a character by itself unless it is a surrogate. -/
theorem charOf?_unit_isSome (unit : Unit16) : (charOf? unit.toNat).isSome = !isSurrogate unit := by
  have bound := unit.toNat_lt
  have same : unit.toNat.isValidChar ↔ isSurrogate unit = false := by
    simp only [Nat.isValidChar, isSurrogate, Bool.and_eq_false_iff, decide_eq_false_iff_not]
    omega
  unfold charOf?
  by_cases surrogate : isSurrogate unit = true
  · rw [if_neg fun valid => by simp [same.mp valid] at surrogate, surrogate]
    rfl
  · have none := Bool.eq_false_iff.mpr surrogate
    rw [if_pos (same.mpr none), none]
    rfl

/-- The units of a character from 0x10000 on are surrogates, and no others are. -/
theorem isSurrogate_units {c : Char} {unit : Unit16} (isIn : unit ∈ units c) :
    isSurrogate unit = decide (0x10000 ≤ c.toNat) := by
  have valid : c.toNat.isValidChar := c.valid
  simp only [Nat.isValidChar] at valid
  unfold isSurrogate
  rw [Bool.eq_iff_iff, Bool.and_eq_true, decide_eq_true_eq, decide_eq_true_eq, decide_eq_true_eq]
  by_cases small : c.toNat < 0x10000
  · have isOne : units c = [UInt16.ofNat c.toNat] := if_pos small
    rw [isOne, List.mem_singleton] at isIn
    rw [isIn, UInt16.toNat_ofNat']
    omega
  · have isPair : units c = [UInt16.ofNat (0xD800 + (c.toNat - 0x10000) / 0x400),
        UInt16.ofNat (0xDC00 + (c.toNat - 0x10000) % 0x400)] := if_neg small
    rw [isPair, List.mem_cons, List.mem_singleton] at isIn
    rcases isIn with rfl | rfl
    · rw [UInt16.toNat_ofNat']
      omega
    · rw [UInt16.toNat_ofNat']
      omega

/-- There are surrogates among the units of a text exactly if it has a character from 0x10000 on. -/
theorem exists_surrogate_iff (text : List Char) :
    (∃ unit ∈ utf16 text, isSurrogate unit = true) ↔ ∃ c ∈ text, 0x10000 ≤ c.toNat := by
  constructor
  · rintro ⟨unit, isIn, isHalf⟩
    obtain ⟨c, isChar, isUnit⟩ := List.mem_flatMap.mp isIn
    rw [isSurrogate_units isUnit] at isHalf
    exact ⟨c, isChar, of_decide_eq_true isHalf⟩
  · rintro ⟨c, isChar, large⟩
    obtain ⟨unit, others, isUnits⟩ := List.exists_cons_of_ne_nil (units_ne_nil c)
    have isUnit : unit ∈ units c := isUnits ▸ List.mem_cons_self
    refine ⟨unit, List.mem_flatMap.mpr ⟨c, isChar, isUnit⟩, ?_⟩
    rw [isSurrogate_units isUnit, decide_eq_true large]

/-- The characters that units are one by one. -/
def singles? (code : List Unit16) : Option (List Char) := code.mapM fun unit => charOf? unit.toNat

theorem singles?_cons_eq_some {unit : Unit16} {others : List Unit16} {text : List Char} :
    singles? (unit :: others) = some text ↔
      ∃ c behind, charOf? unit.toNat = some c ∧ singles? others = some behind ∧ c :: behind = text := by
  simp [singles?, List.mapM_cons, Option.bind_eq_some_iff]

theorem exists_singles? {code : List Unit16} (noSurrogate : ∀ unit ∈ code, isSurrogate unit = false) :
    ∃ text, singles? code = some text := by
  induction code with
  | nil => exact ⟨[], rfl⟩
  | cons unit others ih =>
    obtain ⟨noFirst, noOthers⟩ := List.forall_mem_cons.mp noSurrogate
    obtain ⟨text, isText⟩ := ih noOthers
    have isSome := charOf?_unit_isSome unit
    rw [noFirst] at isSome
    obtain ⟨c, isChar⟩ := Option.isSome_iff_exists.mp isSome
    exact ⟨c :: text, singles?_cons_eq_some.mpr ⟨c, text, isChar, isText, rfl⟩⟩

/-- Units that are characters one by one are the units of these characters. -/
theorem ofUtf16?_of_singles? {code : List Unit16} {text : List Char} (single : singles? code = some text) :
    ofUtf16? code = some text := by
  induction code generalizing text with
  | nil => exact single
  | cons unit others ih =>
    obtain ⟨c, behind, isChar, isText, rfl⟩ := singles?_cons_eq_some.mp single
    rw [ofUtf16?.eq_def]
    dsimp only
    rw [isChar]
    dsimp only
    rw [ih isText]
    rfl

end Text

/-! ### Escapes -/

/-- A text spells code units in escapes of four hexadecimal digits. -/
inductive Escaped : List Text.Unit16 → List Char → Prop
  | nil : Escaped [] []
  | cons {unit : Text.Unit16} {code : List Text.Unit16} {digits text : List Char}
    (four : digits.length = 4) (hex : digits.all (Text.isDigitOf 16) = true)
    (value : Text.ofDigits 16 (digits.map Text.digitValue) = unit.toNat) (others : Escaped code text) :
    Escaped (unit :: code) ('\\' :: 'u' :: (digits ++ text))

/-- Any code units can be spelled in escapes. -/
theorem escaped_units (code : List Text.Unit16) :
    Escaped code (code.flatMap fun unit => '\\' :: 'u' :: unitDigits unit) := by
  induction code with
  | nil => exact .nil
  | cons unit others ih =>
    obtain ⟨four, hex, value⟩ := Scan.unitDigits_spell unit
    exact .cons four (List.all_eq_true.mpr hex) value ih

namespace Scan

theorem unitChar?_eq (unit : Text.Unit16) : unitChar? unit = Text.charOf? unit.toNat := by
  unfold unitChar? Text.charOf?
  by_cases valid : unit.toNat.isValidChar
  · rw [dif_pos valid, if_pos valid, Char.ofNat, dif_pos valid]
  · rw [dif_neg valid, if_neg valid]

variable {unit : Text.Unit16} {code : List Text.Unit16} {digits text : List Char}

/-- An escape is read as the character that its unit is, or refused. -/
theorem scanStringFrom_unit (four : digits.length = 4) (hex : digits.all (Text.isDigitOf 16) = true)
    (value : Text.ofDigits 16 (digits.map Text.digitValue) = unit.toNat) (read : List Char) (taken : Nat)
    (rest : List Char) :
    scanStringFrom read taken ('\\' :: 'u' :: (digits ++ rest)) =
      match Text.charOf? unit.toNat with
      | none => (.error .unpairedSurrogate, taken + 6)
      | some c => scanStringFrom (c :: read) (taken + 6) rest := by
  have behind : ('u' :: (digits ++ rest)).drop 5 = rest := by
    rw [List.drop_succ_cons, ← four, List.drop_left]
  rw [scanStringFrom.eq_def]
  dsimp only
  rw [if_neg (by decide), if_neg (by decide), if_pos rfl, scanEscape_digits four (List.all_eq_true.mp hex),
    value, UInt16.ofNat_toNat]
  dsimp only
  cases isChar : Text.charOf? unit.toNat with
  | none => rw [unitChar?_eq, isChar]
  | some c => rw [unitChar?_eq, isChar, behind]

/-- Escapes of which each is a character are read as these characters. -/
theorem scanStringFrom_escaped (escaped : Escaped code text) {chars : List Char}
    (single : Text.singles? code = some chars) (read : List Char) (taken : Nat) (rest : List Char) :
    scanStringFrom read taken (text ++ '"' :: rest) =
      (.ok (String.ofList (read.reverse ++ chars)), taken + text.length + 1) := by
  induction escaped generalizing chars read taken with
  | nil =>
    obtain rfl : [] = chars := Option.some.inj single
    rw [List.nil_append, scanStringFrom.eq_def]
    simp
  | @cons unit code digits text four hex value others ih =>
    obtain ⟨c, behind, isChar, isText, rfl⟩ := Text.singles?_cons_eq_some.mp single
    rw [List.cons_append, List.cons_append, List.append_assoc, scanStringFrom_unit four hex value, isChar]
    dsimp only
    rw [ih isText, List.reverse_cons, List.append_assoc, List.length_cons, List.length_cons,
      List.length_append, four]
    congr 1
    omega

/-- Escapes with a surrogate among them are refused. -/
theorem scanStringFrom_surrogate (escaped : Escaped code text)
    (surrogate : ∃ unit ∈ code, Text.isSurrogate unit = true) (read : List Char) (taken : Nat)
    (rest : List Char) :
    ∃ length, scanStringFrom read taken (text ++ rest) = (.error .unpairedSurrogate, length) := by
  induction escaped generalizing read taken with
  | nil =>
    obtain ⟨_, isIn, _⟩ := surrogate
    cases isIn
  | @cons unit code digits text four hex value others ih =>
    have isSome := Text.charOf?_unit_isSome unit
    rw [List.cons_append, List.cons_append, List.append_assoc, scanStringFrom_unit four hex value]
    cases isChar : Text.charOf? unit.toNat with
    | none => exact ⟨taken + 6, rfl⟩
    | some c =>
      rw [isChar] at isSome
      obtain ⟨other, isIn, isHalf⟩ := surrogate
      rcases List.mem_cons.mp isIn with rfl | isBehind
      · rw [isHalf] at isSome
        cases isSome
      · exact ih ⟨other, isBehind, isHalf⟩ (c :: read) (taken + 6)

end Scan

/-! ### Literals -/

/-- A text between quotes. -/
def literalOf (text : List Char) : String := String.ofList ('"' :: (text ++ ['"']))

variable {code : List Text.Unit16} {text chars : List Char}

/-- A literal of escapes of which each is a character is one token with these characters. -/
theorem lexemes_escaped (escaped : Escaped code text)
    (single : Text.singles? code = some chars) :
    lexemes (literalOf text) =
      ⟨[⟨.string (String.ofList chars), .start⟩], .ok (Position.start.forward (text.length + 2))⟩ := by
  have scanned : Scan.scanToken ('"' :: (text ++ ['"'])) =
      (.ok (.string (String.ofList chars)), ('"' :: (text ++ ['"'])).length) := by
    have isText : Scan.scanBehind '"' (text ++ ['"']) = Scan.scanString (text ++ ['"']) := rfl
    rw [Scan.scanToken, isText, Scan.scanString, Scan.scanStringFrom_escaped escaped single]
    simp [Except.map]
  rw [lexemes, Cursor.ofText, literalOf, String.toList_ofList,
    Cursor.lexemesFrom_last [] .start (fronts_of_ne (by decide) (by decide) _) scanned]
  simp

/-- A literal of escapes with a surrogate among them is refused. -/
theorem lexemes_surrogate (escaped : Escaped code text)
    (surrogate : ∃ unit ∈ code, Text.isSurrogate unit = true) :
    lexemes (literalOf text) = ⟨[], .error (malformed .unpairedSurrogate (some .start))⟩ := by
  obtain ⟨length, refused⟩ := Scan.scanStringFrom_surrogate escaped surrogate [] 0 ['"']
  have fronts : Fronts '"' (text ++ ['"']) := fronts_of_ne (by decide) (by decide) _
  have scanned : Scan.scanToken ('"' :: (text ++ ['"'])) = (.error .unpairedSurrogate, length + 1) := by
    have isText : Scan.scanBehind '"' (text ++ ['"']) = Scan.scanString (text ++ ['"']) := rfl
    rw [Scan.scanToken, isText, Scan.scanString, refused]
    rfl
  rw [lexemes, Cursor.ofText, literalOf, String.toList_ofList,
    Cursor.lexemesFrom_fault [] (Cursor.skip_of_fronts fronts .start) scanned]
  rfl

/-- **Which literals of escapes are read as their texts.** If a literal spells the code units of a text,
it is one token with that text exactly if every character of the text is a single unit. It is refused
exactly if a surrogate is among the units, and so in particular if they are the units of no text. -/
theorem lexemes_escaped_iff (escaped : Escaped code text) :
    (∀ value : String, Text.utf16 value.toList = code →
      (lexemes (literalOf text) =
          ⟨[⟨.string value, .start⟩], .ok (Position.start.forward (text.length + 2))⟩ ↔
        ∀ c ∈ value.toList, c.toNat < 0x10000)) ∧
    (lexemes (literalOf text) = ⟨[], .error (malformed .unpairedSurrogate (some .start))⟩ ↔
      ∃ unit ∈ code, Text.isSurrogate unit = true) ∧
    (Text.ofUtf16? code = none →
      lexemes (literalOf text) = ⟨[], .error (malformed .unpairedSurrogate (some .start))⟩) := by
  by_cases surrogate : ∃ unit ∈ code, Text.isSurrogate unit = true
  · rw [lexemes_surrogate escaped surrogate]
    refine ⟨fun value isCode => ⟨nofun, fun small => ?_⟩, ⟨fun _ => surrogate, fun _ => rfl⟩, fun _ => rfl⟩
    rw [← isCode] at surrogate
    obtain ⟨c, isIn, large⟩ := (Text.exists_surrogate_iff value.toList).mp surrogate
    exact absurd (small c isIn) (Nat.not_lt.mpr large)
  · obtain ⟨chars, single⟩ := Text.exists_singles? fun unit isIn =>
      Bool.eq_false_iff.mpr fun isHalf => surrogate ⟨unit, isIn, isHalf⟩
    have isText := Text.ofUtf16?_of_singles? single
    rw [lexemes_escaped escaped single]
    refine ⟨fun value isCode => ?_, ⟨nofun, fun some => absurd some surrogate⟩, fun noText => ?_⟩
    · have same : chars = value.toList := by
        rw [← isCode, Text.ofUtf16?_utf16] at isText
        exact (Option.some.inj isText).symm
      rw [same, String.ofList_toList]
      refine ⟨fun _ c isIn => Nat.lt_of_not_le fun large => ?_, fun _ => rfl⟩
      rw [← isCode] at surrogate
      exact surrogate ((Text.exists_surrogate_iff value.toList).mpr ⟨c, isIn, large⟩)
    · rw [isText] at noText
      cases noText

/-- A letter that is one unit is read from its escape. -/
theorem lexemes_escaped_omega :
    Text.utf16 "Ω".toList = [0x03A9] ∧ Escaped [0x03A9] "\\u03A9".toList ∧
      lexemes "\"\\u03A9\"" = ⟨[⟨.string "Ω", .start⟩], .ok ⟨1, 9, 8⟩⟩ := by
  have escaped : Escaped [0x03A9] "\\u03A9".toList :=
    @Escaped.cons 0x03A9 [] ['0', '3', 'A', '9'] [] rfl (by decide) (by decide) .nil
  have small : ∀ c ∈ "Ω".toList, c.toNat < 0x10000 := List.forall_mem_singleton.mpr (by decide)
  exact ⟨by decide, escaped, ((lexemes_escaped_iff escaped).1 "Ω" (by decide)).mpr small⟩

/-- A face is a pair of surrogates, and the literal that spells them is refused. -/
theorem lexemes_escaped_face :
    Text.utf16 "😀".toList = [0xD83D, 0xDE00] ∧ Escaped [0xD83D, 0xDE00] "\\uD83D\\uDE00".toList ∧
      lexemes "\"\\uD83D\\uDE00\"" = ⟨[], .error (malformed .unpairedSurrogate (some .start))⟩ := by
  have escaped : Escaped [0xD83D, 0xDE00] "\\uD83D\\uDE00".toList :=
    @Escaped.cons 0xD83D _ ['D', '8', '3', 'D'] _ rfl (by decide) (by decide)
      (@Escaped.cons 0xDE00 [] ['D', 'E', '0', '0'] [] rfl (by decide) (by decide) .nil)
  exact ⟨by decide, escaped, lexemes_surrogate escaped ⟨0xD83D, List.mem_cons_self, by decide⟩⟩

end MethodPatch
