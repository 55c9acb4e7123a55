/-
**Code units.**

A text as UTF-16 code units, and the units as the bytes of a class file.

* `units_ne_nil`: every character has a unit;
* `units_length`: one unit below 0x10000, two from there on;
* `length_encodeUnit`: a group is as long as `unitLength` says;
* `length_encode`: so is a text;
* `encode_append`: the encoding of a concatenation is the concatenation of the encodings.
-/

import MethodPatch.Total

namespace MethodPatch.Text

/-! ### UTF-16 code units

A character below 0x10000 is one unit; every other character is a pair of surrogates, the high
half first. Character literals and class file strings both count in these units. -/

/-- A code unit of UTF-16. -/
abbrev Unit16 := UInt16

/-- The UTF-16 code units of a character. -/
def units (c : Char) : List Unit16 :=
  let code := c.toNat
  if code < 0x10000 then [UInt16.ofNat code]
  else
    let offset := code - 0x10000
    [UInt16.ofNat (0xD800 + offset / 0x400), UInt16.ofNat (0xDC00 + offset % 0x400)]

theorem units_length (c : Char) : (units c).length = if c.toNat < 0x10000 then 1 else 2 := by
  unfold units
  dsimp only
  split <;> rfl

theorem units_ne_nil (c : Char) : units c ≠ [] := by
  unfold units
  dsimp only
  split <;> simp

/-- The UTF-16 code units of a text, in order. -/
def utf16 (text : List Char) : List Unit16 := text.flatMap units

@[simp] theorem utf16_nil : utf16 [] = [] := rfl

@[simp] theorem utf16_append (first second : List Char) :
    utf16 (first ++ second) = utf16 first ++ utf16 second := by
  simp [utf16]

end MethodPatch.Text

namespace MethodPatch.Text.ModifiedUtf8

/-! ### Modified UTF-8

The text form of class files: each UTF-16 code unit is a group of one, two or three bytes, and the
unit zero takes two, so that no byte is zero. A supplementary character is therefore six bytes, a
group of three for each surrogate. -/

/-- Length in bytes of the group of one code unit. -/
def unitLength (unit : Unit16) : Nat :=
  let code := unit.toNat
  if 0x01 ≤ code ∧ code ≤ 0x7F then 1 else if code ≤ 0x7FF then 2 else 3

/-- The group of bytes that stands for one code unit. -/
def encodeUnit (unit : Unit16) : List UInt8 :=
  let code := unit.toNat
  if 0x01 ≤ code ∧ code ≤ 0x7F then [UInt8.ofNat code]
  else if code ≤ 0x7FF then [UInt8.ofNat (0xC0 + code / 0x40), UInt8.ofNat (0x80 + code % 0x40)]
  else
    [UInt8.ofNat (0xE0 + code / 0x1000), UInt8.ofNat (0x80 + code / 0x40 % 0x40),
      UInt8.ofNat (0x80 + code % 0x40)]

theorem length_encodeUnit (unit : Unit16) : (encodeUnit unit).length = unitLength unit := by
  unfold encodeUnit unitLength
  dsimp only
  split
  · rfl
  · split <;> rfl

/-- The bytes of a text. -/
def encode (text : List Char) : List UInt8 := (utf16 text).flatMap encodeUnit

/-- The number of bytes of a text. -/
def length (text : List Char) : Nat := total unitLength (utf16 text)

@[simp] theorem encode_append (first second : List Char) :
    encode (first ++ second) = encode first ++ encode second := by
  simp [encode]

theorem length_encode (text : List Char) : (encode text).length = length text := by
  rw [encode, length_flatMap_eq_total, length, funext length_encodeUnit]

end MethodPatch.Text.ModifiedUtf8
