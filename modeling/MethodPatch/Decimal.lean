/-
**Binary numbers as decimals.**

Numbers of the two binary floating-point formats of the Java language are read from decimals and
written as decimals, exactly.

* `leastPower`: the power of two of the smallest positive number of a format;
* `shape`: what the bits below the sign say;
* `encode_leastPower`: on the smallest numbers the bits are the significand itself;
* `roundHalfEven_le`, `le_roundHalfEven`: rounding moves a quotient by at most one half.
-/

namespace MethodPatch.Decimal

/-! ### Binary floating-point formats

A format has a number of fraction bits and of exponent bits; `single` and `double` are the two
formats of the Java language. A pattern of bits is a sign, not-a-number, an infinity, or a
significand times a power of two. -/

/-- A power of two. -/
def twoTo (exponent : Nat) : Nat := Nat.pow 2 exponent

/-- A power of ten. -/
def tenTo (exponent : Nat) : Nat := Nat.pow 10 exponent

/-- The widths of the fraction and exponent fields of a binary format. -/
structure Format where
  fraction : Nat
  exponent : Nat
  deriving DecidableEq

/-- The 32-bit format. -/
def single : Format := ⟨23, 8⟩

/-- The 64-bit format. -/
def double : Format := ⟨52, 11⟩

namespace Format

/-- The power of two of the last fraction bit of the smallest numbers. -/
def leastPower (format : Format) : Int :=
  2 - (twoTo (format.exponent - 1) : Nat) - (format.fraction : Nat)

/-- The bits of positive infinity. -/
def infinity (format : Format) : Nat := (twoTo format.exponent - 1) * twoTo format.fraction

/-- The weight of the sign bit. -/
def signBit (format : Format) : Nat := twoTo (format.exponent + format.fraction)

/-- The bits of a positive number given by its significand and the power of two it is scaled by.
A significand that has just outgrown the fraction moves on to the next power by itself. -/
def encode (format : Format) (significand : Nat) (power : Int) : Nat :=
  (power - format.leastPower).toNat * twoTo format.fraction + significand

/-- What a pattern of bits without its sign denotes. -/
inductive Shape where
  | notANumber
  | infinite
  | finite (significand : Nat) (power : Int)
  deriving DecidableEq

/-- The reading of the bits below the sign. -/
def shape (format : Format) (bits : Nat) : Shape :=
  let field := bits / twoTo format.fraction % twoTo format.exponent
  let fraction := bits % twoTo format.fraction
  if field = twoTo format.exponent - 1 then
    if fraction = 0 then .infinite else .notANumber
  else if field = 0 then .finite fraction format.leastPower
  else .finite (twoTo format.fraction + fraction) (format.leastPower + (field - 1 : Nat))

/-- The sign of a pattern of bits. -/
def isNegative (format : Format) (bits : Nat) : Bool := bits / format.signBit % 2 = 1

theorem encode_leastPower (format : Format) (significand : Nat) :
    format.encode significand format.leastPower = significand := by
  simp [encode]

end Format

/-! ### Writing a binary number in the fewest digits

The printed decimal is the one with the fewest digits among those that round to the number, and of
these the nearest. It is written by position, without an exponent however long it grows, and
without a fraction when there is none.

The search is exact. A number `m · 2 ^ p` is compared with the two halfway points around it; on
each decimal grid, from the coarsest down, only the two neighbours of the number can lie between
them, and the first grid with a hit gives the digits. -/

/-- The numbers that round to a binary number: a centre and two ends, as multiples of one unit. The
ends belong to the interval when `closed` holds. -/
structure Interval where
  low : Nat
  centre : Nat
  high : Nat
  closed : Bool

namespace Interval

/-- Scaling of the unit. -/
def scale (interval : Interval) (factor : Nat) : Interval :=
  ⟨interval.low * factor, interval.centre * factor, interval.high * factor, interval.closed⟩

/-- Membership. -/
def contains (interval : Interval) (value : Nat) : Bool :=
  if interval.closed then interval.low ≤ value && value ≤ interval.high
  else interval.low < value && value < interval.high

end Interval

/-- The rounding interval of `significand · 2 ^ power`, in quarters of the last bit. Below a power of
two the neighbours are twice as close. -/
def Format.interval (format : Format) (significand : Nat) (power : Int) : Interval :=
  let closer := significand = twoTo format.fraction ∧ format.leastPower < power
  ⟨4 * significand - (if closer then 1 else 2), 4 * significand, 4 * significand + 2,
    significand % 2 = 0⟩

/-- The multiple of `step` in the interval that is nearest to its centre, divided by `step`. Only the
two neighbours of the centre are candidates. -/
def Interval.multiple? (interval : Interval) (step : Nat) : Option Nat :=
  let below := interval.centre / step
  let above := below + 1
  let rest := interval.centre - below * step
  if rest = 0 then some below
  else
    match interval.contains (below * step), interval.contains (above * step) with
    | true, true => some (if 2 * rest < step then below else above)
    | true, false => some below
    | false, true => some above
    | false, false => none

/-- The interval and the grid of `10 ^ exponent` over one common unit, which is a quarter of
`2 ^ power` divided by enough powers of two and ten to make both whole. -/
def Interval.onGrid? (interval : Interval) (power exponent : Int) : Option Nat :=
  let quarter := power - 2
  let scaled := interval.scale (twoTo quarter.toNat * tenTo (-exponent).toNat)
  scaled.multiple? (tenTo exponent.toNat * twoTo (-quarter).toNat)

/-- Seventeen digits tell any two numbers of the formats apart. -/
def mostDigits : Nat := 17

/-- A power of ten above the number, at most two places above its leading digit. -/
def topExponent (significand : Nat) (power : Int) : Int :=
  ((significand.log2 : Int) + power) * 30103 / 100000 + 2

/-- The digits of a positive number and the power of ten of the last of them. -/
def Format.shortest (format : Format) (significand : Nat) (power : Int) : Nat × Int :=
  let interval := format.interval significand power
  let top := topExponent significand power
  let hit := (List.range (mostDigits + 3)).findSome? fun (depth : Nat) =>
    let exponent := top - depth
    (interval.onGrid? power exponent).bind fun digits =>
      if digits = 0 then none else some (digits, exponent)
  hit.getD (0, 0)

/-- A whole number scaled by a power of ten, written by position. -/
def positional (digits : Nat) (exponent : Int) : String :=
  let text := Nat.toDigits 10 digits
  if 0 ≤ exponent then String.ofList (text ++ List.replicate exponent.toNat '0')
  else
    let places := (-exponent).toNat
    if places < text.length then
      let whole := text.length - places
      String.ofList (text.take whole ++ '.' :: text.drop whole)
    else String.ofList ("0.".toList ++ List.replicate (places - text.length) '0' ++ text)

/-- The text of a pattern of bits of a format. -/
def Format.text (format : Format) (bits : Nat) : String :=
  let sign := if format.isNegative bits then "-" else ""
  match format.shape bits with
  | .notANumber => "NaN"
  | .infinite => sign ++ "inf"
  | .finite 0 _ => sign ++ "0"
  | .finite significand power =>
    let (digits, exponent) := format.shortest significand power
    sign ++ positional digits exponent

/-- The text of a 32-bit number. -/
def singleText (bits : UInt32) : String := single.text bits.toNat

/-- The text of a 64-bit number. -/
def doubleText (bits : UInt64) : String := double.text bits.toNat

end MethodPatch.Decimal

namespace MethodPatch.Decimal

/-! ### Reading a decimal as the nearest binary number

A decimal is a significand and a power of ten, both exact. `Decimal.bits` rounds it once to a
binary format, a half going to the even neighbour, and gives infinity where the format ends.
`Decimal.scaledBits` rounds the two parts before it multiplies them. -/

/-- The integer nearest to a quotient; a half goes to the even neighbour. -/
def roundHalfEven (numerator denominator : Nat) : Nat :=
  let quotient := numerator / denominator
  let rest := numerator % denominator
  if 2 * rest < denominator then quotient
  else if denominator < 2 * rest then quotient + 1
  else quotient + quotient % 2

theorem roundHalfEven_le {numerator denominator : Nat} (positive : 0 < denominator) :
    2 * (roundHalfEven numerator denominator * denominator) ≤ 2 * numerator + denominator := by
  have split := Nat.div_add_mod numerator denominator
  have small := Nat.mod_lt numerator positive
  unfold roundHalfEven
  generalize numerator / denominator = quotient at *
  generalize numerator % denominator = rest at *
  subst split
  dsimp only
  have half := Nat.mod_lt quotient (y := 2) (by decide)
  split
  · rw [Nat.mul_comm quotient]; omega
  · split
    · rw [Nat.add_mul, Nat.mul_comm quotient]; omega
    · have : quotient % 2 * denominator ≤ denominator := by
        rcases Nat.mod_two_eq_zero_or_one quotient with even | odd <;> simp [*]
      rw [Nat.add_mul, Nat.mul_comm quotient]; omega

theorem le_roundHalfEven {numerator denominator : Nat} (positive : 0 < denominator) :
    2 * numerator ≤ 2 * (roundHalfEven numerator denominator * denominator) + denominator := by
  have split := Nat.div_add_mod numerator denominator
  have small := Nat.mod_lt numerator positive
  unfold roundHalfEven
  generalize numerator / denominator = quotient at *
  generalize numerator % denominator = rest at *
  subst split
  dsimp only
  split
  · rw [Nat.mul_comm quotient]; omega
  · split
    · rw [Nat.add_mul, Nat.mul_comm quotient]; omega
    · rw [Nat.add_mul, Nat.mul_comm quotient]; omega

/-- The least integer power of two that exceeds no quotient it is asked for: the floor of the
binary logarithm of a positive quotient. -/
def floorLog2 (numerator denominator : Nat) : Int :=
  let guess : Int := numerator.log2 - denominator.log2
  let reached :=
    if 0 ≤ guess then denominator * twoTo guess.toNat ≤ numerator
    else denominator ≤ numerator * twoTo (-guess).toNat
  if reached then guess else guess - 1

/-- The bits of the number of a format nearest to a positive quotient. -/
def Format.nearest (format : Format) (numerator denominator : Nat) : Nat :=
  let power := max format.leastPower (floorLog2 numerator denominator - format.fraction)
  let significand :=
    if 0 ≤ power then roundHalfEven numerator (denominator * twoTo power.toNat)
    else roundHalfEven (numerator * twoTo (-power).toNat) denominator
  min (format.encode significand power) format.infinity

/-- The bits of the number of a format nearest to the product of two, which are given by their bits.
The product of what is no number, or not finite, is taken to be beyond the format. -/
def Format.product (format : Format) (first second : Nat) : Nat :=
  match format.shape first, format.shape second with
  | .finite 0 _, .finite _ _ | .finite _ _, .finite 0 _ => 0
  | .finite significand power, .finite other scale =>
    let total := power + scale
    format.nearest (significand * other * twoTo total.toNat) (twoTo (-total).toNat)
  | _, _ => format.infinity

end Decimal

/-- A number in decimal notation: a significand times a power of ten. -/
structure Decimal where
  significand : Nat
  exponent : Int
  deriving DecidableEq

namespace Decimal

/-- The number of decimal digits of a significand. -/
def digitCount (significand : Nat) : Nat := (Nat.toDigits 10 significand).length

/-- Beyond this power of ten on either side every format has ended. -/
def farPower : Int := 5000

/-- The bits of the number of a format nearest to a decimal. -/
def bits (format : Format) (decimal : Decimal) : Nat :=
  if decimal.significand = 0 then 0
  else
    let magnitude : Int := digitCount decimal.significand + decimal.exponent
    if farPower < magnitude then format.infinity
    else if magnitude < -farPower then 0
    else if 0 ≤ decimal.exponent then
      format.nearest (decimal.significand * tenTo decimal.exponent.toNat) 1
    else format.nearest decimal.significand (tenTo (-decimal.exponent).toNat)

/-- A significand times a power of ten in the arithmetic of a format: both are rounded to it, and so
is their product. -/
def scaledBits (format : Format) (significand power : Nat) : Nat :=
  format.product (bits format ⟨significand, 0⟩) (bits format ⟨1, power⟩)

end Decimal

end MethodPatch
