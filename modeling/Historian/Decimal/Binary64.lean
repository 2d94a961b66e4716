import Historian.Decimal.Power

/-!
IEEE 754 binary64 numbers as exact data. A number is its sign and the 63 bits below it, read as one
natural number: larger bits mean a larger magnitude, so comparisons are comparisons of integers and
need no floating-point arithmetic. Rounding takes an exact quotient to the nearest number, an exact
half to the even one.
-/
namespace Historian

/-- A binary64 number: its sign, and its exponent and fraction bits as one natural number. -/
structure Binary64 where
  negative : Bool
  magnitude : Nat
deriving DecidableEq, Repr, Inhabited

namespace Binary64

/-- The magnitude bits of infinity; larger ones are not numbers. -/
def infinityBits : Nat := 0x7FF0000000000000

/-- The magnitude bits of what stands for no number. -/
def notNumberBits : Nat := 0x7FF8000000000000

/-- The highest bit of significands, which is not written down: two to the power of 52. -/
def hiddenBit : Nat := 0x10000000000000

def zero : Binary64 := ⟨false, 0⟩

def one : Binary64 := ⟨false, 0x3FF0000000000000⟩

def isFinite (x : Binary64) : Bool := x.magnitude < infinityBits

def isNaN (x : Binary64) : Bool := infinityBits < x.magnitude

def isZero (x : Binary64) : Bool := x.magnitude == 0

def neg (x : Binary64) : Binary64 := { x with negative := !x.negative }

/-- The integer `m` of the value `m * 2 ^ q` of a finite number, its sign apart. -/
def significand (x : Binary64) : Nat :=
  let fraction := x.magnitude % hiddenBit
  if x.magnitude / hiddenBit = 0 then fraction else hiddenBit + fraction

/-- The exponent `q` of the value `m * 2 ^ q` of a finite number. -/
def exponent (x : Binary64) : Int :=
  (max (x.magnitude / hiddenBit) 1 : Nat) - 1075

/-- The numerator of the exact value, its sign apart. -/
def numerator (x : Binary64) : Nat := x.significand * twoTo x.exponent.toNat

/-- The denominator of the exact value. -/
def denominator (x : Binary64) : Nat := twoTo (-x.exponent).toNat

-- Two orders. `numericKey` sees one zero, `totalKey` sees two and puts the negative one first.

/-- Numbers that are not NaN compare as their keys do, zeros being equal. -/
def numericKey (x : Binary64) : Int :=
  if x.negative then -(x.magnitude : Int) else x.magnitude

/-- The key of the total order on all bit patterns. -/
def totalKey (x : Binary64) : Int :=
  if x.negative then -(x.magnitude : Int) - 1 else x.magnitude

/-- Numeric `<`; nothing is less than NaN, nor NaN than anything. -/
def less (x y : Binary64) : Bool :=
  !x.isNaN && !y.isNaN && x.numericKey < y.numericKey

/-- Numeric equality; NaN differs from itself. -/
def same (x y : Binary64) : Bool :=
  !x.isNaN && !y.isNaN && x.numericKey == y.numericKey

theorem totalKey_injective {x y : Binary64} (h : x.totalKey = y.totalKey) : x = y := by
  obtain ⟨nx, mx⟩ := x
  obtain ⟨ny, my⟩ := y
  cases nx <;> cases ny <;> simp [totalKey] at h ⊢ <;> omega

/-- The quotient `a / b` rounded to the nearest integer, a half to the even one. -/
def roundQuotient (a b : Nat) : Nat :=
  let q := a / b
  let twice := 2 * (a % b)
  if twice > b ∨ (twice = b ∧ q % 2 = 1) then q + 1 else q

theorem roundQuotient_of_dvd {a b : Nat} (h : b ∣ a) (hb : 0 < b) : roundQuotient a b = a / b := by
  simp [roundQuotient, Nat.mod_eq_zero_of_dvd h]; omega

/-- The magnitude bits of the number nearest to `num / den`. -/
def nearestBits (num den : Nat) : Nat :=
  if num = 0 ∨ den = 0 then 0
  else
    let estimate : Int := max ((num.log2 : Int) - den.log2 - 52) (-1074)
    let tooLarge := -1074 < estimate ∧
      num * twoTo (-estimate).toNat < den * hiddenBit * twoTo estimate.toNat
    let q := if tooLarge then estimate - 1 else estimate
    let m := roundQuotient (num * twoTo (-q).toNat) (den * twoTo q.toNat)
    min ((q + 1074).toNat * hiddenBit + m) infinityBits

/-- The number nearest to the quotient `num / den` with the given sign. -/
def ofQuotient (negative : Bool) (num den : Nat) : Binary64 :=
  ⟨negative, nearestBits num den⟩

def ofNat (n : Nat) : Binary64 := ofQuotient false n 1

def ofInt (n : Int) : Binary64 := ofQuotient (n < 0) n.natAbs 1

/-- The product of finite numbers, rounded. -/
def mul (x y : Binary64) : Binary64 :=
  ofQuotient (x.negative != y.negative) (x.numerator * y.numerator) (x.denominator * y.denominator)

/-- The quotient of a finite number by a finite nonzero one, rounded. -/
def div (x y : Binary64) : Binary64 :=
  ofQuotient (x.negative != y.negative) (x.numerator * y.denominator) (x.denominator * y.numerator)

/-- The number nearest to `digits * 10 ^ exponent`. -/
def ofDecimal (negative : Bool) (digits : Nat) (exponent : Int) : Binary64 :=
  -- beyond 400 places below the digits every value rounds to zero, beyond 310 above to infinity
  let places := (Nat.toDigits 10 digits).length
  if digits = 0 ∨ exponent + places < -400 then ⟨negative, 0⟩
  else if 310 < exponent then ⟨negative, infinityBits⟩
  else ofQuotient negative (digits * tenTo exponent.toNat) (tenTo (-exponent).toNat)

def ofBits (bits : UInt64) : Binary64 :=
  ⟨signedEnd ≤ bits.toNat, bits.toNat % signedEnd⟩

def toBits (x : Binary64) : UInt64 :=
  UInt64.ofNat (x.magnitude + if x.negative then signedEnd else 0)

example : ofNat 1 = one ∧ ofNat (twoTo 53 + 1) = ofNat (twoTo 53) ∧
    (ofNat 3).numerator = 3 * twoTo 51 ∧ (ofNat 3).denominator = twoTo 51 := by decide +kernel

end Binary64

end Historian
