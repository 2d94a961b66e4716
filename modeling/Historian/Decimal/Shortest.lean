import Historian.Decimal.Binary64
import Historian.Text.Numeral

/-!
The shortest decimal text of a binary64 number. Of all decimals that round to the number, `shortest`
takes one with the fewest digits, and of those the nearest to the number, an exact tie going to the
even digit. A `Layout` says how the digits are set out.
-/
namespace Historian

/-- A positive decimal number: `digits * tenTo power`. -/
structure Decimal where
  digits : Nat
  power : Int
deriving DecidableEq, Repr

namespace Decimal

/-- The decimal exponent of `num / den`: the power of ten that is at most it by less than tenfold.
-/
def scaleOf (num den : Nat) : Int :=
  if den ≤ num then (Numeral.width (num / den) : Int) - 1
  else
    let below := Numeral.width (den / num) - 1
    if den = num * tenTo below then -(below : Int) else -(below + 1 : Int)

/-- The decimals that round to a number: from `low / unit` to `high / unit`. -/
structure Interval where
  low : Nat
  high : Nat
  unit : Nat
  closed : Bool

/-- Whether `digits * 10 ^ power` lies in the interval. -/
def Interval.contains (i : Interval) (digits : Nat) (power : Int) : Bool :=
  let num := digits * tenTo power.toNat * i.unit
  let den := tenTo (-power).toNat
  if i.closed then i.low * den ≤ num && num ≤ i.high * den
  else i.low * den < num && num < i.high * den

/-- The decimals that round to a finite nonzero number; the ends count if its significand is even.
-/
def roundingInterval (x : Binary64) : Interval :=
  let m := x.significand
  let up := twoTo x.exponent.toNat
  -- a power of two has a nearer neighbour below, unless it is among the least numbers
  let low := if m = Binary64.hiddenBit ∧ -1074 < x.exponent then 4 * m - 1 else 4 * m - 2
  ⟨low * up, (4 * m + 2) * up, 4 * x.denominator, m % 2 = 0⟩

/-- The point of the grid of `count` digits nearest to the number, if one rounds to it. -/
def onGrid (x : Binary64) (count : Nat) : Option Decimal :=
  let power := scaleOf x.numerator x.denominator - (count - 1 : Nat)
  let num := x.numerator * tenTo (-power).toNat
  let den := x.denominator * tenTo power.toNat
  let below := num / den
  let i := roundingInterval x
  match i.contains below power, i.contains (below + 1) power with
  | true, true => some ⟨Binary64.roundQuotient num den, power⟩
  | true, false => some ⟨below, power⟩
  | false, true => some ⟨below + 1, power⟩
  | false, false => none

/-- The decimal with the fewest digits that rounds to a finite nonzero number. -/
def shortest (x : Binary64) : Decimal :=
  ((List.range 17).findSome? fun n => onGrid x (n + 1)).getD
    ⟨x.numerator, 0⟩

/-- The digits without trailing zeros, and the exponent of the first one. -/
def normalForm (d : Decimal) : List Char × Int :=
  let ds := Numeral.write d.digits
  (((ds.reverse.dropWhile (· == '0')).reverse), d.power + (ds.length : Int) - 1)

/-- How digits are set out: which exponents are written positionally, whether whole numbers keep
`.0`, and the words for what is no number. -/
structure Layout where
  positional : Int → Bool
  keepPoint : Bool
  infinite : String
  notNumber : String

/-- Digits with the point after the place of exponent zero. -/
def setPositional (keepPoint : Bool) (ds : List Char) (exponent : Int) : List Char :=
  if exponent < 0 then
    '0' :: '.' :: List.replicate (-exponent - 1).toNat '0' ++ ds
  else
    let whole := exponent.toNat + 1
    if ds.length ≤ whole then
      ds ++ List.replicate (whole - ds.length) '0' ++ (if keepPoint then ['.', '0'] else [])
    else ds.take whole ++ '.' :: ds.drop whole

/-- Digits with the point after the first and a signed exponent. -/
def setScientific (ds : List Char) (exponent : Int) : List Char :=
  let fraction := ds.drop 1
  ds.take 1 ++ (if fraction.isEmpty then [] else '.' :: fraction) ++
    'e' :: (if exponent < 0 then '-' else '+') :: Numeral.write exponent.natAbs

/-- The text of a number in a layout. -/
def Layout.write (layout : Layout) (x : Binary64) : String :=
  let sign := if x.negative then "-" else ""
  if x.isNaN then layout.notNumber
  else if !x.isFinite then sign ++ layout.infinite
  else if x.isZero then sign ++ (if layout.keepPoint then "0.0" else "0")
  else
    let (ds, exponent) := (shortest x).normalForm
    let body := if layout.positional exponent then setPositional layout.keepPoint ds exponent
      else setScientific ds exponent
    sign ++ String.ofList body

/-- Whole numbers without a point and never an exponent, as messages about values show them. -/
def plainLayout : Layout where
  positional _ := true
  keepPoint := false
  infinite := "inf"
  notNumber := "NaN"

end Decimal

end Historian
