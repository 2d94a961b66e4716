import Historian.Json.Value
import Historian.Text.Numeral

/-!
Reading JSON numbers. A number without point and exponent is an integer where 64 bits hold it. Any
other is a binary64 number: the digits are taken into a 64-bit significand as far as they fit, and
that is rounded, then scaled by a rounded power of ten, with one more rounding. The result is the
nearest number for the texts that the printer writes in everyday ranges, and may miss it by a unit
in the last place for long or extreme ones.
-/
namespace Historian.Json

/-- The parts of a number: sign, digits before and after the point, and the exponent. -/
structure NumberText where
  negative : Bool
  whole : List Char
  /-- The digits after the point, if there is one. -/
  fraction : Option (List Char)
  /-- The sign of the exponent and its digits, if there is one. -/
  exponent : Option (Bool × List Char)
deriving Repr

/-- A significand of at most 64 bits and a power of ten. -/
structure Scaled where
  significand : Nat
  power : Int

def digitValue (d : Char) : Nat := d.toNat - '0'.toNat

/-- Takes in digits before the point; once one does not fit, it and the later ones only scale. -/
def Scaled.takeWhole (s : Scaled) : List Char → Scaled
  | [] => s
  | d :: ds =>
    let next := 10 * s.significand + digitValue d
    if next < wordEnd then takeWhole { s with significand := next } ds
    else { s with power := s.power + (d :: ds).length }

/-- Takes in digits after the point; the first one that does not fit and the later ones are lost. -/
def Scaled.takeFraction (s : Scaled) : List Char → Scaled
  | [] => s
  | d :: ds =>
    let next := 10 * s.significand + digitValue d
    if next < wordEnd then takeFraction ⟨next, s.power - 1⟩ ds else s

/-- The rounded power of ten. -/
def powerOfTen (n : Nat) : Binary64 := .ofNat (tenTo n)

/-- The scaled significand as a binary64 number, or none if it is too large. -/
def Scaled.toReal? (negative : Bool) (s : Scaled) : Option Binary64 :=
  let start := Binary64.ofNat s.significand
  let sized : Option Binary64 :=
    if s.significand = 0 then some .zero
    else if 0 ≤ s.power then
      if s.power ≤ 308 then some (start.mul (powerOfTen s.power.toNat)) else none
    else if -308 ≤ s.power then some (start.div (powerOfTen (-s.power).toNat))
    else if -616 ≤ s.power then
      some ((start.div (powerOfTen 308)).div (powerOfTen (-s.power - 308).toNat))
    else some .zero
  match sized with
  | some x => if x.isFinite then some { x with negative := negative } else none
  | none => none

/-- The integer that a number text without point and exponent stands for, if 64 bits hold it. -/
def integer? (negative : Bool) (n : Nat) : Option Int :=
  if negative then (if 0 < n ∧ n ≤ signedEnd then some (-(n : Int)) else none)
  else if n < wordEnd then some n else none

/-- The number that a text stands for, or none if it is too large for any. -/
def NumberText.value? (t : NumberText) : Option Number :=
  let whole := Scaled.takeWhole ⟨0, 0⟩ t.whole
  match t.fraction, t.exponent with
  | none, none =>
    match integer? t.negative (Numeral.read t.whole) with
    | some n => some (.int n)
    | none => (whole.toReal? t.negative).map .real
  | fraction, exponent =>
    let s := whole.takeFraction (fraction.getD [])
    let power := match exponent with
      | none => s.power
      | some (down, ds) =>
        if down then s.power - Numeral.read ds else s.power + Numeral.read ds
    (Scaled.toReal? t.negative { s with power }).map .real

end Historian.Json
