/-!
Numerals: natural numbers written in decimal. `write` prints without leading zeros, `read` takes any
digits, so reading what was written gives the number back.
-/
namespace Historian.Numeral

/-- The value of a row of digits; a character that is no digit counts by its distance from `0`. -/
def read (ds : List Char) : Nat :=
  ds.foldl (fun n d => 10 * n + (d.toNat - '0'.toNat)) 0

/-- The decimal digits of a number, without leading zeros. -/
def write (n : Nat) : List Char :=
  Nat.toDigits 10 n

/-- Reads a nonempty row of ASCII digits. -/
def read? (ds : List Char) : Option Nat :=
  if !ds.isEmpty && ds.all Char.isDigit then some (read ds) else none

/-- Reads digits after an optional `+`. -/
def readSigned? : List Char → Option Nat
  | '+' :: ds => read? ds
  | ds => read? ds

/-- Reads digits after an optional sign. -/
def readInt? : List Char → Option Int
  | '-' :: ds => (read? ds).map fun n => -(n : Int)
  | ds => (readSigned? ds).map Int.ofNat

/-- The number of decimal digits of a number; one for zero. -/
def width (n : Nat) : Nat :=
  (write n).length

/-- The digits of a number in base 16, at least `least` of them, in capitals. -/
def writeHex (n : Nat) (least : Nat) : List Char :=
  let ds := (Nat.toDigits 16 n).map Char.toUpper
  List.replicate (least - ds.length) '0' ++ ds

theorem read_write (n : Nat) : read (write n) = n :=
  Nat.ofDigitChars_toDigits (by decide) (by decide)

end Historian.Numeral
