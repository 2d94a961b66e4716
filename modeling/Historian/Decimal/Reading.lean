import Historian.Decimal.Binary64
import Historian.Text.Cut
import Historian.Text.Numeral

/-!
Reading binary64 numbers as people write them: digits with or without a point and an exponent, or
the words for infinity and for what is no number. The result is the number nearest to the decimal.
-/
namespace Historian.Binary64

/-- The value of a decimal without its sign. -/
def readMagnitude? (negative : Bool) (cs : List Char) : Option Binary64 :=
  let (mantissa, exponent) := Text.cut (fun c => c == 'e' || c == 'E') cs
  let (whole, fraction) := Text.cut (· == '.') mantissa
  let fraction := fraction.getD []
  match Numeral.read? (whole ++ fraction), Numeral.readInt? (exponent.getD ['0']) with
  | some digits, some places => some (ofDecimal negative digits (places - fraction.length))
  | _, _ => none

/-- The value of a word. -/
def ofWord? (negative : Bool) (word : String) : Option Binary64 :=
  if word = "inf" ∨ word = "infinity" then some ⟨negative, infinityBits⟩
  else if word = "nan" then some ⟨negative, notNumberBits⟩
  else none

/-- The number that a text stands for. -/
def read? (s : String) : Option Binary64 :=
  let (negative, cs) := match s.toList with
    | '-' :: cs => (true, cs)
    | '+' :: cs => (false, cs)
    | cs => (false, cs)
  match ofWord? negative (String.ofList (cs.map Char.toLower)) with
  | some x => some x
  | none => readMagnitude? negative cs

end Historian.Binary64
