import Historian.Decimal.Binary64
import Historian.Json.Value
import Historian.Text.Cut
import Historian.Text.Numeral

/-!
Scalars of TOML documents that are written without quotes: truth values, integers, floating-point
numbers, dates and times. Each is read as one JSON value; a date or time is an object with one
member, so that it is never taken for a text.
-/
namespace Historian.Toml

/-- Digits that may have single underscores between them, without the underscores. -/
def digits? (isDigit : Char → Bool) (cs : List Char) : Option (List Char) :=
  let groups := Text.split '_' cs
  if groups.all fun g => !g.isEmpty && g.all isDigit then some groups.flatten else none

/-- The sign at the front, and what follows it. -/
def sign : List Char → Bool × List Char
  | '-' :: cs => (true, cs)
  | '+' :: cs => (false, cs)
  | cs => (false, cs)

/-- Decimal digits without a leading zero. -/
def whole? (cs : List Char) : Option (List Char) := do
  let ds ← digits? Char.isDigit cs
  if 1 < ds.length ∧ ds.head? = some '0' then none else some ds

def isHexDigit (c : Char) : Bool :=
  c.isDigit || ('a' ≤ c && c ≤ 'f') || ('A' ≤ c && c ≤ 'F')

/-- The value of digits in a base. -/
def valueIn (base : Nat) (ds : List Char) : Nat :=
  ds.foldl (fun n d =>
    base * n + (if d.isDigit then d.toNat - '0'.toNat else d.toLower.toNat - 'a'.toNat + 10)) 0

/-- An integer of 64 bits, with its sign. -/
def inRange (n : Int) : Option Json :=
  if -signedEnd ≤ n ∧ n < signedEnd then some (.int n) else none

def integer? (cs : List Char) : Option Json :=
  match cs with
  | '0' :: 'x' :: ds => do inRange (valueIn 16 (← digits? isHexDigit ds))
  | '0' :: 'o' :: ds => do inRange (valueIn 8 (← digits? (fun c => '0' ≤ c && c ≤ '7') ds))
  | '0' :: 'b' :: ds => do inRange (valueIn 2 (← digits? (fun c => c == '0' || c == '1') ds))
  | cs => do
    let (negative, cs) := sign cs
    let n : Int := Numeral.read (← whole? cs)
    inRange (if negative then -n else n)

/-- A floating-point number: whole digits and a fraction, an exponent, or both. -/
def real? (cs : List Char) : Option Json := do
  let (negative, cs) := sign cs
  if cs = ['i', 'n', 'f'] then return .number (.real ⟨negative, Binary64.infinityBits⟩)
  if cs = ['n', 'a', 'n'] then return .number (.real ⟨negative, Binary64.notNumberBits⟩)
  let (mantissa, exponent) := Text.cut (fun c => c == 'e' || c == 'E') cs
  let (whole, fraction) := Text.cut (· == '.') mantissa
  if exponent.isNone && fraction.isNone then none
  let whole ← whole? whole
  let fraction ← digits? Char.isDigit (fraction.getD ['0'])
  let (down, places) := sign (exponent.getD ['0'])
  let places : Int := Numeral.read (← digits? Char.isDigit places)
  let x := Binary64.ofDecimal negative (Numeral.read (whole ++ fraction))
    ((if down then -places else places) - fraction.length)
  if x = ⟨false, Binary64.infinityBits⟩ then none else return .number (.real x)

/-- A number of exactly that many digits, within bounds. -/
def field? (count low high : Nat) (cs : List Char) : Option Nat := do
  let n ← Numeral.read? cs
  if cs.length = count ∧ low ≤ n ∧ n ≤ high then some n else none

/-- The number of days of a month. -/
def daysOf (year month : Nat) : Nat :=
  if month = 2 then
    if year % 4 = 0 ∧ (year % 100 ≠ 0 ∨ year % 400 = 0) then 29 else 28
  else if month ∈ [4, 6, 9, 11] then 30 else 31

def isDate (cs : List Char) : Bool :=
  match Text.split '-' cs with
  | [y, m, d] =>
    match field? 4 0 9999 y, field? 2 1 12 m with
    | some year, some month => (field? 2 1 (daysOf year month) d).isSome
    | _, _ => false
  | _ => false

def isTime (cs : List Char) : Bool :=
  match Text.split ':' cs with
  | [h, m, s] =>
    let (seconds, fraction) := Text.cut (· == '.') s
    (field? 2 0 23 h).isSome && (field? 2 0 59 m).isSome && (field? 2 0 60 seconds).isSome &&
      fraction.all fun f => (Numeral.read? f).isSome
  | _ => false

def isOffset (cs : List Char) : Bool :=
  match Text.split ':' cs with
  | [h, m] => (field? 2 0 23 h).isSome && (field? 2 0 59 m).isSome
  | _ => false

/-- A time that may be followed by its offset. -/
def isTimeWithOffset (cs : List Char) : Bool :=
  if cs.getLast? = some 'Z' ∨ cs.getLast? = some 'z' then isTime cs.dropLast
  else match Text.cut (fun c => c == '+' || c == '-') cs with
    | (time, some offset) => isTime time && isOffset offset
    | (time, none) => isTime time

/-- Whether a text is a date, a time, or both. -/
def isDateTime (cs : List Char) : Bool :=
  isDate cs || isTime cs ||
    (isDate (cs.take 10) && (cs[10]?).any (· ∈ ['T', 't', ' ']) && isTimeWithOffset (cs.drop 11))

/-- The value of a scalar without quotes. -/
def scalar? (cs : List Char) : Option Json :=
  if cs = "true".toList then some (.bool true)
  else if cs = "false".toList then some (.bool false)
  else if isDateTime cs then some (.object [("$date", .text (String.ofList cs))])
  else match integer? cs with
    | some v => some v
    | none => real? cs

end Historian.Toml
