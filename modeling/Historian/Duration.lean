import Historian.Decimal.Power
import Historian.Text.Blank
import Historian.Text.Numeral

/-!
Durations of windows: a positive number of milliseconds below 2^64. They are written as a number and
a unit; the text of a duration uses the largest unit that divides it, so equal durations have equal
texts whichever way they were given.
-/
namespace Historian

/-- The units a duration can be given in, the largest first. -/
inductive TimeUnit
  | week | day | hour | minute | second | millisecond
deriving DecidableEq, Repr

namespace TimeUnit

def all : List TimeUnit := [.week, .day, .hour, .minute, .second, .millisecond]

def millis : TimeUnit → Nat
  | .week => 7 * 24 * 60 * 60 * 1000
  | .day => 24 * 60 * 60 * 1000
  | .hour => 60 * 60 * 1000
  | .minute => 60 * 1000
  | .second => 1000
  | .millisecond => 1

def symbol : TimeUnit → Char
  | .week => 'w'
  | .day => 'd'
  | .hour => 'h'
  | .minute => 'm'
  | .second => 's'
  | .millisecond => 'a'

/-- The unit of a symbol; milliseconds have a second one, `ms`. -/
def ofSymbol? (cs : List Char) : Option TimeUnit :=
  if cs = ['m', 's'] then some .millisecond
  else match cs with
    | [c] => all.find? (·.symbol == c)
    | _ => none

theorem millis_pos (u : TimeUnit) : 0 < u.millis := by
  cases u <;> decide

theorem ofSymbol?_symbol (u : TimeUnit) : ofSymbol? [u.symbol] = some u := by
  cases u <;> decide

end TimeUnit

/-- A positive number of milliseconds that fits 64 bits. -/
structure Duration where
  millis : Nat
  pos : 0 < millis
  fits : millis < wordEnd
deriving DecidableEq, Repr

/-- Why a text is no duration. -/
inductive DurationFault
  | noUnit
  | noNumber
  | badNumber (digits : String)
  | unknownUnit (unit : String)
  | overflow
  | notPositive
deriving DecidableEq, Repr

def DurationFault.message : DurationFault → String
  | .noUnit => "missing unit (expected one of a, s, m, h, d, w)"
  | .noNumber => "missing numeric value"
  | .badNumber digits => s!"'{digits}' is not a valid number"
  | .unknownUnit unit => s!"unknown unit '{unit}'"
  | .overflow => "duration overflows"
  | .notPositive => "duration must be positive"

namespace Duration

/-- The duration of that many milliseconds. -/
def ofMillis? (n : Nat) : Except DurationFault Duration :=
  if hp : 0 < n then
    if hf : n < wordEnd then .ok ⟨n, hp, hf⟩ else .error .overflow
  else .error .notPositive

/-- The largest unit that divides the duration. -/
def unit (d : Duration) : TimeUnit :=
  (TimeUnit.all.find? fun u => d.millis % u.millis == 0).getD .millisecond

/-- The duration as a number and the largest unit that divides it. -/
def write (d : Duration) : String :=
  String.ofList (Numeral.write (d.millis / d.unit.millis) ++ [d.unit.symbol])

/-- Reads digits and a unit; the number and the milliseconds must both fit 64 bits. -/
def readBody (cs : List Char) : Except DurationFault Duration :=
  let digits := cs.takeWhile Char.isDigit
  let unit := cs.dropWhile Char.isDigit
  if unit.isEmpty then .error .noUnit
  else if digits.isEmpty then .error .noNumber
  else if wordEnd ≤ Numeral.read digits then .error (.badNumber (String.ofList digits))
  else match TimeUnit.ofSymbol? unit with
    | none => .error (.unknownUnit (String.ofList unit))
    | some u => ofMillis? (Numeral.read digits * u.millis)

/-- Reads a duration, blanks around it apart. -/
def read (s : String) : Except DurationFault Duration :=
  readBody (Text.trimBlanks s.toList)

def le (a b : Duration) : Bool := a.millis ≤ b.millis

def compare (a b : Duration) : Ordering := Ord.compare a.millis b.millis

example : (read " 60m ").toOption.map write = some "1h" ∧ (read "1500ms").toOption.map write
    = some "1500a" := by decide +kernel

end Duration

end Historian
