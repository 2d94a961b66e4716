import Historian.Signal.DataType

/-!
The functions that a feature may aggregate a signal with. The list is closed: a name outside it is
refused before any statement is made.
-/
namespace Historian

/-- An aggregation over a window. -/
inductive Aggregate
  | avg | min | max | sum | count | first | last | stddev
deriving DecidableEq, Repr

namespace Aggregate

def all : List Aggregate := [.avg, .min, .max, .sum, .count, .first, .last, .stddev]

def name : Aggregate → String
  | .avg => "avg"
  | .min => "min"
  | .max => "max"
  | .sum => "sum"
  | .count => "count"
  | .first => "first"
  | .last => "last"
  | .stddev => "stddev"

/-- The name in statements. -/
def sqlName (f : Aggregate) : String := f.name.toUpper

/-- The function of exactly that name. -/
def ofName? (s : String) : Option Aggregate := all.find? (·.name == s)

/-- The function of that name in any letter case. -/
def ofAnyCase? (s : String) : Option Aggregate := all.find? fun f => Text.sameIgnoringCase f.name s

/-- Whether the function can aggregate values of a type. -/
def accepts (f : Aggregate) (t : DataType) : Bool :=
  match f with
  | .avg | .sum | .stddev => t.isNumeric
  | .min | .max => t != .string && t != .boolean
  | .count | .first | .last => true

theorem ofName?_name (f : Aggregate) : ofName? f.name = some f := by
  cases f <;> decide

end Aggregate

end Historian
