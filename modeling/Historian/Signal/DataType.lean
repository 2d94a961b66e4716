import Historian.Text.Case

/-!
The declared type of a signal's values. Types may only be widened once values are stored, and the
one proper widening is from integers to numbers.
-/
namespace Historian

/-- What the values of a signal are. -/
inductive DataType
  | numeric | integer | boolean | string | timestamp
deriving DecidableEq, Repr

namespace DataType

def all : List DataType := [.numeric, .integer, .boolean, .string, .timestamp]

def name : DataType → String
  | .numeric => "numeric"
  | .integer => "integer"
  | .boolean => "boolean"
  | .string => "string"
  | .timestamp => "timestamp"

/-- The type of exactly that name. -/
def ofName? (s : String) : Option DataType := all.find? (·.name == s)

/-- The type of a name or one of its synonyms, in any letter case. -/
def ofSynonym? (s : String) : Option DataType :=
  match s.toLower with
  | "numeric" | "float" | "double" => some .numeric
  | "integer" | "int" => some .integer
  | "boolean" | "bool" => some .boolean
  | "string" | "text" => some .string
  | "timestamp" => some .timestamp
  | _ => none

/-- Whether all values of the one type are values of the other. -/
def widens (a b : DataType) : Bool :=
  a == b || (a == .integer && b == .numeric)

def isNumeric (t : DataType) : Bool := t == .numeric || t == .integer

@[simp] theorem widens_refl (t : DataType) : widens t t := by
  simp [widens]

theorem widens_trans {a b c : DataType} (h : widens a b) (h' : widens b c) : widens a c := by
  cases a <;> cases b <;> cases c <;> simp_all [widens]

theorem ofName?_name (t : DataType) : ofName? t.name = some t := by
  cases t <;> decide

end DataType

end Historian
