import Historian.Decimal.Power
import Historian.Text.Blank
import Historian.Text.Case
import Historian.Text.Numeral

/-!
Columns of engine tables. A super-table has data columns and tags, each with a name and a type; the
engine does not tell names apart that differ in ASCII letter case only.
-/
namespace Historian

/-- The type of a column in the engine; texts have a greatest length in bytes. -/
inductive ColumnType
  | timestamp | double | bigint | bool
  | varchar (length : Nat)
deriving DecidableEq, Repr, Inhabited

namespace ColumnType

/-- The greatest length that a text column can have. -/
def maxLength : Nat := 65535

/-- The type as statements spell it. -/
def write : ColumnType → String
  | .timestamp => "TIMESTAMP"
  | .double => "DOUBLE"
  | .bigint => "BIGINT"
  | .bool => "BOOL"
  | .varchar length => s!"VARCHAR({length})"

/-- The type of a name in any letter case and a length, which counts for texts only. -/
def ofParts? (name : String) (length : Nat) : Option ColumnType :=
  match name.toUpper with
  | "TIMESTAMP" => some .timestamp
  | "DOUBLE" => some .double
  | "BIGINT" => some .bigint
  | "BOOL" => some .bool
  | "VARCHAR" | "BINARY" | "NCHAR" => if length ≤ maxLength then some (.varchar length) else none
  | _ => none

/-- Whether a column can be altered to the other type without losing stored values. -/
def widens (a b : ColumnType) : Bool :=
  a == b || match a, b with
    | .bigint, .double => true
    | .varchar n, .varchar m => n ≤ m
    | _, _ => false

@[simp] theorem widens_refl (t : ColumnType) : widens t t := by
  simp [widens]

theorem widens_trans {a b c : ColumnType} (h : widens a b) (h' : widens b c) : widens a c := by
  cases a <;> cases b <;> cases c <;> grind [widens]

/-- Why a text is no column type; the text is the trimmed one. -/
inductive ReadFault
  | unclosed (text : String)
  | badLength (text : String)
  | unsupported (text : String)
deriving DecidableEq, Repr

def ReadFault.message : ReadFault → String
  | .unclosed text => s!"bad column type '{text}'"
  | .badLength text => s!"bad column length in '{text}'"
  | .unsupported text => s!"unsupported column type '{text}'"

/-- Reads a type as statements spell it; the length stands in parentheses and fits 64 bits. -/
def read (s : String) : Except ReadFault ColumnType :=
  let cs := Text.trimBlanks s.toList
  let text := String.ofList cs
  let name := cs.takeWhile (· != '(')
  let typed (length : Nat) : Except ReadFault ColumnType :=
    match ofParts? (String.ofList (Text.trimBlanks name)) length with
    | some t => .ok t
    | none => .error (.unsupported text)
  match cs.dropWhile (· != '(') with
  | [] => typed 0
  | _ :: inner =>
    if inner.getLast? ≠ some ')' then .error (.unclosed text)
    else match Numeral.readSigned? (Text.trimBlanks inner.dropLast) with
      | some length => if length < wordEnd then typed length else .error (.badLength text)
      | none => .error (.badLength text)

end ColumnType

/-- A column or tag of a table. -/
structure Column where
  name : String
  type : ColumnType
deriving DecidableEq, Repr, Inhabited

/-- The data columns and tags of a super-table, in the engine's order. -/
structure TableSchema where
  columns : List Column := []
  tags : List Column := []
deriving DecidableEq, Repr, Inhabited

/-- The first column of a list with that name, letter case apart. -/
def findColumn (columns : List Column) (name : String) : Option Column :=
  columns.find? fun c => Text.sameIgnoringCase c.name name

namespace TableSchema

def column? (s : TableSchema) (name : String) : Option Column := findColumn s.columns name

def tag? (s : TableSchema) (name : String) : Option Column := findColumn s.tags name

end TableSchema

end Historian
