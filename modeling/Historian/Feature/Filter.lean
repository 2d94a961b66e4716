import Historian.Invalid
import Historian.Sql.Quote

/-!
Filters of a feature: comparisons of a column with a number, a text or a truth value. The filters of
a feature hold all together, so neither their order nor a repetition means anything; the canonical
list is in one order and without repetitions.
-/
namespace Historian

inductive FilterOp
  | eq | ne | gt | ge | lt | le
deriving DecidableEq, Repr

namespace FilterOp

def all : List FilterOp := [.eq, .ne, .gt, .ge, .lt, .le]

/-- The operator in statements and canonical documents. -/
def symbol : FilterOp → String
  | .eq => "="
  | .ne => "!="
  | .gt => ">"
  | .ge => ">="
  | .lt => "<"
  | .le => "<="

/-- The operator of exactly that symbol. -/
def ofSymbol? (s : String) : Option FilterOp := all.find? (·.symbol == s)

/-- Reads an operator, blanks around it apart; equality and its negation have a second spelling. -/
def read (s : String) : Except Invalid FilterOp :=
  match Text.trim s with
  | "==" => .ok .eq
  | "<>" => .ok .ne
  | t =>
    match ofSymbol? t with
    | some op => .ok op
    | none => .error (.badField "filters" (.unknownOperator t))

/-- The place of an operator in the canonical order. -/
def rank : FilterOp → Nat
  | .eq => 0
  | .ne => 1
  | .gt => 2
  | .ge => 3
  | .lt => 4
  | .le => 5

end FilterOp

/-- What a column is compared with. -/
inductive FilterValue
  | bool (value : Bool)
  | number (value : Json.Number)
  | text (value : String)
deriving DecidableEq, Repr

namespace FilterValue

def ofJson? : Json → Option FilterValue
  | .bool b => some (.bool b)
  | .number n => some (.number n)
  | .text s => some (.text s)
  | _ => none

def toJson : FilterValue → Json
  | .bool b => .bool b
  | .number n => .number n
  | .text s => .text s

theorem ofJson?_toJson (v : FilterValue) : ofJson? v.toJson = some v := by
  cases v <;> rfl

/-- The value as a comparison in a statement shows it. -/
def write : FilterValue → String
  | .bool b => if b then "true" else "false"
  | .number n => n.write
  | .text s => Sql.literal s

/-- Equality, numbers of one kind being compared by their values. -/
def same : FilterValue → FilterValue → Bool
  | .bool a, .bool b => a == b
  | .number a, .number b => a.same b
  | .text a, .text b => a == b
  | _, _ => false

def rank : FilterValue → Nat
  | .bool _ => 0
  | .number _ => 1
  | .text _ => 2

/-- The canonical order: truth values, then numbers by size and then by their text, then texts. -/
def compare : FilterValue → FilterValue → Ordering
  | .bool a, .bool b => Ord.compare a b
  | .number a, .number b =>
    (Ord.compare a.toReal.totalKey b.toReal.totalKey).then (Ord.compare a.write b.write)
  | .text a, .text b => Ord.compare a b
  | a, b => Ord.compare a.rank b.rank

end FilterValue

/-- A comparison that the rows of a feature must pass. -/
structure Filter where
  field : String
  op : FilterOp
  value : FilterValue
deriving DecidableEq, Repr

namespace Filter

def compare (a b : Filter) : Ordering :=
  (Ord.compare a.field b.field).then
    ((Ord.compare a.op.rank b.op.rank).then (a.value.compare b.value))

def same (a b : Filter) : Bool := a.field == b.field && a.op == b.op && a.value.same b.value

/-- The filters in their order, without repetitions. -/
def canonical (filters : List Filter) : List Filter :=
  (filters.mergeSort fun a b => (compare a b).isLE).eraseRepsBy same

def toJson (f : Filter) : Json :=
  .ofMembers [("field", .text f.field), ("op", .text f.op.symbol), ("value", f.value.toJson)]

/-- A value that columns can be compared with. -/
def readValue (v : Json) : Except Invalid FilterValue :=
  match FilterValue.ofJson? v with
  | some value => .ok value
  | none => .error (.badField "filters" (.filterValue v))

/-- Reads a filter that is written as a clause; without an operator it is an equality. -/
def ofClause (item : Json) : Except Invalid Filter := do
  let .object members := item | throw (.badField "filters" .filterNotObject)
  match members.find? fun m => m.1 ∉ ["field", "op", "value"] with
  | some unknown => throw (.unknownField s!"filters.{unknown.1}")
  | none => pure ()
  let some (.text field) := item.member? "field" | throw (.missingField "filters.field")
  let op ←
    match item.member? "op" with
    | none => pure .eq
    | some (.text op) => FilterOp.read op
    | some _ => throw (.badField "filters.op" .operatorNotText)
  let some v := item.member? "value" | throw (.missingField "filters.value")
  return ⟨field, op, ← readValue v⟩

/-- Reads filters: a list of clauses, or an object of fields and the values they equal. -/
def listOfJson : Json → Except Invalid (List Filter)
  | .null => .ok []
  | .object members => members.mapM fun m => return ⟨m.1, .eq, ← readValue m.2⟩
  | .list items => items.mapM ofClause
  | _ => .error (.badField "filters" .filtersShape)

/-- Reads filters into the canonical list; their fields must be identifiers. -/
def readAll (raw : Json) : Except Invalid (List Filter) := do
  let filters ← listOfJson raw
  filters.forM fun f => requireIdentifier "filter field" f.field
  return canonical filters

end Filter

end Historian
