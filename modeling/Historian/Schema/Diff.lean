import Historian.Schema.Desired

/-!
What an existing super-table lacks of the desired one. Every column of a stored signal is either
right as it is, missing, of a type that can be widened, or in conflict; columns that no signal asks
for are left alone.
-/
namespace Historian.Schema

/-- A column that needs a wider type. -/
structure Widening where
  name : String
  old : ColumnType
  new : ColumnType
deriving DecidableEq, Repr

/-- Why a signal cannot get its column. -/
inductive Conflict
  | isTag
  | wrongType (existing desired : ColumnType)
deriving DecidableEq, Repr

def Conflict.message (signal : String) : Conflict → String
  | .isTag => s!"'{signal}' is a tag of the super-table"
  | .wrongType existing desired =>
    s!"column is {existing.write} in the engine and cannot become {desired.write}"

/-- What an existing super-table lacks. -/
structure Diff where
  missing : List Column := []
  widenings : List Widening := []
  conflicts : List (String × Conflict) := []
deriving DecidableEq, Repr

/-- What an existing super-table lacks of one column. -/
inductive Lack
  | nothing
  | column
  | width (existing : ColumnType)
  | conflict (c : Conflict)
deriving DecidableEq, Repr

/-- What the super-table lacks of a desired column. -/
def lackOf (existing : TableSchema) (c : Column) : Lack :=
  if (existing.tag? c.name).isSome then .conflict .isTag
  else match existing.column? c.name with
    | none => .column
    | some old =>
      if old.type = c.type then .nothing
      else if old.type.widens c.type then .width old.type
      else .conflict (.wrongType old.type c.type)

namespace Diff

def isEmpty (d : Diff) : Bool := d.missing.isEmpty && d.widenings.isEmpty && d.conflicts.isEmpty

/-- The lacks of all columns, each kind in the order of the columns. -/
def ofColumns (existing : TableSchema) (columns : List Column) : Diff where
  missing := columns.filter fun c => lackOf existing c = .column
  widenings := columns.filterMap fun c =>
    match lackOf existing c with
    | .width old => some ⟨c.name, old, c.type⟩
    | _ => none
  conflicts := columns.filterMap fun c =>
    match lackOf existing c with
    | .conflict why => some (c.name, why)
    | _ => none

end Diff

/-- What an existing super-table lacks of what the signals ask for. -/
def diff (existing : TableSchema) (signals : List SignalSpec) : Diff :=
  .ofColumns existing (signalColumns signals)

end Historian.Schema
