import Historian.Engine.Column
import Historian.Wire.Record

/-!
Columns and schemas as JSON values. A type is its name; that of texts carries its length.
-/
namespace Historian

namespace ColumnType

/-- The types without a length, by their names. -/
def ofWireName? : String → Option ColumnType
  | "Timestamp" => some .timestamp
  | "Double" => some .double
  | "BigInt" => some .bigint
  | "Bool" => some .bool
  | _ => none

def ofJson? : Json → Option ColumnType
  | .object [("Varchar", n)] => (Wire.intBetween 0 maxLength n).map fun n => .varchar n.toNat
  | v => Wire.named ofWireName? v

def toJson : ColumnType → Json
  | .timestamp => .text "Timestamp"
  | .double => .text "Double"
  | .bigint => .text "BigInt"
  | .bool => .text "Bool"
  | .varchar length => .ofMembers [("Varchar", .nat length)]

end ColumnType

namespace Column

def ofJson? (v : Json) : Option Column := do
  let r ← Wire.Record.ofJson? ["name", "column_type"] v
  return ⟨← r.required "name" Json.text?, ← r.required "column_type" ColumnType.ofJson?⟩

def toJson (c : Column) : Json :=
  .ofMembers [("name", .text c.name), ("column_type", c.type.toJson)]

end Column

namespace TableSchema

def ofJson? (v : Json) : Option TableSchema := do
  let r ← Wire.Record.ofJson? ["columns", "tags"] v
  return ⟨← r.required "columns" (Wire.listOf Column.ofJson?),
    ← r.required "tags" (Wire.listOf Column.ofJson?)⟩

def toJson (s : TableSchema) : Json :=
  .ofMembers [("columns", .list (s.columns.map Column.toJson)),
    ("tags", .list (s.tags.map Column.toJson))]

end TableSchema

end Historian
