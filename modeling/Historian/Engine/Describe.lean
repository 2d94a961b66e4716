import Historian.Engine.Error
import Historian.Json.Value

/-!
What an engine says about a table. Every row has a field, a type, a length and a note; a note of
`TAG` marks a tag. A length that is no natural number counts as zero.
-/
namespace Historian.TableSchema

/-- The column of a row, and whether it is a tag. -/
def rowColumn (row : List Json) : Except AnswerFault (Bool × Column) := do
  let some field := row[0]?.bind Json.text? | throw .rowWithoutField
  let some type := row[1]?.bind Json.text? | throw .rowWithoutType
  let length := (row[2]?.bind Json.nat64?).getD 0
  let isTag := (row[3]?.bind Json.text?).any (Text.sameIgnoringCase · "TAG")
  match ColumnType.ofParts? type length with
  | some t => return (isTag, ⟨field, t⟩)
  | none => throw (.unsupportedType type field)

/-- The schema with one more column or tag at the end. -/
def push (s : TableSchema) (isTag : Bool) (c : Column) : TableSchema :=
  if isTag then { s with tags := s.tags ++ [c] } else { s with columns := s.columns ++ [c] }

/-- The schema that the rows of a description give. -/
def ofRows (rows : List (List Json)) : Except AnswerFault TableSchema :=
  rows.foldlM (fun s row => do
    let (isTag, c) ← rowColumn row
    return s.push isTag c) {}

end Historian.TableSchema
