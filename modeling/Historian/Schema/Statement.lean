import Historian.Catalog.Basic
import Historian.Digest.Sha256
import Historian.Schema.Desired

/-!
The statements that make and alter the tables of a category. Every name is checked before it goes
into a statement, and the same category and signals always give the same text, so that the digest of
the text stands for the schema.
-/
namespace Historian

namespace CategoryKey

/-- The name of an asset's child table. -/
def childTableName (k : CategoryKey) (asset : String) : String := s!"{k.superTableName}_{asset}"

/-- The child table of an asset. -/
def childTable (k : CategoryKey) (asset : String) : TableName :=
  ⟨k.database, k.childTableName asset⟩

end CategoryKey

namespace Schema

/-- A column as statements define it. -/
def writeColumn (c : Column) : String := s!"{Sql.name c.name} {c.type.write}"

def writeColumns (columns : List Column) : String := ", ".intercalate (columns.map writeColumn)

/-- The statement that makes a database. -/
def databaseStatement (database : String) : Except Invalid String := do
  requireIdentifier "database" database
  return s!"CREATE DATABASE IF NOT EXISTS {Sql.name database} PRECISION 'ms'"

/-- The text of the statement that makes a super-table. -/
def superTableText (table : TableName) (schema : TableSchema) : String :=
  "CREATE STABLE IF NOT EXISTS " ++ table.write ++ " (" ++ writeColumns schema.columns ++
    ") TAGS (" ++ writeColumns schema.tags ++ ")"

/-- The statement that makes the super-table of a category. -/
def superTableStatement (k : CategoryKey) (signals : List SignalSpec) : Except Invalid String := do
  k.check
  (storedSignals signals).forM fun s => requireSignalCode s.code
  return superTableText k.superTable (desired signals)

/-- The statement that makes the child table of an asset. -/
def childTableStatement (k : CategoryKey) (asset : String) (id : Int) : Except Invalid String := do
  k.check
  requireIdentifier "asset" asset
  requireTableName (k.childTableName asset)
  return "CREATE TABLE IF NOT EXISTS " ++ (k.childTable asset).write ++ " USING " ++
    k.superTable.write ++ " TAGS (" ++ toString id ++ ", " ++ Sql.literal asset ++ ")"

/-- The statement that gives a category's super-table one more column. -/
def addColumnStatement (k : CategoryKey) (column : Column) : Except Invalid String := do
  k.check
  requireSignalCode column.name
  return s!"ALTER STABLE {k.superTable.write} ADD COLUMN {writeColumn column}"

/-- The statement that gives a column of a category's super-table another type. -/
def modifyColumnStatement (k : CategoryKey) (column : Column) : Except Invalid String := do
  k.check
  requireSignalCode column.name
  return s!"ALTER STABLE {k.superTable.write} MODIFY COLUMN {writeColumn column}"

/-- The digest of the statement that makes a super-table. -/
def fingerprint (superTableStatement : String) : String := Sha256.hex superTableStatement

end Schema

end Historian
