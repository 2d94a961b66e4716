import Historian.Engine.Tables

/-!
How an engine runs a statement. The tokens are taken one by one, and what the statement changes is
changed in place as soon as it is reached, so that a refusal that came after a change would leave
the change behind. `Tables.run` says the same of whole states.
-/
namespace Historian.Engine

open Sql

/-- Steps that take tokens, may refuse the statement, and change what the engine holds. -/
abbrev Execution (α : Type) := StateT (List Token) (ExceptT Refusal (StateM Tables)) α

namespace Execution

/-- Takes tokens. -/
def reads (r : Reading α) : Execution α := fun ts =>
  match r ts with
  | .ok p => pure p
  | .error fault => throw (.syntaxFault fault)

/-- What the engine holds at this moment. -/
def tables : Execution Tables := StateT.lift get

/-- Changes what the engine holds. -/
def update (f : Tables → Tables) : Execution Unit := StateT.lift (modify f)

/-- Goes on if the state at this moment allows it. -/
def require (check : Tables → Except Refusal α) : Execution α := do
  match check (← tables) with
  | .ok a => return a
  | .error refusal => throw refusal

/-- Adds a database; the answer is whether it was not there. -/
def insertDatabase (name : String) : Execution Bool := do
  let there := (← tables).databases.contains name
  update fun t => { t with databases := t.databases.insert name }
  return !there

def putSchema (name : TableName) (schema : TableSchema) : Execution Unit :=
  update fun t => { t with superTables := t.superTables.insert name schema }

def putStream (name : String) (stream : Stream) : Execution Unit :=
  update fun t => { t with streams := t.streams.insert name stream }

/-- Takes a stream away; the answer is whether it was there. -/
def removeStream (name : String) : Execution Bool := do
  let there := (← tables).streams.contains name
  update fun t => { t with streams := t.streams.erase name }
  return there

def createDatabase : Execution Unit := do
  let ifNotExists ← reads (.keywords? ["IF", "NOT", "EXISTS"])
  let name ← reads .name
  let isNew ← insertDatabase name
  if !isNew && !ifNotExists then throw (.databaseExists name)

def createSuperTable : Execution Unit := do
  let ifNotExists ← reads (.keywords? ["IF", "NOT", "EXISTS"])
  let name ← reads .tableName
  let columns ← reads .columns
  reads (.keyword "TAGS")
  let tags ← reads .columns
  reads .finish
  require (·.requireDatabase name.database)
  require fun _ => Tables.requireWellFormed ⟨columns, tags⟩
  if (← tables).superTables.contains name then
    if ifNotExists then return
    throw (.superTableExists name.table)
  putSchema name ⟨columns, tags⟩

def alterSuperTable : Execution Unit := do
  let name ← reads .tableName
  let adds ← reads (.keyword? "ADD")
  if !adds then
    if !(← reads (.keyword? "MODIFY")) then throw (.syntaxFault .noAlteration)
  reads (.keyword "COLUMN")
  let column ← reads .column
  reads .finish
  let schema ← require (·.superTable name)
  if adds then
    if (schema.column? column.name).isSome || (schema.tag? column.name).isSome then
      throw (.columnExists column.name)
    putSchema name { schema with columns := schema.columns ++ [column] }
  else
    let some old := schema.column? column.name | throw (.columnMissing column.name)
    if !old.type.widens column.type then throw (.narrowing column.name old.type column.type)
    putSchema name { schema with columns := retype column.name column.type schema.columns }

def createChildTable : Execution Unit := do
  let ifNotExists ← reads (.keywords? ["IF", "NOT", "EXISTS"])
  let name ← reads .tableName
  reads (.keyword "USING")
  let superTable ← reads .tableName
  reads (.keyword "TAGS")
  let tags ← reads .tagValues
  reads .finish
  require (·.requireDatabase name.database)
  let schema ← require (·.superTable superTable)
  if schema.tags.length ≠ tags.length then throw (.tagCount schema.tags.length tags.length)
  if (← tables).childTables.contains name then
    if ifNotExists then return
    throw (.tableExists name.table)
  update fun t => { t with childTables := t.childTables.insert name ⟨superTable.table, tags⟩ }

/-- `sql` is the whole statement, which the stream keeps. -/
def createStream (sql : String) : Execution Unit := do
  let ifNotExists ← reads (.keywords? ["IF", "NOT", "EXISTS"])
  let name ← reads .name
  reads (.past "INTO" .noTarget)
  let target ← reads .tableName
  reads (.keyword "AS")
  reads (.keyword "SELECT")
  reads (.past "FROM" .noSource)
  let source ← reads .tableName
  require (·.requireDatabase target.database)
  if !(← tables).hasTable source then throw (.tableMissing source.table)
  if (← tables).streams.contains name then
    if ifNotExists then return
    throw (.streamExists name)
  update fun t => { t with derived := t.derived.insert target }
  putStream name ⟨sql, target, source, false⟩

def setPaused (paused : Bool) : Execution Unit := do
  let ifExists ← reads (.keywords? ["IF", "EXISTS"])
  let _ ← reads (.keywords? ["IGNORE", "UNTREATED"])
  let name ← reads .name
  reads .finish
  match (← tables).streams[name]? with
  | some stream => putStream name { stream with paused }
  | none => if !ifExists then throw (.streamMissing name)

def dropStream : Execution Unit := do
  let ifExists ← reads (.keywords? ["IF", "EXISTS"])
  let name ← reads .name
  reads .finish
  let there ← removeStream name
  if !there && !ifExists then throw (.streamMissing name)

def create (sql : String) : Execution Unit := do
  if ← reads (.keyword? "DATABASE") then createDatabase
  else if ← reads (.keyword? "STABLE") then createSuperTable
  else if ← reads (.keyword? "TABLE") then createChildTable
  else if ← reads (.keyword? "STREAM") then createStream sql
  else throw (.syntaxFault .unknownCreate)

/-- The steps of a statement; `sql` is the whole of it. -/
def statement (sql : String) : Execution Unit := do
  if ← reads (.keyword? "CREATE") then create sql
  else if ← reads (.keyword? "ALTER") then reads (.keyword "STABLE"); alterSuperTable
  else if ← reads (.keyword? "PAUSE") then reads (.keyword "STREAM"); setPaused true
  else if ← reads (.keyword? "RESUME") then reads (.keyword "STREAM"); setPaused false
  else if ← reads (.keyword? "DROP") then reads (.keyword "STREAM"); dropStream
  else throw (.syntaxFault (.unknownStatement sql))

end Execution

/-- Runs the text of a statement in place: the answer, and what the engine holds then. -/
def Tables.apply (t : Tables) (sql : String) : Except Refusal Unit × Tables :=
  match tokenize sql with
  | .ok ts =>
    let (answer, t) := (Execution.statement sql ts).run t
    (answer.map fun _ => (), t)
  | .error fault => (.error (.syntaxFault (.lexical sql fault)), t)

end Historian.Engine
