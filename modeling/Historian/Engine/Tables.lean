import Std.Data.ExtTreeSet
import Historian.Engine.Error
import Historian.Sql.Statement

/-!
What an engine holds: databases, super-tables, the child tables bound to them, streams, and the
tables that streams write. `run` answers with the whole state after a statement or with a refusal,
so a refused statement has no effect. What an engine holds is a set of maps, equal when they have
the same entries, in whichever order these came.
-/
namespace Historian.Engine

/-- A table bound to a super-table of the given name. -/
structure ChildTable where
  superTable : String
  tags : List String
deriving DecidableEq, Repr, Inhabited

/-- A query that goes on writing the rows of a source into a target. -/
structure Stream where
  sql : String
  target : TableName
  source : TableName
  paused : Bool
deriving DecidableEq, Repr, Inhabited

structure Tables where
  databases : Std.ExtTreeSet String := ∅
  superTables : Std.ExtTreeMap TableName TableSchema := ∅
  childTables : Std.ExtTreeMap TableName ChildTable := ∅
  streams : Std.ExtTreeMap String Stream := ∅
  /-- The tables that streams have ever written. -/
  derived : Std.ExtTreeSet TableName := ∅

/-- Why a statement is refused. -/
inductive Refusal
  | syntaxFault (fault : Sql.SyntaxFault)
  | noTimestamp
  | noTags
  | duplicateColumn (name : String)
  | tagCount (expected given : Nat)
  | databaseMissing (name : String)
  | databaseExists (name : String)
  | superTableMissing (name : String)
  | superTableExists (name : String)
  | columnMissing (name : String)
  | columnExists (name : String)
  | narrowing (name : String) (old new : ColumnType)
  | tableMissing (name : String)
  | tableExists (name : String)
  | streamMissing (name : String)
  | streamExists (name : String)
deriving Repr

namespace Refusal

def code : Refusal → EngineCode
  | .syntaxFault _ | .noTimestamp | .noTags | .duplicateColumn _ | .tagCount .. =>
    EngineCode.syntaxError
  | .databaseMissing _ => EngineCode.databaseMissing
  | .databaseExists _ => EngineCode.databaseExists
  | .superTableMissing _ => EngineCode.superTableMissing
  | .superTableExists _ => EngineCode.superTableExists
  | .columnMissing _ => EngineCode.columnMissing
  | .columnExists _ => EngineCode.columnExists
  | .narrowing .. => EngineCode.invalidAlter
  | .tableMissing _ => EngineCode.tableMissing
  | .tableExists _ => EngineCode.tableExists
  | .streamMissing _ => EngineCode.streamMissing
  | .streamExists _ => EngineCode.streamExists

def message : Refusal → String
  | .syntaxFault fault => fault.message
  | .noTimestamp => "first column must be a TIMESTAMP"
  | .noTags => "a super-table needs at least one tag"
  | .duplicateColumn name => s!"duplicated column name: {name}"
  | .tagCount expected given => s!"expected {expected} tag values, got {given}"
  | .databaseMissing name => s!"Database not exist: {name}"
  | .databaseExists name => s!"Database already exists: {name}"
  | .superTableMissing name => s!"STable not exist: {name}"
  | .superTableExists name => s!"STable already exists: {name}"
  | .columnMissing name => s!"Column does not exist: {name}"
  | .columnExists name => s!"Column already exists: {name}"
  | .narrowing name old new =>
    s!"Invalid alter: cannot change {name} from {old.write} to {new.write}"
  | .tableMissing name => s!"Table does not exist: {name}"
  | .tableExists name => s!"Table already exists: {name}"
  | .streamMissing name => s!"Stream not exist: {name}"
  | .streamExists name => s!"Stream already exists: {name}"

/-- The refusal as the engine reports it. -/
def error (r : Refusal) : EngineError := .rejected r.code r.message

end Refusal

/-- The first column whose name an earlier one has, letter case apart. -/
def firstDuplicate (seen : List String) : List Column → Option String
  | [] => none
  | c :: cs =>
    if c.name.toLower ∈ seen then some c.name else firstDuplicate (c.name.toLower :: seen) cs

/-- Gives the column of that name, letter case apart, a new type. -/
def retype (name : String) (type : ColumnType) : List Column → List Column
  | [] => []
  | c :: cs =>
    if Text.sameIgnoringCase c.name name then { c with type } :: cs else c :: retype name type cs

namespace Tables

/-- Whether a table can be read by a stream. -/
def hasTable (t : Tables) (table : TableName) : Bool :=
  t.superTables.contains table || t.childTables.contains table || t.derived.contains table

def requireDatabase (t : Tables) (name : String) : Except Refusal Unit :=
  if t.databases.contains name then .ok () else .error (.databaseMissing name)

def createDatabase (t : Tables) (ifNotExists : Bool) (name : String) : Except Refusal Tables :=
  if t.databases.contains name then
    if ifNotExists then .ok t else .error (.databaseExists name)
  else .ok { t with databases := t.databases.insert name }

/-- What a super-table must be like to be created: the first column holds times, there is a tag, and
no two names are the same. -/
def requireWellFormed (schema : TableSchema) : Except Refusal Unit := do
  if schema.columns.head?.map (·.type) ≠ some .timestamp then throw .noTimestamp
  if schema.tags.isEmpty then throw .noTags
  match firstDuplicate [] (schema.columns ++ schema.tags) with
  | some name => throw (.duplicateColumn name)
  | none => return ()

def createSuperTable (t : Tables) (ifNotExists : Bool) (name : TableName) (schema : TableSchema) :
    Except Refusal Tables := do
  t.requireDatabase name.database
  requireWellFormed schema
  if t.superTables.contains name then
    if ifNotExists then return t else throw (.superTableExists name.table)
  return { t with superTables := t.superTables.insert name schema }

/-- The super-table of that name. -/
def superTable (t : Tables) (name : TableName) : Except Refusal TableSchema :=
  match t.superTables[name]? with
  | some schema => .ok schema
  | none => .error (.superTableMissing name.table)

def addColumn (t : Tables) (name : TableName) (column : Column) : Except Refusal Tables := do
  let schema ← t.superTable name
  if (schema.column? column.name).isSome || (schema.tag? column.name).isSome then
    throw (.columnExists column.name)
  let columns := schema.columns ++ [column]
  return { t with superTables := t.superTables.insert name { schema with columns } }

def modifyColumn (t : Tables) (name : TableName) (column : Column) : Except Refusal Tables := do
  let schema ← t.superTable name
  match schema.column? column.name with
  | none => throw (.columnMissing column.name)
  | some old =>
    if !old.type.widens column.type then throw (.narrowing column.name old.type column.type)
    let columns := retype column.name column.type schema.columns
    return { t with superTables := t.superTables.insert name { schema with columns } }

def createChildTable (t : Tables) (ifNotExists : Bool) (name superTable : TableName)
    (tags : List String) : Except Refusal Tables := do
  t.requireDatabase name.database
  let schema ← t.superTable superTable
  if schema.tags.length ≠ tags.length then throw (.tagCount schema.tags.length tags.length)
  if t.childTables.contains name then
    if ifNotExists then return t else throw (.tableExists name.table)
  return { t with childTables := t.childTables.insert name ⟨superTable.table, tags⟩ }

def createStream (t : Tables) (sql : String) (ifNotExists : Bool) (name : String)
    (target source : TableName) : Except Refusal Tables := do
  t.requireDatabase target.database
  if !t.hasTable source then throw (.tableMissing source.table)
  if t.streams.contains name then
    if ifNotExists then return t else throw (.streamExists name)
  return { t with
    derived := t.derived.insert target
    streams := t.streams.insert name ⟨sql, target, source, false⟩ }

def setPaused (t : Tables) (ifExists : Bool) (name : String) (paused : Bool) :
    Except Refusal Tables :=
  match t.streams[name]? with
  | some stream => .ok { t with streams := t.streams.insert name { stream with paused } }
  | none => if ifExists then .ok t else .error (.streamMissing name)

def dropStream (t : Tables) (ifExists : Bool) (name : String) : Except Refusal Tables :=
  if t.streams.contains name then .ok { t with streams := t.streams.erase name }
  else if ifExists then .ok t else .error (.streamMissing name)

/-- What a statement does; a stream keeps the text it was made with. -/
def perform (t : Tables) (sql : String) : Sql.Statement → Except Refusal Tables
  | .createDatabase ifNotExists name => t.createDatabase ifNotExists name
  | .createSuperTable ifNotExists name schema => t.createSuperTable ifNotExists name schema
  | .addColumn name column => t.addColumn name column
  | .modifyColumn name column => t.modifyColumn name column
  | .createChildTable ifNotExists name superTable tags =>
    t.createChildTable ifNotExists name superTable tags
  | .createStream ifNotExists name target source =>
    t.createStream sql ifNotExists name target source
  | .setPaused ifExists name paused => t.setPaused ifExists name paused
  | .dropStream ifExists name => t.dropStream ifExists name

/-- Runs the text of a statement. -/
def run (t : Tables) (sql : String) : Except Refusal Tables :=
  match Sql.Statement.parse sql with
  | .ok statement => t.perform sql statement
  | .error fault => .error (.syntaxFault fault)

/-- The columns and tags of a table. A child table is described by the super-table of its own
database; of a table that a stream writes, only the time is known. -/
def describe (t : Tables) (table : TableName) : Option TableSchema :=
  match t.superTables[table]? with
  | some schema => some schema
  | none =>
    match t.childTables[table]? with
    | some child => t.superTables[TableName.mk table.database child.superTable]?
    | none => if t.derived.contains table then some ⟨[⟨"ts", .timestamp⟩], []⟩ else none

end Tables

end Historian.Engine
