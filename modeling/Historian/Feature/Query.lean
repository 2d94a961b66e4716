import Historian.Catalog.Basic
import Historian.Feature.Config

/-!
The stream that computes a feature. Its name carries the generation of the feature, so that every
generation has a stream of its own, while all of them write the same table. Before a feature becomes
a query, its columns are checked against the signals of the category.
-/
namespace Historian

/-- A query and the names that belong to it. -/
structure CompiledStream where
  streamName : String
  targetTable : String
  generation : Int
  sql : String
deriving DecidableEq, Repr

namespace CompiledStream

/-- The name of the stream of one generation of a feature. -/
def nameOf (category feature : String) (generation : Int) : String :=
  s!"fs_{category}_{feature}_g{generation}"

/-- The table that the streams of a feature write. -/
def targetOf (category feature : String) : String := s!"feat_{category}_{feature}"

def writeFilter (f : Filter) : String :=
  s!"{Sql.name f.field} {f.op.symbol} {f.value.write}"

/-- The condition of a query; empty without filters. -/
def writeCondition (filters : List Filter) : String :=
  if filters.isEmpty then "" else " WHERE " ++ " AND ".intercalate (filters.map writeFilter)

/-- The text of the statement that makes the stream. -/
def statement (database stream target source : String) (c : FeatureConfig) : String :=
  "CREATE STREAM IF NOT EXISTS " ++ Sql.name stream ++ " TRIGGER WINDOW_CLOSE INTO " ++
    Sql.qualified database target ++ " AS SELECT _wstart AS ts, " ++
    c.function.sqlName ++ "(" ++ Sql.name c.signal ++ ") AS " ++ Sql.name c.name ++
    " FROM " ++ Sql.qualified database source ++ writeCondition c.filters ++
    " PARTITION BY " ++ ", ".intercalate ((FeatureConfig.groupTag :: c.groupBy).map Sql.name) ++
    " INTERVAL(" ++ c.window.write ++ ") SLIDING(" ++ c.slide.write ++ ")"

/-- The stream of a generation of a feature. -/
def ofFeature (k : CategoryKey) (c : FeatureConfig) (generation : Int) :
    Except Invalid CompiledStream := do
  if generation < 1 then throw (.badField "generation" .notPositive)
  let streamName := nameOf k.code c.name generation
  let targetTable := targetOf k.code c.name
  let source := c.sourceTable.getD k.superTableName
  requireTableName streamName
  requireTableName targetTable
  requireTableName source
  return { streamName, targetTable, generation
           sql := statement k.database streamName targetTable source c }

end CompiledStream

namespace FeatureConfig

/-- The tags that every super-table has. -/
def tags : List String := ["asset_id", "asset_code"]

/-- The first signal of that code, letter case apart. -/
def findSignal (signals : List SignalSpec) (code : String) : Option SignalSpec :=
  signals.find? fun s => Text.sameIgnoringCase s.code code

/-- Refuses a column that is neither a tag nor that of a stored signal. -/
def checkField (category : String) (signals : List SignalSpec) (field : String) :
    Except Invalid Unit :=
  if tags.any (Text.sameIgnoringCase · field) then .ok ()
  else match findSignal signals field with
    | none => .error (.unknownSignal category field)
    | some s => if s.isStored then .ok () else .error (.signalNotStored category s.code)

/-- Refuses a feature that the signals of a category cannot feed. A feature that reads a table of
its own is not checked. -/
def check (category : String) (signals : List SignalSpec) (c : FeatureConfig) :
    Except Invalid Unit := do
  if c.sourceTable.isSome then return ()
  match findSignal signals c.signal with
  | none => throw (.unknownSignal category c.signal)
  | some source =>
    if !source.isStored then throw (.signalNotStored category source.code)
    if !c.function.accepts source.dataType then
      throw (.functionUnsuited c.function source.code source.dataType)
    c.fields.forM (checkField category signals)

end FeatureConfig

end Historian
