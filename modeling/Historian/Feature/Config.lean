import Historian.Feature.Filter

/-!
Feature documents. A feature aggregates one signal over windows; its document is a JSON object with
a closed set of keys. Reading brings a document into a normal form: durations are numbers, the
filters and grouping keys are in order and without repetitions, and the key that every feature is
grouped by is left out. The canonical document writes the normal form.
-/
namespace Historian

/-- The normal form of a feature. -/
structure FeatureConfig where
  name : String
  signal : String
  function : Aggregate
  window : Duration
  slide : Duration
  filters : List Filter := []
  groupBy : List String := []
  sourceTable : Option String := none
  description : Option String := none
deriving DecidableEq, Repr

namespace FeatureConfig

/-- The tag that every feature is grouped by. -/
def groupTag : String := "asset_id"

def keys : List String :=
  ["name", "source_signal", "function", "window", "slide_interval", "filters", "group_by",
    "source_table", "description"]

/-- A text that must be given. -/
def requiredText (raw : Json) (key : String) : Except Invalid String :=
  match raw.member? key with
  | none | some .null => .error (.missingField key)
  | some (.text s) => .ok s
  | some _ => .error (.badField key .notText)

/-- A text that may be null or left out. -/
def optionalText (raw : Json) (key : String) : Except Invalid (Option String) :=
  match raw.member? key with
  | none | some .null => .ok none
  | some (.text s) => .ok (some s)
  | some _ => .error (.badField key .notText)

def readDuration (key text : String) : Except Invalid Duration :=
  (Duration.read text).mapError (.badDuration key text)

def readFunction (text : String) : Except Invalid Aggregate :=
  match Aggregate.ofAnyCase? text with
  | some f => .ok f
  | none => .error (.functionNotAllowed text)

/-- Reads one grouping key. -/
def readGroupKey (item : Json) : Except Invalid String := do
  let .text key := item | throw (.badField "group_by" .entryNotText)
  requireIdentifier "group_by" key
  return key

/-- The grouping keys in order, without repetitions and without the tag that is always there. -/
def canonicalKeys (keys : List String) : List String :=
  ((keys.filter (!Text.sameIgnoringCase · groupTag)).mergeSort fun a b =>
    (compare a b).isLE).eraseReps

def readGroupBy : Option Json → Except Invalid (List String)
  | none | some .null => .ok []
  | some (.list items) => return canonicalKeys (← items.mapM readGroupKey)
  | some _ => .error (.badField "group_by" .notNameList)

/-- Reads a feature document. -/
def read (raw : Json) : Except Invalid FeatureConfig := do
  let .object members := raw | throw (.badField "config" .notObject)
  match members.find? fun m => m.1 ∉ keys with
  | some unknown => throw (.unknownField unknown.1)
  | none => pure ()
  let name ← requiredText raw "name"
  requireIdentifier "feature" name
  let signal ← requiredText raw "source_signal"
  requireIdentifier "signal" signal
  let function ← readFunction (← requiredText raw "function")
  let window ← readDuration "window" (← requiredText raw "window")
  let slide ←
    match ← optionalText raw "slide_interval" with
    | some text => readDuration "slide_interval" text
    | none => pure window
  if !slide.le window then throw (.slideExceedsWindow window slide)
  let filters ← Filter.readAll ((raw.member? "filters").getD .null)
  let groupBy ← readGroupBy (raw.member? "group_by")
  let sourceTable ← optionalText raw "source_table"
  sourceTable.forM requireTableName
  let description ← optionalText raw "description"
  return { name, signal, function, window, slide, filters, groupBy, sourceTable, description }

/-- A member, if it has a value. -/
def memberOf (key : String) : Option String → List (String × Json)
  | none => []
  | some s => [(key, .text s)]

/-- A member, if the list has entries. -/
def listMember (key : String) (items : List Json) : List (String × Json) :=
  if items.isEmpty then [] else [(key, .list items)]

/-- The canonical document: what is empty is left out. -/
def toJson (c : FeatureConfig) : Json :=
  .ofMembers <|
    [("name", .text c.name), ("source_signal", .text c.signal), ("function", .text c.function.name),
      ("window", .text c.window.write), ("slide_interval", .text c.slide.write)] ++
    listMember "filters" (c.filters.map Filter.toJson) ++
    listMember "group_by" (c.groupBy.map .text) ++
    memberOf "source_table" c.sourceTable ++ memberOf "description" c.description

/-- The columns that filters and grouping keys name, filters first. -/
def fields (c : FeatureConfig) : List String := c.filters.map (·.field) ++ c.groupBy

/-- Equality of features, numbers of one kind being compared by their values. -/
def same (a b : FeatureConfig) : Bool := a.toJson.same b.toJson

end FeatureConfig

end Historian
