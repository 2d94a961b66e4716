import Historian.Json.Pretty
import Historian.Wire.Catalog

/-!
Whole catalogs as JSON values, so that they can be kept in files. Rows are lists in the order of
their creation, and the numbers of the next rows are kept with them.
-/
namespace Historian

def Category.toJson (k : Category) : Json :=
  .ofMembers [("spec", k.toCategorySpec.toJson), ("is_active", .bool k.isActive),
    ("fingerprint", .option .text k.fingerprint), ("last_synced_at", .option .int k.lastSyncedAt)]

def Category.ofJson? (v : Json) : Option Category := do
  let r ← Wire.Record.ofJson? ["spec", "is_active", "fingerprint", "last_synced_at"] v
  return {
    toCategorySpec := ← r.required "spec" CategorySpec.ofJson?
    isActive := ← r.required "is_active" Wire.bool?
    fingerprint := ← r.optional "fingerprint" Json.text?
    lastSyncedAt := ← r.optional "last_synced_at" Wire.int64? }

/-- The number of a row. -/
def Wire.rowId? (v : Json) : Option Nat := v.member? "id" >>= Json.nat64?

def Signal.ofJson? (v : Json) : Option Signal := do
  return { ← SignalSpec.ofJson? v with id := ← Wire.rowId? v }

def Asset.ofJson? (v : Json) : Option Asset := do
  let childTable := v.member? "child_table" >>= Json.text?
  return { ← AssetSpec.ofJson? v with id := ← Wire.rowId? v, childTable }

/-- A feature with the text of its document. -/
def Feature.rowJson (f : Feature) : Json :=
  .ofMembers [("id", .nat f.id), ("category", .text f.category), ("name", .text f.name),
    ("document", .text f.document), ("generation", .int f.generation)]

def Feature.ofRowJson? (v : Json) : Option Feature := do
  let r ← Wire.Record.ofJson? ["id", "category", "name", "document", "generation"] v
  return ⟨← r.required "id" Json.nat64?, ← r.required "category" Json.text?,
    ← r.required "name" Json.text?, ← r.required "document" Json.text?,
    ← r.required "generation" Wire.int64?⟩

def StreamTask.ofJson? (v : Json) : Option StreamTask := do
  let r ← Wire.Record.ofJson? ["id", "status", "last_error"] v
  return { ← TaskSpec.ofJson? v with
    id := ← r.required "id" Json.text?
    status := ← r.required "status" (Wire.named StreamStatus.ofName?)
    lastError := ← r.optional "last_error" Json.text? }

def LogLine.ofJson? (v : Json) : Option LogLine := do
  let r ← Wire.Record.ofJson? ["id", "task_id", "level", "message"] v
  return ⟨← r.required "id" Json.nat64?, ← r.required "task_id" Json.text?,
    ← r.required "level" (Wire.named LogLevel.ofName?), ← r.required "message" Json.text?⟩

namespace Serials

def toJson (s : Serials) : Json :=
  .ofMembers [("signal", .nat s.signal), ("asset", .nat s.asset), ("feature", .nat s.feature),
    ("task", .nat s.task), ("log", .nat s.log)]

def ofJson? (v : Json) : Option Serials := do
  let r ← Wire.Record.ofJson? ["signal", "asset", "feature", "task", "log"] v
  return ⟨← r.required "signal" Json.nat64?, ← r.required "asset" Json.nat64?,
    ← r.required "feature" Json.nat64?, ← r.required "task" Json.nat64?,
    ← r.required "log" Json.nat64?⟩

end Serials

namespace Catalog

def toJson (c : Catalog) : Json :=
  .ofMembers [("categories", .list (c.categories.map Category.toJson)),
    ("signals", .list (c.signals.map Signal.toJson)),
    ("assets", .list (c.assets.map Asset.toJson)),
    ("features", .list (c.features.map Feature.rowJson)),
    ("tasks", .list (c.tasks.map StreamTask.toJson)),
    ("logs", .list (c.logs.map LogLine.toJson)), ("next", c.next.toJson)]

def ofJson? (v : Json) : Option Catalog := do
  let r ← Wire.Record.ofJson? ["categories", "signals", "assets", "features", "tasks", "logs",
    "next"] v
  return {
    categories := ← r.required "categories" (Wire.listOf Category.ofJson?)
    signals := ← r.required "signals" (Wire.listOf Signal.ofJson?)
    assets := ← r.required "assets" (Wire.listOf Asset.ofJson?)
    features := ← r.required "features" (Wire.listOf Feature.ofRowJson?)
    tasks := ← r.required "tasks" (Wire.listOf StreamTask.ofJson?)
    logs := ← r.required "logs" (Wire.listOf LogLine.ofJson?)
    next := ← r.required "next" Serials.ofJson? }

/-- The text of the file that keeps a catalog. -/
def toText (c : Catalog) : String := c.toJson.writePretty ++ "\n"

def ofText? (s : String) : Option Catalog := Json.readAnyDepth? s >>= ofJson?

end Catalog

end Historian
