import Historian.Catalog.Basic
import Historian.Wire.Record

/-!
The catalog's records as JSON values: specifications are read, rows are written.
-/
namespace Historian

def CategorySpec.ofJson? (v : Json) : Option CategorySpec := do
  let r ← Wire.Record.ofJson? ["code", "name", "industry", "database", "stable_prefix"] v
  return {
    code := ← r.required "code" Json.text?
    name := ← r.required "name" Json.text?
    industry := ← r.withDefault "industry" (Wire.Record.nullable Json.text?) none
    database := ← r.required "database" Json.text?
    stem := ← r.withDefault "stable_prefix" Json.text? "raw" }

def CategorySpec.toJson (s : CategorySpec) : Json :=
  .ofMembers [("code", .text s.code), ("name", .text s.name),
    ("industry", .option .text s.industry), ("database", .text s.database),
    ("stable_prefix", .text s.stem)]

def CategoryInfo.members (k : CategoryInfo) : List (String × Json) :=
  [("code", .text k.code), ("name", .text k.name), ("industry", .option .text k.industry),
    ("database", .text k.database), ("stable_prefix", .text k.stem),
    ("is_active", .bool k.isActive), ("asset_count", .nat k.assetCount),
    ("schema_fingerprint", .option .text k.fingerprint),
    ("last_synced_at", .option .int k.lastSyncedAt)]

def CategoryInfo.toJson (k : CategoryInfo) : Json := .ofMembers k.members

/-- A category as it is exported, with the times of its creation and last change. -/
structure CategoryExport extends CategoryInfo where
  createdAt : Int
  updatedAt : Int
deriving DecidableEq, Repr

namespace CategoryExport

def ofJson? (v : Json) : Option CategoryExport := do
  let r ← Wire.Record.ofJson? ["code", "name", "industry", "database", "stable_prefix", "is_active",
    "asset_count", "schema_fingerprint", "last_synced_at", "created_at", "updated_at"] v
  return {
    code := ← r.required "code" Json.text?
    name := ← r.required "name" Json.text?
    industry := ← r.optional "industry" Json.text?
    database := ← r.required "database" Json.text?
    stem := ← r.required "stable_prefix" Json.text?
    isActive := ← r.required "is_active" Wire.bool?
    assetCount := ← r.required "asset_count" Json.nat64?
    fingerprint := ← r.optional "schema_fingerprint" Json.text?
    lastSyncedAt := ← r.optional "last_synced_at" Wire.int64?
    createdAt := ← r.required "created_at" Wire.int64?
    updatedAt := ← r.required "updated_at" Wire.int64? }

def toJson (k : CategoryExport) : Json :=
  .ofMembers (k.members ++ [("created_at", .int k.createdAt), ("updated_at", .int k.updatedAt)])

end CategoryExport

def SignalSpec.ofJson? (v : Json) : Option SignalSpec := do
  let r ← Wire.Record.ofJson? ["category_code", "code", "name", "data_type", "unit", "is_stored",
    "is_realtime", "is_feature", "min_value", "max_value", "validation_rule", "display_order"] v
  return {
    category := ← r.required "category_code" Json.text?
    code := ← r.required "code" Json.text?
    name := ← r.required "name" Json.text?
    dataType := ← r.required "data_type" (Wire.named DataType.ofName?)
    unit := ← r.withDefault "unit" (Wire.Record.nullable Json.text?) none
    isStored := ← r.withDefault "is_stored" Wire.bool? true
    isRealtime := ← r.withDefault "is_realtime" Wire.bool? false
    isFeature := ← r.withDefault "is_feature" Wire.bool? false
    least := ← r.withDefault "min_value" (Wire.Record.nullable Wire.real?) none
    greatest := ← r.withDefault "max_value" (Wire.Record.nullable Wire.real?) none
    rule := ← r.withDefault "validation_rule" (Wire.Record.nullable Wire.any) none
    order := ← r.withDefault "display_order" Wire.int32? 0 }

def SignalSpec.members (s : SignalSpec) : List (String × Json) :=
  [("category_code", .text s.category), ("code", .text s.code), ("name", .text s.name),
    ("data_type", .text s.dataType.name), ("unit", .option .text s.unit),
    ("is_stored", .bool s.isStored), ("is_realtime", .bool s.isRealtime),
    ("is_feature", .bool s.isFeature), ("min_value", .option .real s.least),
    ("max_value", .option .real s.greatest), ("validation_rule", s.rule.getD .null),
    ("display_order", .int s.order.toInt)]

def SignalSpec.toJson (s : SignalSpec) : Json := .ofMembers s.members

def Signal.toJson (s : Signal) : Json := .ofMembers (("id", .nat s.id) :: s.members)

/-- The members of an object. -/
def Wire.members? : Json → Option (List (String × Json))
  | .object members => some members
  | _ => none

def AssetSpec.ofJson? (v : Json) : Option AssetSpec := do
  let r ← Wire.Record.ofJson? ["category_code", "code", "name", "attributes", "status"] v
  return {
    category := ← r.required "category_code" Json.text?
    code := ← r.required "code" Json.text?
    name := ← r.required "name" Json.text?
    attributes := ← r.withDefault "attributes" Wire.members? []
    status := ← r.withDefault "status" (Wire.named AssetStatus.ofName?) .active }

def AssetSpec.members (a : AssetSpec) : List (String × Json) :=
  [("category_code", .text a.category), ("code", .text a.code), ("name", .text a.name),
    ("attributes", .ofMembers a.attributes), ("status", .text a.status.name)]

def AssetSpec.toJson (a : AssetSpec) : Json := .ofMembers a.members

def Asset.toJson (a : Asset) : Json :=
  .ofMembers (a.members ++ [("id", .nat a.id), ("child_table", .option .text a.childTable)])

def Feature.toJson (f : Feature) : Json :=
  .ofMembers [("id", .nat f.id), ("category_code", .text f.category), ("name", .text f.name),
    ("config", (Json.read? f.document).getD .null), ("generation", .int f.generation)]

def TaskSpec.ofJson? (v : Json) : Option TaskSpec := do
  let r ← Wire.Record.ofJson? ["category_code", "feature_name", "generation", "stream_name",
    "target_table", "sql"] v
  return {
    category := ← r.required "category_code" Json.text?
    feature := ← r.required "feature_name" Json.text?
    generation := ← r.required "generation" Wire.int64?
    streamName := ← r.required "stream_name" Json.text?
    targetTable := ← r.required "target_table" Json.text?
    sql := ← r.required "sql" Json.text? }

def StreamTask.toJson (t : StreamTask) : Json :=
  .ofMembers [("id", .text t.id), ("category_code", .text t.category),
    ("feature_name", .text t.feature), ("generation", .int t.generation),
    ("stream_name", .text t.streamName), ("target_table", .text t.targetTable),
    ("sql", .text t.sql), ("status", .text t.status.name),
    ("last_error", .option .text t.lastError)]

def LogLine.toJson (l : LogLine) : Json :=
  .ofMembers [("id", .nat l.id), ("task_id", .text l.task), ("level", .text l.level.name),
    ("message", .text l.message)]

end Historian
