import Historian.Feature.Query
import Historian.Wire.Record

/-!
Features and compiled streams as JSON values. Unlike a document that someone wrote, a stored feature
is taken as it stands: nothing is checked, ordered or filled in.
-/
namespace Historian

def Duration.ofJson? : Json → Option Duration
  | .text s => (Duration.read s).toOption
  | _ => none

def Filter.ofJson? (v : Json) : Option Filter := do
  let r ← Wire.Record.ofJson? ["field", "op", "value"] v
  return {
    field := ← r.required "field" Json.text?
    op := ← r.required "op" (Wire.named FilterOp.ofSymbol?)
    value := ← r.required "value" FilterValue.ofJson? }

def FeatureConfig.ofJson? (v : Json) : Option FeatureConfig := do
  let r ← Wire.Record.ofJson? ["name", "source_signal", "function", "window", "slide_interval",
    "filters", "group_by", "source_table", "description"] v
  return {
    name := ← r.required "name" Json.text?
    signal := ← r.required "source_signal" Json.text?
    function := ← r.required "function" (Wire.named Aggregate.ofName?)
    window := ← r.required "window" Duration.ofJson?
    slide := ← r.required "slide_interval" Duration.ofJson?
    filters := ← r.withDefault "filters" (Wire.listOf Filter.ofJson?) []
    groupBy := ← r.withDefault "group_by" (Wire.listOf Json.text?) []
    sourceTable := ← r.withDefault "source_table" (Wire.Record.nullable Json.text?) none
    description := ← r.withDefault "description" (Wire.Record.nullable Json.text?) none }

def CompiledStream.toJson (s : CompiledStream) : Json :=
  .ofMembers [("stream_name", .text s.streamName), ("target_table", .text s.targetTable),
    ("generation", .int s.generation), ("sql", .text s.sql)]

end Historian
