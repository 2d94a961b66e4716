import Historian.Command.Basic
import Historian.Command.Error
import Historian.Json.Pretty
import Historian.Schema.Synchronizer
import Historian.Stream.Manager
import Historian.Text.Blank
import Historian.Text.Cut
import Historian.Turns
import Historian.Wire.Catalog
import Historian.Wire.Feature
import Historian.Wire.Report

/-!
Running commands. A command works on a world of a catalog and an engine; what comes of it is a
document to print, a note for whoever watches, and a failure. A command that fails in the end may
have printed its document before.
-/
namespace Historian.Command

/-- What comes of a command. -/
structure Output where
  document : Option Json := none
  note : Option String := none
  failure : Option CommandError := none

namespace Output

/-- The code that the tool ends with. -/
def exitCode (o : Output) : UInt32 := if o.failure.isSome then 1 else 0

/-- What is printed as the result. -/
def printed (o : Output) : String :=
  match o.document with
  | some v => v.writePretty ++ "\n"
  | none => ""

/-- What is said about the run. -/
def notes (o : Output) : String :=
  match o.note with
  | some note => "✅ " ++ note ++ "\n"
  | none => ""

/-- What is said about the run and its failure. -/
def said (o : Output) : String :=
  match o.failure with
  | some e => o.notes ++ "Error: " ++ e.message ++ "\n"
  | none => o.notes

end Output

/-- A step of a command. -/
abbrev Step (ε α : Type) := ExceptT CommandError (StateM (World ε)) α

namespace Step

variable {ε α : Type}

/-- A step that does not touch the world. -/
def of (r : Except CommandError α) : Step ε α := fun w => (r, w)

/-- An operation of the catalog, tried once. -/
def catalog (op : CatalogOp) : Step ε op.Answer := fun w =>
  let (r, w) := w.perform op
  (r.mapError .catalog, w)

variable [Engine.Endpoint ε]

def sync (a : Synchronizer.Action α) : Step ε α := fun w =>
  let (r, w) := a.run.run w
  (r.mapError .sync, w)

def stream (a : StreamManager.Action α) : Step ε α := fun w =>
  let (r, w) := a.run.run w
  (r.mapError .stream, w)

end Step

/-- A document alone. -/
def printing (document : Json) : Output := { document }

/-- A note alone. -/
def noting (note : String) : Output := { note }

/-- The attribute that a pair stands for: its value is read as JSON, or taken as a text. -/
def readAttribute (pair : String) : Except CommandError (String × Json) :=
  match Text.cut (· == '=') pair.toList with
  | (_, none) => .error (.badAttribute pair)
  | (key, some value) =>
    let value := String.ofList value
    .ok (String.ofList (Text.trimBlanks key), (Json.read? value).getD (.text value))

/-- Puts attributes in the order of their keys; of two with one key the later counts. -/
def attributesOf (pairs : List (String × Json)) : List (String × Json) :=
  pairs.foldl (fun ms m => Json.insertMember m.1 m.2 ms) []

/-- The JSON value of a source. -/
def readSource (texts : Source → Option String) (s : Source) : Except CommandError Json :=
  match texts s with
  | none => .error (.unreadable s.path)
  | some text =>
    match Json.read? text with
    | none => .error (.notJson s.path)
    | some v => .ok v

/-- What the report on all categories says of one. -/
def entryOf : Except SyncError SyncReport → Json
  | .ok r => r.toJson
  | .error e => .ofMembers [("error", .text e.message)]

/-- Whether every signal got its column. -/
def isComplete : Except SyncError SyncReport → Bool
  | .ok r => r.rejected.isEmpty
  | .error _ => false

/-- The report on the synchronization of all categories. -/
def reportOf (results : List (String × Except SyncError SyncReport)) : Output :=
  let failed := results.countP (!isComplete ·.2)
  { document := some (.ofMembers (results.map fun r => (r.1, entryOf r.2)))
    failure := if failed = 0 then none else some (.syncsIncomplete failed) }

/-- The report on the synchronization of one category. -/
def reportOn (code : String) (r : SyncReport) : Output where
  document := some r.toJson
  failure := if r.rejected.isEmpty then none else some (.signalsRejected r.rejected.length code)

variable {ε : Type} [Engine.Endpoint ε]

/-- Synchronizes all active categories together. -/
def syncTogether (policy : RetryPolicy) : Step ε Output := do
  let codes ← Step.sync (Synchronizer.activeCategories policy)
  let results ← fun w =>
    let (rs, w) := runTogether (codes.map fun code => (Synchronizer.sync policy code).run) w
    (.ok rs, w)
  return reportOf ((codes.zip results).filterMap fun (code, r) => r.map fun r => (code, r))

/-- Deploys a stream and shows its task. -/
def deploy (policy : RetryPolicy) (id : String) : Step ε Output := do
  let isNew ← Step.stream (StreamManager.deploy policy id)
  let state := if isNew then "deployed" else "already running"
  let note := s!"Stream task {id} {state}"
  fun w =>
    match Step.stream (StreamManager.loadTask policy id) w with
    | (.ok t, w) => (.ok { document := some t.toJson, note }, w)
    | (.error e, w) => (.ok { note, failure := e }, w)

/-- Carries a command out. Documents are read where `texts` says. -/
def perform (policy : RetryPolicy) (texts : Source → Option String) :
    Command → Step ε Output
  | .createCategory spec => do
    return printing (← Step.catalog (.createCategory spec) : CategoryInfo).toJson
  | .showCategory code => do
    match ← Step.catalog (.getCategory code) with
    | some (k : CategoryInfo) => return printing k.toJson
    | none => throw (.categoryMissing code)
  | .listCategories => do
    let ks : List CategoryInfo ← Step.catalog .listCategories
    return printing (.list (ks.map CategoryInfo.toJson))
  | .syncCategory code force => do
    let sync := if force then Synchronizer.resync else Synchronizer.sync
    return reportOn code (← Step.sync (sync policy code))
  | .syncAll => syncTogether policy
  | .setCategoryActive code active => do
    let _ ← Step.catalog (.setCategoryActive code active)
    let state := if active then "enabled" else "disabled"
    return noting s!"Category {code} {state}"
  | .deleteCategory code => do
    let _ ← Step.catalog (.deleteCategory code)
    return noting s!"Category {code} deleted"
  | .addSignal spec => do
    let s : Signal ← Step.catalog (.addSignal spec)
    return printing s.toJson
  | .listSignals category => do
    let ss : List Signal ← Step.catalog (.listSignals category)
    return printing (.list (ss.map Signal.toJson))
  | .createAsset category code name attributes => do
    let attributes := attributesOf (← Step.of (attributes.mapM readAttribute))
    let a ← Step.sync (Synchronizer.provision policy { category, code, name, attributes })
    return printing a.toJson
  | .listAssets category => do
    let as : List Asset ← Step.catalog (.listAssets category)
    return printing (.list (as.map Asset.toJson))
  | .registerFeature category source => do
    let document ← Step.of (readSource texts source)
    return printing (← Step.stream (StreamManager.register policy category document)).toJson
  | .listFeatures category => do
    let fs : List Feature ← Step.catalog (.listFeatures category)
    return printing (.list (fs.map Feature.toJson))
  | .compileFeature category name => do
    return printing (← Step.stream (StreamManager.compile policy category name)).toJson
  | .previewFeature category source => do
    let document ← Step.of (readSource texts source)
    return printing (← Step.stream (StreamManager.preview policy category document)).toJson
  | .createStream category feature => do
    return printing (← Step.stream (StreamManager.create policy category feature)).toJson
  | .deployStream id => deploy policy id
  | .pauseStream id => do return printing (← Step.stream (StreamManager.pause policy id)).toJson
  | .resumeStream id => do return printing (← Step.stream (StreamManager.resume policy id)).toJson
  | .stopStream id => do return printing (← Step.stream (StreamManager.stop policy id)).toJson
  | .acknowledgeStream id => do
    return printing (← Step.stream (StreamManager.acknowledge policy id)).toJson
  | .deleteStream id => do
    Step.stream (StreamManager.delete policy id)
    return noting s!"Stream task {id} deleted"
  | .streamStatus id => do
    return printing (← Step.stream (StreamManager.loadTask policy id)).toJson
  | .streamLogs id => do
    return printing (.list ((← Step.stream (StreamManager.logs policy id)).map LogLine.toJson))
  | .listStreams category => do
    return printing (.list ((← Step.stream (StreamManager.list policy category)).map
      StreamTask.toJson))

/-- Carries a command out; a failure is part of what comes of it. -/
def run (c : Command) (policy : RetryPolicy) (texts : Source → Option String)
    (w : World ε) : Output × World ε :=
  match c.perform policy texts w with
  | (.ok o, w) => (o, w)
  | (.error e, w) => ({ failure := e }, w)

end Historian.Command
