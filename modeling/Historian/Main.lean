import Historian.Command.Call
import Historian.Wire.Snapshot
import Std.Time.DateTime.Timestamp

/-!
The command line. It reads the files that a call is about, carries the call out, and writes what has
changed. Results go to the output, everything else to the error stream.
-/
namespace Historian.Command

/-- The settings that the environment can give. -/
def variableNames : List String := ["METADATA_STORE", "TSDB_URL", "TSDB_USER", "TSDB_PASSWORD"]

/-- The disk with what is at a path, `read` saying what a text stands for. Anything that cannot be
read is taken for a folder. -/
def loadFile (read : String → Content) (d : Disk) (path : String) : IO Disk := do
  try
    return d.put path (read (← IO.FS.readFile path))
  catch
    | .noFileOrDirectory .. => return d
    | _ => return d.put (path ++ "/_") (.text "")

/-- The disk with the first file on the way to a path, or the one at it. -/
def loadWay (read : String → Content) (d : Disk) (path : String) : IO Disk := do
  let names := namesOf path
  for n in List.range names.length do
    let folder := pathOf (names.take n)
    if n ≠ 0 && folder != "/" then
      let reached ← loadFile .text d folder
      if (reached.get? folder).isSome then return reached
  loadFile read d path

/-- A catalog in its file; an empty file is a new catalog, and any other is no catalog. -/
def catalogContent (s : String) : Content :=
  match Catalog.ofText? s with
  | some c => .catalog c
  | none => .text s

/-- Writes a file and the folders it is in. -/
def storeFile (path text : String) : IO Unit := do
  let folder := folderOf path
  if folder != "" then IO.FS.createDirAll folder
  IO.FS.writeFile path text

/-- The source that a call reads. -/
def Purpose.source? : Purpose → Option Source
  | .run (.registerFeature _ source) | .run (.previewFeature _ source) => some source
  | _ => none

def readInput : IO String := do
  (← IO.getStdin).readToEnd

/-- What is around a call before its catalog and its document are read. -/
def outerSurroundings (call : Invocation) : IO Surroundings := do
  let home := (← IO.getEnv "HOME").getD "."
  let environment ← variableNames.filterMapM fun name => do
    return (← IO.getEnv name).map fun value => (name, value)
  let now := (← Std.Time.Timestamp.now).toMillisecondsSinceUnixEpoch.val
  let path := call.settings.getD (Settings.defaultPath home)
  return { disk := ← loadWay .text {} path, home, environment, now }

/-- Adds the catalog and the document that a call is about. -/
def innerSurroundings (call : Invocation) (s : Surroundings) : IO Surroundings := do
  let disk ← match s.settings call.settings with
    | .ok settings =>
      match catalogPath? settings.catalog with
      | some path => loadWay catalogContent s.disk path
      | none => pure s.disk
    | .error _ => pure s.disk
  match call.purpose.source? with
  | some .input => return { s with disk, input := ← readInput }
  | some (.file path) => return { s with disk := ← loadWay .text disk path }
  | none => return { s with disk }

/-- Writes the files that a call may have changed. -/
def keep (call : Invocation) (s : Surroundings) (o : Outcome) : IO Unit := do
  match call.purpose with
  | .showSettings => return
  | .writeSettings =>
    let path := s.settingsPath call.settings
    if o.output.failure.isNone then storeFile path ((o.disk.text? path).getD "")
  | .run _ =>
    let .ok settings := s.settings call.settings | return
    let some path := catalogPath? settings.catalog | return
    let some (.catalog c) := o.disk.get? path | return
    storeFile path c.toText

/-- Carries a call out and says with which code to end. -/
def carryOut (call : Invocation) : IO UInt32 := do
  let s ← innerSurroundings call (← outerSurroundings call)
  let o := call.run s .ofSettings
  keep call s o
  IO.print o.output.printed
  IO.eprint o.output.said
  return o.output.exitCode

end Historian.Command

def main (args : List String) : IO UInt32 := do
  match Historian.Command.Invocation.read? args with
  | some call => Historian.Command.carryOut call
  | none =>
    IO.eprintln "error: the arguments fit no command"
    return 2
