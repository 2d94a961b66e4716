import Historian.Command.Disk
import Historian.Command.Reading
import Historian.Command.Run
import Historian.Engine.Connection
import Historian.Wire.Settings

/-!
Whole calls of the tool. A call loads the settings, opens the catalog, connects to the engine and
carries its command out; the catalog is kept afterwards, also when the command failed. Calls about
the settings themselves stop before the catalog is opened.
-/
namespace Historian.Command

/-- What a call finds around it. -/
structure Surroundings where
  disk : Disk := {}
  home : String := "."
  environment : List (String × String) := []
  input : String := ""
  /-- Milliseconds since the epoch. -/
  now : Int := 0

namespace Surroundings

def settingsPath (s : Surroundings) (given : Option String) : String :=
  given.getD (Settings.defaultPath s.home)

/-- The settings of a file, or the default ones if there is none, with those of the environment over
them. -/
def settings (s : Surroundings) (given : Option String) : Except CommandError Settings := do
  let path := s.settingsPath given
  let loaded ←
    match s.disk.text? path with
    | some text =>
      match Settings.ofToml? (.default s.home) text with
      | some settings => pure settings
      | none => throw (.settingsInvalid path)
    | none => if s.disk.has path then throw (.settingsUnreadable path) else pure (.default s.home)
  return loaded.override fun name => s.environment.lookup name

/-- The text that a document is read from. -/
def text? (s : Surroundings) : Source → Option String
  | .input => some s.input
  | .file path => s.disk.text? path

end Surroundings

-- Where the catalog is.

/-- Takes the scheme off the front of a location. -/
def dropScheme : List Char → List Char
  | 's' :: 'q' :: 'l' :: 'i' :: 't' :: 'e' :: ':' :: '/' :: '/' :: cs => dropScheme cs
  | cs => cs

/-- The path of the catalog's file, or none if the catalog is not kept. -/
def catalogPath? (location : String) : Option String :=
  let path := String.ofList (dropScheme location.toList)
  if path = "" ∨ path = ":memory:" ∨ path = "sqlite::memory:" then none else some path

namespace Disk

/-- Opens the catalog at a location; a new one is empty, and so is one that is not kept. -/
def openCatalog (d : Disk) (location : String) : Except CommandError Catalog :=
  match catalogPath? location with
  | none => .ok {}
  | some path =>
    if (d.folderFault? (folderOf path)).isSome then .error (.catalogFolder (folderOf path))
    else match d.get? path with
      | some (.catalog c) => .ok c
      | some (.text s) => if s.isEmpty then .ok {} else .error (.catalogUnusable location)
      | none =>
        if d.isFolder path || path.endsWith "/" then .error (.catalogUnusable location) else .ok {}

/-- Keeps the catalog at its location. -/
def keepCatalog (d : Disk) (location : String) (c : Catalog) : Disk :=
  match catalogPath? location with
  | none => d
  | some path => d.put path (.catalog c)

/-- Writes the default settings to a path where nothing is. -/
def writeSettings (d : Disk) (home path : String) : Output × Disk :=
  if d.has path then ({ failure := some (.settingsExist path) }, d)
  else match d.folderFault? (folderOf path) with
    | some fault => ({ failure := some (.folder fault) }, d)
    | none => (noting s!"Wrote {path}", d.put path (.text (Settings.default home).toToml))

end Disk

/-- What comes of a call: its output, the files after it, and the statements that went to an engine
outside the program. -/
structure Outcome where
  output : Output
  disk : Disk
  requests : List String := []

/-- Runs a command on the catalog at its location. -/
def runAt (c : Command) (settings : Settings) (s : Surroundings) (engine : Engine.Connection) :
    Outcome :=
  match s.disk.openCatalog settings.catalog with
  | .error e => { output := { failure := some e }, disk := s.disk }
  | .ok catalog =>
    let (output, w) := c.run settings.policy s.text? { engine, catalog, clock := s.now : World _ }
    { output, disk := s.disk.keepCatalog settings.catalog w.catalog, requests := w.engine.requests }

/-- Carries a call out; `connect` finds the engine that the settings ask for. -/
def Invocation.run (i : Invocation) (s : Surroundings)
    (connect : EngineSettings → Engine.Connection) : Outcome :=
  match s.settings i.settings with
  | .error e => { output := { failure := some e }, disk := s.disk }
  | .ok settings =>
    match i.purpose with
    | .showSettings => { output := printing settings.toJson, disk := s.disk }
    | .writeSettings =>
      let (output, disk) := s.disk.writeSettings s.home (s.settingsPath i.settings)
      { output, disk }
    | .run command => runAt command settings s (connect settings.engine)

end Historian.Command
