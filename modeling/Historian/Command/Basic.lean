import Historian.Catalog.Record

/-!
The commands of the tool. A command works on the catalog and the engine; besides, the settings can
be shown, and a file with the default ones be written.
-/
namespace Historian

namespace Command

/-- Where a document is read from. -/
inductive Source
  | input
  | file (path : String)
deriving DecidableEq, Repr

namespace Source

/-- A dash stands for the input. -/
def ofPath (path : String) : Source := if path = "-" then .input else .file path

def path : Source → String
  | .input => "-"
  | .file path => path

end Source

end Command

/-- A command on the catalog and the engine. -/
inductive Command
  | createCategory (spec : CategorySpec)
  | showCategory (code : String)
  | listCategories
  | syncCategory (code : String) (force : Bool)
  | syncAll
  | setCategoryActive (code : String) (active : Bool)
  | deleteCategory (code : String)
  | addSignal (spec : SignalSpec)
  | listSignals (category : String)
  /-- The attributes are pairs of a key and a value, with an equals sign between them. -/
  | createAsset (category code name : String) (attributes : List String)
  | listAssets (category : String)
  | registerFeature (category : String) (source : Command.Source)
  | listFeatures (category : String)
  | compileFeature (category name : String)
  | previewFeature (category : String) (source : Command.Source)
  | createStream (category feature : String)
  | deployStream (id : String)
  | pauseStream (id : String)
  | resumeStream (id : String)
  | stopStream (id : String)
  | acknowledgeStream (id : String)
  | deleteStream (id : String)
  | streamStatus (id : String)
  | streamLogs (id : String)
  | listStreams (category : Option String)
deriving Repr

namespace Command

/-- What the tool is asked to do. -/
inductive Purpose
  | showSettings
  | writeSettings
  | run (command : Command)
deriving Repr

/-- One call of the tool. -/
structure Invocation where
  /-- The path of the settings file, if it is not the default one. -/
  settings : Option String := none
  purpose : Purpose
deriving Repr

end Command

end Historian
