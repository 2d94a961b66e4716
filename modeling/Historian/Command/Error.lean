import Historian.Schema.Error
import Historian.Stream.Error

/-!
Failures of calls of the tool: those of the catalog, the synchronizer and the stream manager, and
those of its own, about files, documents and results that are not complete.
-/
namespace Historian

/-- Why a folder cannot be made: a file has its name, or that of a folder it would be in. -/
inductive FolderFault
  | taken
  | blocked
deriving DecidableEq, Repr

def FolderFault.message : FolderFault → String
  | .taken => "File exists (os error 17)"
  | .blocked => "Not a directory (os error 20)"

inductive CommandError
  | catalog (e : CatalogError)
  | sync (e : SyncError)
  | stream (e : StreamError)
  | categoryMissing (code : String)
  /-- So many categories could not be synchronized completely. -/
  | syncsIncomplete (count : Nat)
  | signalsRejected (count : Nat) (category : String)
  | badAttribute (pair : String)
  | unreadable (path : String)
  | notJson (path : String)
  | settingsUnreadable (path : String)
  | settingsInvalid (path : String)
  | settingsExist (path : String)
  | folder (fault : FolderFault)
  | catalogFolder (path : String)
  | catalogUnusable (location : String)
deriving Repr

namespace CommandError

def message : CommandError → String
  | .catalog e => e.message
  | .sync e => e.message
  | .stream e => e.message
  | .categoryMissing code => s!"Category not found: {code}"
  | .syncsIncomplete count => s!"{count} category sync(s) did not complete"
  | .signalsRejected count category => s!"{count} signal(s) of {category} were rejected"
  | .badAttribute pair => s!"Attribute '{pair}' is not key=value"
  | .unreadable path => s!"Failed to read {path}"
  | .notJson path => s!"{path} is not valid JSON"
  | .settingsUnreadable path => s!"Failed to read config file {path}"
  | .settingsInvalid path => s!"Failed to parse config file {path}"
  | .settingsExist path => s!"Config file {path} already exists"
  | .folder fault => fault.message
  | .catalogFolder path => s!"Failed to create metadata directory {path}"
  | .catalogUnusable location => s!"Failed to open metadata store {location}"

end CommandError

end Historian
