import Historian.Invalid
import Historian.Retry

/-!
Failures of the catalog. Those of the database behind it may go away when no connection was free in
time or the operation missed its deadline; all others are for good.
-/
namespace Historian

/-- What went wrong in the database behind the catalog. -/
inductive DatabaseFault
  | noFreeConnection
  | noRow
  /-- A row refers to one that is not there. -/
  | brokenReference
  /-- The document of a row nests too deep to be read back, from that column on. -/
  | unreadable (column : Nat)
deriving DecidableEq, Repr

def DatabaseFault.message : DatabaseFault → String
  | .noFreeConnection => "Database error: pool timed out while waiting for an open connection"
  | .noRow =>
    "Database error: no rows returned by a query that expected to return at least one row"
  | .brokenReference => "Database error: FOREIGN KEY constraint failed"
  | .unreadable column =>
    s!"Serialization error: recursion limit exceeded at line 1 column {column}"

/-- Why a category cannot be deleted. -/
inductive Usage
  | assets (count : Nat)
  | liveTasks (count : Nat)
deriving DecidableEq, Repr

def Usage.message : Usage → String
  | .assets count => s!"{count} assets still reference it"
  | .liveTasks count => s!"{count} stream tasks are running or paused"

/-- Why an operation of the catalog failed. -/
inductive CatalogError
  | categoryMissing (code : String)
  | categoryExists (code : String)
  | categoryInUse (code : String) (usage : Usage)
  | signalMissing (category signal : String)
  | signalExists (category signal : String)
  | assetMissing (code : String)
  | assetExists (code : String)
  | featureMissing (category feature : String)
  | taskMissing (id : String)
  | invalid (fault : Invalid)
  | database (fault : DatabaseFault)
  | timeout (operation : String) (after : Nat)
deriving Repr

namespace CatalogError

def message : CatalogError → String
  | .categoryMissing code => s!"Category not found: {code}"
  | .categoryExists code => s!"Category already exists: {code}"
  | .categoryInUse code usage => s!"Category {code} is in use: {usage.message}"
  | .signalMissing category signal => s!"Signal not found: {category}/{signal}"
  | .signalExists category signal => s!"Signal already exists: {category}/{signal}"
  | .assetMissing code => s!"Asset not found: {code}"
  | .assetExists code => s!"Asset already exists: {code}"
  | .featureMissing category feature => s!"Feature not found: {category}/{feature}"
  | .taskMissing id => s!"Stream task not found: {id}"
  | .invalid fault => s!"Validation error: {fault.message}"
  | .database fault => fault.message
  | .timeout operation after => s!"Metadata operation {operation} timed out after {after}ms"

instance : Transient CatalogError where
  isTransient
    | .timeout .. => true
    | .database fault => fault == .noFreeConnection
    | _ => false
  timedOut := .timeout

end CatalogError

end Historian
