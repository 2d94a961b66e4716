import Historian.Catalog.Error
import Historian.Engine.Error

/-!
Failures of synchronizing and provisioning. A failure is transient if only the attempts ran out; any
other needs a change of the catalog, of the engine, or of the order of the calls.
-/
namespace Historian

/-- What has to be so before an asset can be provisioned. -/
inductive Precondition
  | notSynchronized
  | noSuperTable (name : String)
deriving DecidableEq, Repr

def Precondition.message : Precondition → String
  | .notSynchronized => "category has not been synchronized"
  | .noSuperTable name => s!"super-table {name} does not exist; synchronize the category first"

/-- What an exhausted call last failed with. -/
inductive Cause
  | engine (e : EngineError)
  | catalog (e : CatalogError)
deriving Repr

def Cause.message : Cause → String
  | .engine e => e.message
  | .catalog e => e.message

/-- Why a call of the synchronizer failed. -/
inductive SyncError
  | categoryMissing (code : String)
  | categoryInactive (code : String)
  | precondition (category : String) (missing : Precondition)
  | schema (category : String) (signal : Option String) (reason : String)
  | exhausted (operation : String) (attempts : Nat) (cause : Cause)
  | invalid (fault : Invalid)
  | catalog (e : CatalogError)
deriving Repr

namespace SyncError

def message : SyncError → String
  | .categoryMissing code => s!"Category not found: {code}"
  | .categoryInactive code => s!"Category {code} is inactive"
  | .precondition category missing =>
    s!"Precondition failed for category {category}: {missing.message}"
  | .schema category none reason => s!"Schema error in category {category}: {reason}"
  | .schema category (some signal) reason =>
    s!"Schema error in category {category} (signal {signal}): {reason}"
  | .exhausted operation attempts cause =>
    s!"Transient failure in {operation} after {attempts} attempts: {cause.message}"
  | .invalid fault => s!"Validation error: {fault.message}"
  | .catalog e => s!"Metadata error: {e.message}"

def isTransient : SyncError → Bool
  | .exhausted .. => true
  | _ => false

/-- The failure of an engine call: transient if only the attempts ran out. -/
def ofEngine (category operation : String) (f : RetryFailure EngineError) : SyncError :=
  if f.isExhausted then .exhausted operation f.attempts (.engine f.error)
  else .schema category none f.error.message

/-- The failure of an operation of the catalog. -/
def ofCatalog (operation : String) (f : RetryFailure CatalogError) : SyncError :=
  if f.isExhausted then .exhausted operation f.attempts (.catalog f.error) else .catalog f.error

end SyncError

end Historian
