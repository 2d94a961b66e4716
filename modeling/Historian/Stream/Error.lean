import Historian.Schema.Error
import Historian.Stream.Lifecycle

/-!
Failures of the calls that manage stream tasks.
-/
namespace Historian

/-- Why a call of the stream manager failed. -/
inductive StreamError
  | categoryMissing (code : String)
  | featureMissing (category feature : String)
  | taskMissing (id : String)
  | conflict (task : String) (status : StreamStatus) (action : StreamAction)
  | generationLive (task liveTask : String) (generation : Int)
  | streamTaken (streamName task : String)
  | engine (task : String) (action : StreamAction) (message : String)
  | exhausted (operation : String) (attempts : Nat) (cause : Cause)
  | invalid (fault : Invalid)
  | catalog (e : CatalogError)
deriving Repr

namespace StreamError

def message : StreamError → String
  | .categoryMissing code => s!"Category not found: {code}"
  | .featureMissing category feature => s!"Feature not found: {category}/{feature}"
  | .taskMissing id => s!"Stream task not found: {id}"
  | .conflict task status action =>
    s!"Cannot {action.name} stream task {task} while it is {status.name}"
  | .generationLive task liveTask generation =>
    s!"Cannot deploy stream task {task}: generation {generation} of the same feature" ++
      s!" is still live in task {liveTask}"
  | .streamTaken streamName task => s!"Stream {streamName} already has task {task}"
  | .engine task action message =>
    s!"Engine rejected {action.name} of stream task {task}: {message}"
  | .exhausted operation attempts cause =>
    s!"Transient failure in {operation} after {attempts} attempts: {cause.message}"
  | .invalid fault => s!"Validation error: {fault.message}"
  | .catalog e => s!"Metadata error: {e.message}"

def isTransient : StreamError → Bool
  | .exhausted .. => true
  | _ => false

/-- The failure that an error of the catalog stands for: what is missing is missing here too. -/
def ofCatalogError : CatalogError → StreamError
  | .taskMissing id => .taskMissing id
  | .categoryMissing code => .categoryMissing code
  | .featureMissing category feature => .featureMissing category feature
  | .invalid fault => .invalid fault
  | e => .catalog e

/-- The failure of an operation of the catalog: transient if only the attempts ran out. -/
def ofCatalog (operation : String) (f : RetryFailure CatalogError) : StreamError :=
  if f.isExhausted then .exhausted operation f.attempts (.catalog f.error)
  else ofCatalogError f.error

/-- The failure of the engine call of an action. -/
def ofEngine (task stream : String) (action : StreamAction) (f : RetryFailure EngineError) :
    StreamError :=
  if f.isExhausted then .exhausted s!"{action.name} {stream}" f.attempts (.engine f.error)
  else .engine task action f.error.message

end StreamError

end Historian
