/-!
Where a stream task is in its life. A task is live while its stream exists in the engine by intent;
a stopped task is at its end.
-/
namespace Historian

/-- The status of a stream task. -/
inductive StreamStatus
  | created | running | paused | stopped | error
deriving DecidableEq, Repr

namespace StreamStatus

def all : List StreamStatus := [.created, .running, .paused, .stopped, .error]

def name : StreamStatus → String
  | .created => "created"
  | .running => "running"
  | .paused => "paused"
  | .stopped => "stopped"
  | .error => "error"

/-- The status of exactly that name. -/
def ofName? (s : String) : Option StreamStatus := all.find? (·.name == s)

def isLive (s : StreamStatus) : Bool := s == .running || s == .paused

theorem ofName?_name (s : StreamStatus) : ofName? s.name = some s := by
  cases s <;> decide

end StreamStatus

/-- How serious a line of a task's log is. -/
inductive LogLevel
  | info | warn | error
deriving DecidableEq, Repr

namespace LogLevel

def all : List LogLevel := [.info, .warn, .error]

def name : LogLevel → String
  | .info => "info"
  | .warn => "warn"
  | .error => "error"

/-- The level of exactly that name. -/
def ofName? (s : String) : Option LogLevel := all.find? (·.name == s)

end LogLevel

end Historian
