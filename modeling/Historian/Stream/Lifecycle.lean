import Historian.Stream.Status

/-!
What can be done with a stream task and when. Whether an action is valid is decided before the
engine is asked; `next?` is the whole table.
-/
namespace Historian

/-- What an operator asks of a stream task. -/
inductive StreamAction
  | deploy | pause | resume | stop | acknowledge | delete
deriving DecidableEq, Repr

namespace StreamAction

def all : List StreamAction := [.deploy, .pause, .resume, .stop, .acknowledge, .delete]

def name : StreamAction → String
  | .deploy => "deploy"
  | .pause => "pause"
  | .resume => "resume"
  | .stop => "stop"
  | .acknowledge => "acknowledge"
  | .delete => "delete"

/-- The action of exactly that name. -/
def ofName? (s : String) : Option StreamAction := all.find? (·.name == s)

/-- The status that an action leads to, if it is valid. A deleted task is at its end; the status it
had stands for that. -/
def next? : StreamAction → StreamStatus → Option StreamStatus
  | .deploy, .created => some .running
  | .deploy, .running => some .running
  | .pause, .running => some .paused
  | .resume, .paused => some .running
  | .stop, .running => some .stopped
  | .stop, .paused => some .stopped
  | .acknowledge, .error => some .created
  | .delete, .created => some .created
  | .delete, .stopped => some .stopped
  | .delete, .error => some .error
  | _, _ => none

/-- Whether a refusal by the engine takes the task into the error status. -/
def failsIntoError (a : StreamAction) : Bool :=
  a == .deploy || a == .pause || a == .resume || a == .stop

-- The error status is left by acknowledging or deleting only, and nothing but deleting is left to
-- do with a stopped task.

theorem next?_stopped {a : StreamAction} (h : a ≠ .delete) : a.next? .stopped = none := by
  cases a <;> simp_all [next?]

theorem next?_error {a : StreamAction} (h : a ≠ .acknowledge) (h' : a ≠ .delete) :
    a.next? .error = none := by
  cases a <;> simp_all [next?]

end StreamAction

end Historian
