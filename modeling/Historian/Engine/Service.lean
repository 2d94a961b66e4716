import Historian.Engine.Execution
import Historian.Engine.Rest

/-!
Engines as programs meet them: something that executes statements and describes tables. `Service` is
an engine that holds its tables itself, with a log of the statements it received, a script of faults
and a latency; `Script` answers from a list of prepared responses.
-/
namespace Historian.Engine

/-- An engine. A call may have a limit in milliseconds; one that would take longer has no answer. -/
class Endpoint (ε : Type) where
  execute : ε → (limit : Option Nat) → (sql : String) → Option (Except EngineError Unit) × ε
  describe : ε → (limit : Option Nat) → (table : TableName) →
    Option (Except EngineError (Option TableSchema)) × ε
  /-- How long a call takes. -/
  latency : ε → Nat

/-- An engine that holds its tables itself. -/
structure Service where
  tables : Tables := {}
  /-- The statements that were received, refused ones included. -/
  statements : List String := []
  /-- What the next calls meet: an error, or none for a call that goes through. -/
  faults : List (Option EngineError) := []
  /-- How long every call takes. -/
  latency : Nat := 0
  describeCalls : Nat := 0

namespace Service

/-- Whether a call comes after its limit. -/
def isLate (s : Service) (limit : Option Nat) : Bool := limit.any (· < s.latency)

/-- Takes the next fault off the script. -/
def nextFault (s : Service) : Option EngineError × Service :=
  (s.faults.head?.join, { s with faults := s.faults.tail })

/-- Executes a statement that arrived. -/
def receive (s : Service) (sql : String) : Except EngineError Unit × Service :=
  let (fault, s) := { s with statements := s.statements ++ [sql] }.nextFault
  match fault with
  | some e => (.error e, s)
  | none =>
    let (answer, tables) := s.tables.apply sql
    (answer.mapError Refusal.error, { s with tables })

/-- Executes a statement; a late one never arrives. -/
def execute (s : Service) (limit : Option Nat) (sql : String) :
    Option (Except EngineError Unit) × Service :=
  if s.isLate limit then (none, s) else
    let (answer, s) := s.receive sql
    (some answer, s)

/-- Describes a table; a late call counts as well. -/
def describe (s : Service) (limit : Option Nat) (table : TableName) :
    Option (Except EngineError (Option TableSchema)) × Service :=
  let s := { s with describeCalls := s.describeCalls + 1 }
  if s.isLate limit then (none, s) else
    let (fault, s) := s.nextFault
    match fault with
    | some e => (some (.error e), s)
    | none => (some (.ok (s.tables.describe table)), s)

instance : Endpoint Service := ⟨execute, describe, latency⟩

end Service

/-- The response that says that all is well. -/
def allWell : Rest.Response := .status 200 "\x7b\"code\":0\x7d"

/-- An engine behind an endpoint, as a list of the responses it is going to give. -/
structure Script where
  responses : List Rest.Response
  /-- What it says after them. -/
  afterwards : Rest.Response := allWell
  /-- The statements that were sent. -/
  requests : List String := []

namespace Script

/-- Sends a statement and takes the next response. -/
def send (s : Script) (sql : String) : Rest.Response × Script :=
  (s.responses.headD s.afterwards,
    { s with responses := s.responses.tail, requests := s.requests ++ [sql] })

def execute (s : Script) (sql : String) : Option (Except EngineError Unit) × Script :=
  let (response, s) := s.send sql
  (some ((Rest.affected response).map fun _ => ()), s)

def describe (s : Script) (table : TableName) :
    Option (Except EngineError (Option TableSchema)) × Script :=
  let (response, s) := s.send (Rest.describeStatement table)
  (some (Rest.described response), s)

instance : Endpoint Script := ⟨fun s _ => s.execute, fun s _ => s.describe, fun _ => 0⟩

end Script

end Historian.Engine
