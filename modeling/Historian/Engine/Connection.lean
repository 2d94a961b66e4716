import Historian.Engine.Service
import Historian.Settings

/-!
The engine that a call of the tool works with: one inside the program, or one behind an endpoint.
-/
namespace Historian.Engine

inductive Connection
  | inside (engine : Service)
  | remote (engine : Script)

namespace Connection

def execute : Connection → Option Nat → String → Option (Except EngineError Unit) × Connection
  | .inside e, limit, sql => (e.execute limit sql).map id .inside
  | .remote e, _, sql => (e.execute sql).map id .remote

def describe : Connection → Option Nat → TableName →
    Option (Except EngineError (Option TableSchema)) × Connection
  | .inside e, limit, table => (e.describe limit table).map id .inside
  | .remote e, _, table => (e.describe table).map id .remote

def latency : Connection → Nat
  | .inside e => e.latency
  | .remote _ => 0

instance : Endpoint Connection := ⟨execute, describe, latency⟩

/-- The engine that settings ask for; nothing answers at an endpoint outside the program. -/
def ofSettings (s : EngineSettings) : Connection :=
  if s.isMemory then .inside {} else .remote { responses := [], afterwards := .closed }

/-- The statements that went to an endpoint. -/
def requests : Connection → List String
  | .inside _ => []
  | .remote e => e.requests

end Connection

end Historian.Engine
