import Historian.Engine.Rest
import Historian.Retry

/-!
Settings of the command line: where the catalog is, how to reach the engine, and how patiently calls
are tried again. Everything has a default.
-/
namespace Historian

/-- How to reach the engine. -/
structure EngineSettings extends Engine.Rest.Endpoint where
  url := "http://localhost:6041"
  requestTimeout : Nat := 10000
deriving DecidableEq, Repr

namespace EngineSettings

/-- What the address of the engine inside the program begins with. -/
def memoryScheme : String := "memory://"

/-- Whether the engine lives inside the program. -/
def isMemory (s : EngineSettings) : Bool := memoryScheme.toList.isPrefixOf s.url.toList

end EngineSettings

structure Settings where
  /-- The path of the catalog's file, or where else it is. -/
  catalog : String
  engine : EngineSettings := {}
  retry : RetryPolicy := {}
  logLevel : String := "info"
deriving Repr

namespace Settings

/-- The folder of the tool's files in a home folder. -/
def folder (home : String) : String :=
  if home.isEmpty || home.endsWith "/" then home ++ ".signalhouse" else home ++ "/.signalhouse"

/-- The settings that hold where nothing else is said. -/
def default (home : String) : Settings := { catalog := folder home ++ "/metadata.db" }

/-- The path of the settings file where no other is given. -/
def defaultPath (home : String) : String := folder home ++ "/config.toml"

/-- The policy that the settings ask for; there is always one attempt. -/
def policy (s : Settings) : RetryPolicy := { s.retry with maxAttempts := s.retry.attempts }

/-- The settings with the values that the environment gives. -/
def override (s : Settings) (lookup : String → Option String) : Settings :=
  { s with
    catalog := (lookup "METADATA_STORE").getD s.catalog
    engine := { s.engine with
      url := (lookup "TSDB_URL").getD s.engine.url
      user := (lookup "TSDB_USER").getD s.engine.user
      password := (lookup "TSDB_PASSWORD").getD s.engine.password } }

end Settings

end Historian
