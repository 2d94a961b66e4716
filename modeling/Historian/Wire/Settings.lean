import Historian.Settings
import Historian.Toml.Parser
import Historian.Toml.Printer
import Historian.Wire.Record

/-!
Settings as JSON values and as TOML documents. Every setting may be left out, and those that are not
known are ignored; one of the wrong kind makes the whole document unreadable.
-/
namespace Historian

namespace EngineSettings

def ofJson? (v : Json) : Option EngineSettings := do
  let r ← Wire.Record.ofJson? ["url", "user", "password", "request_timeout_ms"] v
  let d : EngineSettings := {}
  return {
    url := ← r.withDefault "url" Json.text? d.url
    user := ← r.withDefault "user" Json.text? d.user
    password := ← r.withDefault "password" Json.text? d.password
    requestTimeout := ← r.withDefault "request_timeout_ms" Json.nat64? d.requestTimeout }

def toJson (s : EngineSettings) : Json :=
  .ofMembers [("url", .text s.url), ("user", .text s.user), ("password", .text s.password),
    ("request_timeout_ms", .nat s.requestTimeout)]

end EngineSettings

namespace RetryPolicy

def ofJson? (v : Json) : Option RetryPolicy := do
  let r ← Wire.Record.ofJson? ["max_attempts", "initial_backoff_ms", "max_backoff_ms", "multiplier",
    "attempt_timeout_ms"] v
  let d : RetryPolicy := {}
  return {
    maxAttempts := ← r.withDefault "max_attempts" Json.nat64? d.maxAttempts
    initialBackoff := ← r.withDefault "initial_backoff_ms" Json.nat64? d.initialBackoff
    maxBackoff := ← r.withDefault "max_backoff_ms" Json.nat64? d.maxBackoff
    multiplier := ← r.withDefault "multiplier" Wire.real? d.multiplier
    attemptTimeout := ← r.withDefault "attempt_timeout_ms" Json.nat64? d.attemptTimeout }

def toJson (p : RetryPolicy) : Json :=
  .ofMembers [("max_attempts", .nat p.maxAttempts), ("initial_backoff_ms", .nat p.initialBackoff),
    ("max_backoff_ms", .nat p.maxBackoff), ("multiplier", .real p.multiplier),
    ("attempt_timeout_ms", .nat p.attemptTimeout)]

end RetryPolicy

namespace Settings

/-- Reads settings; those left out are as in `d`. -/
def ofJson? (d : Settings) (v : Json) : Option Settings := do
  let r ← Wire.Record.ofJson? ["metadata_store", "tsdb", "retry", "log_level"] v
  return {
    catalog := ← r.withDefault "metadata_store" Json.text? d.catalog
    engine := ← r.withDefault "tsdb" EngineSettings.ofJson? d.engine
    retry := ← r.withDefault "retry" RetryPolicy.ofJson? d.retry
    logLevel := ← r.withDefault "log_level" Json.text? d.logLevel }

def toJson (s : Settings) : Json :=
  .ofMembers [("metadata_store", .text s.catalog), ("tsdb", s.engine.toJson),
    ("retry", s.retry.toJson), ("log_level", .text s.logLevel)]

/-- The settings of a document; those left out are as in `d`. -/
def ofToml? (d : Settings) (document : String) : Option Settings :=
  Toml.read? document >>= ofJson? d

/-- The document of the settings. -/
def toToml (s : Settings) : String :=
  Toml.writeLines [
    ("metadata_store", Toml.writeText s.catalog),
    ("log_level", Toml.writeText s.logLevel)] ++
  Toml.writeTable "tsdb" [
    ("url", Toml.writeText s.engine.url),
    ("user", Toml.writeText s.engine.user),
    ("password", Toml.writeText s.engine.password),
    ("request_timeout_ms", Toml.writeNat s.engine.requestTimeout)] ++
  Toml.writeTable "retry" [
    ("max_attempts", Toml.writeNat s.retry.maxAttempts),
    ("initial_backoff_ms", Toml.writeNat s.retry.initialBackoff),
    ("max_backoff_ms", Toml.writeNat s.retry.maxBackoff),
    ("multiplier", Toml.writeReal s.retry.multiplier),
    ("attempt_timeout_ms", Toml.writeNat s.retry.attemptTimeout)]

end Settings

end Historian
