import Historian.Schema.Synchronizer
import Historian.Wire.Record

/-!
Reports of synchronizations as JSON values.
-/
namespace Historian

def Rejection.ofJson? (v : Json) : Option Rejection := do
  let r ← Wire.Record.ofJson? ["signal", "reason"] v
  return ⟨← r.required "signal" Json.text?, ← r.required "reason" Json.text?⟩

def Rejection.toJson (r : Rejection) : Json :=
  .ofMembers [("signal", .text r.signal), ("reason", .text r.reason)]

def SyncReport.ofJson? (v : Json) : Option SyncReport := do
  let r ← Wire.Record.ofJson? ["category", "database", "super_table", "action", "added", "widened",
    "rejected", "fingerprint", "statements"] v
  return {
    category := ← r.required "category" Json.text?
    database := ← r.required "database" Json.text?
    superTable := ← r.required "super_table" Json.text?
    action := ← r.required "action" (Wire.named SyncAction.ofName?)
    added := ← r.required "added" (Wire.listOf Json.text?)
    widened := ← r.required "widened" (Wire.listOf Json.text?)
    rejected := ← r.required "rejected" (Wire.listOf Rejection.ofJson?)
    fingerprint := ← r.required "fingerprint" Json.text?
    statements := ← r.required "statements" (Wire.listOf Json.text?) }

def SyncReport.toJson (r : SyncReport) : Json :=
  .ofMembers [("category", .text r.category), ("database", .text r.database),
    ("super_table", .text r.superTable), ("action", .text r.action.name),
    ("added", .list (r.added.map .text)), ("widened", .list (r.widened.map .text)),
    ("rejected", .list (r.rejected.map Rejection.toJson)), ("fingerprint", .text r.fingerprint),
    ("statements", .list (r.statements.map .text))]

end Historian
