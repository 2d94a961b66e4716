import Historian.Program
import Historian.Schema.Diff
import Historian.Schema.Error
import Historian.Schema.Statement

/-!
Bringing the engine's tables to what the catalog asks for. Synchronizing a category makes its
super-table or adds and widens columns; provisioning an asset makes its row and its child table. All
of it happens under the lock of the category, and every statement can be issued again without harm.
-/
namespace Historian

inductive SyncAction
  | created | altered | unchanged
deriving DecidableEq, Repr

namespace SyncAction

def all : List SyncAction := [.created, .altered, .unchanged]

def name : SyncAction → String
  | .created => "created"
  | .altered => "altered"
  | .unchanged => "unchanged"

/-- The action of exactly that name. -/
def ofName? (s : String) : Option SyncAction := all.find? (·.name == s)

end SyncAction

/-- A signal that did not get its column, and why. -/
structure Rejection where
  signal : String
  reason : String
deriving DecidableEq, Repr

/-- What became of every signal in one synchronization, and the statements that took effect. -/
structure SyncReport where
  category : String
  database : String
  superTable : String
  action : SyncAction := .unchanged
  added : List String := []
  widened : List String := []
  rejected : List Rejection := []
  fingerprint : String
  statements : List String := []
deriving DecidableEq, Repr

/-- The report, or an error for the first signal that was rejected. -/
def SyncReport.ensureComplete (r : SyncReport) : Except SyncError SyncReport :=
  match r.rejected with
  | [] => .ok r
  | first :: _ => .error (.schema r.category (some first.signal) first.reason)

namespace Synchronizer

/-- A program that can fail with an error of the synchronizer. -/
abbrev Action (α : Type) := ExceptT SyncError Program α

/-- A check of names. -/
def checked (r : Except Invalid α) : Action α := ExceptT.mk (pure (r.mapError SyncError.invalid))

def catalog (policy : RetryPolicy) (op : CatalogOp) : Action op.Answer :=
  ExceptT.mk do return (← Program.retryCatalog policy op).mapError (SyncError.ofCatalog op.name)

def describe (policy : RetryPolicy) (category : String) (table : TableName) :
    Action (Option TableSchema) :=
  ExceptT.mk do
    return (← Program.retryDescribe policy table).mapError (SyncError.ofEngine category "describe")

/-- Tries a statement; that it fails is no error yet. That its object is there already is as good as
success. -/
def execute (policy : RetryPolicy) (sql : String) :
    Action (Except (RetryFailure EngineError) Unit) := do
  match ← Program.retryExecute policy "engine execute" sql with
  | .ok () => return .ok ()
  | .error f => return if f.error.isAlreadyExists then .ok () else .error f

/-- A statement that must succeed. -/
def mustExecute (policy : RetryPolicy) (category operation sql : String) : Action Unit := do
  match ← execute policy sql with
  | .ok () => return ()
  | .error f => throw (SyncError.ofEngine category operation f)

/-- Does something under the lock of a category. -/
def holding (category : String) (a : Action α) : Action α :=
  ExceptT.mk (Program.holding (.schema category) a.run)

def loadCategory (policy : RetryPolicy) (code : String) : Action CategoryInfo := do
  match ← catalog policy (.getCategory code) with
  | some k => return k
  | none => throw (.categoryMissing code)

/-- Adds missing columns one after another. A column that is refused for good goes into the report;
if the attempts run out, the synchronization ends. -/
def addColumns (policy : RetryPolicy) (k : CategoryKey) :
    List Column → SyncReport → Action SyncReport
  | [], r => return r
  | c :: cs, r => do
    let statement ← checked (Schema.addColumnStatement k c)
    match ← execute policy statement with
    | .ok () =>
      addColumns policy k cs
        { r with added := r.added ++ [c.name], statements := r.statements ++ [statement] }
    | .error f =>
      if f.isExhausted then throw (SyncError.ofEngine k.code "add column" f)
      addColumns policy k cs { r with rejected := r.rejected ++ [⟨c.name, f.error.message⟩] }

/-- Widens columns one after another, as `addColumns` adds them. -/
def widenColumns (policy : RetryPolicy) (k : CategoryKey) :
    List Schema.Widening → SyncReport → Action SyncReport
  | [], r => return r
  | w :: ws, r => do
    let statement ← checked (Schema.modifyColumnStatement k ⟨w.name, w.new⟩)
    match ← execute policy statement with
    | .ok () =>
      widenColumns policy k ws
        { r with widened := r.widened ++ [w.name], statements := r.statements ++ [statement] }
    | .error f =>
      if f.isExhausted then throw (SyncError.ofEngine k.code "modify column" f)
      widenColumns policy k ws { r with rejected := r.rejected ++ [⟨w.name, f.error.message⟩] }

/-- The report with the signals in conflict, and with the action that its statements come to. -/
def conclude (conflicts : List (String × Schema.Conflict)) (r : SyncReport) : SyncReport :=
  { r with
    rejected := r.rejected ++ conflicts.map fun c => ⟨c.1, c.2.message c.1⟩
    action := if r.statements.isEmpty then r.action else .altered }

/-- Gives an existing super-table what it lacks. -/
def alter (policy : RetryPolicy) (k : CategoryKey) (d : Schema.Diff) (r : SyncReport) :
    Action SyncReport := do
  let r ← addColumns policy k d.missing r
  let r ← widenColumns policy k d.widenings r
  return conclude d.conflicts r

/-- Makes the database and the super-table. -/
def create (policy : RetryPolicy) (k : CategoryKey) (signals : List SignalSpec)
    (superTableStatement : String) (r : SyncReport) : Action SyncReport := do
  let databaseStatement ← checked (Schema.databaseStatement k.database)
  mustExecute policy k.code "create super-table" databaseStatement
  mustExecute policy k.code "create super-table" superTableStatement
  return { r with
    action := .created
    added := (Schema.storedSignals signals).map (·.code)
    statements := [databaseStatement, superTableStatement] }

/-- What synchronizing does under the lock. The engine is not asked if the digest on record says
that nothing has changed, unless it has to be. -/
def syncLocked (policy : RetryPolicy) (code : String) (inspect : Bool) : Action SyncReport := do
  let k ← loadCategory policy code
  if !k.isActive then throw (.categoryInactive code)
  let signals := (← catalog policy (.listSignals code)).map (·.toSignalSpec)
  let statement ← checked (Schema.superTableStatement k.toCategoryKey signals)
  let fingerprint := Schema.fingerprint statement
  let report : SyncReport :=
    { category := code, database := k.database, superTable := k.superTableName, fingerprint }
  if !inspect && k.fingerprint == some fingerprint then return report
  let report ←
    match ← describe policy code k.superTable with
    | none => create policy k.toCategoryKey signals statement report
    | some existing => alter policy k.toCategoryKey (Schema.diff existing signals) report
  if report.rejected.isEmpty then
    catalog policy (.recordCategorySync code fingerprint (← Program.now))
  return report

/-- Synchronizes a category. -/
def sync (policy : RetryPolicy) (code : String) : Action SyncReport :=
  holding code (syncLocked policy code false)

/-- Synchronizes a category and asks the engine in any case. -/
def resync (policy : RetryPolicy) (code : String) : Action SyncReport :=
  holding code (syncLocked policy code true)

/-- The codes of the active categories. -/
def activeCategories (policy : RetryPolicy) : Action (List String) := do
  return ((← catalog policy .listCategories).filter (·.isActive)).map (·.code)

def requireSuperTable (policy : RetryPolicy) (k : CategoryKey) : Action Unit := do
  if (← describe policy k.code k.superTable).isNone then
    throw (.precondition k.code (.noSuperTable k.superTableName))

/-- Makes the child table of an asset, if there is none. -/
def ensureChildTableLocked (policy : RetryPolicy) (k : CategoryKey) (asset : String) (id : Int) :
    Action Unit := do
  let statement ← checked (Schema.childTableStatement k asset id)
  requireSuperTable policy k
  if (← describe policy k.code (k.childTable asset)).isNone then
    mustExecute policy k.code "create child table" statement

/-- Makes the child table of an asset; the category need not be active. -/
def ensureChildTable (policy : RetryPolicy) (category asset : String) (id : Int) : Action Unit :=
  holding category do
    let k ← loadCategory policy category
    ensureChildTableLocked policy k.toCategoryKey asset id

/-- Makes the row of an asset, or finds the one that an interrupted provisioning left. -/
def claimAsset (policy : RetryPolicy) (spec : AssetSpec) : Action Asset := do
  match ← Program.catalog (.createAsset spec) with
  | .ok a => return a
  | .error (.assetExists code) =>
    match ← catalog policy (.getAsset code) with
    | some a =>
      if a.category == spec.category && a.childTable.isNone then return a
      throw (.catalog (.assetExists code))
    | none => throw (.catalog (.assetExists code))
  | .error e => throw (.catalog e)

/-- Makes the row and the child table of an asset; the category must have been synchronized. -/
def provision (policy : RetryPolicy) (spec : AssetSpec) : Action Asset :=
  holding spec.category do
    let k ← loadCategory policy spec.category
    if !k.isActive then throw (.categoryInactive k.code)
    let _ ← checked (Schema.childTableStatement k.toCategoryKey spec.code 0)
    if !k.isSynced then throw (.precondition k.code .notSynchronized)
    requireSuperTable policy k.toCategoryKey
    let asset ← claimAsset policy spec
    ensureChildTableLocked policy k.toCategoryKey asset.code asset.id
    catalog policy (.setAssetChildTable asset.code (k.childTableName asset.code))
    match ← catalog policy (.getAsset asset.code) with
    | some a => return a
    | none => throw (.catalog (.assetMissing asset.code))

end Synchronizer

end Historian
