import Historian.Catalog.Basic

/-!
The operations of the catalog as data, each with the type of its answer. Programs ask for
operations, faults are arranged for them by name, `perform` says what they do, and `carryOut` also
what whoever asked is told: the rows of an answer are read back before it is given.
-/
namespace Historian

inductive CatalogOp
  | createCategory (spec : CategorySpec)
  | getCategory (code : String)
  | listCategories
  | setCategoryActive (code : String) (active : Bool)
  | deleteCategory (code : String)
  | recordCategorySync (code fingerprint : String) (syncedAt : Int)
  | addSignal (spec : SignalSpec)
  | getSignal (category code : String)
  | listSignals (category : String)
  | updateSignal (spec : SignalSpec)
  | removeSignal (category code : String)
  | createAsset (spec : AssetSpec)
  | getAsset (code : String)
  | listAssets (category : String)
  | setAssetChildTable (code childTable : String)
  | setAssetStatus (code : String) (status : AssetStatus)
  | upsertFeature (category name : String) (document : Json)
  | getFeature (category name : String)
  | listFeatures (category : String)
  | deleteFeature (category name : String)
  | createTask (spec : TaskSpec)
  | getTask (id : String)
  | listTasks (category : Option String)
  | setTaskStatus (id : String) (status : StreamStatus) (lastError : Option String)
  | deleteTask (id : String)
  | appendLog (task : String) (level : LogLevel) (message : String)
  | listLogs (task : String)

namespace CatalogOp

/-- The name that operations are known by in messages and to those who arrange faults. -/
def name : CatalogOp → String
  | .createCategory _ => "create_category"
  | .getCategory _ => "get_category"
  | .listCategories => "list_categories"
  | .setCategoryActive .. => "set_category_active"
  | .deleteCategory _ => "delete_category"
  | .recordCategorySync .. => "record_category_sync"
  | .addSignal _ => "add_signal"
  | .getSignal .. => "get_signal"
  | .listSignals _ => "list_signals"
  | .updateSignal _ => "update_signal"
  | .removeSignal .. => "remove_signal"
  | .createAsset _ => "create_asset"
  | .getAsset _ => "get_asset"
  | .listAssets _ => "list_assets"
  | .setAssetChildTable .. => "set_asset_child_table"
  | .setAssetStatus .. => "set_asset_status"
  | .upsertFeature .. => "upsert_feature"
  | .getFeature .. => "get_feature"
  | .listFeatures _ => "list_features"
  | .deleteFeature .. => "delete_feature"
  | .createTask _ => "create_stream_task"
  | .getTask _ => "get_stream_task"
  | .listTasks _ => "list_stream_tasks"
  | .setTaskStatus .. => "update_stream_task_status"
  | .deleteTask _ => "delete_stream_task"
  | .appendLog .. => "append_task_log"
  | .listLogs _ => "list_task_logs"

/-- What an operation answers when it succeeds. -/
def Answer : CatalogOp → Type
  | .createCategory _ => CategoryInfo
  | .getCategory _ => Option CategoryInfo
  | .listCategories => List CategoryInfo
  | .addSignal _ | .updateSignal _ => Signal
  | .getSignal .. => Option Signal
  | .listSignals _ => List Signal
  | .createAsset _ => Asset
  | .getAsset _ => Option Asset
  | .listAssets _ => List Asset
  | .upsertFeature .. => Feature
  | .getFeature .. => Option Feature
  | .listFeatures _ => List Feature
  | .createTask _ | .setTaskStatus .. => StreamTask
  | .getTask _ => Option StreamTask
  | .listTasks _ => List StreamTask
  | .listLogs _ => List LogLine
  | .setCategoryActive .. | .deleteCategory _ | .recordCategorySync .. | .removeSignal ..
  | .setAssetChildTable .. | .setAssetStatus .. | .deleteFeature .. | .deleteTask _
  | .appendLog .. => Unit

/-- What an operation does and what there is to answer, or why nothing is done. -/
def perform (c : Catalog) : (op : CatalogOp) → Except CatalogError (op.Answer × Catalog)
  | .createCategory spec => c.createCategory spec
  | .getCategory code => .ok (c.getCategory code, c)
  | .listCategories => .ok (c.listCategories, c)
  | .setCategoryActive code active => c.setCategoryActive code active
  | .deleteCategory code => c.deleteCategory code
  | .recordCategorySync code fingerprint syncedAt => c.recordCategorySync code fingerprint syncedAt
  | .addSignal spec => c.addSignal spec
  | .getSignal category code => .ok (c.signal? category code, c)
  | .listSignals category => .ok (c.listSignals category, c)
  | .updateSignal spec => c.updateSignal spec
  | .removeSignal category code => c.removeSignal category code
  | .createAsset spec => c.createAsset spec
  | .getAsset code => .ok (c.asset? code, c)
  | .listAssets category => .ok (c.listAssets category, c)
  | .setAssetChildTable code childTable => c.setAssetChildTable code childTable
  | .setAssetStatus code status => c.setAssetStatus code status
  | .upsertFeature category name document => c.upsertFeature category name document
  | .getFeature category name => .ok (c.feature? category name, c)
  | .listFeatures category => .ok (c.listFeatures category, c)
  | .deleteFeature category name => c.deleteFeature category name
  | .createTask spec => c.createTask spec
  | .getTask id => .ok (c.task? id, c)
  | .listTasks category => .ok (c.listTasks category, c)
  | .setTaskStatus id status lastError => c.setTaskStatus id status lastError
  | .deleteTask id => c.deleteTask id
  | .appendLog task level message => c.appendLog task level message
  | .listLogs task => .ok (c.listLogs task, c)

/-- Why an answer cannot be given, if it cannot: it has an asset that cannot be read. -/
def unreadable? : (op : CatalogOp) → op.Answer → Option CatalogError
  | .createAsset _, a => Asset.unreadable? a
  | .getAsset _, a => Option.bind a Asset.unreadable?
  | .listAssets _, as => List.findSome? Asset.unreadable? as
  | _, _ => none

/-- Every answer of the operation can be given. -/
def Plain (op : CatalogOp) : Prop := ∀ a, op.unreadable? a = none

/-- Carries an operation out. It can fail after it took effect: then the rows it wrote are kept. -/
def carryOut (c : Catalog) (op : CatalogOp) : Except CatalogError op.Answer × Catalog :=
  match op.perform c with
  | .error e => (.error e, c)
  | .ok (a, c) =>
    match op.unreadable? a with
    | some e => (.error e, c)
    | none => (.ok a, c)

end CatalogOp

end Historian
