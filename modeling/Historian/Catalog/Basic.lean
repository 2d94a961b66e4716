import Historian.Catalog.Error
import Historian.Catalog.Record
import Historian.Engine.TableName
import Historian.Json.Parser

/-!
The catalog and its operations. An operation that can be carried out answers with the whole catalog
after it, and otherwise with an error. Rows that a category owns go with it; assets keep it from
being deleted. Numbers of rows are given once and never again.
-/
namespace Historian

/-- The numbers that the next rows get. -/
structure Serials where
  signal : Nat := 1
  asset : Nat := 1
  feature : Nat := 1
  task : Nat := 1
  log : Nat := 1
deriving DecidableEq, Repr

/-- The rows in the order of their creation. -/
structure Catalog where
  categories : List Category := []
  signals : List Signal := []
  assets : List Asset := []
  features : List Feature := []
  tasks : List StreamTask := []
  logs : List LogLine := []
  next : Serials := {}

/-- Rows in the order of a key. -/
def sortedBy (key : α → String) (rows : List α) : List α :=
  rows.mergeSort fun a b => compare (key a) (key b) |>.isLE

/-- A value as it is read back from its text; one that nests too deep for that stays what it was. -/
def Json.stored (v : Json) : Json := (Json.read? v.write).getD v

/-- A bound of a signal as it is stored: there is one zero, and what is no number is no bound. -/
def storedBound (x : Binary64) : Option Binary64 :=
  if x.isNaN then none else some (if x.isZero then .zero else x)

/-- A signal's specification as it is stored. -/
def SignalSpec.asStored (s : SignalSpec) : SignalSpec :=
  { s with
    least := s.least.bind storedBound
    greatest := s.greatest.bind storedBound
    rule := s.rule.map Json.stored }

/-- The attributes of an asset as they are stored: all of them as one document. -/
def AssetSpec.asStored (s : AssetSpec) : AssetSpec :=
  match (Json.object s.attributes).stored with
  | .object attributes => { s with attributes }
  | _ => s

@[simp] theorem AssetSpec.asStored_category (s : AssetSpec) :
    s.asStored.category = s.category := by
  unfold asStored
  split <;> rfl

@[simp] theorem AssetSpec.asStored_code (s : AssetSpec) : s.asStored.code = s.code := by
  unfold asStored
  split <;> rfl

/-- Why an asset cannot be read, if it cannot: values that can be read one by one can make a document
that nests too deep. The row is kept all the same. -/
def Asset.unreadable? (a : Asset) : Option CatalogError :=
  (Json.tooDeep? (Json.object a.attributes).write).map fun column =>
    .database (.unreadable column)

namespace CategoryKey

/-- The name of the super-table of a category. -/
def superTableName (k : CategoryKey) : String := s!"{k.stem}_{k.code}"

/-- The super-table of a category. -/
def superTable (k : CategoryKey) : TableName := ⟨k.database, k.superTableName⟩

/-- Refuses names that cannot stand in statements. -/
def check (k : CategoryKey) : Except Invalid Unit := do
  requireIdentifier "category" k.code
  requireIdentifier "database" k.database
  requireIdentifier "stable prefix" k.stem
  requireTableName k.superTableName

end CategoryKey

/-- Refuses what no category can be. -/
def CategorySpec.check (s : CategorySpec) : Except Invalid Unit := do
  s.toCategoryKey.check
  requireText "name" s.name

/-- Refuses what no signal can be, whatever the catalog holds. -/
def SignalSpec.check (s : SignalSpec) : Except Invalid Unit := do
  requireSignalCode s.code
  requireText "name" s.name
  match s.least, s.greatest with
  | some least, some greatest =>
    if greatest.less least then throw (.badField "min_value" (.rangeInverted least greatest))
  | _, _ => return ()

namespace Catalog

def category? (c : Catalog) (code : String) : Option Category :=
  c.categories.find? (·.code == code)

def signal? (c : Catalog) (category code : String) : Option Signal :=
  c.signals.find? fun s => s.category == category && s.code == code

def asset? (c : Catalog) (code : String) : Option Asset :=
  c.assets.find? (·.code == code)

def feature? (c : Catalog) (category name : String) : Option Feature :=
  c.features.find? fun f => f.category == category && f.name == name

def task? (c : Catalog) (id : String) : Option StreamTask :=
  c.tasks.find? (·.id == id)

/-- The number of a category's assets. -/
def assetCount (c : Catalog) (category : String) : Nat :=
  c.assets.countP (·.category == category)

/-- The number of a category's tasks that are live. -/
def liveTaskCount (c : Catalog) (category : String) : Nat :=
  c.tasks.countP fun t => t.category == category && t.status.isLive

def info (c : Catalog) (k : Category) : CategoryInfo := ⟨k, c.assetCount k.code⟩

def requireCategory (c : Catalog) (code : String) : Except CatalogError Category :=
  match c.category? code with
  | some k => .ok k
  | none => .error (.categoryMissing code)

/-- The catalog with one category changed. -/
def changeCategory (c : Catalog) (code : String) (f : Category → Category) :
    Except CatalogError (Unit × Catalog) := do
  let _ ← c.requireCategory code
  return ((), { c with categories := c.categories.map fun k => if k.code = code then f k else k })

-- Categories.

def createCategory (c : Catalog) (spec : CategorySpec) :
    Except CatalogError (CategoryInfo × Catalog) := do
  spec.check.mapError CatalogError.invalid
  if (c.category? spec.code).isSome then throw (.categoryExists spec.code)
  let k : Category := { toCategorySpec := spec }
  let c := { c with categories := c.categories ++ [k] }
  return (c.info k, c)

def getCategory (c : Catalog) (code : String) : Option CategoryInfo :=
  (c.category? code).map c.info

/-- All categories by code. -/
def listCategories (c : Catalog) : List CategoryInfo :=
  (sortedBy (·.code) c.categories).map c.info

def setCategoryActive (c : Catalog) (code : String) (active : Bool) :
    Except CatalogError (Unit × Catalog) :=
  c.changeCategory code fun k => { k with isActive := active }

/-- Deletes a category with its signals, features, tasks and their logs. -/
def deleteCategory (c : Catalog) (code : String) : Except CatalogError (Unit × Catalog) := do
  let _ ← c.requireCategory code
  if 0 < c.assetCount code then throw (.categoryInUse code (.assets (c.assetCount code)))
  if 0 < c.liveTaskCount code then throw (.categoryInUse code (.liveTasks (c.liveTaskCount code)))
  let gone := (c.tasks.filter (·.category == code)).map (·.id)
  return ((), { c with
    categories := c.categories.filter (·.code != code)
    signals := c.signals.filter (·.category != code)
    features := c.features.filter (·.category != code)
    tasks := c.tasks.filter (·.category != code)
    logs := c.logs.filter (!gone.contains ·.task) })

/-- Records that the super-table was brought to the state with that digest. -/
def recordCategorySync (c : Catalog) (code fingerprint : String) (syncedAt : Int) :
    Except CatalogError (Unit × Catalog) :=
  c.changeCategory code fun k =>
    { k with fingerprint := some fingerprint, lastSyncedAt := some syncedAt }

-- Signals.

def addSignal (c : Catalog) (spec : SignalSpec) : Except CatalogError (Signal × Catalog) := do
  spec.check.mapError CatalogError.invalid
  let _ ← c.requireCategory spec.category
  if (c.signal? spec.category spec.code).isSome then throw (.signalExists spec.category spec.code)
  let s : Signal := { spec.asStored with id := c.next.signal }
  return (s, { c with
    signals := c.signals ++ [s]
    next := { c.next with signal := c.next.signal + 1 } })

/-- The signals of a category by their order and then by code. -/
def listSignals (c : Catalog) (category : String) : List Signal :=
  (c.signals.filter (·.category == category)).mergeSort fun a b =>
    a.toSignalSpec.precedes b.toSignalSpec

/-- Changes a signal. Once the category is synchronized, the type of a stored signal only widens. -/
def updateSignal (c : Catalog) (spec : SignalSpec) : Except CatalogError (Signal × Catalog) := do
  spec.check.mapError CatalogError.invalid
  let k ← c.requireCategory spec.category
  match c.signal? spec.category spec.code with
  | none => throw (.signalMissing spec.category spec.code)
  | some old =>
    if k.isSynced && old.isStored && !old.dataType.widens spec.dataType then
      throw (.invalid (.retypeNotWidening spec.code old.dataType spec.dataType))
    let s : Signal := { spec.asStored with id := old.id }
    return (s, { c with
      signals := c.signals.map fun r =>
        if r.category = spec.category ∧ r.code = spec.code then s else r })

def removeSignal (c : Catalog) (category code : String) : Except CatalogError (Unit × Catalog) :=
  if (c.signal? category code).isSome then
    .ok ((), { c with
      signals := c.signals.filter fun s => s.category != category || s.code != code })
  else .error (.signalMissing category code)

-- Assets.

def createAsset (c : Catalog) (spec : AssetSpec) : Except CatalogError (Asset × Catalog) := do
  (requireIdentifier "asset" spec.code).mapError CatalogError.invalid
  let _ ← c.requireCategory spec.category
  if (c.asset? spec.code).isSome then throw (.assetExists spec.code)
  let a : Asset := { spec.asStored with id := c.next.asset }
  return (a, { c with
    assets := c.assets ++ [a]
    next := { c.next with asset := c.next.asset + 1 } })

/-- The assets of a category by code. -/
def listAssets (c : Catalog) (category : String) : List Asset :=
  sortedBy (·.code) (c.assets.filter (·.category == category))

def changeAsset (c : Catalog) (code : String) (f : Asset → Asset) :
    Except CatalogError (Unit × Catalog) :=
  if (c.asset? code).isSome then
    .ok ((), { c with assets := c.assets.map fun a => if a.code = code then f a else a })
  else .error (.assetMissing code)

def setAssetChildTable (c : Catalog) (code childTable : String) :
    Except CatalogError (Unit × Catalog) :=
  c.changeAsset code fun a => { a with childTable := some childTable }

def setAssetStatus (c : Catalog) (code : String) (status : AssetStatus) :
    Except CatalogError (Unit × Catalog) :=
  c.changeAsset code fun a => { a with status }

-- Features.

/-- Gives a feature its document. The generation counts the changes of the document's text. -/
def upsertFeature (c : Catalog) (category name : String) (document : Json) :
    Except CatalogError (Feature × Catalog) := do
  (requireIdentifier "feature" name).mapError CatalogError.invalid
  let _ ← c.requireCategory category
  let document := document.write
  match c.feature? category name with
  | none =>
    let f : Feature := ⟨c.next.feature, category, name, document, 1⟩
    return (f, { c with
      features := c.features ++ [f]
      next := { c.next with feature := c.next.feature + 1 } })
  | some old =>
    if old.document = document then return (old, c)
    let f := { old with document, generation := old.generation + 1 }
    return (f, { c with
      features := c.features.map fun r =>
        if r.category = category ∧ r.name = name then f else r })

/-- The features of a category by name. -/
def listFeatures (c : Catalog) (category : String) : List Feature :=
  sortedBy (·.name) (c.features.filter (·.category == category))

def deleteFeature (c : Catalog) (category name : String) : Except CatalogError (Unit × Catalog) :=
  if (c.feature? category name).isSome then
    .ok ((), { c with
      features := c.features.filter fun f => f.category != category || f.name != name })
  else .error (.featureMissing category name)

-- Stream tasks and their logs.

/-- The id of the task with that number. -/
def taskId (serial : Nat) : String := s!"t{serial}"

def createTask (c : Catalog) (spec : TaskSpec) : Except CatalogError (StreamTask × Catalog) := do
  let _ ← c.requireCategory spec.category
  let t : StreamTask := { spec with id := taskId c.next.task }
  return (t, { c with
    tasks := c.tasks ++ [t]
    next := { c.next with task := c.next.task + 1 } })

/-- The tasks of a category, or of all, in the order of their creation. -/
def listTasks (c : Catalog) : Option String → List StreamTask
  | some category => c.tasks.filter (·.category == category)
  | none => c.tasks

/-- Sets the status of a task and the error it ended in, if it did. -/
def setTaskStatus (c : Catalog) (id : String) (status : StreamStatus) (lastError : Option String) :
    Except CatalogError (StreamTask × Catalog) :=
  match c.task? id with
  | none => .error (.taskMissing id)
  | some t =>
    let t := { t with status, lastError }
    .ok (t, { c with tasks := c.tasks.map fun r => if r.id = id then t else r })

/-- Deletes a task with its log. -/
def deleteTask (c : Catalog) (id : String) : Except CatalogError (Unit × Catalog) :=
  if (c.task? id).isSome then
    .ok ((), { c with
      tasks := c.tasks.filter (·.id != id)
      logs := c.logs.filter (·.task != id) })
  else .error (.taskMissing id)

def appendLog (c : Catalog) (task : String) (level : LogLevel) (message : String) :
    Except CatalogError (Unit × Catalog) :=
  if (c.task? task).isSome then
    .ok ((), { c with
      logs := c.logs ++ [⟨c.next.log, task, level, message⟩]
      next := { c.next with log := c.next.log + 1 } })
  else .error (.database .brokenReference)

/-- The log of a task, oldest line first. -/
def listLogs (c : Catalog) (task : String) : List LogLine :=
  c.logs.filter (·.task == task)

end Catalog

end Historian
