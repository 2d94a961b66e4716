import Historian.Catalog.Operation
import Historian.Proofs.Basic

namespace Historian.Catalog

variable {c c' : Catalog}

-- What the catalog is after each operation that changes it.

theorem requireCategory_ok {k : Category} :
    c.requireCategory code = .ok k ↔ c.category? code = some k := by
  unfold requireCategory
  split <;> simp_all

theorem changeCategory_ok (h : c.changeCategory code f = .ok (a, c')) :
    (∃ k, c.category? code = some k) ∧
      c' = { c with categories := c.categories.map fun k => if k.code = code then f k else k } := by
  simp only [changeCategory, bind_eq_ok, requireCategory_ok, pure_eq_ok] at h
  obtain ⟨k, hk, h⟩ := h
  cases h
  exact ⟨⟨k, hk⟩, rfl⟩

-- The row of a key after every row of that key has been changed.
theorem find?_update [DecidableEq κ] (key : α → κ) {f : α → α} (hf : ∀ a, key (f a) = key a)
    (rows : List α) : (rows.map fun a => if key a = x then f a else a).find? (key · == x) =
      (rows.find? (key · == x)).map f := by
  induction rows with
  | nil => rfl
  | cons a rows ih => by_cases ha : key a = x <;> simp [ha, hf, ih]

-- The row of another key.
theorem find?_update_of_ne [DecidableEq κ] (key : α → κ) {f : α → α} (hf : ∀ a, key (f a) = key a)
    (hne : x ≠ y) (rows : List α) : (rows.map fun a => if key a = y then f a else a).find?
      (key · == x) = rows.find? (key · == x) := by
  induction rows with
  | nil => rfl
  | cons a rows ih =>
    by_cases ha : key a = y
    · simp [ha, hf, hne.symm, ih]
    · simp [ha, List.find?_cons, ih]

theorem category?_changeCategory (h : c.changeCategory code f = .ok (a, c'))
    (hf : ∀ k, (f k).code = k.code) : c'.category? code = (c.category? code).map f := by
  obtain ⟨-, rfl⟩ := changeCategory_ok h
  exact find?_update (·.code) hf c.categories

theorem category?_changeCategory_of_ne (h : c.changeCategory other f = .ok (a, c'))
    (hf : ∀ k, (f k).code = k.code) (hne : code ≠ other) :
    c'.category? code = c.category? code := by
  obtain ⟨-, rfl⟩ := changeCategory_ok h
  exact find?_update_of_ne (·.code) hf hne c.categories

theorem changeCategory_error (h : c.changeCategory code f = .error e) :
    c.category? code = none := by
  simp only [changeCategory, bind_eq_error, requireCategory] at h
  split at h <;> simp_all

theorem createCategory_ok (h : c.createCategory spec = .ok (a, c')) :
    spec.check = .ok () ∧ c.category? spec.code = none ∧
      c' = { c with categories := c.categories ++ [{ toCategorySpec := spec }] } := by
  simp only [createCategory, bind_unit_eq_ok, mapError_eq_ok] at h
  obtain ⟨hs, h⟩ := h
  split at h <;> cases h
  case isFalse hn => exact ⟨hs, by simpa using hn, rfl⟩

theorem deleteCategory_ok (h : c.deleteCategory code = .ok (a, c')) :
    ∃ logs, c' = { c with
      categories := c.categories.filter (·.code != code)
      signals := c.signals.filter (·.category != code)
      features := c.features.filter (·.category != code)
      tasks := c.tasks.filter (·.category != code), logs } := by
  simp only [deleteCategory, bind_eq_ok] at h
  obtain ⟨_, -, h⟩ := h
  split at h
  case isTrue => cases h
  split at h <;> cases h
  exact ⟨_, rfl⟩

theorem deleteCategory_unused (h : c.deleteCategory code = .ok (a, c')) :
    c.assetCount code = 0 ∧ c.liveTaskCount code = 0 := by
  simp only [deleteCategory, bind_eq_ok] at h
  obtain ⟨_, -, h⟩ := h
  split at h
  case isTrue => cases h
  split at h
  case isTrue => cases h
  case isFalse ha hl => exact ⟨Nat.eq_zero_of_not_pos ha, Nat.eq_zero_of_not_pos hl⟩

theorem addSignal_ok (h : c.addSignal spec = .ok (a, c')) :
    ∃ signals serial, c' = { c with signals, next := { c.next with signal := serial } } := by
  simp only [addSignal, bind_eq_ok] at h
  obtain ⟨_, -, _, -, h⟩ := h
  split at h <;> cases h
  exact ⟨_, _, rfl⟩

theorem updateSignal_ok (h : c.updateSignal spec = .ok (a, c')) :
    ∃ signals, c' = { c with signals } := by
  simp only [updateSignal, bind_eq_ok] at h
  obtain ⟨_, -, _, -, h⟩ := h
  split at h
  case h_1 => cases h
  case h_2 =>
    split at h <;> cases h
    exact ⟨_, rfl⟩

theorem removeSignal_ok (h : c.removeSignal category code = .ok (a, c')) :
    ∃ signals, c' = { c with signals } := by
  unfold removeSignal at h
  split at h <;> cases h
  exact ⟨_, rfl⟩

theorem createAsset_ok (h : c.createAsset spec = .ok (a, c')) :
    ∃ assets serial, c' = { c with assets, next := { c.next with asset := serial } } := by
  simp only [createAsset, bind_eq_ok] at h
  obtain ⟨_, -, _, -, h⟩ := h
  split at h <;> cases h
  exact ⟨_, _, rfl⟩

theorem changeAsset_ok (h : c.changeAsset code f = .ok (a, c')) :
    ∃ assets, c' = { c with assets } := by
  unfold changeAsset at h
  split at h <;> cases h
  exact ⟨_, rfl⟩

theorem feature?_some (h : c.feature? category name = some f) :
    f.category = category ∧ f.name = name := by
  simpa using List.find?_some h

-- The ways in which a feature comes to a text.
inductive Upserted (c : Catalog) (category name text : String) : Feature → Catalog → Prop
  | added (hf : c.feature? category name = none) :
    Upserted c category name text ⟨c.next.feature, category, name, text, 1⟩ { c with
      features := c.features ++ [⟨c.next.feature, category, name, text, 1⟩]
      next := { c.next with feature := c.next.feature + 1 } }
  | kept (hf : c.feature? category name = some f) (hd : f.document = text) :
    Upserted c category name text f c
  | changed (hf : c.feature? category name = some f) (hd : f.document ≠ text) :
    Upserted c category name text { f with document := text, generation := f.generation + 1 }
      { c with features := c.features.map fun r => if r.category = category ∧ r.name = name then
        { f with document := text, generation := f.generation + 1 } else r }

theorem upsertFeature_upserted {document : Json}
    (h : c.upsertFeature category name document = .ok (a, c')) :
    requireIdentifier "feature" name = .ok () ∧ (∃ k, c.category? category = some k) ∧
      c.Upserted category name document.write a c' := by
  simp only [upsertFeature, bind_eq_ok, mapError_eq_ok, requireCategory_ok] at h
  obtain ⟨_, named, k, hk, h⟩ := h
  refine ⟨named, ⟨k, hk⟩, ?_⟩
  split at h
  case h_1 hn =>
    cases h
    exact .added hn
  case h_2 ho =>
    split at h <;> cases h
    case isTrue hd => exact .kept ho hd
    case isFalse hd => exact .changed ho hd

theorem upsertFeature_ok {document : Json}
    (h : c.upsertFeature category name document = .ok (a, c')) :
    a.category = category ∧ a.name = name ∧ a.document = document.write ∧ ∃ features serial,
      c' = { c with features, next := { c.next with feature := serial } } ∧
      ∀ f ∈ features, f = a ∨ f ∈ c.features := by
  obtain ⟨-, -, upserted⟩ := upsertFeature_upserted h
  cases upserted with
  | added => exact ⟨rfl, rfl, rfl, _, _, rfl, by simp [or_comm]⟩
  | kept hf hd => exact ⟨(feature?_some hf).1, (feature?_some hf).2, hd, _, _, rfl, fun _ => .inr⟩
  | changed hf =>
    exact ⟨(feature?_some hf).1, (feature?_some hf).2, rfl, _, _, rfl, by grind⟩

theorem deleteFeature_ok (h : c.deleteFeature category name = .ok (a, c')) :
    c' = { c with
      features := c.features.filter fun f => f.category != category || f.name != name } := by
  unfold deleteFeature at h
  split at h <;> cases h
  rfl

theorem createTask_ok (h : c.createTask spec = .ok (a, c')) :
    (∃ k, c.category? spec.category = some k) ∧
      a = { toTaskSpec := spec, id := taskId c.next.task } ∧
      c' = { c with tasks := c.tasks ++ [a], next := { c.next with task := c.next.task + 1 } } := by
  simp only [createTask, bind_eq_ok, requireCategory_ok] at h
  obtain ⟨k, hk, h⟩ := h
  cases h
  exact ⟨⟨k, hk⟩, rfl, rfl⟩

theorem setTaskStatus_ok {id : String} (h : c.setTaskStatus id status lastError = .ok (a, c')) :
    ∃ t, c.task? id = some t ∧ a = { t with status, lastError } ∧
      c' = { c with tasks := c.tasks.map fun r => if r.id = id then a else r } := by
  unfold setTaskStatus at h
  split at h <;> cases h
  exact ⟨_, ‹_›, rfl, rfl⟩

theorem deleteTask_ok {id : String} (h : c.deleteTask id = .ok (a, c')) :
    (∃ t, c.task? id = some t) ∧
      ∃ logs, c' = { c with tasks := c.tasks.filter (·.id != id), logs } := by
  unfold deleteTask at h
  split at h <;> cases h
  exact ⟨Option.isSome_iff_exists.mp ‹_›, _, rfl⟩

theorem appendLog_ok (h : c.appendLog task level message = .ok (a, c')) :
    ∃ logs serial, c' = { c with logs, next := { c.next with log := serial } } := by
  unfold appendLog at h
  split at h <;> cases h
  exact ⟨_, _, rfl⟩

-- All that an operation that succeeds can do.
inductive Effect (c : Catalog) : CatalogOp → Catalog → Prop
  | read : Effect c op c
  | createCategory (hs : spec.check = .ok ()) (h : c.category? spec.code = none) :
    Effect c (.createCategory spec)
      { c with categories := c.categories ++ [{ toCategorySpec := spec }] }
  | setCategoryActive : Effect c (.setCategoryActive code isActive) { c with
      categories := c.categories.map fun k => if k.code = code then { k with isActive } else k }
  | recordCategorySync : Effect c (.recordCategorySync code fingerprint syncedAt) { c with
      categories := c.categories.map fun k => if k.code = code then
        { k with fingerprint := some fingerprint, lastSyncedAt := some syncedAt } else k }
  | deleteCategory (logs : List LogLine) : Effect c (.deleteCategory code) { c with
      categories := c.categories.filter (·.code != code)
      signals := c.signals.filter (·.category != code)
      features := c.features.filter (·.category != code)
      tasks := c.tasks.filter (·.category != code), logs }
  | signals (signals : List Signal) (serial : Nat) :
    Effect c op { c with signals, next := { c.next with signal := serial } }
  | assets (assets : List Asset) (serial : Nat) :
    Effect c op { c with assets, next := { c.next with asset := serial } }
  | upsertFeature {document : Json} {features : List Feature} (hc : a.category = category)
    (hn : a.name = name)
    (hd : a.document = document.write) (hs : ∀ f ∈ features, f = a ∨ f ∈ c.features) :
    Effect c (.upsertFeature category name document)
      { c with features, next := { c.next with feature := serial } }
  | deleteFeature : Effect c (.deleteFeature category name)
      { c with features := c.features.filter fun f => f.category != category || f.name != name }
  | createTask (hk : ∃ k, c.category? spec.category = some k) : Effect c (.createTask spec) { c with
      tasks := c.tasks ++ [{ toTaskSpec := spec, id := taskId c.next.task }]
      next := { c.next with task := c.next.task + 1 } }
  | setTaskStatus {id : String} (ht : c.task? id = some t) :
    Effect c (.setTaskStatus id status lastError) { c with
      tasks := c.tasks.map fun r => if r.id = id then { t with status, lastError } else r }
  | deleteTask {id : String} (logs : List LogLine) :
    Effect c (.deleteTask id) { c with tasks := c.tasks.filter (·.id != id), logs }
  | appendLog (logs : List LogLine) (serial : Nat) :
    Effect c op { c with logs, next := { c.next with log := serial } }

theorem perform_effect {op : CatalogOp} {a : op.Answer} (h : op.perform c = .ok (a, c')) :
    c.Effect op c' := by
  cases op with
  | createCategory =>
    obtain ⟨hs, hn, rfl⟩ := createCategory_ok h
    exact .createCategory hs hn
  | setCategoryActive =>
    obtain ⟨-, rfl⟩ := changeCategory_ok h
    exact .setCategoryActive
  | recordCategorySync =>
    obtain ⟨-, rfl⟩ := changeCategory_ok h
    exact .recordCategorySync
  | deleteCategory =>
    obtain ⟨logs, rfl⟩ := deleteCategory_ok h
    exact .deleteCategory logs
  | addSignal =>
    obtain ⟨signals, serial, rfl⟩ := addSignal_ok h
    exact .signals signals serial
  | updateSignal =>
    obtain ⟨signals, rfl⟩ := updateSignal_ok h
    exact .signals signals c.next.signal
  | removeSignal =>
    obtain ⟨signals, rfl⟩ := removeSignal_ok h
    exact .signals signals c.next.signal
  | createAsset =>
    obtain ⟨assets, serial, rfl⟩ := createAsset_ok h
    exact .assets assets serial
  | setAssetChildTable | setAssetStatus =>
    obtain ⟨assets, rfl⟩ := changeAsset_ok h
    exact .assets assets c.next.asset
  | upsertFeature =>
    obtain ⟨hc, hn, hd, features, serial, rfl, hs⟩ := upsertFeature_ok h
    exact .upsertFeature hc hn hd hs
  | deleteFeature =>
    obtain rfl := deleteFeature_ok h
    exact .deleteFeature
  | createTask =>
    obtain ⟨hk, rfl, rfl⟩ := createTask_ok h
    exact .createTask hk
  | setTaskStatus =>
    obtain ⟨t, ht, rfl, rfl⟩ := setTaskStatus_ok h
    exact .setTaskStatus ht
  | deleteTask =>
    obtain ⟨-, logs, rfl⟩ := deleteTask_ok h
    exact .deleteTask logs
  | appendLog =>
    obtain ⟨logs, serial, rfl⟩ := appendLog_ok h
    exact .appendLog logs serial
  | _ =>
    cases h
    exact .read

-- The names of the categories stay, but for those of new and of deleted ones.

def keys (c : Catalog) : List CategoryKey := c.categories.map (·.toCategoryKey)

-- No two categories have the same code.
def Unique (c : Catalog) : Prop := c.keys.Pairwise fun k l => k.code ≠ l.code

theorem Unique.eq (h : c.Unique) (hk : k ∈ c.keys) (hl : l ∈ c.keys) (hc : k.code = l.code) :
    k = l := by
  unfold Unique at h
  generalize c.keys = ks at *
  induction h with
  | nil => contradiction
  | cons hd _ ih =>
    rcases List.mem_cons.mp hk with rfl | hk' <;> rcases List.mem_cons.mp hl with rfl | hl'
    · rfl
    · exact absurd hc (hd l hl')
    · exact absurd hc.symm (hd k hk')
    · exact ih hk' hl'

inductive Rekeyed (c : Catalog) : CatalogOp → List CategoryKey → Prop
  | same (h : ks = c.keys) : Rekeyed c op ks
  | added (hs : spec.check = .ok ()) (hn : ∀ k ∈ c.keys, k.code ≠ spec.code)
    (h : ks = c.keys ++ [spec.toCategoryKey]) : Rekeyed c (.createCategory spec) ks
  | removed (h : ks = c.keys.filter (·.code != code)) : Rekeyed c (.deleteCategory code) ks

theorem keys_of_getCategory (h : c.getCategory code = some k) :
    k.toCategoryKey ∈ c.keys ∧ k.code = code := by
  obtain ⟨k, hk, rfl⟩ := Option.map_eq_some_iff.mp h
  have hc : k.code = code := by simpa using List.find?_some hk
  exact ⟨List.mem_map_of_mem (List.mem_of_find?_eq_some hk), hc⟩

theorem keys_map {f : Category → Category}
    (h : c'.categories = c.categories.map fun k => if k.code = code then f k else k)
    (hf : ∀ k, (f k).toCategoryKey = k.toCategoryKey) : c'.keys = c.keys := by
  rw [keys, h, List.map_map]
  refine List.map_congr_left fun k _ => ?_
  simp only [Function.comp]
  split
  · exact hf k
  · rfl

theorem Effect.keys (h : c.Effect op c') : c.Rekeyed op c'.keys := by
  cases h with
  | createCategory hs hn =>
    refine .added hs (fun k hk => ?_) (by simp [Catalog.keys])
    obtain ⟨k, hm, rfl⟩ := List.mem_map.mp hk
    simpa using List.find?_eq_none.mp hn k hm
  | setCategoryActive | recordCategorySync => exact .same (keys_map rfl fun _ => rfl)
  | deleteCategory => exact .removed (by simp [Catalog.keys, List.filter_map, Function.comp_def])
  | _ => exact .same rfl

theorem Effect.unique (h : c.Effect op c') (hc : c.Unique) : c'.Unique := by
  unfold Unique at *
  cases h.keys with
  | same h => exact h ▸ hc
  | added _ hn h => simpa [h, List.pairwise_append] using ⟨hc, hn⟩
  | removed h => exact h ▸ hc.filter _

end Historian.Catalog

namespace Historian.CatalogOp

-- An operation all of whose answers can be read, so that none is withheld. Only those that answer
-- with assets are none.
class Legible (op : CatalogOp) : Prop where
  plain : op.Plain

theorem plain {op : CatalogOp} [op.Legible] (a : op.Answer) : op.unreadable? a = none :=
  Legible.plain a

instance : (getCategory code).Legible := ⟨fun _ => rfl⟩
instance : (recordCategorySync code fingerprint time).Legible := ⟨fun _ => rfl⟩
instance : (listSignals category).Legible := ⟨fun _ => rfl⟩
instance : (setAssetChildTable code table).Legible := ⟨fun _ => rfl⟩
instance : (upsertFeature category feature document).Legible := ⟨fun _ => rfl⟩
instance : (getFeature category feature).Legible := ⟨fun _ => rfl⟩
instance : (createTask spec).Legible := ⟨fun _ => rfl⟩
instance : (getTask task).Legible := ⟨fun _ => rfl⟩
instance : (listTasks category).Legible := ⟨fun _ => rfl⟩
instance : (setTaskStatus task status error).Legible := ⟨fun _ => rfl⟩
instance : (deleteTask task).Legible := ⟨fun _ => rfl⟩
instance : (appendLog task level message).Legible := ⟨fun _ => rfl⟩

-- An asset that cannot be read is the only reason why an answer is withheld.
theorem unreadable?_error {op : CatalogOp} {a : op.Answer} (h : op.unreadable? a = some e) :
    ∃ column, e = .database (.unreadable column) := by
  have asset {a : Asset} (h : a.unreadable? = some e) :
      ∃ column, e = .database (.unreadable column) := by
    obtain ⟨column, -, rfl⟩ := Option.map_eq_some_iff.mp h
    exact ⟨column, rfl⟩
  cases op with
  | createAsset => exact asset h
  | getAsset =>
    obtain ⟨_, -, h⟩ := Option.bind_eq_some_iff.mp h
    exact asset h
  | listAssets =>
    obtain ⟨_, -, h⟩ := List.exists_of_findSome?_eq_some h
    exact asset h
  | _ => cases h

-- What an operation does is not undone when its answer is withheld.
theorem carryOut_cases (op : CatalogOp) (c : Catalog) :
    (∃ e, op.perform c = .error e ∧ op.carryOut c = (.error e, c)) ∨
    ∃ a c', op.perform c = .ok (a, c') ∧
      ((op.unreadable? a = none ∧ op.carryOut c = (.ok a, c')) ∨
        ∃ e, op.unreadable? a = some e ∧ op.carryOut c = (.error e, c')) := by
  unfold carryOut
  cases ho : op.perform c with
  | error e => exact .inl ⟨e, rfl, rfl⟩
  | ok r =>
    obtain ⟨a, c'⟩ := r
    refine .inr ⟨a, c', rfl, ?_⟩
    cases hr : op.unreadable? a with
    | none => exact .inl ⟨rfl, by simp [hr]⟩
    | some e => exact .inr ⟨e, rfl, by simp [hr]⟩

-- The operations on signals, and those on tasks and their logs.

def OnSignals : CatalogOp → Prop
  | .addSignal _ | .updateSignal _ | .removeSignal .. | .deleteCategory _ => True
  | _ => False

def OnTasks : CatalogOp → Prop
  | .createTask _ | .setTaskStatus .. | .deleteTask _ | .appendLog .. | .deleteCategory _ => True
  | _ => False

-- All other operations leave them alone.
structure Spares (op : CatalogOp) (c c' : Catalog) : Prop where
  signals : ¬op.OnSignals → c'.signals = c.signals
  tasks : ¬op.OnTasks → c'.tasks = c.tasks
  logs : ¬op.OnTasks → c'.logs = c.logs
  nextTask : ¬op.OnTasks → c'.next.task = c.next.task

theorem Spares.of_eq {op : CatalogOp} (signals : c'.signals = c.signals)
    (tasks : c'.tasks = c.tasks) (logs : c'.logs = c.logs)
    (nextTask : c'.next.task = c.next.task) : op.Spares c c' :=
  ⟨fun _ => signals, fun _ => tasks, fun _ => logs, fun _ => nextTask⟩

open Catalog in
theorem perform_spares {op : CatalogOp} {a : op.Answer} (h : op.perform c = .ok (a, c')) :
    op.Spares c c' := by
  cases op with
  | createCategory =>
    obtain ⟨-, -, rfl⟩ := createCategory_ok h
    exact .of_eq rfl rfl rfl rfl
  | setCategoryActive | recordCategorySync =>
    obtain ⟨-, rfl⟩ := changeCategory_ok h
    exact .of_eq rfl rfl rfl rfl
  | addSignal =>
    obtain ⟨_, _, rfl⟩ := addSignal_ok h
    exact ⟨fun hn => absurd trivial hn, fun _ => rfl, fun _ => rfl, fun _ => rfl⟩
  | updateSignal =>
    obtain ⟨_, rfl⟩ := updateSignal_ok h
    exact ⟨fun hn => absurd trivial hn, fun _ => rfl, fun _ => rfl, fun _ => rfl⟩
  | removeSignal =>
    obtain ⟨_, rfl⟩ := removeSignal_ok h
    exact ⟨fun hn => absurd trivial hn, fun _ => rfl, fun _ => rfl, fun _ => rfl⟩
  | createAsset =>
    obtain ⟨_, _, rfl⟩ := createAsset_ok h
    exact .of_eq rfl rfl rfl rfl
  | setAssetChildTable | setAssetStatus =>
    obtain ⟨_, rfl⟩ := changeAsset_ok h
    exact .of_eq rfl rfl rfl rfl
  | upsertFeature =>
    obtain ⟨-, -, -, _, _, rfl, -⟩ := upsertFeature_ok h
    exact .of_eq rfl rfl rfl rfl
  | deleteFeature =>
    obtain rfl := deleteFeature_ok h
    exact .of_eq rfl rfl rfl rfl
  | createTask =>
    obtain ⟨-, -, rfl⟩ := createTask_ok h
    exact ⟨fun _ => rfl, fun hn => absurd trivial hn, fun _ => rfl, fun hn => absurd trivial hn⟩
  | setTaskStatus =>
    obtain ⟨_, -, -, rfl⟩ := setTaskStatus_ok h
    exact ⟨fun _ => rfl, fun hn => absurd trivial hn, fun _ => rfl, fun _ => rfl⟩
  | deleteTask =>
    obtain ⟨-, _, rfl⟩ := deleteTask_ok h
    exact ⟨fun _ => rfl, fun hn => absurd trivial hn, fun hn => absurd trivial hn, fun _ => rfl⟩
  | appendLog =>
    obtain ⟨_, _, rfl⟩ := appendLog_ok h
    exact ⟨fun _ => rfl, fun _ => rfl, fun hn => absurd trivial hn, fun _ => rfl⟩
  | deleteCategory =>
    exact ⟨fun hn => absurd trivial hn, fun hn => absurd trivial hn, fun hn => absurd trivial hn,
      fun hn => absurd trivial hn⟩
  | _ =>
    cases h
    exact .of_eq rfl rfl rfl rfl

end Historian.CatalogOp
