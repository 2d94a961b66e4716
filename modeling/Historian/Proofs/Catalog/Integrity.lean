import Historian.Proofs.Catalog.Tasks

namespace Historian

namespace Catalog

-- What can be done to the rows of a table: `mine` are added, changed or removed. Rows whose keys
-- are `apart` can stand in one table, and keys are never changed.
inductive Edited (key : α → κ) (apart : κ → κ → Prop) (mine : α → Prop) (rows : List α) :
    List α → Prop
  | added (hm : mine r) (fresh : ∀ s ∈ rows, apart (key s) (key r)) :
    Edited key apart mine rows (rows ++ [r])
  | changed (f : α → α) (hf : ∀ r ∈ rows, key (f r) = key r)
    (hm : ∀ r ∈ rows, f r = r ∨ mine r ∧ mine (f r)) : Edited key apart mine rows (rows.map f)
  | removed (p : α → Bool) (hm : ∀ r ∈ rows, p r = false → mine r) :
    Edited key apart mine rows (rows.filter p)

namespace Edited

variable {key : α → κ} {apart : κ → κ → Prop} {mine : α → Prop} {rows rows' : List α}

theorem refl : Edited key apart mine rows rows := by
  have kept : Edited key apart mine rows (rows.filter fun _ => true) := .removed _ (by simp)
  simpa using kept

-- Some rows are replaced where they stand.
theorem replaced {p : α → Prop} [DecidablePred p] {f : α → α}
    (hf : ∀ r ∈ rows, p r → key (f r) = key r) (hm : ∀ r ∈ rows, p r → mine r ∧ mine (f r)) :
    Edited key apart mine rows (rows.map fun r => if p r then f r else r) := by
  refine .changed _ (fun r hr => ?_) (fun r hr => ?_)
  · split
    case isTrue h => exact hf r hr h
    case isFalse => rfl
  · split
    case isTrue h => exact .inr (hm r hr h)
    case isFalse => exact .inl rfl

theorem pairwise (h : Edited key apart mine rows rows') (hp : (rows.map key).Pairwise apart) :
    (rows'.map key).Pairwise apart := by
  cases h with
  | added _ fresh => simpa [List.pairwise_append] using ⟨hp, fresh⟩
  | changed f hf _ =>
    rw [List.map_map]
    exact (List.map_congr_left hf : rows.map (key ∘ f) = rows.map key) ▸ hp
  | removed p _ => exact hp.sublist (List.filter_sublist.map key)

theorem mem (h : Edited key apart mine rows rows') (hr : r ∈ rows') : r ∈ rows ∨ mine r := by
  cases h with
  | added hm _ =>
    rcases List.mem_append.mp hr with hr | hr
    · exact .inl hr
    · exact .inr (List.mem_singleton.mp hr ▸ hm)
  | changed f _ hm =>
    obtain ⟨s, hs, rfl⟩ := List.mem_map.mp hr
    rcases hm s hs with same | ⟨_, hm⟩
    · exact .inl (same.symm ▸ hs)
    · exact .inr hm
  | removed p _ => exact .inl (List.mem_filter.mp hr).1

-- All other rows stay, in their places.
theorem others {p : α → Bool} (h : Edited key apart mine rows rows')
    (hp : ∀ r, mine r → p r = false) : rows'.filter p = rows.filter p := by
  cases h with
  | added hm _ => simp [List.filter_append, hp _ hm]
  | removed q hm =>
    rw [List.filter_filter]
    refine List.filter_congr fun r hr => ?_
    cases hq : q r with
    | true => simp
    | false => simp [hp r (hm r hr hq)]
  | changed f hf hm =>
    clear hf
    induction rows with
    | nil => rfl
    | cons r rows ih =>
      have rest := ih fun s hs => hm s (.tail _ hs)
      rcases hm r (.head _) with same | ⟨before, after⟩
      · simp [List.filter_cons, same, rest]
      · simp [hp _ before, hp _ after, rest]

end Edited

variable {c c' : Catalog} {code : String}

def Has (c : Catalog) (code : String) : Prop := ∃ k ∈ c.categories, k.code = code

def HasTask (c : Catalog) (id : String) : Prop := ∃ t ∈ c.tasks, t.id = id

-- Rows have keys of their own and refer to rows that are there.
structure Integral (c : Catalog) : Prop extends Numbered c where
  categoryCodes : (c.categories.map (·.code)).Nodup
  signalCodes : (c.signals.map fun s => (s.category, s.code)).Nodup
  assetCodes : (c.assets.map (·.code)).Nodup
  assetIds : (c.assets.map (·.id)).Nodup
  assetsGiven : ∀ a ∈ c.assets, a.id < c.next.asset
  featureNames : (c.features.map fun f => (f.category, f.name)).Nodup
  signalsOwned : ∀ s ∈ c.signals, c.Has s.category
  assetsOwned : ∀ a ∈ c.assets, c.Has a.category
  featuresOwned : ∀ f ∈ c.features, c.Has f.category
  tasksOwned : ∀ t ∈ c.tasks, c.Has t.category
  logsOwned : ∀ l ∈ c.logs, c.HasTask l.task

theorem Numbered.owner (h : c.Numbered) (ht : t ∈ c.tasks) :
    ∀ r ∈ c.tasks, r.id = t.id → r.category = t.category :=
  fun _ hr hi => congrArg (·.category) (h.eq ht hr hi)

theorem Numbered.fresh (h : c.Numbered) (ht : t ∈ c.tasks) : t.id ≠ taskId c.next.task := by
  obtain ⟨n, hn, hi⟩ := h.given t ht
  exact fun he => Nat.ne_of_lt hn (taskId_injective (hi.symm.trans he))

-- No row is of that category.
structure Lacks (c : Catalog) (code : String) : Prop where
  signals : ∀ s ∈ c.signals, s.category ≠ code
  assets : ∀ a ∈ c.assets, a.category ≠ code
  features : ∀ f ∈ c.features, f.category ≠ code
  tasks : ∀ t ∈ c.tasks, t.category ≠ code

-- All that an operation on one category can do. A line of a log is one of its rows if no task of
-- another category has that log.
structure Changes (c : Catalog) (code : String) (c' : Catalog) : Prop where
  categories : Edited (·.code) (· ≠ ·) (·.code = code) c.categories c'.categories
  signals : Edited (fun s => (s.category, s.code)) (· ≠ ·) (·.category = code)
    c.signals c'.signals
  assets : Edited (fun a => (a.code, a.id)) (fun x y => x.1 ≠ y.1 ∧ x.2 ≠ y.2)
    (fun a => a.category = code ∧ a.id < c'.next.asset) c.assets c'.assets
  features : Edited (fun f => (f.category, f.name)) (· ≠ ·) (·.category = code)
    c.features c'.features
  tasks : Edited (·.id) (· ≠ ·) (·.category = code) c.tasks c'.tasks
  logs : Edited (·.id) (fun _ _ => True)
    (fun l => ∀ t ∈ c.tasks, t.id = l.task → t.category = code) c.logs c'.logs
  given : c.next.asset ≤ c'.next.asset
  owner : c'.Has code ∨ c'.Lacks code
  logged : (∀ l ∈ c.logs, c.HasTask l.task) → ∀ l ∈ c'.logs, c'.HasTask l.task

namespace Changes

variable {signals : List Signal} {assets : List Asset} {features : List Feature}
  {tasks : List StreamTask} {logs : List LogLine} {serial : Nat}

-- Most operations change one table.

theorem withSignals (there : c.Has code)
    (h : Edited (fun s => (s.category, s.code)) (· ≠ ·) (·.category = code) c.signals signals) :
    c.Changes code { c with signals, next := { c.next with signal := serial } } :=
  ⟨.refl, h, .refl, .refl, .refl, .refl, Nat.le_refl _, .inl there, id⟩

theorem withAssets (there : c.Has code) (hs : c.next.asset ≤ serial)
    (h : Edited (fun a => (a.code, a.id)) (fun x y => x.1 ≠ y.1 ∧ x.2 ≠ y.2)
      (fun a => a.category = code ∧ a.id < serial) c.assets assets) :
    c.Changes code { c with assets, next := { c.next with asset := serial } } :=
  ⟨.refl, .refl, h, .refl, .refl, .refl, hs, .inl there, id⟩

theorem withFeatures (there : c.Has code)
    (h : Edited (fun f => (f.category, f.name)) (· ≠ ·) (·.category = code) c.features features) :
    c.Changes code { c with features, next := { c.next with feature := serial } } :=
  ⟨.refl, .refl, .refl, h, .refl, .refl, Nat.le_refl _, .inl there, id⟩

end Changes

-- What each operation does to the rows.

theorem has_of_category? (h : c.category? code = some k) : c.Has code :=
  ⟨k, List.mem_of_find?_eq_some h, by simpa using List.find?_some h⟩

theorem createCategory_changes (h : c.createCategory spec = .ok (a, c')) :
    c.Changes spec.code c' := by
  obtain ⟨-, free, rfl⟩ := createCategory_ok h
  have fresh : ∀ k ∈ c.categories, k.code ≠ spec.code := by
    simpa [category?, List.find?_eq_none] using free
  have there : ∃ k ∈ c.categories ++ [{ toCategorySpec := spec }], k.code = spec.code :=
    ⟨_, List.mem_append_right _ (.head _), rfl⟩
  exact ⟨.added rfl fresh, .refl, .refl, .refl, .refl, .refl, Nat.le_refl _, .inl there, id⟩

theorem changeCategory_changes (h : c.changeCategory code f = .ok (a, c'))
    (hf : ∀ k, (f k).code = k.code) : c.Changes code c' := by
  obtain ⟨⟨k, hk⟩, rfl⟩ := changeCategory_ok h
  obtain ⟨k, hm, hk⟩ := has_of_category? hk
  have there : ∃ k ∈ c.categories.map (fun k => if k.code = code then f k else k), k.code = code :=
    ⟨_, List.mem_map_of_mem hm, by simp [hk, hf]⟩
  refine ⟨.replaced (fun k _ _ => hf k) fun k _ hk => ⟨hk, (hf k).trans hk⟩, .refl, .refl, .refl,
    .refl, .refl, Nat.le_refl _, .inl there, id⟩

theorem deleteCategory_row (h : c.deleteCategory code = .ok (u, c')) :
    c.Has code ∧ c.assetCount code = 0 ∧ c.liveTaskCount code = 0 ∧ c' = { c with
      categories := c.categories.filter (·.code != code)
      signals := c.signals.filter (·.category != code)
      features := c.features.filter (·.category != code)
      tasks := c.tasks.filter (·.category != code)
      logs := c.logs.filter
        (!((c.tasks.filter (·.category == code)).map (·.id)).contains ·.task) } := by
  have ⟨unused, idle⟩ := deleteCategory_unused h
  simp only [deleteCategory, bind_eq_ok, requireCategory_ok] at h
  obtain ⟨k, hk, h⟩ := h
  simp only [unused, idle, Nat.lt_irrefl, if_false] at h
  cases h
  exact ⟨has_of_category? hk, unused, idle, rfl⟩

-- The logs that go with a category.
theorem gone_iff {l : LogLine} :
    (!((c.tasks.filter (·.category == code)).map (·.id)).contains l.task) = false ↔
      ∃ t ∈ c.tasks, t.category = code ∧ t.id = l.task := by
  simp [and_assoc]

theorem deleteCategory_changes (hn : c.Numbered) (h : c.deleteCategory code = .ok (u, c')) :
    c.Changes code c' := by
  obtain ⟨-, unused, -, rfl⟩ := deleteCategory_row h
  refine ⟨.removed _ (by simp), .removed _ (by simp), .refl, .removed _ (by simp),
    .removed _ (by simp), .removed _ fun l _ hl => ?_, Nat.le_refl _, .inr ?_, fun owned l hl => ?_⟩
  · obtain ⟨t, ht, rfl, hi⟩ := gone_iff.mp hl
    exact hi ▸ hn.owner ht
  · refine ⟨by simp, fun a ha => ?_, by simp, by simp⟩
    simpa using List.countP_eq_zero.mp unused a ha
  · obtain ⟨hm, hl⟩ := List.mem_filter.mp hl
    obtain ⟨t, ht, hi⟩ := owned l hm
    have stays : t.category ≠ code := fun hc => by
      rw [gone_iff.mpr ⟨t, ht, hc, hi⟩] at hl
      cases hl
    exact ⟨t, List.mem_filter.mpr ⟨ht, by simpa using stays⟩, hi⟩

theorem addSignal_changes (h : c.addSignal spec = .ok (a, c')) : c.Changes spec.category c' := by
  simp only [addSignal, bind_eq_ok, requireCategory_ok] at h
  obtain ⟨_, -, k, hk, h⟩ := h
  split at h <;> cases h
  case isFalse free =>
    refine .withSignals (has_of_category? hk) (.added rfl fun s hs he => free ?_)
    obtain ⟨category, code⟩ := Prod.mk.inj he
    exact List.find?_isSome.mpr ⟨s, hs, by simp [category, code, SignalSpec.asStored]⟩

theorem updateSignal_changes (h : c.updateSignal spec = .ok (a, c')) :
    c.Changes spec.category c' := by
  simp only [updateSignal, bind_eq_ok, requireCategory_ok] at h
  obtain ⟨_, -, k, hk, h⟩ := h
  split at h
  case h_1 => cases h
  split at h <;> cases h
  refine .withSignals (has_of_category? hk)
    (.replaced (fun s _ hs => ?_) fun s _ hs => ⟨hs.1, rfl⟩)
  simp [hs, SignalSpec.asStored]

theorem removeSignal_changes (hc : c.Integral) {category : String}
    (h : c.removeSignal category code = .ok (u, c')) : c.Changes category c' := by
  unfold removeSignal at h
  split at h <;> cases h
  case isTrue there =>
    obtain ⟨s, hs⟩ := Option.isSome_iff_exists.mp there
    have named : s.category = category ∧ s.code = code := by simpa using List.find?_some hs
    have owner := named.1 ▸ hc.signalsOwned s (List.mem_of_find?_eq_some hs)
    refine .withSignals owner (.removed _ fun r _ hr => ?_)
    simpa using (Bool.or_eq_false_iff.mp hr).1

theorem createAsset_changes (hc : c.Integral) (h : c.createAsset spec = .ok (a, c')) :
    c.Changes spec.category c' := by
  simp only [createAsset, bind_eq_ok, requireCategory_ok] at h
  obtain ⟨_, -, k, hk, h⟩ := h
  split at h <;> cases h
  case isFalse free =>
    refine .withAssets (has_of_category? hk) (Nat.le_succ _)
      (.added ⟨spec.asStored_category, Nat.lt_succ_self _⟩ fun s hs => ⟨fun he => free ?_, ?_⟩)
    · exact List.find?_isSome.mpr ⟨s, hs, by simpa using he⟩
    · exact Nat.ne_of_lt (hc.assetsGiven s hs)

theorem changeAsset_changes (hc : c.Integral) (ha : c.asset? code = some a) {f : Asset → Asset}
    (hf : ∀ a, (f a).toAssetSpec.category = a.category ∧ (f a).code = a.code ∧ (f a).id = a.id)
    (h : c.changeAsset code f = .ok (u, c')) : c.Changes a.category c' := by
  unfold changeAsset at h
  split at h <;> cases h
  have hm := List.mem_of_find?_eq_some ha
  have named : a.code = code := by simpa using List.find?_some ha
  refine .withAssets (hc.assetsOwned a hm) (Nat.le_refl _)
    (.replaced (fun r _ _ => by simp [hf]) fun r hr hk => ?_)
  obtain rfl := List.inj_on_of_nodup_map hc.assetCodes hr hm (hk.trans named.symm)
  have given := hc.assetsGiven r hm
  exact ⟨⟨rfl, given⟩, (hf r).1, (hf r).2.2 ▸ given⟩

theorem upsertFeature_changes {document : Json} {category name : String}
    (h : c.upsertFeature category name document = .ok (a, c')) :
    c' = c ∨ c.Changes category c' := by
  obtain ⟨-, ⟨k, hk⟩, upserted⟩ := upsertFeature_upserted h
  cases upserted with
  | added free =>
    refine .inr (.withFeatures (has_of_category? hk) (.added rfl fun f hf he => ?_))
    exact List.find?_eq_none.mp free f hf (by simpa using he)
  | kept => exact .inl rfl
  | changed there =>
    have named := feature?_some there
    refine .inr (.withFeatures (has_of_category? hk)
      (.replaced (fun f _ hf => ?_) fun f _ hf => ⟨hf.1, named.1⟩))
    simp [hf, named]

theorem deleteFeature_changes (hc : c.Integral) {category name : String}
    (h : c.deleteFeature category name = .ok (u, c')) : c.Changes category c' := by
  unfold deleteFeature at h
  split at h <;> cases h
  case isTrue there =>
    obtain ⟨f, hf⟩ := Option.isSome_iff_exists.mp there
    have named := feature?_some hf
    have owner := named.1 ▸ hc.featuresOwned f (List.mem_of_find?_eq_some hf)
    refine .withFeatures owner (.removed _ fun r _ hr => ?_)
    simpa using (Bool.or_eq_false_iff.mp hr).1

theorem createTask_changes (hn : c.Numbered) (h : c.createTask spec = .ok (a, c')) :
    c.Changes spec.category c' := by
  obtain ⟨⟨k, hk⟩, rfl, rfl⟩ := createTask_ok h
  refine ⟨.refl, .refl, .refl, .refl, .added rfl fun t ht => hn.fresh ht, .refl, Nat.le_refl _,
    .inl (has_of_category? hk), fun owned l hl => ?_⟩
  obtain ⟨t, ht, hi⟩ := owned l hl
  exact ⟨t, List.mem_append_left _ ht, hi⟩

theorem setTaskStatus_changes (hc : c.Integral) {id : String} (ht : c.task? id = some t)
    (h : c.setTaskStatus id status lastError = .ok (a, c')) : c.Changes t.category c' := by
  obtain ⟨_, hs, rfl, rfl⟩ := setTaskStatus_ok h
  cases ht.symm.trans hs
  have hm := List.mem_of_find?_eq_some ht
  have named : t.id = id := by simpa using List.find?_some ht
  refine ⟨.refl, .refl, .refl, .refl,
    .replaced (fun r _ hr => named.trans hr.symm) fun r hr hi => ?_, .refl, Nat.le_refl _,
    .inl (hc.tasksOwned t hm), fun owned l hl => ?_⟩
  · exact ⟨hc.owner hm r hr (hi.trans named.symm), rfl⟩
  · obtain ⟨r, hr, hi⟩ := owned l hl
    refine ⟨_, List.mem_map_of_mem hr, ?_⟩
    split
    case isTrue he => exact (named.trans he.symm).trans hi
    case isFalse => exact hi

theorem deleteTask_changes (hc : c.Integral) {id : String} (ht : c.task? id = some t)
    (h : c.deleteTask id = .ok (u, c')) : c.Changes t.category c' := by
  unfold deleteTask at h
  split at h <;> cases h
  have hm := List.mem_of_find?_eq_some ht
  have named : t.id = id := by simpa using List.find?_some ht
  have owner {r : StreamTask} (hr : r ∈ c.tasks) (hi : r.id = id) : r.category = t.category :=
    hc.owner hm r hr (hi.trans named.symm)
  refine ⟨.refl, .refl, .refl, .refl, .removed _ fun r hr hi => owner hr (by simpa using hi),
    .removed _ fun l _ hl r hr hi => owner hr ?_, Nat.le_refl _, .inl (hc.tasksOwned t hm),
    fun owned l hl => ?_⟩
  · exact hi.trans (by simpa using hl)
  · obtain ⟨hl, hi⟩ := List.mem_filter.mp hl
    obtain ⟨r, hr, he⟩ := owned l hl
    exact ⟨r, List.mem_filter.mpr ⟨hr, by simpa [he] using hi⟩, he⟩

theorem appendLog_changes (hc : c.Integral) {task : String} (ht : c.task? task = some t)
    (h : c.appendLog task level message = .ok (u, c')) : c.Changes t.category c' := by
  unfold appendLog at h
  split at h <;> cases h
  have hm := List.mem_of_find?_eq_some ht
  have named : t.id = task := by simpa using List.find?_some ht
  refine ⟨.refl, .refl, .refl, .refl, .refl, .added (fun r hr hi => ?_) fun _ _ => trivial,
    Nat.le_refl _, .inl (hc.tasksOwned t hm), fun owned l hl => ?_⟩
  · exact hc.owner hm r hr (hi.trans named.symm)
  · rcases List.mem_append.mp hl with hl | hl
    · exact owned l hl
    · rw [List.mem_singleton.mp hl]
      exact ⟨t, hm, named⟩

end Catalog

-- The category that an operation names, or that the asset or the task it names is of.
def CatalogOp.scope? (c : Catalog) : CatalogOp → Option String
  | .createCategory spec => some spec.code
  | .getCategory code | .setCategoryActive code _ | .deleteCategory code
  | .recordCategorySync code .. => some code
  | .addSignal spec | .updateSignal spec => some spec.category
  | .getSignal category _ | .listSignals category | .removeSignal category _
  | .listAssets category | .upsertFeature category .. | .getFeature category _
  | .listFeatures category | .deleteFeature category _ => some category
  | .createAsset spec => some spec.category
  | .getAsset code | .setAssetChildTable code _ | .setAssetStatus code _ =>
    (c.asset? code).map (·.category)
  | .createTask spec => some spec.category
  | .getTask id | .setTaskStatus id .. | .deleteTask id | .appendLog id .. | .listLogs id =>
    (c.task? id).map (·.category)
  | .listCategories => none
  | .listTasks category => category

namespace Catalog

variable {c c' : Catalog}

theorem perform_changes (hc : c.Integral) {op : CatalogOp} {a : op.Answer}
    (h : op.perform c = .ok (a, c')) :
    c' = c ∨ ∃ code, op.scope? c = some code ∧ c.Changes code c' := by
  -- an asset or a task that is changed is there
  have asset {code : String} {f : Asset → Asset} (h : c.changeAsset code f = .ok ((), c'))
      (hf : ∀ a, (f a).toAssetSpec.category = a.category ∧ (f a).code = a.code ∧ (f a).id = a.id) :
      ∃ category, (c.asset? code).map (·.category) = some category ∧ c.Changes category c' := by
    cases ha : c.asset? code with
    | none => simp [changeAsset, ha] at h
    | some a => exact ⟨_, rfl, changeAsset_changes hc ha hf h⟩
  cases op with
  | createCategory spec => exact .inr ⟨_, rfl, createCategory_changes h⟩
  | setCategoryActive => exact .inr ⟨_, rfl, changeCategory_changes h fun _ => rfl⟩
  | recordCategorySync => exact .inr ⟨_, rfl, changeCategory_changes h fun _ => rfl⟩
  | deleteCategory => exact .inr ⟨_, rfl, deleteCategory_changes hc.toNumbered h⟩
  | addSignal => exact .inr ⟨_, rfl, addSignal_changes h⟩
  | updateSignal => exact .inr ⟨_, rfl, updateSignal_changes h⟩
  | removeSignal => exact .inr ⟨_, rfl, removeSignal_changes hc h⟩
  | createAsset => exact .inr ⟨_, rfl, createAsset_changes hc h⟩
  | setAssetChildTable => exact .inr (asset h fun _ => ⟨rfl, rfl, rfl⟩)
  | setAssetStatus => exact .inr (asset h fun _ => ⟨rfl, rfl, rfl⟩)
  | upsertFeature => exact (upsertFeature_changes h).imp_right fun h => ⟨_, rfl, h⟩
  | deleteFeature => exact .inr ⟨_, rfl, deleteFeature_changes hc h⟩
  | createTask => exact .inr ⟨_, rfl, createTask_changes hc.toNumbered h⟩
  | setTaskStatus id =>
    obtain ⟨t, ht, -⟩ := setTaskStatus_ok h
    exact .inr ⟨_, by simp [CatalogOp.scope?, ht], setTaskStatus_changes hc ht h⟩
  | deleteTask id =>
    obtain ⟨⟨t, ht⟩, -⟩ := deleteTask_ok h
    exact .inr ⟨_, by simp [CatalogOp.scope?, ht], deleteTask_changes hc ht h⟩
  | appendLog task =>
    cases ht : c.task? task with
    | none => simp [CatalogOp.perform, appendLog, ht] at h
    | some t => exact .inr ⟨_, by simp [CatalogOp.scope?, ht], appendLog_changes hc ht h⟩
  | _ => cases h; exact .inl rfl

-- Every change keeps the catalog in order.

theorem Changes.has (h : c.Changes code c') (hk : c.Has category) (hn : category ≠ code) :
    c'.Has category := by
  obtain ⟨k, hk, rfl⟩ := hk
  have same := h.categories.others (p := (·.code == k.code)) fun l hl => by
    simpa [hl] using hn.symm
  have there : k ∈ c.categories.filter (·.code == k.code) := List.mem_filter.mpr ⟨hk, by simp⟩
  exact ⟨k, (List.mem_filter.mp (same ▸ there)).1, rfl⟩

-- Whoever has rows is there, if that was so.
theorem Changes.owned (h : c.Changes code c') {owner : α → String} {rows rows' : List α}
    (owned : ∀ r ∈ rows, c.Has (owner r)) (hr : ∀ r ∈ rows', r ∈ rows ∨ owner r = code)
    (lacks : c'.Lacks code → ∀ r ∈ rows', owner r ≠ code) : ∀ r ∈ rows', c'.Has (owner r) := by
  intro r hm
  by_cases he : owner r = code
  · rcases h.owner with there | none
    · exact he ▸ there
    · exact absurd he (lacks none r hm)
  · rcases hr r hm with old | new
    · exact h.has (owned r old) he
    · exact absurd new he

theorem apart_iff {rows : List Asset} :
    (rows.map fun a => (a.code, a.id)).Pairwise (fun x y => x.1 ≠ y.1 ∧ x.2 ≠ y.2) ↔
      (rows.map (·.code)).Nodup ∧ (rows.map (·.id)).Nodup := by
  simp [List.Nodup, List.pairwise_map, List.pairwise_and_iff]

theorem Integral.changes (hc : c.Integral) (h : c.Changes code c') (hn : c'.Numbered) :
    c'.Integral where
  toNumbered := hn
  categoryCodes := h.categories.pairwise hc.categoryCodes
  signalCodes := h.signals.pairwise hc.signalCodes
  assetCodes := (apart_iff.mp (h.assets.pairwise (apart_iff.mpr ⟨hc.assetCodes, hc.assetIds⟩))).1
  assetIds := (apart_iff.mp (h.assets.pairwise (apart_iff.mpr ⟨hc.assetCodes, hc.assetIds⟩))).2
  assetsGiven a ha := by
    rcases h.assets.mem ha with old | new
    · exact Nat.lt_of_lt_of_le (hc.assetsGiven a old) h.given
    · exact new.2
  featureNames := h.features.pairwise hc.featureNames
  signalsOwned := h.owned hc.signalsOwned (fun _ => h.signals.mem) Lacks.signals
  assetsOwned :=
    h.owned hc.assetsOwned (fun _ hr => (h.assets.mem hr).imp_right And.left) Lacks.assets
  featuresOwned := h.owned hc.featuresOwned (fun _ => h.features.mem) Lacks.features
  tasksOwned := h.owned hc.tasksOwned (fun _ => h.tasks.mem) Lacks.tasks
  logsOwned := h.logged hc.logsOwned

theorem Integral.perform (hc : c.Integral) {op : CatalogOp} {a : op.Answer}
    (h : op.perform c = .ok (a, c')) : c'.Integral := by
  rcases perform_changes hc h with rfl | ⟨code, -, changes⟩
  · exact hc
  · exact hc.changes changes (hc.toNumbered.effect (perform_effect h))

-- An operation that fails leaves the catalog in order too, whether or not it took effect.
theorem Integral.carryOut (hc : c.Integral) (op : CatalogOp) : (op.carryOut c).2.Integral := by
  rcases op.carryOut_cases c with ⟨e, -, hr⟩ | ⟨a, c', ho, ⟨-, hr⟩ | ⟨e, -, hr⟩⟩
  · exact hr ▸ hc
  · exact hr ▸ hc.perform ho
  · exact hr ▸ hc.perform ho

-- The catalog after operations one after the other, whether they succeed or fail.
def after (ops : List CatalogOp) : Catalog :=
  ops.foldl (fun c op => (op.carryOut c).2) {}

theorem Integral.foldl (hc : c.Integral) (ops : List CatalogOp) :
    (ops.foldl (fun c op => (op.carryOut c).2) c).Integral := by
  induction ops generalizing c with
  | nil => exact hc
  | cons op ops ih => exact ih (hc.carryOut op)

theorem integral_empty : Integral {} :=
  ⟨⟨.nil, by simp⟩, .nil, .nil, .nil, .nil, by simp, .nil, by simp, by simp, by simp, by simp,
    by simp⟩

-- What counts the assets of a category counts all of them, in every record of the category.
structure Counted (c : Catalog) : Prop where
  listed : ∀ k ∈ c.listCategories, k.assetCount = (c.listAssets k.code).length
  found : c.getCategory code = some k → k ∈ c.listCategories

theorem counted (c : Catalog) : c.Counted where
  listed k hk := by
    obtain ⟨k, -, rfl⟩ := List.mem_map.mp hk
    simp [info, listAssets, sortedBy, assetCount, List.countP_eq_length_filter]
  found hk := by
    obtain ⟨k, there, rfl⟩ := Option.map_eq_some_iff.mp hk
    refine List.mem_map_of_mem ?_
    simpa [sortedBy] using List.mem_of_find?_eq_some there

-- A category was deleted with all that is its own, at a moment when it could be.
structure Deletes (c : Catalog) (code : String) (c' : Catalog) : Prop where
  there : c.Has code
  unused : ∀ a ∈ c.assets, a.category ≠ code
  idle : ∀ t ∈ c.tasks, t.category = code → t.status ≠ .running ∧ t.status ≠ .paused
  categories : c'.categories = c.categories.filter (·.code != code)
  signals : c'.signals = c.signals.filter (·.category != code)
  assets : c'.assets = c.assets
  features : c'.features = c.features.filter (·.category != code)
  tasks : c'.tasks = c.tasks.filter (·.category != code)
  logs : c'.logs = c.logs.filter fun l => (c.task? l.task).any (·.category != code)

theorem Integral.deletes (hc : c.Integral) (h : c.deleteCategory code = .ok (u, c')) :
    c.Deletes code c' := by
  obtain ⟨there, unused, idle, rfl⟩ := deleteCategory_row h
  refine ⟨there, ?_, ?_, rfl, rfl, rfl, rfl, rfl, List.filter_congr fun l hl => ?_⟩
  · simpa [assetCount] using unused
  · intro t ht hc
    have dead := List.countP_eq_zero.mp idle t ht
    simpa [hc, StreamStatus.isLive] using dead
  · obtain ⟨t, ht, hi⟩ := hc.logsOwned l hl
    have found : c.task? l.task = some t := hi ▸ hc.task? ht
    by_cases own : t.category = code
    · simp only [gone_iff.mpr ⟨t, ht, own, hi⟩, found, Option.any_some, own, bne_self_eq_false]
    · have stays := mt gone_iff.mp fun ⟨r, hr, hk, he⟩ =>
        own ((hc.owner ht r hr (he.trans hi.symm)).symm.trans hk)
      simp only [(Bool.not_eq_false _).mp stays, found, Option.any_some, bne_iff_ne.mpr own]

-- After any operations rows have keys of their own and owners that are there, categories count
-- their assets, and deleting a category deletes just what it should.
theorem integral_after (ops : List CatalogOp) :
    (after ops).Integral ∧ (after ops).Counted ∧ ∀ code c',
      CatalogOp.carryOut (after ops) (.deleteCategory code) = (.ok (), c') →
        (after ops).Deletes code c' := by
  have integral := integral_empty.foldl ops
  refine ⟨integral, counted _, fun code c' h => integral.deletes (u := ()) ?_⟩
  rcases (CatalogOp.deleteCategory code).carryOut_cases (after ops) with
    ⟨e, -, hr⟩ | ⟨a, _, ho, ⟨-, hr⟩ | ⟨e, hs, -⟩⟩
  · cases hr.symm.trans h
  · cases hr.symm.trans h
    exact ho
  · cases hs

-- A category with a row of each kind but an asset, beside another one.
def furnished : List CatalogOp :=
  [.createCategory { code := "motor", database := "plant", name := "Motor" },
    .createCategory { code := "pump", database := "plant", name := "Pump" },
    .createAsset { category := "pump", code := "p1", name := "First" },
    .addSignal (.stored "motor" "current" .numeric),
    .upsertFeature "motor" "load" (.object []),
    .createTask
      { category := "motor", feature := "load", generation := 1, streamName := "s",
        targetTable := "t", sql := "" },
    .appendLog "t1" .info "created"]

def cleared : Except CatalogError Unit × Catalog :=
  CatalogOp.carryOut (after furnished) (.deleteCategory "motor")

theorem run_furnished :
    cleared.1.isOk ∧ (after furnished).logs.map (·.task) = ["t1"] ∧ cleared.2.logs = [] ∧
      cleared.2.assets.map (·.code) = ["p1"] := by
  decide +kernel

theorem integral_after_deleted :
    (after furnished).Integral ∧ (after furnished).logs.map (·.task) = ["t1"] ∧ ∃ c',
      cleared = (.ok (), c') ∧ (after furnished).Deletes "motor" c' ∧ c'.logs = [] ∧
      c'.assets.map (·.code) = ["p1"] := by
  obtain ⟨succeeds, before, logs, assets⟩ := run_furnished
  obtain ⟨integral, -, deletes⟩ := integral_after furnished
  have deletes : ∀ c', cleared = (.ok (), c') → _ := deletes "motor"
  generalize cleared = r at *
  obtain ⟨_ | ⟨⟩, c'⟩ := r
  · cases succeeds
  · exact ⟨integral, before, c', rfl, deletes c' rfl, logs, assets⟩

end Catalog

end Historian
