import Historian.Proofs.Schema.Provision
import Historian.Proofs.Schema.Repair

namespace Historian

open Engine World Schema

namespace Catalog

variable {c c' : Catalog} {spec : AssetSpec}

-- At most one row was added, under the next number.
inductive Enrolled (c c' : Catalog) : Prop
  | same (h : c'.assets.map (·.id) = c.assets.map (·.id)) (hn : c'.next = c.next)
  | one (h : c'.assets.map (·.id) = c.assets.map (·.id) ++ [c.next.asset])
    (hn : c'.next = { c.next with asset := c.next.asset + 1 })

-- The row under a code in use, with the name of its child table.
def tabled (c : Catalog) (code name : String) : Catalog :=
  { c with
    assets := c.assets.map fun a =>
      if a.code = code then { a with childTable := some name } else a }

theorem Enrolled.tabled (h : Enrolled c c') : Enrolled c (c'.tabled code name) := by
  have ids : (c'.tabled code name).assets.map (·.id) = c'.assets.map (·.id) := by
    rw [Catalog.tabled, List.map_map]
    refine List.map_congr_left fun a _ => ?_
    simp only [Function.comp_apply]
    split <;> rfl
  cases h with
  | same h hn => exact .same (ids.trans h) hn
  | one h hn => exact .one (ids.trans h) hn

theorem setAssetChildTable_eq (h : c.asset? code = some a) (name : String) :
    c.setAssetChildTable code name = .ok ((), c.tabled code name) := by
  simp [setAssetChildTable, changeAsset, h, tabled]

theorem asset?_tabled (h : c.asset? code = some a) (name : String) :
    (c.tabled code name).asset? code = some { a with childTable := some name } := by
  rw [asset?_setAssetChildTable (setAssetChildTable_eq h name), h]
  rfl

-- A new asset has the next number and no table.
theorem createAsset_row (h : c.createAsset spec = .ok (a, c')) :
    a.code = spec.code ∧ a.category = spec.category ∧ a.childTable = none ∧ a.id = c.next.asset ∧
      c' = { c with
        assets := c.assets ++ [a], next := { c.next with asset := c.next.asset + 1 } } := by
  simp only [createAsset, bind_eq_ok] at h
  obtain ⟨_, -, _, -, h⟩ := h
  split at h <;> cases h
  exact ⟨spec.asStored_code, spec.asStored_category, rfl, rfl, rfl⟩

-- The same asset cannot be made again.
theorem createAsset_again (h : c.createAsset spec = .ok (a, c')) :
    c'.createAsset spec = .error (.assetExists spec.code) := by
  have row := (asset?_createAsset h).2
  obtain ⟨code, -, -, -, hc⟩ := createAsset_row h
  rw [code] at row
  have categories : c'.requireCategory spec.category = c.requireCategory spec.category := by
    rw [hc]
    rfl
  simp only [createAsset, bind_eq_ok] at h
  obtain ⟨_, valid, _, owner, -⟩ := h
  simp only [createAsset, valid, categories, owner, ok_bind, row, Option.isSome_some, if_true]
  rfl

theorem createAsset_exists (h : c.createAsset spec = .error (.assetExists code)) :
    code = spec.code := by
  simp only [createAsset, bind_eq_error] at h
  obtain h | ⟨_, -, h | ⟨_, -, h⟩⟩ := h
  · cases hr : requireIdentifier "asset" spec.code <;> simp [hr] at h
  · unfold requireCategory at h
    split at h <;> cases h
  · split at h <;> cases h
    rfl

end Catalog

theorem Schema.childTableStatement_id {k : CategoryKey} {id : Int}
    (h : childTableStatement k asset id = .ok text) (id' : Int) :
    ∃ text', childTableStatement k asset id' = .ok text' := by
  simp only [childTableStatement, bind_unit_eq_ok, pure_eq_ok] at h ⊢
  obtain ⟨valid, code, table, -⟩ := h
  exact ⟨_, valid, code, table, rfl⟩

namespace Synchronizer

variable {w w' : World Service} {policy : RetryPolicy} {spec : AssetSpec} {k : CategoryKey}
  {c c' : Catalog} {t : Tables}

-- What provisioning comes to if nothing disturbs it, as a function of the catalog and the tables.

-- The category of the asset, if it can be provisioned for.
def admission (spec : AssetSpec) (c : Catalog) : Except SyncError CategoryKey :=
  match c.getCategory spec.category with
  | none => .error (.categoryMissing spec.category)
  | some k =>
    if !k.isActive then .error (.categoryInactive k.code)
    else match childTableStatement k.toCategoryKey spec.code 0 with
      | .error fault => .error (.invalid fault)
      | .ok _ =>
        if !k.isSynced then .error (.precondition k.code .notSynchronized)
        else .ok k.toCategoryKey

-- A row as it is read.
def readBack (a : Asset) : Except SyncError Asset :=
  match a.unreadable? with
  | some e => .error (.catalog e)
  | none => .ok a

-- The row of the asset: a new one, or the one that was left without a table. A new row that cannot be
-- read stays, but nobody gets it.
def claimed (spec : AssetSpec) (c : Catalog) : Except SyncError Asset × Catalog :=
  match c.createAsset spec with
  | .ok (a, c') => (readBack a, c')
  | .error (.assetExists code) =>
    match c.asset? code with
    | some a =>
      if a.unreadable?.isNone && !(a.category == spec.category && a.childTable.isNone) then
        (.error (.catalog (.assetExists code)), c)
      else (readBack a, c)
    | none => (.error (.catalog (.assetExists code)), c)
  | .error e => (.error (.catalog e), c)

-- The tables with the child table of a row.
def withChild (k : CategoryKey) (a : Asset) (t : Tables) : Except Refusal Tables :=
  if (t.describe (k.childTable a.code)).isSome then .ok t
  else t.createChildTable true (k.childTable a.code) k.superTable [toString a.id, a.code]

def provisioned (spec : AssetSpec) (c : Catalog) (t : Tables) :
    Except SyncError Asset × Catalog × Tables :=
  match admission spec c with
  | .error e => (.error e, c, t)
  | .ok k =>
    if (t.describe k.superTable).isNone then
      (.error (.precondition k.code (.noSuperTable k.superTableName)), c, t)
    else match claimed spec c with
      | (.error e, c') => (.error e, c', t)
      | (.ok a, c') =>
        match withChild k a t with
        | .error r => (.error (.schema k.code none r.error.message), c', t)
        | .ok t' =>
          let name := k.childTableName a.code
          (.ok { a with childTable := some name }, c'.tabled a.code name, t')

theorem admission_ok (h : admission spec c = .ok k) :
    ∃ text, childTableStatement k spec.code 0 = .ok text := by
  unfold admission at h
  repeat' split at h
  all_goals cases h
  exact ⟨_, ‹_›⟩

theorem admission_congr (h : c'.categories = c.categories) :
    admission spec c' = admission spec c := by
  simp only [admission, Catalog.getCategory, Catalog.category?, h]
  cases c.categories.find? (·.code == spec.category) <;> rfl

theorem admission_lasting (h : admission spec c = .error e) : e.isTransient = false := by
  unfold admission at h
  repeat' split at h
  all_goals cases h
  all_goals rfl

theorem readBack_ok (h : readBack a = .ok a') : a' = a ∧ a.unreadable? = none := by
  unfold readBack at h
  split at h <;> cases h
  exact ⟨rfl, ‹_›⟩

theorem readBack_lasting (h : readBack a = .error e) : e.isTransient = false := by
  unfold readBack at h
  split at h <;> cases h
  rfl

theorem claimed_lasting (h : claimed spec c = (.error e, c')) : e.isTransient = false := by
  unfold claimed at h
  split at h
  case h_1 => exact readBack_lasting (Prod.mk.inj h).1
  case h_2 =>
    split at h
    case h_1 =>
      split at h
      · cases h; rfl
      · exact readBack_lasting (Prod.mk.inj h).1
    case h_2 => cases h; rfl
  case h_3 => cases h; rfl

theorem claimed_enrolled (h : claimed spec c = (r, c')) : c.Enrolled c' := by
  unfold claimed at h
  split at h
  case h_1 made hm =>
    cases h
    obtain ⟨-, -, -, number, hc⟩ := Catalog.createAsset_row hm
    exact .one (by simp [hc, number]) (by rw [hc])
  case h_2 =>
    repeat' split at h
    all_goals cases h
    all_goals exact .same rfl rfl
  case h_3 => cases h; exact .same rfl rfl

-- A row that was claimed is there, and would be claimed once more.
structure Claimed (spec : AssetSpec) (a : Asset) (c c' : Catalog) : Prop where
  code : a.code = spec.code
  row : c'.asset? a.code = some a
  readable : a.unreadable? = none
  categories : c'.categories = c.categories
  again : claimed spec c' = (.ok a, c')

theorem claimed_ok (h : claimed spec c = (.ok a, c')) : Claimed spec a c c' := by
  have first := h
  unfold claimed at h
  split at h
  case h_1 made hm =>
    obtain ⟨read, rfl⟩ := Prod.mk.inj h
    obtain ⟨rfl, readable⟩ := readBack_ok read
    obtain ⟨code, category, table, -, hc⟩ := Catalog.createAsset_row hm
    have row := (Catalog.asset?_createAsset hm).2
    refine ⟨code, row, readable, by rw [hc], ?_⟩
    rw [code] at row
    simp [claimed, Catalog.createAsset_again hm, row, category, table, read]
  case h_2 code taken =>
    split at h
    case h_2 => cases h
    case h_1 row =>
      split at h
      case isTrue => cases h
      case isFalse =>
        obtain ⟨read, rfl⟩ := Prod.mk.inj h
        obtain ⟨rfl, readable⟩ := readBack_ok read
        have found := Catalog.asset?_code row
        exact ⟨found.trans (Catalog.createAsset_exists taken), found ▸ row, readable, rfl, first⟩
  case h_3 => cases h

-- That the table is there already is no refusal.
theorem withChild_refused (h : withChild k a t = .error r) : r.error.isAlreadyExists = false := by
  unfold withChild at h
  split at h
  · cases h
  · exact Tables.createChildTable_exists h

theorem provisioned_lasting (h : provisioned spec c t = (.error e, c', t')) :
    e.isTransient = false := by
  unfold provisioned at h
  split at h
  case h_1 denied =>
    cases h
    exact admission_lasting denied
  split at h
  case isTrue => cases h; rfl
  split at h
  case h_1 refused =>
    cases h
    exact claimed_lasting refused
  split at h <;> cases h
  rfl

-- Once the row is claimed, provisioning still comes to the same.
theorem provisioned_claimed (hk : admission spec c = .ok k)
    (hs : (t.describe k.superTable).isSome) (h : claimed spec c = (.ok a, c')) :
    provisioned spec c' t = provisioned spec c t := by
  have claim := claimed_ok h
  have there : (t.describe k.superTable).isNone = false := by simp [Option.isNone_eq_false_iff, hs]
  simp [provisioned, admission_congr claim.categories, hk, there, h, claim.again]

-- However provisioning ends, no more than one row was added.
theorem provisioned_enrolled (h : provisioned spec c t = (r, c', t')) : c.Enrolled c' := by
  unfold provisioned at h
  split at h
  case h_1 => cases h; exact .same rfl rfl
  split at h
  case isTrue => cases h; exact .same rfl rfl
  split at h
  case h_1 refused => cases h; exact claimed_enrolled refused
  case h_2 claim =>
    have enrolled := claimed_enrolled claim
    split at h <;> cases h
    · exact enrolled
    · exact enrolled.tabled

-- The steps of provisioning by what they come to. A step fails in some other way only if the engine
-- is not sound, and then it has changed nothing.

theorem loadCategory_finds {code : String} (hc : w.SoundCatalog) :
    Ensures (loadCategory policy code) w
      (fun k w' => w.catalog.getCategory code = some k ∧ w.Untouched w')
      (fun e w' => w.catalog.getCategory code = none ∧ e = .categoryMissing code ∧
        w.Untouched w') := by
  refine (read_ensures rfl).step (fun found w' ⟨hk, hu⟩ => ?_) (fun _ _ h => absurd hc h.2)
  cases found with
  | none => exact .throw ⟨hk.symm, rfl, hu⟩
  | some k => exact .pure ⟨hk.symm, hu⟩

theorem checked_fails {x : Except Invalid α} :
    Ensures (checked x) w (fun a w' => x = .ok a ∧ w' = w)
      (fun e w' => ∃ fault, x = .error fault ∧ e = .invalid fault ∧ w' = w) := by
  cases x with
  | error fault => exact ⟨fault, rfl, rfl, rfl⟩
  | ok a => exact ⟨rfl, rfl⟩

theorem requireSuperTable_comes :
    Ensures (requireSuperTable policy k) w
      (fun _ w' => (w.engine.tables.describe k.superTable).isSome ∧ w.Asked w')
      (fun e w' => w.Asked w' ∧ (w.engine.tables.describe k.superTable = none ∧
        e = .precondition k.code (.noSuperTable k.superTableName) ∨ ¬w.SoundEngine policy)) := by
  refine describe_ensures.step (fun s w' ⟨hs, ha⟩ => ?_) (fun _ _ h => ⟨h.1, .inr h.2⟩)
  cases s with
  | none => exact .throw ⟨ha, .inl ⟨hs.symm, rfl⟩⟩
  | some s => exact .pure ⟨by simp [← hs], ha⟩

theorem claimAsset_comes (hc : w.SoundCatalog) :
    Ensures (claimAsset policy spec) w
      (fun a w' => claimed spec w.catalog = (.ok a, w'.catalog) ∧ w'.engine = w.engine ∧
        w'.SoundCatalog)
      (fun e w' => claimed spec w.catalog = (.error e, w'.catalog) ∧ w'.engine = w.engine) := by
  refine .lift ?_
  rw [run_catalog]
  have ends := perform_cases (.createAsset spec) w
  generalize w.perform (.createAsset spec) = r at ends
  obtain ⟨_, w₁⟩ := r
  rcases ends with ⟨e, rfl, ⟨hu, failed⟩ | ⟨ho, hr, he, hf⟩⟩ | ⟨a, rfl, hr, ho, he, hf⟩
  case inr =>
    have made : w.catalog.createAsset spec = .ok (a, w₁.catalog) := ho
    have readable : a.unreadable? = none := hr
    exact .pure ⟨by simp [claimed, made, readBack, readable], he, hc.mono hf⟩
  case inl.unread a =>
    have made : w.catalog.createAsset spec = .ok (a, w₁.catalog) := ho
    have unreadable : a.unreadable? = some e := hr
    obtain ⟨column, rfl⟩ := CatalogOp.unreadable?_error hr
    exact .throw ⟨by simp [claimed, made, readBack, unreadable], he⟩
  have hu : w.Untouched w₁ := hu
  have same := hu.catalog
  have refused : w.catalog.createAsset spec = .error e := failed.refused_of_sound hc
  cases e with
  | assetExists code =>
    have hc₁ := hc.later hu.asked.toLater
    refine (reads_ensures rfl).step (fun found w₂ ⟨hf, readable, h₂⟩ => ?_)
      (fun _ w₂ ⟨h₂, withheld⟩ => ?_)
    case refine_2 =>
      obtain ⟨e, unreadable, rfl⟩ := withheld hc₁
      obtain ⟨a, row, unreadable⟩ := Option.bind_eq_some_iff.mp unreadable
      have hu := hu.trans h₂
      rw [← h₂.catalog, hu.catalog] at row
      exact ⟨by simp [claimed, refused, row, readBack, unreadable, hu.catalog], hu.engine⟩
    have hu := hu.trans h₂
    rw [← hf] at readable
    rw [← h₂.catalog, hu.catalog] at hf
    subst hf
    cases row : w.catalog.asset? code with
    | none => exact .throw ⟨by simp [claimed, refused, row, hu.catalog], hu.engine⟩
    | some a =>
      rw [row] at readable
      have readable : a.unreadable? = none := readable
      simp only
      split
      case isTrue left =>
        refine .pure ⟨?_, hu.engine, hc.later hu.asked.toLater⟩
        simp [claimed, refused, row, left, readable, readBack, hu.catalog]
      case isFalse taken =>
        refine .throw ⟨?_, hu.engine⟩
        simp [claimed, refused, row, taken, readable, hu.catalog]
  | _ => exact .throw ⟨by simp only [claimed, refused, same], hu.engine⟩

theorem mustExecute_refused {category operation sql : String} {r : Refusal} (hw : Passing w)
    (h : w.engine.tables.run sql = .error r) (hr : r.error.isAlreadyExists = false) :
    Ensures (mustExecute policy category operation sql) w (fun _ _ => False)
      (fun e w' => w.Unmoved w' ∧
        (e = .schema category none r.error.message ∨ ¬w.SoundEngine policy)) := by
  refine execute_ensures.step (fun x w' hx => ?_) (fun _ _ h => h.elim)
  cases hx with
  | done ran _ _ => cases ran.symm.trans h
  | present hu hx he =>
    rcases Refused.cases hx hw with ⟨transient, -⟩ | ⟨r', hr', rfl⟩
    · simp [not_exists_of_transient transient] at he
    · cases hr'.symm.trans h
      simp [hr] at he
  | @failed f hu hx _ =>
    rcases Refused.cases hx hw with ⟨-, sound⟩ | ⟨r', hr', he⟩
    · exact .throw ⟨hu, .inr sound⟩
    · cases hr'.symm.trans h
      have lasting : f.isExhausted = false := by
        simp [RetryFailure.isExhausted, he, r.not_transient]
      exact .throw ⟨hu, .inl (by simp [SyncError.ofEngine, lasting, he])⟩

theorem ensureChildTableLocked_comes {a : Asset} (hw : Passing w)
    (hs : (w.engine.tables.describe k.superTable).isSome)
    (ht : childTableStatement k a.code a.id = .ok text) :
    Ensures (ensureChildTableLocked policy k a.code a.id) w
      (fun _ w' => withChild k a w.engine.tables = .ok w'.engine.tables ∧ w'.catalog = w.catalog ∧
        w.Later w')
      (fun e w' => w.Unmoved w' ∧
        ((∃ r, withChild k a w.engine.tables = .error r ∧
          e = .schema k.code none r.error.message) ∨ ¬w.SoundEngine policy)) := by
  refine checked_ensures.step (fun text' _ ⟨ht', he⟩ => ?_) (fun _ _ h => absurd ht (h.2 _))
  subst he
  refine requireSuperTable_comes.step (fun _ w₁ ⟨_, h₁⟩ => ?_) ?_
  case refine_2 =>
    rintro _ w₁ ⟨h₁, ⟨undescribed, -⟩ | sound⟩
    · simp [undescribed] at hs
    · exact ⟨h₁.toUnmoved, .inr sound⟩
  refine describe_ensures.step (fun s w₂ ⟨hd, h₂⟩ => ?_)
    (fun _ _ ⟨h₂, sound⟩ => ⟨(h₁.trans h₂).toUnmoved, .inr fun h => sound (h.later h₁.toLater)⟩)
  have asked := h₁.trans h₂
  rw [h₁.tables] at hd
  have unsound (h : ¬w₂.SoundEngine policy) : ¬World.SoundEngine policy _ :=
    fun hs => h (hs.later asked.toLater)
  cases s with
  | some s => exact .pure ⟨by simp [withChild, ← hd, asked.tables], asked.catalog, asked.toLater⟩
  | none =>
    have run : w₂.engine.tables.run text' = withChild k a w₂.engine.tables := by
      have parsed := childTableStatement_reads ht'
      simp [Tables.run_eq parsed, withChild, asked.tables, ← hd, Tables.perform]
    rw [← asked.tables]
    cases hb : withChild k a w₂.engine.tables with
    | ok t =>
      refine (mustExecute_ready (hw.later asked.toLater) (run.trans hb)).mono ?_ ?_
      · rintro _ w₃ ⟨tables, catalog, later⟩
        exact ⟨by rw [tables], catalog.trans asked.catalog, asked.toLater.trans later⟩
      · rintro _ w₃ ⟨sound, hu⟩
        exact ⟨asked.toUnmoved.trans hu, .inr (unsound sound)⟩
    | error r =>
      have passing := hw.later asked.toLater
      have lasting := withChild_refused hb
      refine (mustExecute_refused passing (run.trans hb) lasting).mono (fun _ _ h => h.elim) ?_
      rintro e w₃ ⟨hu, rfl | sound⟩
      · exact ⟨asked.toUnmoved.trans hu, .inl ⟨r, rfl, rfl⟩⟩
      · exact ⟨asked.toUnmoved.trans hu, .inr (unsound sound)⟩

-- A provisioning that was broken off: from there it comes to the same.
structure Suspended (policy : RetryPolicy) (spec : AssetSpec) (w w' : World Service) : Prop where
  unsound : ¬w.SoundEngine policy
  resumes : provisioned spec w'.catalog w'.engine.tables =
    provisioned spec w.catalog w.engine.tables

-- The name of the child table is put down in the row, which is then read once more.
theorem tabling_comes {a : Asset} {name : String} (hc : w.SoundCatalog)
    (row : w.catalog.asset? a.code = some a) (readable : a.unreadable? = none) :
    Ensures (do
        catalog policy (.setAssetChildTable a.code name)
        match ← catalog policy (.getAsset a.code) with
        | some a => return a
        | none => throw (.catalog (.assetMissing a.code))) w
      (fun a' w' => a' = { a with childTable := some name } ∧
        w'.catalog = w.catalog.tabled a.code name ∧ w'.engine = w.engine)
      (fun _ _ => False) := by
  have tabled := Catalog.setAssetChildTable_eq row name
  refine (catalog_ensures).step (fun _ w₁ ⟨ho, he, hf⟩ => ?_) ?_
  case refine_2 =>
    rintro e w₁ ⟨-, _, failed⟩
    cases tabled.symm.trans (failed.refused_of_sound hc)
  have named : w₁.catalog = w.catalog.tabled a.code name :=
    (congrArg Prod.snd (Except.ok.inj (tabled.symm.trans ho))).symm
  have found := Catalog.asset?_tabled row name
  rw [← named] at found
  refine (reads_ensures rfl).step (fun _ w₂ ⟨hf, _, h₂⟩ => ?_) ?_
  case refine_2 =>
    rintro e w₂ ⟨-, withheld⟩
    obtain ⟨e, unreadable, -⟩ := withheld (hc.mono hf)
    rw [found] at unreadable
    cases readable.symm.trans unreadable
  rw [found] at hf
  subst hf
  exact .pure ⟨rfl, h₂.catalog.trans named, h₂.engine.trans he⟩

-- The part of provisioning that follows the checks of the category.
def deliver (policy : RetryPolicy) (spec : AssetSpec) (k : CategoryKey) : Action Asset := do
  requireSuperTable policy k
  let asset ← claimAsset policy spec
  ensureChildTableLocked policy k asset.code asset.id
  catalog policy (.setAssetChildTable asset.code (k.childTableName asset.code))
  match ← catalog policy (.getAsset asset.code) with
  | some a => return a
  | none => throw (.catalog (.assetMissing asset.code))

theorem deliver_comes (hc : w.SoundCatalog) (hw : Passing w)
    (hk : admission spec w.catalog = .ok k) :
    Ensures (deliver policy spec k) w
      (fun a w' => provisioned spec w.catalog w.engine.tables =
        (.ok a, w'.catalog, w'.engine.tables))
      (fun e w' => provisioned spec w.catalog w.engine.tables =
        (.error e, w'.catalog, w'.engine.tables) ∨ Suspended policy spec w w') := by
  refine requireSuperTable_comes.step (fun _ w₁ ⟨described, h₁⟩ => ?_) ?_
  case refine_2 =>
    rintro e w₁ ⟨h₁, ⟨undescribed, rfl⟩ | sound⟩
    · exact .inl (by simp [provisioned, hk, undescribed, h₁.catalog, h₁.tables])
    · exact .inr ⟨sound, by rw [h₁.catalog, h₁.tables]⟩
  have there : (w.engine.tables.describe k.superTable).isNone = false := by
    simpa [Option.isNone_eq_false_iff] using described
  refine (claimAsset_comes (hc.later h₁.toLater)).step (fun a w₂ ⟨claim, he, hc₂⟩ => ?_) ?_
  case refine_2 =>
    rintro e w₂ ⟨refused, he⟩
    rw [h₁.catalog] at refused
    exact .inl (by simp [provisioned, hk, there, refused, he, h₁.tables])
  rw [h₁.catalog] at claim
  have ⟨code, row, readable, _, _⟩ := claimed_ok claim
  have tables : w₂.engine.tables = w.engine.tables := by rw [he, h₁.tables]
  have later : World.Later w w₂ := h₁.toLater.trans (.of_engine he (hc₂ ▸ List.nil_sublist _))
  obtain ⟨text, statement⟩ := admission_ok hk
  obtain ⟨text, statement⟩ := childTableStatement_id statement a.id
  rw [← code] at statement
  refine (ensureChildTableLocked_comes (hw.later later) (tables ▸ described) statement).step
    (fun _ w₃ ⟨hb, catalog₃, later₃⟩ => ?_) ?_
  case refine_2 =>
    rintro e w₃ ⟨h₃, ⟨r, refused, rfl⟩ | sound⟩
    · rw [tables] at refused
      exact .inl (by simp [provisioned, hk, there, claim, refused, h₃.catalog, h₃.tables, tables])
    · refine .inr ⟨fun h => sound (h.later later), ?_⟩
      rw [h₃.catalog, h₃.tables, tables]
      exact provisioned_claimed hk described claim
  rw [tables] at hb
  rw [← catalog₃] at row
  refine (tabling_comes (hc₂.later later₃) row readable).mono ?_ (fun _ _ h => h.elim)
  rintro _ w₄ ⟨rfl, catalog₄, he₄⟩
  simp [provisioned, hk, there, claim, hb, he₄, catalog₄, catalog₃]

theorem provision_comes (policy : RetryPolicy) (spec : AssetSpec) (hc : w.SoundCatalog)
    (hw : Passing w) :
    Ensures (provision policy spec) w
      (fun a w' => provisioned spec w.catalog w.engine.tables =
        (.ok a, w'.catalog, w'.engine.tables))
      (fun e w' => provisioned spec w.catalog w.engine.tables =
        (.error e, w'.catalog, w'.engine.tables) ∨ Suspended policy spec w w') := by
  refine .holding fun w₁ h₁ => ?_
  have hc₁ := hc.later h₁.asked.toLater
  refine (loadCategory_finds hc₁).step (fun k w₂ ⟨hk, h₂⟩ => ?_) ?_
  case refine_2 =>
    rintro e w₂ ⟨hk, rfl, h₂⟩ w₃ h₃
    have unchanged := (h₁.trans h₂).trans h₃
    rw [h₁.catalog] at hk
    exact .inl (by simp [provisioned, admission, hk, unchanged.catalog, unchanged.engine])
  have h₂ := h₁.trans h₂
  rw [h₁.catalog] at hk
  have denied {e w₃} (h : World.Untouched w₂ w₃) (he : admission spec w.catalog = .error e) :
      provisioned spec w.catalog w.engine.tables = (.error e, w₃.catalog, w₃.engine.tables) := by
    have unchanged := h₂.trans h
    simp [provisioned, he, unchanged.catalog, unchanged.engine]
  refine .guard (fun inactive w₃ h₃ => .inl (denied h₃ (by simp [admission, hk, inactive])))
    fun active => ?_
  refine checked_fails.step (fun text w₃ ⟨ht, he⟩ => ?_) ?_
  case refine_2 =>
    rintro e w₃ ⟨fault, ht, rfl, rfl⟩ w₄ h₄
    exact .inl (denied h₄ (by simp [admission, hk, active, ht]))
  subst he
  refine .guard (fun unsynced w₄ h₄ => .inl (denied h₄ ?_)) fun synced => ?_
  case refine_1 => simp [admission, hk, active, ht, unsynced]
  have admitted : admission spec w.catalog = .ok k.toCategoryKey := by
    simp [admission, hk, active, ht, synced]
  have later := h₂.asked.toLater
  have same : provisioned spec w₃.catalog w₃.engine.tables =
      provisioned spec w.catalog w.engine.tables := by rw [h₂.catalog, h₂.engine]
  refine (deliver_comes (hc.later later) (hw.later later) (h₂.catalog ▸ admitted)).mono ?_ ?_
  · intro a w₄ h w₅ h₅
    rw [← same, h, h₅.catalog, h₅.engine]
  · rintro e w₄ (h | ⟨unsound, resumes⟩) w₅ h₅
    · exact .inl (by rw [← same, h, h₅.catalog, h₅.engine])
    · refine .inr ⟨fun h => unsound (h.later later), ?_⟩
      rw [h₅.catalog, h₅.engine, resumes, same]

-- In healthy circumstances provisioning comes to just that.
theorem Healthy.provisions (h : Healthy policy c t w) (spec : AssetSpec) :
    ∃ w', (provision policy spec).run.run w = ((provisioned spec c t).1, w') ∧
      provisioned spec c t = ((provisioned spec c t).1, w'.catalog, w'.engine.tables) := by
  have passing : Passing w := fun e he => (h.soundEngine.meets e he).elim
  have comes := provision_comes policy spec h.soundCatalog passing
  rw [h.catalog, h.tables] at comes
  generalize hr : (provision policy spec).run.run w = r
  obtain ⟨e | a, w'⟩ := r
  · rcases comes.of_error hr with comes | suspended
    · exact ⟨w', by rw [comes], by rw [comes]⟩
    · exact absurd h.soundEngine suspended.unsound
  · have comes := comes.of_ok hr
    exact ⟨w', by rw [comes], by rw [comes]⟩

-- A provisioning that was cut off by an outage, and is called again, comes to the same as one that
-- was never disturbed: the same asset or the same error, which is no outage any more, and the same
-- catalog and tables. No more than one row is added in all.
theorem provision_resumed {policy policy₁ policy₂ : RetryPolicy} {spec : AssetSpec} {e : SyncError}
    {w w₁ again once : World Service} (hc : w.SoundCatalog) (hw : Passing w)
    (cut : (provision policy spec).run.run w = (.error e, w₁)) (he : e.isTransient)
    (ha : Healthy policy₁ w₁.catalog w₁.engine.tables again)
    (ho : Healthy policy₂ w.catalog w.engine.tables once) :
    ∃ r again' once', (provision policy₁ spec).run.run again = (r, again') ∧
      (provision policy₂ spec).run.run once = (r, once') ∧
      (∀ e', r = .error e' → e'.isTransient = false) ∧
      again'.catalog = once'.catalog ∧ again'.engine.tables = once'.engine.tables ∧
      w.catalog.Enrolled again'.catalog := by
  have resumes : provisioned spec w₁.catalog w₁.engine.tables =
      provisioned spec w.catalog w.engine.tables := by
    rcases (provision_comes policy spec hc hw).of_error cut with comes | suspended
    · simp [provisioned_lasting comes] at he
    · exact suspended.resumes
  obtain ⟨again', ran, comes⟩ := ha.provisions spec
  obtain ⟨once', ran', comes'⟩ := ho.provisions spec
  rw [resumes] at ran comes
  obtain ⟨catalog, tables⟩ := Prod.mk.inj (Prod.mk.inj (comes.symm.trans comes')).2
  refine ⟨_, again', once', ran, ran', fun e' hr => ?_, catalog, tables, ?_⟩
  · rw [hr] at comes
    exact provisioned_lasting comes
  · exact provisioned_enrolled comes

-- The connection is lost when the row has been made and the child table has not.
def halfway : World Service :=
  let w := (Event.run synchronized).2
  { w with engine := { w.engine with faults := [none, none, none, some (.transport "reset")] } }

theorem run_halfway :
    let r := (provision impatient motor).run.run halfway
    falters r.1 ∧
      r.2.catalog.assets.map (fun a => (a.code, a.childTable)) = [("m1", none)] ∧
      halfway.catalogFaults.isEmpty ∧
      ((provision {} motor).run.run (calm halfway.catalog halfway.engine.tables)).1.toOption.map
        (·.code) = some "m1" := by
  delta halfway Event.run Event.apply Call.run Service.instEndpoint Service.execute Service.receive
    Tables.apply
  rw [Sql.tokenize_characters]
  decide +kernel

theorem provision_resumed_halfway :
    ∃ e w₁ a again once, (provision impatient motor).run.run halfway = (.error e, w₁) ∧
      e.isTransient ∧ w₁.catalog.assets.map (fun a => (a.code, a.childTable)) = [("m1", none)] ∧
      (provision {} motor).run.run (calm w₁.catalog w₁.engine.tables) = (.ok a, again) ∧
      (provision {} motor).run.run (calm halfway.catalog halfway.engine.tables) = (.ok a, once) ∧
      again.catalog = once.catalog ∧ again.engine.tables = once.engine.tables ∧
      halfway.catalog.Enrolled again.catalog := by
  obtain ⟨failed, row, faults, made⟩ := run_halfway
  have passing : Passing halfway := by
    intro e he
    obtain rfl : e = .transport "reset" := by simpa [halfway] using he
    rfl
  generalize cut : (provision impatient motor).run.run halfway = result at failed row
  obtain ⟨e | _, w₁⟩ := result
  case ok => cases failed
  have calm₁ : Healthy {} w₁.catalog w₁.engine.tables _ := healthy_calm _ _
  have calm₀ : Healthy {} halfway.catalog halfway.engine.tables _ := healthy_calm _ _
  obtain ⟨r, again, once, ran, ran', -, catalog, tables, enrolled⟩ :=
    provision_resumed (List.isEmpty_iff.mp faults) passing cut failed calm₁ calm₀
  rw [ran'] at made
  obtain ⟨a, rfl, -⟩ : ∃ a, r = .ok a ∧ a.code = "m1" := by
    cases r <;> simp_all [Except.toOption]
  exact ⟨e, w₁, a, again, once, rfl, failed, row, ran, ran', catalog, tables, enrolled⟩

end Synchronizer

end Historian
