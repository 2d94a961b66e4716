import Historian.Proofs.Program.Faults
import Historian.Proofs.Schema.Resumption
import Historian.Proofs.Schema.Retyping

namespace Historian

open Engine World Schema

namespace Engine.Tables

variable {t t' t'' : Tables} {n : TableName}

-- Nothing has changed but the super-table of a name, and whether its database is there.
structure OnlySuperTable (n : TableName) (t t' : Tables) : Prop where
  databases : ∀ d, d ≠ n.database → t'.databases.contains d = t.databases.contains d
  superTables : ∀ m, m ≠ n → t'.superTables[m]? = t.superTables[m]?
  childTables : t'.childTables = t.childTables
  streams : t'.streams = t.streams
  derived : t'.derived = t.derived

-- Nothing has changed but the child table of a name.
structure OnlyChildTable (n : TableName) (t t' : Tables) : Prop where
  databases : t'.databases = t.databases
  superTables : t'.superTables = t.superTables
  childTables : ∀ m, m ≠ n → t'.childTables[m]? = t.childTables[m]?
  streams : t'.streams = t.streams
  derived : t'.derived = t.derived

namespace OnlySuperTable

theorem refl (n : TableName) (t : Tables) : OnlySuperTable n t t :=
  ⟨fun _ _ => rfl, fun _ _ => rfl, rfl, rfl, rfl⟩

theorem given (h : OnlySuperTable n t t') (S : TableSchema) :
    OnlySuperTable n t (t'.given n S) where
  databases := h.databases
  superTables m hm := by
    rw [Tables.given, getElem?_superTables_insert, if_neg hm.symm, h.superTables m hm]
  childTables := h.childTables
  streams := h.streams
  derived := h.derived

theorem database (h : OnlySuperTable n t t') (hd : t'.createDatabase true n.database = .ok t'') :
    OnlySuperTable n t t'' := by
  obtain rfl | rfl := createDatabase_ok hd
  · exact h
  · refine ⟨fun d hn => ?_, h.superTables, h.childTables, h.streams, h.derived⟩
    rw [Std.ExtTreeSet.contains_insert, h.databases d hn]
    simp [hn.symm]

theorem superTable {S : TableSchema} (h : OnlySuperTable n t t')
    (hs : t'.createSuperTable true n S = .ok t'') : OnlySuperTable n t t'' := by
  obtain ⟨-, ⟨rfl, -⟩ | rfl⟩ := createSuperTable_ok hs
  · exact h
  · exact h.given S

theorem addColumn {c : Column} (h : OnlySuperTable n t t') (hc : t'.addColumn n c = .ok t'') :
    OnlySuperTable n t t'' := by
  obtain ⟨S, -, -, -, rfl⟩ := addColumn_ok hc
  exact h.given _

theorem modifyColumn {c : Column} (h : OnlySuperTable n t t')
    (hc : t'.modifyColumn n c = .ok t'') : OnlySuperTable n t t'' := by
  obtain ⟨S, _, -, -, -, rfl⟩ := modifyColumn_ok hc
  exact h.given _

end OnlySuperTable

namespace OnlyChildTable

theorem of_eq (n : TableName) (h : t' = t) : OnlyChildTable n t t' := by
  subst h
  exact ⟨rfl, rfl, fun _ _ => rfl, rfl, rfl⟩

theorem made {m : TableName} {tags : List String}
    (h : t.createChildTable true n m tags = .ok t') : OnlyChildTable n t t' := by
  obtain rfl | rfl := createChildTable_ok h
  · exact of_eq n rfl
  · refine ⟨rfl, rfl, fun l hl => ?_, rfl, rfl⟩
    simp [Std.ExtTreeMap.getElem?_insert, hl.symm]

end OnlyChildTable

end Engine.Tables

-- The row of an asset, given another child table at most.
def Asset.Retabled (code : String) (a b : Asset) : Prop :=
  b = a ∨ a.code = code ∧ ∃ table, b = { a with childTable := some table }

theorem Asset.Retabled.category {code : String} {a b : Asset} (h : a.Retabled code b) :
    b.category = a.category := by
  obtain rfl | ⟨-, table, rfl⟩ := h <;> rfl

namespace Catalog

variable {c c' : Catalog} {spec : AssetSpec}

-- Nothing has changed but the asset of one code: its row has another child table at most, or was
-- made because there was none.
structure OnlyAsset (spec : AssetSpec) (c c' : Catalog) : Prop where
  rows : ∃ (old : List Asset) (made : Option Asset), c'.assets = old ++ made.toList ∧
    List.Forall₂ (Asset.Retabled spec.code) c.assets old ∧
    ∀ a ∈ made, c.asset? spec.code = none ∧ a.toAssetSpec = spec.asStored
  rest : c' = { c with assets := c'.assets, next := { c.next with asset := c'.next.asset } }

namespace OnlyAsset

theorem refl (spec : AssetSpec) (c : Catalog) : OnlyAsset spec c c :=
  ⟨⟨c.assets, none, by simp, List.forall₂_same.mpr fun _ _ => .inl rfl, nofun⟩, rfl⟩

theorem created (h : c.createAsset spec = .ok (a, c')) : OnlyAsset spec c c' := by
  simp only [createAsset, bind_eq_ok] at h
  obtain ⟨_, -, _, -, h⟩ := h
  split at h <;> cases h
  case isFalse.refl free =>
    refine ⟨⟨c.assets, some _, rfl, List.forall₂_same.mpr fun _ _ => .inl rfl, ?_⟩, rfl⟩
    intro a ha
    cases Option.mem_some_iff.mp ha
    exact ⟨by simpa using free, rfl⟩

theorem tabled (h : OnlyAsset spec c c') (name : String) :
    OnlyAsset spec c (c'.tabled spec.code name) := by
  obtain ⟨⟨old, made, rows, retabled, new⟩, rest⟩ := h
  let f (a : Asset) : Asset := if a.code = spec.code then { a with childTable := some name } else a
  have same (a : Asset) : (f a).toAssetSpec = a.toAssetSpec := by
    simp only [f]
    split <;> rfl
  refine ⟨⟨old.map f, made.map f, ?_, ?_, ?_⟩, ?_⟩
  · show c'.assets.map f = _
    cases made <;> simp [rows]
  · refine List.forall₂_map_right_iff.mpr (retabled.imp fun a b hb => ?_)
    simp only [f]
    split
    case isFalse => exact hb
    case isTrue hc =>
      obtain rfl | ⟨code, _, rfl⟩ := hb
      · exact .inr ⟨hc, name, rfl⟩
      · exact .inr ⟨code, name, rfl⟩
  · intro _ hm
    obtain ⟨a, ha, rfl⟩ := Option.mem_map.mp hm
    exact ⟨(new a ha).1, (same a).trans (new a ha).2⟩
  · rw [Catalog.tabled, rest]

-- The other categories have as many assets as before.
theorem getCategory (h : OnlyAsset spec c c') (hn : category ≠ spec.category) :
    c'.getCategory category = c.getCategory category := by
  obtain ⟨⟨old, made, rows, retabled, new⟩, rest⟩ := h
  have kept : old.countP (·.category == category) = c.assets.countP (·.category == category) := by
    generalize c.assets = before at retabled
    clear rows
    induction retabled with
    | nil => rfl
    | cons hb _ ih => simp only [List.countP_cons, ih, hb.category]
  have others : made.toList.countP (·.category == category) = 0 := by
    cases made with
    | none => rfl
    | some a =>
      have owner : a.category = spec.category := by
        rw [(new a rfl).2, AssetSpec.asStored_category]
      simp [owner, hn.symm]
  have count : c'.assetCount category = c.assetCount category := by
    rw [assetCount, rows, List.countP_append, kept, others, assetCount, Nat.add_zero]
  have categories : c'.categories = c.categories := by rw [rest]
  unfold Catalog.getCategory category?
  rw [categories]
  cases found : c.categories.find? (·.code == category) with
  | none => rfl
  | some k =>
    obtain rfl : k.code = category := by simpa using List.find?_some found
    simp only [Option.map_some, info, count]

end OnlyAsset

theorem setAssetChildTable_tabled (h : c.setAssetChildTable code name = .ok (u, c')) :
    c' = c.tabled code name := by
  simp only [setAssetChildTable, changeAsset] at h
  split at h <;> cases h
  rfl

end Catalog

namespace Synchronizer

variable {w w' : World Service} {policy : RetryPolicy} {k : CategoryKey} {t : Tables}
  {r : SyncReport} {signals : List SignalSpec}

section SuperTable

variable (h : Tables.OnlySuperTable k.superTable t w.engine.tables)
include h

theorem addColumns_only {cs : List Column} (hw : ∀ c ∈ cs, c.type.Writable) :
    Ensures (addColumns policy k cs r) w
      (fun _ w' => Tables.OnlySuperTable k.superTable t w'.engine.tables)
      (fun _ w' => Tables.OnlySuperTable k.superTable t w'.engine.tables) := by
  rw [addColumns_eq]
  refine issue_keeps (Tables.OnlySuperTable k.superTable t) (fun c hc text ht _ _ h ran => ?_) h
  rw [Tables.run_eq (addColumnStatement_parse ht (hw c hc))] at ran
  exact h.addColumn ran

theorem widenColumns_only {xs : List Widening} (hw : ∀ x ∈ xs, x.new.Writable) :
    Ensures (widenColumns policy k xs r) w
      (fun _ w' => Tables.OnlySuperTable k.superTable t w'.engine.tables)
      (fun _ w' => Tables.OnlySuperTable k.superTable t w'.engine.tables) := by
  rw [widenColumns_eq]
  refine issue_keeps (Tables.OnlySuperTable k.superTable t) (fun x hx text ht _ _ h ran => ?_) h
  rw [Tables.run_eq (modifyColumnStatement_parse ht (hw x hx))] at ran
  exact h.modifyColumn ran

theorem alter_only {S : TableSchema} :
    Ensures (alter policy k (diff S signals) r) w
      (fun _ w' => Tables.OnlySuperTable k.superTable t w'.engine.tables)
      (fun _ w' => Tables.OnlySuperTable k.superTable t w'.engine.tables) :=
  (addColumns_only h missing_writable).step
    (fun _ _ h => (widenColumns_only h widenings_writable).step (fun _ _ h => .pure h)
      (fun _ _ h => h))
    (fun _ _ h => h)

theorem mustExecute_only {category operation text : String}
    (only : ∀ t' t'' : Tables, Tables.OnlySuperTable k.superTable t t' → t'.run text = .ok t'' →
      Tables.OnlySuperTable k.superTable t t'') :
    Ensures (mustExecute policy category operation text) w
      (fun _ w' => Tables.OnlySuperTable k.superTable t w'.engine.tables)
      (fun _ w' => Tables.OnlySuperTable k.superTable t w'.engine.tables) := by
  refine mustExecute_ensures.mono (fun _ w' hx => ?_) (fun _ _ hu => hu.tables ▸ h)
  cases hx with
  | done ran _ _ => exact only _ _ h ran
  | present hu _ _ => exact hu.tables ▸ h

theorem create_only (ht : superTableStatement k signals = .ok text) :
    Ensures (create policy k signals text r) w
      (fun _ w' => Tables.OnlySuperTable k.superTable t w'.engine.tables)
      (fun _ w' => Tables.OnlySuperTable k.superTable t w'.engine.tables) := by
  refine checked_ensures.step (fun database _ ⟨hd, he⟩ => ?_) (fun _ _ ⟨he, _⟩ => he ▸ h)
  subst he
  refine (mustExecute_only h fun _ _ h ran => ?_).step (fun _ w₁ h₁ => ?_) (fun _ _ h => h)
  · rw [Tables.run_eq (databaseStatement_parse hd)] at ran
    exact h.database ran
  · refine (mustExecute_only h₁ fun _ _ h ran => ?_).step (fun _ w₂ h₂ => .pure h₂) (fun _ _ h => h)
    rw [Tables.run_eq (superTableStatement_parse ht)] at ran
    exact h.superTable ran

end SuperTable

-- What a synchronization of a category may have done to the tables, however it ends.
inductive Remade (code : String) (w w' : World Service) : Prop
  | nothing (h : w'.engine.tables = w.engine.tables)
  | table {k : CategoryInfo} (hk : w.catalog.getCategory code = some k)
    (h : Tables.OnlySuperTable k.superTable w.engine.tables w'.engine.tables)

theorem syncLocked_remakes {code : String} {inspect : Bool} :
    Ensures (syncLocked policy code inspect) w (fun _ w' => Remade code w w')
      (fun _ w' => Remade code w w') := by
  have untouched {w'} (hu : w.Untouched w') : Remade code w w' := .nothing (hu.engine ▸ rfl)
  refine loadCategory_ensures.step (fun k w₁ ⟨hk, h₁⟩ => ?_) (fun _ _ h => untouched h.1)
  refine .guard (fun _ => untouched h₁) fun _ => ?_
  refine (read_ensures rfl).step (fun _ w₂ ⟨_, h₂⟩ => ?_) (fun _ _ h => untouched (h₁.trans h.1))
  have hu := h₁.trans h₂
  refine checked_ensures.step (fun text w₃ ⟨ht, he⟩ => ?_) (fun _ _ ⟨he, _⟩ => he ▸ untouched hu)
  subst he
  dsimp only
  split
  case isTrue => exact .pure (untouched hu)
  case isFalse =>
    refine describe_ensures.step (fun S w₄ ⟨_, h₄⟩ => ?_)
      (fun _ _ h => .nothing (h.1.tables.trans hu.asked.tables))
    have start : Tables.OnlySuperTable k.superTable w.engine.tables w₄.engine.tables := by
      rw [h₄.tables, hu.engine]
      exact .refl _ _
    have ends {r : SyncReport} {w₅}
        (h : Tables.OnlySuperTable k.superTable w.engine.tables w₅.engine.tables) :
        Ensures (if r.rejected.isEmpty = true then do
            catalog policy (.recordCategorySync code (fingerprint text) (← Program.now))
            return r
          else return r) w₅ (fun _ w' => Remade code w w') (fun _ w' => Remade code w w') := by
      split
      case isTrue =>
        exact record_ensures.mono (fun _ _ ⟨_, hr⟩ => .table hk (hr.engine ▸ h))
          (fun _ _ hu => .table hk (hu.engine ▸ h))
      case isFalse => exact .pure (.table hk h)
    cases S with
    | none =>
      exact (create_only start ht).step (fun _ _ h => ends h) (fun _ _ h => .table hk h)
    | some S => exact (alter_only start).step (fun _ _ h => ends h) (fun _ _ h => .table hk h)

-- What a synchronization may change: with its category, what belongs to that.
inductive Respects (code : String) (w w' : World Service) : Prop
  | nothing (ht : w'.engine.tables = w.engine.tables) (hc : w'.catalog = w.catalog)
  | own {k : CategoryInfo} (hk : w.catalog.getCategory code = some k)
    (ht : Tables.OnlySuperTable k.superTable w.engine.tables w'.engine.tables)
    (hc : w'.catalog = w.catalog ∨
      ∃ digest time, w'.catalog = w.catalog.stamped code digest time)

theorem holding_respects {code : String} {inspect : Bool} :
    Ensures (holding code (syncLocked policy code inspect)) w (fun _ w' => Respects code w w')
      (fun _ w' => Respects code w w') := by
  have remade : Ensures (holding code (syncLocked policy code inspect)) w
      (fun _ w' => Remade code w w') (fun _ w' => Remade code w w') := by
    refine .holding fun w₁ h₁ => ?_
    have between {w₂ w₃} (h : Remade code w₁ w₂) (h₃ : World.Untouched w₂ w₃) :
        Remade code w w₃ := by
      cases h with
      | nothing h => exact .nothing (by rw [h₃.engine, h, h₁.engine])
      | table hk h =>
        rw [h₁.catalog] at hk
        rw [h₁.engine, ← h₃.engine] at h
        exact .table hk h
    exact syncLocked_remakes.mono (fun _ _ h _ h₃ => between h h₃) (fun _ _ h _ h₃ => between h h₃)
  refine (remade.and holding_accounts).mono (fun r w' ⟨h, accounted⟩ => ?_) fun _ w' ⟨h, hc⟩ => ?_
  · cases h with
    | table hk h => exact .own hk h accounted.catalog
    | nothing h =>
      have changed := accounted.catalog
      obtain ⟨k, _, _, prepared, -⟩ := accounted
      exact .own prepared.category (h ▸ .refl _ _) changed
  · cases h with
    | table hk h => exact .own hk h (.inl hc)
    | nothing h => exact .nothing h hc

-- The making of a child table.
structure Installed (n : TableName) (w w' : World Service) : Prop where
  tables : Tables.OnlyChildTable n w.engine.tables w'.engine.tables
  catalog : w'.catalog = w.catalog

theorem Installed.of_unmoved {n : TableName} (h : w.Unmoved w') : Installed n w w' :=
  ⟨.of_eq n h.tables, h.catalog⟩

theorem ensureChildTableLocked_binds {asset : String} {id : Int} :
    Ensures (ensureChildTableLocked policy k asset id) w
      (fun _ w' => Installed (k.childTable asset) w w')
      (fun _ w' => Installed (k.childTable asset) w w') := by
  have asked {w'} (h : w.Asked w') : Installed (k.childTable asset) w w' := .of_unmoved h.toUnmoved
  refine checked_ensures.step (fun text _ ⟨ht, he⟩ => ?_)
    (fun _ _ ⟨he, _⟩ => he ▸ asked (.refl w))
  subst he
  refine requireSuperTable_ensures.step (fun _ w₁ h₁ => ?_) (fun _ _ h => asked h)
  refine describe_ensures.step (fun s w₂ ⟨_, h₂⟩ => ?_) (fun _ _ h => asked (h₁.trans h.1))
  have h₂ := h₁.trans h₂
  cases s with
  | some s => exact .pure (asked h₂)
  | none =>
    refine mustExecute_ensures.mono (fun _ w₃ h₃ => ?_)
      (fun _ _ h => .of_unmoved (h₂.toUnmoved.trans h))
    cases h₃ with
    | present hu _ _ => exact .of_unmoved (h₂.toUnmoved.trans hu)
    | done h hc _ =>
      obtain ⟨s, hp, made⟩ := Tables.run_ok h
      obtain ⟨tags, rfl⟩ := childTableStatement_parse ht hp
      exact ⟨h₂.tables ▸ .made made, hc.trans h₂.catalog⟩

-- Errors that are arranged for the catalog do not speak of another asset.
def Undeceived (asset : String) (w : World Service) : Prop :=
  ∀ name code, (name, .assetExists code) ∈ w.catalogFaults → code = asset

theorem claimAsset_only {spec : AssetSpec} (hw : Undeceived spec.code w) :
    Ensures (claimAsset policy spec) w
      (fun a w' => a.code = spec.code ∧ w'.engine = w.engine ∧
        Catalog.OnlyAsset spec w.catalog w'.catalog)
      (fun _ w' => w'.engine = w.engine ∧ Catalog.OnlyAsset spec w.catalog w'.catalog) := by
  refine .lift ?_
  rw [run_catalog]
  have ends := perform_cases (.createAsset spec) w
  generalize w.perform (.createAsset spec) = r at ends
  obtain ⟨_, w₁⟩ := r
  rcases ends with ⟨e, rfl, ⟨hu, failed⟩ | ⟨ho, hr, he, -⟩⟩ | ⟨a, rfl, -, ho, he, -⟩
  case inr => exact .pure ⟨(Catalog.createAsset_row ho).1, he, .created ho⟩
  case inl.unread =>
    obtain ⟨column, rfl⟩ := CatalogOp.unreadable?_error hr
    exact .throw ⟨he, .created ho⟩
  have untouched {w'} (h : w₁.Untouched w') :
      w'.engine = w.engine ∧ Catalog.OnlyAsset spec w.catalog w'.catalog := by
    have h : w.Untouched w' := hu.trans h
    exact ⟨h.engine, h.catalog ▸ .refl _ _⟩
  cases e with
  | assetExists code =>
    have own : code = spec.code := by
      cases failed with
      | arranged name hm => exact hw name code hm
      | refused taken => exact Catalog.createAsset_exists taken
    refine (reads_ensures rfl).step (fun found w₂ ⟨hf, _, h₂⟩ => ?_) (fun _ _ h => untouched h.1)
    cases found with
    | none => exact .throw (untouched h₂)
    | some a =>
      simp only
      split
      · exact .pure ⟨(Catalog.asset?_code hf.symm).trans own, untouched h₂⟩
      · exact .throw (untouched h₂)
  | _ => exact .throw (untouched (.refl _))

-- What a provisioning may change: what belongs to its asset.
inductive Furnishes (spec : AssetSpec) (w w' : World Service) : Prop
  | nothing (ht : w'.engine.tables = w.engine.tables) (hc : w'.catalog = w.catalog)
  | own {k : CategoryInfo} (hk : w.catalog.getCategory spec.category = some k)
    (ht : Tables.OnlyChildTable (k.childTable spec.code) w.engine.tables w'.engine.tables)
    (hc : Catalog.OnlyAsset spec w.catalog w'.catalog)

theorem provision_furnishes {spec : AssetSpec} (hw : Undeceived spec.code w) :
    Ensures (provision policy spec) w (fun _ w' => Furnishes spec w w')
      (fun _ w' => Furnishes spec w w') := by
  refine .holding fun w₁ h₁ => loadCategory_ensures.step (fun k w₂ ⟨hk, h₂⟩ => ?_)
    (fun _ _ h _ h₃ => ?_)
  case refine_2 =>
    have h := (h₁.trans h.1).trans h₃
    exact .nothing (h.engine ▸ rfl) h.catalog
  rw [h₁.catalog] at hk
  have start := h₁.trans h₂
  -- From here on the category is known; the lock is given back untouched.
  have done {w₃ w₄} (ht : Tables.OnlyChildTable (k.childTable spec.code) w.engine.tables
      w₃.engine.tables) (hc : Catalog.OnlyAsset spec w.catalog w₃.catalog)
      (h₄ : World.Untouched w₃ w₄) : Furnishes spec w w₄ :=
    .own hk (h₄.engine ▸ ht) (h₄.catalog ▸ hc)
  have asked {w₃ w₄} (h : w.Asked w₃) (h₄ : World.Untouched w₃ w₄) : Furnishes spec w w₄ :=
    done (.of_eq _ h.tables) (h.catalog ▸ .refl _ _) h₄
  refine .guard (fun _ _ => asked start.asked) fun _ => ?_
  refine checked_ensures.step (fun _ _ ⟨_, he⟩ => ?_) (fun _ _ ⟨he, _⟩ _ => he ▸ asked start.asked)
  subst he
  refine .guard (fun _ _ => asked start.asked) fun _ => ?_
  refine requireSuperTable_ensures.step (fun _ w₃ h₃ => ?_)
    (fun _ _ h _ => asked (start.asked.trans h))
  have h₃ := start.asked.trans h₃
  have undeceived : Undeceived spec.code w₃ :=
    fun name code hm => hw name code (h₃.catalogFaults.subset hm)
  refine (claimAsset_only undeceived).step (fun a w₄ ⟨code, he, only⟩ => ?_)
    (fun _ _ ⟨he, only⟩ _ => done (.of_eq _ (he ▸ h₃.tables)) (h₃.catalog ▸ only))
  rw [h₃.catalog] at only
  have made {w₅} (h : Installed (k.childTable spec.code) w₄ w₅) :
      Tables.OnlyChildTable (k.childTable spec.code) w.engine.tables w₅.engine.tables := by
    rw [← h₃.tables, ← he]
    exact h.tables
  rw [code]
  refine ensureChildTableLocked_binds.step (fun _ w₅ h₅ => ?_)
    (fun _ _ h _ => done (made h) (h.catalog ▸ only))
  have ht := made h₅
  have hc : Catalog.OnlyAsset spec w.catalog w₅.catalog := h₅.catalog ▸ only
  refine (catalog_ensures).step (fun _ w₆ ⟨ho, he, _⟩ => ?_)
    (fun _ _ h _ => done (h.1.engine ▸ ht) (h.1.catalog ▸ hc))
  have hc : Catalog.OnlyAsset spec w.catalog w₆.catalog := by
    rw [Catalog.setAssetChildTable_tabled ho]
    exact hc.tabled _
  have ht := he ▸ ht
  refine (reads_ensures rfl).step (fun found w₇ ⟨_, _, h₇⟩ => ?_)
    (fun _ _ h _ => done (h.1.engine ▸ ht) (h.1.catalog ▸ hc))
  have ends {w₈} (h₈ : World.Untouched w₇ w₈) : Furnishes spec w w₈ := done ht hc (h₇.trans h₈)
  cases found with
  | none => exact .throw fun _ => ends
  | some a => exact .pure fun _ => ends

-- What the making of a child table may change.
inductive Attaches (category asset : String) (w w' : World Service) : Prop
  | nothing (ht : w'.engine.tables = w.engine.tables) (hc : w'.catalog = w.catalog)
  | own {k : CategoryInfo} (hk : w.catalog.getCategory category = some k)
    (h : Installed (k.childTable asset) w w')

theorem ensureChildTable_attaches {category asset : String} {id : Int} :
    Ensures (ensureChildTable policy category asset id) w
      (fun _ w' => Attaches category asset w w') (fun _ w' => Attaches category asset w w') := by
  refine .holding fun w₁ h₁ => loadCategory_ensures.step (fun k w₂ ⟨hk, h₂⟩ => ?_)
    (fun _ _ h _ h₃ => ?_)
  case refine_2 =>
    have h := (h₁.trans h.1).trans h₃
    exact .nothing (h.engine ▸ rfl) h.catalog
  rw [h₁.catalog] at hk
  have start := h₁.trans h₂
  have ends {w₃ w₄} (h : Installed (k.childTable asset) w₂ w₃) (h₄ : World.Untouched w₃ w₄) :
      Attaches category asset w w₄ := by
    have tables := h.tables
    rw [start.engine, ← h₄.engine] at tables
    exact .own hk ⟨tables, by rw [h₄.catalog, h.catalog, start.catalog]⟩
  exact ensureChildTableLocked_binds.mono (fun _ _ h _ => ends h) (fun _ _ h _ => ends h)

namespace Call

-- What a call may change: what belongs to its category, or to its asset.
def Confined (w w' : World Service) : Call → Prop
  | .sync code | .resync code => Respects code w w'
  | .ensureChildTable category asset _ => Attaches category asset w w'
  | .provision spec => Furnishes spec w w' ∧ ∀ category ≠ spec.category,
      w'.catalog.getCategory category = w.catalog.getCategory category

-- No error that is arranged for the catalog makes the call take another asset for its own.
def Undeceived (w : World Service) : Call → Prop
  | .provision spec => Synchronizer.Undeceived spec.code w
  | _ => True

end Call

-- Calls touch only what is their own, whatever the engine answers and however they end: even a call
-- that fails halfway leaves all other tables, rows, tasks and logs as they were.
theorem call_confined (policy : RetryPolicy) (w : World Service) (call : Call)
    (undeceived : call.Undeceived w) : call.Confined w (call.run policy w) := by
  cases call with
  | sync code => exact holding_respects.after (fun _ _ h => h) (fun _ _ h => h)
  | resync code => exact holding_respects.after (fun _ _ h => h) (fun _ _ h => h)
  | ensureChildTable category asset id =>
    exact ensureChildTable_attaches.after (fun _ _ h => h) (fun _ _ h => h)
  | provision spec =>
    have furnishes : Furnishes spec w (Call.run policy w (.provision spec)) :=
      (provision_furnishes undeceived).after (fun _ _ h => h) (fun _ _ h => h)
    refine ⟨furnishes, fun category hn => ?_⟩
    cases furnishes with
    | nothing _ hc => rw [hc]
    | own _ _ hc => exact hc.getCategory hn

-- The connection breaks before the child table is made.
theorem call_confined_halfway :
    let call := Call.provision motor
    let w' := call.run impatient halfway
    call.Undeceived halfway ∧ call.Confined halfway w' ∧
      w'.catalog.assets.map (fun a => (a.code, a.childTable)) = [("m1", none)] := by
  obtain ⟨-, made, sound, -⟩ := run_halfway
  have undeceived : Undeceived motor.code halfway := by
    rw [Undeceived, List.isEmpty_iff.mp sound]
    exact fun _ _ h => absurd h List.not_mem_nil
  exact ⟨undeceived, call_confined impatient halfway (.provision motor) undeceived, made⟩

end Synchronizer

end Historian
