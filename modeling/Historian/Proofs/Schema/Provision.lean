import Historian.Proofs.Schema.Faithful

namespace Historian

open Engine World Schema

namespace Catalog

variable {c c' : Catalog} {code : String}

theorem asset?_code (h : c.asset? code = some a) : a.code = code := by
  simpa using List.find?_some h

-- A new asset is found under its code.
theorem asset?_createAsset (h : c.createAsset spec = .ok (a, c')) :
    a.category = spec.category ∧ c'.asset? a.code = some a := by
  simp only [createAsset, bind_eq_ok] at h
  obtain ⟨_, -, _, -, h⟩ := h
  split at h <;> cases h
  case isFalse.refl fresh =>
    simp only [Option.not_isSome_iff_eq_none] at fresh
    simp only [asset?] at fresh ⊢
    simp [List.find?_append, fresh]

theorem asset?_setAssetChildTable (h : c.setAssetChildTable code table = .ok (u, c')) :
    c'.asset? code = (c.asset? code).map ({ · with childTable := some table }) := by
  simp only [setAssetChildTable, changeAsset] at h
  split at h <;> cases h
  let f (a : Asset) : Asset := { a with childTable := some table }
  exact find?_update (f := f) (·.code) (fun _ => rfl) c.assets

end Catalog

namespace Engine.Tables

variable {t t' : Tables} {n m : TableName} {tags : List String}

theorem hasTable_eq_false : t.hasTable n = false ↔
    t.superTables[n]? = none ∧ t.childTables[n]? = none ∧ n ∉ t.derived := by
  rw [← Bool.not_eq_true]
  simp [hasTable, and_assoc]

theorem hasTable_of_describe {s : TableSchema} (h : t.describe n = some s) : t.hasTable n := by
  cases free : t.hasTable n with
  | true => rfl
  | false =>
    rw [hasTable_eq_false] at free
    simp [describe, free] at h

-- A child table of which there is no description is made, unless it is there without the
-- super-table that would describe it.
theorem createChildTable_bound (h : t.createChildTable true n m tags = .ok t')
    (hn : t.describe n = none) :
    t' = if t.hasTable n then t
      else { t with childTables := t.childTables.insert n ⟨m.table, tags⟩ } := by
  simp only [createChildTable, bind_eq_ok] at h
  obtain ⟨_, -, s, -, h⟩ := h
  split at h
  case isTrue => cases h
  case isFalse =>
    split at h <;> cases h
    case isTrue.refl there => simp [hasTable, there]
    case isFalse.refl gone =>
      have child : t.childTables[n]? = none := by simpa using gone
      have undescribed := superTables_of_describe hn
      have free : t.hasTable n = false := by
        rw [hasTable_eq_false]
        refine ⟨undescribed, child, ?_⟩
        simpa [describe, undescribed, child] using hn
      simp [free]

-- That the table is there already is no refusal.
theorem createChildTable_exists (h : t.createChildTable true n m tags = .error r) :
    r.error.isAlreadyExists = false := by
  simp only [createChildTable, bind_eq_error] at h
  obtain h | ⟨_, -, h | ⟨s, -, h⟩⟩ := h
  · unfold requireDatabase at h
    split at h <;> cases h
    rfl
  · unfold superTable at h
    split at h <;> cases h
    rfl
  · split at h
    case isTrue => cases h; rfl
    case isFalse => split at h <;> cases h

end Engine.Tables

namespace Synchronizer

variable {w w' : World Service} {policy : RetryPolicy} {k : CategoryKey}

-- The child table of an asset bound to the super-table, with the tags of its row.
def Bound (t : Tables) (k : CategoryKey) (a : Asset) : Prop :=
  t.childTables[k.childTable a.code]? = some ⟨k.superTableName, [toString a.id, a.code]⟩

-- The tables once the child table of an asset is asked for: any table of its name stands for it.
def furnish (t : Tables) (k : CategoryKey) (code : String) (id : Nat) : Tables :=
  if t.hasTable (k.childTable code) then t
  else { t with
    childTables := t.childTables.insert (k.childTable code)
      ⟨k.superTableName, [toString id, code]⟩ }

theorem bound_furnish {t : Tables} {a : Asset} :
    Bound (furnish t k a.code a.id) k a ↔
      t.hasTable (k.childTable a.code) = false ∨ Bound t k a := by
  unfold furnish
  cases h : t.hasTable (k.childTable a.code) <;> simp [Bound]

theorem ensureChildTableLocked_furnishes {code : String} {id : Nat} (hw : w.Honest) :
    Ensures (ensureChildTableLocked policy k code id) w
      (fun _ w' => w'.catalog = w.catalog ∧ w'.engine.tables = furnish w.engine.tables k code id)
      (fun _ _ => True) := by
  refine checked_ensures.step (fun text _ ⟨ht, he⟩ => ?_) (fun _ _ _ => trivial)
  subst he
  refine requireSuperTable_ensures.step (fun _ w₁ h₁ => ?_) (fun _ _ _ => trivial)
  refine describe_ensures.step (fun s w₂ ⟨hs, h₂⟩ => ?_) (fun _ _ _ => trivial)
  have h₂ := h₁.trans h₂
  rw [h₁.tables] at hs
  cases s with
  | some s =>
    have there := Tables.hasTable_of_describe hs.symm
    exact .pure ⟨h₂.catalog, by simp [furnish, there, h₂.tables]⟩
  | none =>
    refine mustExecute_ensures.mono (fun _ w₃ h₃ => ?_) (fun _ _ _ => trivial)
    have parsed := childTableStatement_reads ht
    cases h₃ with
    | done h hc _ =>
      rw [h₂.tables, Tables.run_eq parsed] at h
      exact ⟨hc.trans h₂.catalog, Tables.createChildTable_bound h hs.symm⟩
    | present _ hr he =>
      obtain ⟨r, refused, rfl⟩ := hr.honest (hw.later h₂.toLater) he
      rw [Tables.run_eq parsed] at refused
      simp [Tables.createChildTable_exists refused] at he

-- The row that is claimed is there; the engine has not been called.
theorem claimAsset_claims {spec : AssetSpec} :
    Ensures (claimAsset policy spec) w
      (fun a w' => a.category = spec.category ∧ w'.catalog.asset? a.code = some a ∧
        w'.engine = w.engine)
      (fun _ _ => True) := by
  refine .lift ?_
  rw [run_catalog]
  have ends := perform_cases (.createAsset spec) w
  generalize w.perform (.createAsset spec) = r at ends
  obtain ⟨_, w₁⟩ := r
  rcases ends with ⟨e, rfl, ⟨hu, -⟩ | ⟨-, hr, -, -⟩⟩ | ⟨a, rfl, -, ho, he, hf⟩
  case inr =>
    obtain ⟨category, found⟩ := Catalog.asset?_createAsset ho
    exact .pure ⟨category, found, he⟩
  case inl.unread =>
    obtain ⟨column, rfl⟩ := CatalogOp.unreadable?_error hr
    exact .throw trivial
  cases e with
  | assetExists code =>
    refine (reads_ensures rfl).step (fun found w₂ ⟨hf, _, h₂⟩ => ?_) (fun _ _ _ => trivial)
    cases found with
    | none => exact .throw trivial
    | some a =>
      simp only
      split
      case isFalse => exact .throw trivial
      case isTrue ours =>
        simp only [Bool.and_eq_true, beq_iff_eq] at ours
        refine .pure ⟨ours.1, ?_, (hu.trans h₂).engine⟩
        rw [h₂.catalog, Catalog.asset?_code hf.symm]
        exact hf.symm
  | _ => exact .throw trivial

-- A provisioning that succeeds writes down the right name, and the child table of that name is
-- bound as the row says exactly if it was so before or no table had the name.
theorem provision_delivers_iff {policy : RetryPolicy} {spec : AssetSpec} {a : Asset}
    {w w' : World Service} (h : (provision policy spec).run.run w = (.ok a, w')) (hw : w.Honest) :
    ∃ k, w.catalog.getCategory spec.category = some k ∧ a.category = spec.category ∧
      w'.catalog.asset? a.code = some a ∧
      a.childTable = some (k.childTableName a.code) ∧
      w'.engine.tables = furnish w.engine.tables k.toCategoryKey a.code a.id ∧
      (Bound w'.engine.tables k.toCategoryKey a ↔
        w.engine.tables.hasTable (k.childTable a.code) = false ∨
          Bound w.engine.tables k.toCategoryKey a) := by
  suffices delivers : Ensures (provision policy spec) w
      (fun a w' => ∃ k, w.catalog.getCategory spec.category = some k ∧ a.category = spec.category ∧
        w'.catalog.asset? a.code = some a ∧ a.childTable = some (k.childTableName a.code) ∧
        w'.engine.tables = furnish w.engine.tables k.toCategoryKey a.code a.id)
      (fun _ _ => True) by
    obtain ⟨k, hk, category, row, name, tables⟩ := delivers.of_ok h
    exact ⟨k, hk, category, row, name, tables, by rw [tables, bound_furnish]⟩
  refine .holding fun w₁ h₁ => ?_
  refine loadCategory_ensures.step (fun k w₂ ⟨hk, h₂⟩ => ?_) (fun _ _ _ _ _ => trivial)
  rw [h₁.catalog] at hk
  refine .guard (fun _ _ _ => trivial) fun _ => ?_
  refine checked_ensures.step (fun _ _ ⟨_, he⟩ => ?_) (fun _ _ _ _ _ => trivial)
  subst he
  refine .guard (fun _ _ _ => trivial) fun _ => ?_
  refine requireSuperTable_ensures.step (fun _ w₃ h₃ => ?_) (fun _ _ _ _ _ => trivial)
  refine claimAsset_claims.step (fun a w₄ ⟨category, row, he⟩ => ?_) (fun _ _ _ _ _ => trivial)
  have asked := (h₁.trans h₂).asked.trans h₃
  have tables : w₄.engine.tables = w.engine.tables := by rw [he, asked.tables]
  have honest : w₄.Honest := by
    rw [Honest, Meets, he]
    exact hw.later asked.toLater
  refine (ensureChildTableLocked_furnishes honest).step (fun _ w₅ ⟨hc, ht⟩ => ?_)
    (fun _ _ _ _ _ => trivial)
  refine (catalog_ensures).step (fun _ w₆ ⟨ho, he₆, _⟩ => ?_) (fun _ _ _ _ _ => trivial)
  refine (reads_ensures rfl).step (fun found w₇ ⟨hf, _, h₇⟩ => ?_) (fun _ _ _ _ _ => trivial)
  have written := Catalog.asset?_setAssetChildTable ho
  rw [hc, row] at written
  rw [written] at hf
  subst hf
  refine .pure fun w₈ h₈ => ⟨k, hk, category, ?_, rfl, ?_⟩
  · rw [h₈.catalog, h₇.catalog]
    exact written
  · rw [h₈.engine, h₇.engine, he₆, ht, tables]

-- An asset of a category that was synchronized.
def motor : AssetSpec := { category := "motor", code := "m1", name := "First" }

def synchronized : List Event :=
  [.edit (.createCategory { code := "motor", database := "plant", name := "Motor" }),
    .call (.sync "motor")]

theorem run_synchronized :
    let w := (Event.run synchronized).2
    ((provision {} motor).run.run w).1.toOption.map (·.code) = some "m1" ∧
      w.engine.faults = [] ∧
      (w.catalog.getCategory "motor").map (fun k => w.engine.tables.hasTable (k.childTable "m1")) =
        some false := by
  delta Event.run Event.apply Call.run Service.instEndpoint Service.execute Service.receive
    Tables.apply
  rw [Sql.tokenize_characters]
  decide +kernel

theorem provision_delivers_iff_free :
    let w := (Event.run synchronized).2
    w.Honest ∧ ∃ a w' k, (provision {} motor).run.run w = (.ok a, w') ∧
      w.catalog.getCategory "motor" = some k ∧ Bound w'.engine.tables k.toCategoryKey a := by
  have facts := run_synchronized
  generalize (Event.run synchronized).2 = w at facts
  obtain ⟨provisioned, faults, free⟩ := facts
  have honest : w.Honest := fun e he => by simp [faults] at he
  refine ⟨honest, ?_⟩
  generalize h : (provision {} motor).run.run w = r at provisioned
  obtain ⟨_ | a, w'⟩ := r
  case error => cases provisioned
  obtain ⟨k, hk, -, -, -, -, bound⟩ := provision_delivers_iff h honest
  have code : a.code = "m1" := Option.some.inj provisioned
  have hk' : w.catalog.getCategory "motor" = some k := hk
  refine ⟨a, w', k, rfl, hk, bound.mpr (.inl ?_)⟩
  rw [hk'] at free
  rw [code]
  exact Option.some.inj free

-- Two categories, the super-table of one of them with the name of a child table of the other.
def adjoining : List Event :=
  [.edit (.createCategory { code := "a_b", database := "plant", name := "AB" }),
    .call (.sync "a_b"),
    .edit (.createCategory { code := "a", database := "plant", name := "A" }), .call (.sync "a")]

def adjoined : AssetSpec := { category := "a", code := "b", name := "B" }

theorem run_adjoining :
    let w := (Event.run adjoining).2
    let r := (provision {} adjoined).run.run w
    r.1.toOption.map (fun a => (a.code, a.childTable)) = some ("b", some "raw_a_b") ∧
      (w.catalog.getCategory "a").map (·.childTable "b") = some ⟨"plant", "raw_a_b"⟩ ∧
      r.2.engine.tables.childTables[TableName.mk "plant" "raw_a_b"]? = none := by
  delta Event.run Event.apply Call.run Service.instEndpoint Service.execute Service.receive
    Tables.apply
  rw [Sql.tokenize_characters]
  decide +kernel

-- Provisioning succeeds, and there is no child table.
theorem provision_misses :
    let w := (Event.run adjoining).2
    Reached (Event.run adjoining).1 w ∧ ∃ a w' k, (provision {} adjoined).run.run w = (.ok a, w') ∧
      w.catalog.getCategory "a" = some k ∧ a.childTable = some (k.childTableName a.code) ∧
      ¬Bound w'.engine.tables k.toCategoryKey a := by
  have reached := Reached.run adjoining (by simp [adjoining, Event.Plain, Records])
  have facts := run_adjoining
  generalize Event.run adjoining = run at reached facts
  refine ⟨reached, ?_⟩
  obtain ⟨provisioned, name, missing⟩ := facts
  generalize (provision {} adjoined).run.run run.2 = r at provisioned missing
  obtain ⟨_ | a, w'⟩ := r
  case error => cases provisioned
  obtain ⟨k, hk, child⟩ := Option.map_eq_some_iff.mp name
  obtain ⟨code, table⟩ := Prod.mk.inj (Option.some.inj provisioned)
  refine ⟨a, w', k, rfl, hk, ?_, ?_⟩
  · rw [table, code, ← (TableName.mk.inj child).2]
  · intro bound
    rw [Bound, code, child] at bound
    cases missing.symm.trans bound

end Synchronizer

end Historian
