import Historian.Proofs.Schema.Accounting
import Historian.Proofs.Schema.Runs

namespace Historian

open Engine World Schema

namespace Catalog

variable {c c' : Catalog} {σ : Signal}

theorem signal?_addSignal (h : c.addSignal spec = .ok (a, c'))
    (hs : c.signal? code s = some σ) : c'.signal? code s = some σ := by
  simp only [addSignal, bind_eq_ok] at h
  obtain ⟨_, -, _, -, h⟩ := h
  split at h <;> cases h
  simp only [signal?] at hs ⊢
  simp [List.find?_append, hs]

-- What is found after a removal was there before.
theorem signal?_removeSignal (h : c.removeSignal category code' = .ok (a, c'))
    (hs : c'.signal? code s = some σ) : c.signal? code s = some σ := by
  unfold removeSignal at h
  split at h <;> cases h
  simp only [signal?] at hs ⊢
  generalize c.signals = rows at hs
  induction rows with
  | nil => exact hs
  | cons r rows ih => grind

-- What is found after a row has been replaced by one with the same key.
theorem find?_replace (rows : List Signal) (new : Signal) (code s : String) :
    (rows.map fun r => if r.category = new.category ∧ r.code = new.code then new else r).find?
        (fun r => r.category == code && r.code == s) =
      (rows.find? fun r => r.category == code && r.code == s).map fun r =>
        if new.category = code ∧ new.code = s then new else r := by
  induction rows with
  | nil => rfl
  | cons r rows ih =>
    simp only [List.map_cons, List.find?_cons]
    grind

-- The type of a stored signal of a synchronized category is only widened.
theorem signal?_updateSignal {k : Category} (h : c.updateSignal spec = .ok (a, c'))
    (hk : c.category? code = some k) (synced : k.isSynced) (hs : c.signal? code s = some σ)
    (stored : σ.isStored) : ∃ σ', c'.signal? code s = some σ' ∧
      σ.dataType.widens σ'.dataType := by
  simp only [updateSignal, bind_eq_ok, requireCategory_ok] at h
  obtain ⟨_, -, k', hk', h⟩ := h
  split at h
  case h_1 => cases h
  case h_2 old found =>
    split at h <;> cases h
    case isFalse.refl guarded =>
      have replaced := find?_replace c.signals { spec.asStored with id := old.id } code s
      rw [show c.signals.find? _ = some σ from hs] at replaced
      refine ⟨_, replaced, ?_⟩
      split
      case isFalse => exact σ.dataType.widens_refl
      case isTrue same =>
        obtain ⟨rfl, rfl⟩ : spec.category = code ∧ spec.code = s := same
        obtain rfl := Option.some.inj (hk.symm.trans hk')
        obtain rfl := Option.some.inj (hs.symm.trans found)
        have widens : σ.dataType.widens spec.dataType := by simpa [synced, stored] using guarded
        exact widens

end Catalog

namespace Synchronizer

-- What can be done about a category and its signals, one thing after another.

inductive Edits (code : String) : CatalogOp → Prop
  | createCategory (h : spec.code = code) : Edits code (.createCategory spec)
  | addSignal (h : spec.category = code) : Edits code (.addSignal spec)
  | updateSignal (h : spec.category = code) : Edits code (.updateSignal spec)
  | removeSignal : Edits code (.removeSignal code signal)

-- The circumstances of a call, such as what the engine is going to answer, are whatever they are.
inductive Evolves (code : String) (w : World Service) : World Service → Prop
  | arranged (hc : w'.catalog = w.catalog) (ht : w'.engine.tables = w.engine.tables) :
    Evolves code w w'
  | edited (op : CatalogOp) (h : Edits code op) : Evolves code w (w.edit op)
  | synced (policy : RetryPolicy) : Evolves code w (Call.run policy w (.sync code))
  | resynced (policy : RetryPolicy) : Evolves code w (Call.run policy w (.resync code))

-- A run in which something is so at every moment.
inductive Evolved (P : World Service → Prop) (code : String) (w : World Service) :
    World Service → Prop
  | refl (h : P w) : Evolved P code w w
  | tail (hs : Evolved P code w w') (h : Evolves code w' w'') (hp : P w'') : Evolved P code w w''

variable {w w' : World Service} {policy : RetryPolicy} {k : CategoryKey}
  {code : String} {signals : List SignalSpec} {r : SyncReport}

section Issue

variable {category operation : String} {name : α → String} {statement : α → Except Invalid String}
  {note : α → String → SyncReport → SyncReport} {as : List α}

-- What every one of the statements keeps is kept by all of them, in whatever way the row ends.
theorem issue_keeps (P : Tables → Prop)
    (keeps : ∀ a ∈ as, ∀ text, statement a = .ok text →
      ∀ t t' : Tables, P t → t.run text = .ok t' → P t')
    (h : P w.engine.tables) :
    Ensures (issue policy category operation name statement note as r) w
      (fun _ w' => P w'.engine.tables) (fun _ w' => P w'.engine.tables) := by
  induction as generalizing r w with
  | nil => exact .pure h
  | cons a as ih =>
    have ⟨first, rest⟩ := List.forall_mem_cons.mp keeps
    refine checked_ensures.step (fun text _ ⟨ht, he⟩ => ?_) (fun _ _ ⟨he, _⟩ => he ▸ h)
    subst he
    refine execute_ensures.step (fun x w' hx => ?_) (fun _ _ h => h.elim)
    have h' : P w'.engine.tables := by
      cases hx with
      | done ran _ _ => exact first text ht _ _ h ran
      | present hu _ _ => exact hu.tables ▸ h
      | failed hu _ _ => exact hu.tables ▸ h
    cases x with
    | ok => exact ih rest h'
    | error f =>
      cases hf : f.isExhausted with
      | true => simpa [hf] using .throw h'
      | false =>
        simp only [hf, Bool.false_eq_true, if_false]
        exact ih rest h'

end Issue

-- No super-table has been made yet.
def Bare (t : Tables) : Prop := t.superTables = ∅

theorem Bare.not_superTable {t : Tables} {n : TableName} {S : TableSchema} (h : Bare t) :
    t.superTables[n]? ≠ some S := by
  simp [Bare] at h
  simp [h]

-- The category is on record as synchronized.
def Founded (code : String) (c : Catalog) : Prop :=
  ∃ k, c.category? code = some k ∧ k.isSynced

theorem addColumns_bare {cs : List Column} (hw : ∀ c ∈ cs, c.type.Writable)
    (h : Bare w.engine.tables) :
    Ensures (addColumns policy k cs r) w (fun _ w' => Bare w'.engine.tables)
      (fun _ w' => Bare w'.engine.tables) := by
  rw [addColumns_eq]
  refine issue_keeps Bare (fun c hc text ht t t' bare ran => ?_) h
  rw [Tables.run_eq (addColumnStatement_parse ht (hw c hc))] at ran
  obtain ⟨_, there, -⟩ := Tables.addColumn_ok ran
  exact absurd there bare.not_superTable

theorem widenColumns_bare {xs : List Widening} (hw : ∀ x ∈ xs, x.new.Writable)
    (h : Bare w.engine.tables) :
    Ensures (widenColumns policy k xs r) w (fun _ w' => Bare w'.engine.tables)
      (fun _ w' => Bare w'.engine.tables) := by
  rw [widenColumns_eq]
  refine issue_keeps Bare (fun x hx text ht t t' bare ran => ?_) h
  rw [Tables.run_eq (modifyColumnStatement_parse ht (hw x hx))] at ran
  obtain ⟨_, _, there, -⟩ := Tables.modifyColumn_ok ran
  exact absurd there bare.not_superTable

-- Altering makes no super-table, and making one that fails has made none.

theorem alter_bare {S : TableSchema} (h : Bare w.engine.tables) :
    Ensures (alter policy k (diff S signals) r) w (fun _ w' => Bare w'.engine.tables)
      (fun _ w' => Bare w'.engine.tables) :=
  (addColumns_bare missing_writable h).step
    (fun _ _ h => (widenColumns_bare widenings_writable h).step (fun _ _ h => .pure h)
      (fun _ _ h => h))
    (fun _ _ h => h)

theorem create_bare (h : Bare w.engine.tables) :
    Ensures (create policy k signals text r) w
      (fun r' w' => r'.rejected = r.rejected ∧ w'.catalog = w.catalog ∧ w.Later w')
      (fun _ w' => Bare w'.engine.tables) := by
  refine checked_ensures.step (fun database _ ⟨hq, he⟩ => ?_) (fun _ _ ⟨he, _⟩ => he ▸ h)
  subst he
  refine mustExecute_ensures.step (fun _ w₁ h₁ => ?_) (fun _ _ hu => hu.tables ▸ h)
  have bare : Bare w₁.engine.tables := by
    cases h₁ with
    | done ran _ _ =>
      rw [Tables.run_eq (databaseStatement_parse hq)] at ran
      obtain e | e := Tables.createDatabase_ok ran <;> rw [e] <;> exact h
    | present hu _ _ => exact hu.tables ▸ h
  refine mustExecute_ensures.step (fun _ w₂ h₂ => ?_) (fun _ _ hu => hu.tables ▸ bare)
  exact .pure ⟨rfl, h₂.catalog.trans h₁.catalog, h₁.later.trans h₂.later⟩

theorem record_founds {k : CategoryInfo} (hk : w.catalog.getCategory code = some k)
    (hc : w.SoundCatalog) :
    Ensures (do
        catalog policy (.recordCategorySync code (fingerprint text) (← Program.now))
        return r) w
      (fun _ w' => Founded code w'.catalog) (fun _ _ => False) := by
  obtain ⟨row, hrow, -⟩ := Option.map_eq_some_iff.mp hk
  refine .lift <| (catalog_ensures).step (fun _ w' ⟨ho, _, _⟩ => .pure ?_) ?_
  · exact ⟨_, (Catalog.category?_changeCategory ho fun _ => rfl).trans (congrArg _ hrow), rfl⟩
  · rintro _ w' ⟨-, e, failed⟩
    cases hrow.symm.trans (Catalog.changeCategory_error (failed.refused_of_sound hc))

-- The first super-table that is made puts the category on record.
theorem syncLocked_founds {inspect : Bool} (hc : w.SoundCatalog) (h : Bare w.engine.tables) :
    Ensures (syncLocked policy code inspect) w
      (fun _ w' => Bare w'.engine.tables ∨ Founded code w'.catalog)
      (fun _ w' => Bare w'.engine.tables) := by
  have untouched {w'} (hu : w.Untouched w') : Bare w'.engine.tables := hu.engine ▸ h
  refine loadCategory_ensures.step (fun k w₁ ⟨hk, h₁⟩ => ?_) (fun _ _ h => untouched h.1)
  refine .guard (fun _ => untouched h₁) fun _ => ?_
  refine (read_ensures rfl).step (fun _ w₂ ⟨_, h₂⟩ => ?_)
    (fun _ _ h => untouched (h₁.trans h.1))
  have hu := h₁.trans h₂
  refine checked_ensures.step (fun text w₃ ⟨_, he⟩ => ?_) (fun _ _ ⟨he, _⟩ => he ▸ untouched hu)
  subst he
  dsimp only
  split
  case isTrue => exact .pure (.inl (untouched hu))
  case isFalse =>
    have tables := untouched hu
    refine describe_ensures.step (fun S w₄ ⟨_, h₄⟩ => ?_) (fun _ _ h => h.1.tables ▸ tables)
    have bare : Bare w₄.engine.tables := h₄.tables ▸ tables
    cases S with
    | none =>
      refine (create_bare bare).step (fun r w₅ ⟨clean, catalog, later⟩ => ?_) (fun _ _ h => h)
      have asked := hu.asked.trans h₄
      rw [← asked.catalog, ← catalog] at hk
      simp only [clean, List.isEmpty_nil, if_true]
      exact (record_founds hk (hc.later (asked.toLater.trans later))).mono (fun _ _ h => .inr h)
        (fun _ _ h => h.elim)
    | some S =>
      refine (alter_bare bare).step (fun r w₅ h₅ => ?_) (fun _ _ h => h)
      split
      case isTrue =>
        exact record_ensures.mono (fun _ _ ⟨_, h⟩ => .inl (h.engine ▸ h₅))
          (fun _ _ h => h.engine ▸ h₅)
      case isFalse => exact .pure (.inl h₅)

theorem Evolved.last (h : Evolved P code w w') : P w' := by
  cases h with
  | refl h => exact h
  | tail _ _ h => exact h

theorem category?_stamped {c : Catalog} (digest : String) (time : Int) :
    (c.stamped code digest time).category? code = (c.category? code).map fun k =>
      { k with fingerprint := some digest, lastSyncedAt := some time } := by
  let record (k : Category) : Category :=
    { k with fingerprint := some digest, lastSyncedAt := some time }
  exact Catalog.find?_update (f := record) (fun k => k.code) (fun _ => rfl) c.categories

-- What is on record stays there.

theorem Founded.stamped {c : Catalog} (h : Founded code c) (digest : String) (time : Int) :
    Founded code (c.stamped code digest time) := by
  obtain ⟨k, hk, -⟩ := h
  exact ⟨_, (category?_stamped digest time).trans (congrArg _ hk), rfl⟩

theorem Founded.effect {c c' : Catalog} (h : Founded code c) (he : Edits code op)
    (hop : c.Effect op c') : Founded code c' := by
  obtain ⟨k, hk, synced⟩ := h
  refine ⟨k, ?_, synced⟩
  cases hop with
  | read | signals | assets | appendLog => exact hk
  | createCategory =>
    simp only [Catalog.category?] at hk ⊢
    simp [List.find?_append, hk]
  | _ => cases he

-- A call for a synchronization puts the category on record or does not concern the catalog.
theorem syncing_catalog {inspect : Bool} :
    Ensures (holding code (syncLocked policy code inspect)) w
      (fun _ w' => Founded code w.catalog → Founded code w'.catalog)
      (fun _ w' => Founded code w.catalog → Founded code w'.catalog) := by
  refine holding_accounts.mono (fun r w' h => ?_) (fun _ w' h => h ▸ id)
  obtain h | ⟨digest, time, h⟩ := h.catalog <;> rw [h]
  · exact id
  · exact fun founded => founded.stamped digest time

theorem Evolves.founded (h : Evolves code w w') (hf : Founded code w.catalog) :
    Founded code w'.catalog := by
  cases h with
  | arranged hc _ => exact hc ▸ hf
  | edited op he =>
    unfold World.edit
    split
    case h_1 done => exact hf.effect he (Catalog.perform_effect done)
    case h_2 => exact hf
  | synced policy => exact syncing_catalog.after (fun _ _ h => h hf) (fun _ _ h => h hf)
  | resynced policy => exact syncing_catalog.after (fun _ _ h => h hf) (fun _ _ h => h hf)

theorem syncing_founds {inspect : Bool} (hc : w.SoundCatalog) (h : Bare w.engine.tables) :
    Ensures (holding code (syncLocked policy code inspect)) w
      (fun _ w' => Bare w'.engine.tables ∨ Founded code w'.catalog)
      (fun _ w' => Bare w'.engine.tables ∨ Founded code w'.catalog) := by
  refine .holding fun w₁ h₁ => ?_
  refine (syncLocked_founds (hc.later h₁.asked.toLater) (h₁.engine ▸ h)).mono ?_ ?_
  · exact fun _ w₂ h₂ w₃ h₃ => by rwa [h₃.engine, h₃.catalog]
  · exact fun _ w₂ h₂ w₃ h₃ => .inl (h₃.engine ▸ h₂)

-- With a sound catalog there is no super-table unless the category is on record.
theorem Evolves.bare (h : Evolves code w w') (hc : w.SoundCatalog)
    (hb : Bare w.engine.tables ∨ Founded code w.catalog) :
    Bare w'.engine.tables ∨ Founded code w'.catalog := by
  obtain bare | founded := hb
  case inr => exact .inr (h.founded founded)
  cases h with
  | arranged _ ht => exact .inl (ht ▸ bare)
  | edited op =>
    unfold World.edit
    split <;> exact .inl bare
  | synced policy => exact (syncing_founds hc bare).after (fun _ _ h => h) (fun _ _ h => h)
  | resynced policy => exact (syncing_founds hc bare).after (fun _ _ h => h) (fun _ _ h => h)

theorem Evolved.bare (h : Evolved World.SoundCatalog code w w')
    (hb : Bare w.engine.tables ∨ Founded code w.catalog) :
    Bare w'.engine.tables ∨ Founded code w'.catalog := by
  induction h with
  | refl => exact hb
  | tail hs h _ ih => exact h.bare hs.last ih

-- While a category is on record, the type of a signal that is stored is only widened.

theorem Founded.widens {c c' : Catalog} {op : CatalogOp} {answer : op.Answer} {s : String}
    {σ σ' : Signal} (hf : Founded code c) (he : Edits code op)
    (h : op.perform c = .ok (answer, c')) (hs : c.signal? code s = some σ) (stored : σ.isStored)
    (hs' : c'.signal? code s = some σ') : σ.dataType.widens σ'.dataType := by
  have same (found : c'.signal? code s = some σ) : σ.dataType.widens σ'.dataType := by
    obtain rfl := Option.some.inj (found.symm.trans hs')
    exact σ.dataType.widens_refl
  cases he with
  | createCategory =>
    obtain ⟨-, -, rfl⟩ := Catalog.createCategory_ok h
    exact same hs
  | addSignal => exact same (Catalog.signal?_addSignal h hs)
  | removeSignal =>
    obtain rfl := Option.some.inj ((Catalog.signal?_removeSignal h hs').symm.trans hs)
    exact σ'.dataType.widens_refl
  | updateSignal =>
    obtain ⟨k, hk, synced⟩ := hf
    obtain ⟨σ'', found, widens⟩ := Catalog.signal?_updateSignal h hk synced hs stored
    obtain rfl := Option.some.inj (found.symm.trans hs')
    exact widens

theorem Evolves.widens {s : String} {σ σ' : Signal} (h : Evolves code w w')
    (hf : Founded code w.catalog) (hs : w.catalog.signal? code s = some σ) (stored : σ.isStored)
    (hs' : w'.catalog.signal? code s = some σ') : σ.dataType.widens σ'.dataType := by
  have same (h : w'.catalog.signals = w.catalog.signals) : σ.dataType.widens σ'.dataType := by
    rw [Catalog.signal?, h] at hs'
    obtain rfl := Option.some.inj (hs.symm.trans hs')
    exact σ.dataType.widens_refl
  cases h with
  | arranged hc _ => exact same (by rw [hc])
  | synced policy => exact same (Call.kept policy w _).signals
  | resynced policy => exact same (Call.kept policy w _).signals
  | edited op he =>
    cases done : op.perform w.catalog with
    | error e => exact same (by simp [World.edit, done])
    | ok r =>
      simp only [World.edit, done] at hs'
      exact hf.widens he done hs stored hs'

-- The signal is there and stored.
def Stores (code s : String) (w : World Service) : Prop :=
  ∃ σ, w.catalog.signal? code s = some σ ∧ σ.isStored

theorem Evolved.widens {s : String} {σ σ' : Signal} (h : Evolved (Stores code s) code w w')
    (hf : Founded code w.catalog) (hs : w.catalog.signal? code s = some σ)
    (hs' : w'.catalog.signal? code s = some σ') :
    Founded code w'.catalog ∧ σ.dataType.widens σ'.dataType := by
  induction h generalizing σ' with
  | refl =>
    obtain rfl := Option.some.inj (hs.symm.trans hs')
    exact ⟨hf, σ.dataType.widens_refl⟩
  | tail before h _ ih =>
    obtain ⟨σ₁, found, stored⟩ := before.last
    obtain ⟨founded, widens⟩ := ih found
    exact ⟨h.founded founded,
      DataType.widens_trans widens (h.widens founded found stored hs')⟩

-- Nothing has been done yet.
structure Fresh (w : World Service) : Prop where
  catalog : w.catalog = {}
  tables : w.engine.tables = {}

-- Once there is a super-table, the type of a signal is only widened as long as the signal is stored
-- at every moment. The table is that of the category, as no other category is made.
theorem stored_type_widens {code s : String} {w₀ w₁ w₂ : World Service} {n : TableName}
    {S : TableSchema} {σ σ' : Signal} (fresh : Fresh w₀)
    (before : Evolved World.SoundCatalog code w₀ w₁)
    (table : w₁.engine.tables.superTables[n]? = some S)
    (hs : w₁.catalog.signal? code s = some σ) (since : Evolved (Stores code s) code w₁ w₂)
    (hs' : w₂.catalog.signal? code s = some σ') : σ.dataType.widens σ'.dataType := by
  have none : Bare w₀.engine.tables := by
    rw [Bare, fresh.tables]
  have founded := (before.bare (.inl none)).resolve_left fun bare => bare.not_superTable table
  exact (since.widens founded hs hs').2

-- A signal that has its column.

def rpm (dataType : DataType) (isStored : Bool) : SignalSpec :=
  { SignalSpec.stored "motor" "rpm" dataType with isStored }

def described : World Service :=
  let w : World Service := { engine := {} }
  (w.edit (.createCategory { code := "motor", database := "plant", name := "Motor" })).edit
    (.addSignal (rpm .integer true))

def materialized : World Service := Call.run {} described (.sync "motor")

theorem run_materialized :
    materialized.catalogFaults.isEmpty ∧
      (materialized.catalog.category? "motor").map (·.superTable) = some ⟨"plant", "raw_motor"⟩ ∧
      (materialized.engine.tables.superTables[TableName.mk "plant" "raw_motor"]?).bind
        (·.column? "rpm") = some ⟨"rpm", .bigint⟩ ∧
      (materialized.catalog.signal? "motor" "rpm").map (fun σ => (σ.isStored, σ.dataType)) =
        some (true, .integer) := by
  decide +kernel

theorem edit_soundCatalog (h : w.SoundCatalog) (op : CatalogOp) : (w.edit op).SoundCatalog := by
  unfold World.edit
  split <;> exact h

theorem evolved_materialized :
    Evolved World.SoundCatalog "motor" { engine := {} } materialized := by
  have start : World.SoundCatalog ({ engine := {} } : World Service) := rfl
  have first := edit_soundCatalog start
    (.createCategory { code := "motor", database := "plant", name := "Motor" })
  have second := edit_soundCatalog first (.addSignal (rpm .integer true))
  have third : materialized.SoundCatalog := List.isEmpty_iff.mp run_materialized.1
  exact .tail (.tail (.tail (.refl start) (.edited _ (.createCategory rfl)) first)
    (.edited _ (.addSignal rfl)) second) (.synced _) third

theorem run_widened :
    ((materialized.edit (.updateSignal (rpm .numeric true))).catalog.signal? "motor" "rpm").map
      (fun σ => (σ.isStored, σ.dataType)) = some (true, .numeric) := by
  decide +kernel

theorem stored_type_widens_numeric :
    ∃ w σ σ', Evolved (Stores "motor" "rpm") "motor" materialized w ∧
      materialized.catalog.signal? "motor" "rpm" = some σ ∧
      w.catalog.signal? "motor" "rpm" = some σ' ∧ σ.dataType = .integer ∧ σ'.dataType = .numeric ∧
      σ.dataType.widens σ'.dataType := by
  obtain ⟨-, -, column, stored⟩ := run_materialized
  obtain ⟨S, table, -⟩ := Option.bind_eq_some_iff.mp column
  obtain ⟨σ, hs, facts⟩ := Option.map_eq_some_iff.mp stored
  obtain ⟨σ', hs', facts'⟩ := Option.map_eq_some_iff.mp run_widened
  obtain ⟨stored, integer⟩ := Prod.mk.inj facts
  obtain ⟨stored', numeric⟩ := Prod.mk.inj facts'
  have since : Evolved (Stores "motor" "rpm") "motor" materialized
      (materialized.edit (.updateSignal (rpm .numeric true))) :=
    .tail (.refl ⟨σ, hs, stored⟩) (.edited _ (.updateSignal rfl)) ⟨σ', hs', stored'⟩
  exact ⟨_, σ, σ', since, hs, hs', integer, numeric,
    stored_type_widens ⟨rfl, rfl⟩ evolved_materialized table hs since hs'⟩

-- By way of not being stored, the signal gets another type altogether.

def unstored : World Service := materialized.edit (.updateSignal (rpm .integer false))

def restored : World Service := unstored.edit (.updateSignal (rpm .string true))

theorem run_restored :
    (unstored.catalog.signal? "motor" "rpm").isSome ∧
      (restored.catalog.signal? "motor" "rpm").map (fun σ => (σ.isStored, σ.dataType)) =
        some (true, .string) := by
  decide +kernel

theorem restored_not_widened :
    ∃ w₀ w₁ w₂ k S c σ σ', Fresh w₀ ∧ Evolved World.SoundCatalog "motor" w₀ w₁ ∧
      w₁.catalog.category? "motor" = some k ∧
      w₁.engine.tables.superTables[k.superTable]? = some S ∧
      w₁.catalog.signal? "motor" "rpm" = some σ ∧ σ.isStored ∧
      S.column? "rpm" = some c ∧ c.type = σ.dataType.columnType ∧
      Evolved (fun w => (w.catalog.signal? "motor" "rpm").isSome) "motor" w₁ w₂ ∧
      w₂.catalog.signal? "motor" "rpm" = some σ' ∧ σ'.isStored ∧
      ¬σ.dataType.widens σ'.dataType := by
  obtain ⟨-, key, column, stored⟩ := run_materialized
  obtain ⟨present, stored'⟩ := run_restored
  obtain ⟨k, hk, name⟩ := Option.map_eq_some_iff.mp key
  obtain ⟨S, table, column⟩ := Option.bind_eq_some_iff.mp column
  obtain ⟨σ, hs, facts⟩ := Option.map_eq_some_iff.mp stored
  obtain ⟨σ', hs', facts'⟩ := Option.map_eq_some_iff.mp stored'
  obtain ⟨stored, integer⟩ := Prod.mk.inj facts
  obtain ⟨stored', string⟩ := Prod.mk.inj facts'
  have since : Evolved (fun w => (w.catalog.signal? "motor" "rpm").isSome) "motor" materialized
      restored :=
    .tail (.tail (.refl (by simp [hs])) (.edited _ (.updateSignal rfl)) present)
      (.edited _ (.updateSignal rfl)) (by simp [hs'])
  refine ⟨_, _, _, k, S, _, σ, σ', ⟨rfl, rfl⟩, evolved_materialized, hk, by rw [name, table], hs,
    stored, column, by rw [integer]; rfl, since, hs', stored', ?_⟩
  rw [integer, string]
  decide

end Synchronizer

end Historian
