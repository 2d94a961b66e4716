import Historian.Proofs.Schema.Outcome

namespace Historian.Synchronizer

open Engine World Schema

variable {w w' : World Service} {policy : RetryPolicy} {k : CategoryKey}

theorem missing_writable {S : TableSchema} : ∀ c ∈ (diff S signals).missing, c.type.Writable := by
  simp only [diff, Diff.ofColumns, signalColumns, List.mem_filter, List.mem_map]
  rintro _ ⟨⟨s, -, rfl⟩, -⟩
  exact s.dataType.writable

theorem mem_widenings {S : TableSchema} {x : Widening} :
    x ∈ (diff S signals).widenings ↔
      x.column ∈ signalColumns signals ∧ lackOf S x.column = .width x.old := by
  simp only [diff, Diff.ofColumns, List.mem_filterMap]
  constructor
  · rintro ⟨c, hc, hx⟩
    split at hx <;> cases hx
    exact ⟨hc, ‹_›⟩
  · rintro ⟨hc, hl⟩
    exact ⟨x.column, hc, by rw [hl]; rfl⟩

theorem widenings_writable {S : TableSchema} :
    ∀ x ∈ (diff S signals).widenings, x.new.Writable := by
  intro x hx
  obtain ⟨s, -, hs⟩ := List.mem_map.mp (mem_widenings.mp hx).1
  have ht : s.dataType.columnType = x.new := congrArg Column.type hs
  exact ht ▸ s.dataType.writable

-- A super-table that was not described is made as the signals ask.
inductive Created (k : CategoryKey) (signals : List SignalSpec) (w w' : World Service)
    (r : SyncReport) : SyncReport → Prop
  | intro (hd : w.engine.tables.describe k.superTable = none) (hm : Moved k w w')
    (hs : w.Honest → Tables.requireWellFormed (desired signals) = .ok () ∧
      w'.engine.tables.superTables[k.superTable]? = some (desired signals)) :
    Created k signals w w' r { r with
      action := .created
      added := (storedSignals signals).map (·.code)
      statements := [database, text] }

-- A table that was described is given what it lacks, as far as the engine admits it.
inductive Mended (k : CategoryKey) (signals : List SignalSpec) (w w' : World Service)
    (r : SyncReport) : SyncReport → Prop
  | intro (hd : w.engine.tables.describe k.superTable = some S)
    (ha : Altered w.Honest (·.addColumn k.superTable ·) k (diff S signals).missing w w₁
      added refused sent)
    (hw : Altered w.Honest (·.modifyColumn k.superTable ·) k
      ((diff S signals).widenings.map (·.column)) w₁ w' widened refused' sent') :
    Mended k signals w w' r (conclude (diff S signals).conflicts { r with
      added := r.added ++ added
      widened := r.widened ++ widened
      rejected := r.rejected ++ refused ++ refused'
      statements := r.statements ++ sent ++ sent' })

theorem create_ensures {r : SyncReport} (ht : superTableStatement k signals = .ok text)
    (hd : w.engine.tables.describe k.superTable = none) :
    Ensures (create policy k signals text r) w (fun r' w' => Created k signals w w' r r')
      (fun _ w' => Moved k w w') := by
  refine checked_ensures.step (fun database _ ⟨hq, he⟩ => ?_) (fun _ _ ⟨he, _⟩ => he ▸ .refl _)
  subst he
  have hrun₁ (t : Tables) := t.run_eq (databaseStatement_parse hq)
  have hrun₂ (t : Tables) := t.run_eq (superTableStatement_parse ht)
  refine mustExecute_ensures.step (fun _ w₁ h₁ => ?_) (fun _ _ h => .of_unmoved h)
  have hm₁ : Moved k _ w₁ := h₁.moved fun _ h => .database ((hrun₁ _).symm.trans h)
  have hd₁ : w₁.engine.tables.describe k.superTable = none := by
    cases h₁ with
    | done h _ _ =>
      obtain e | e := Tables.createDatabase_ok ((hrun₁ _).symm.trans h) <;> rw [e] <;> exact hd
    | present hu _ _ => exact hu.tables ▸ hd
  refine mustExecute_ensures.step (fun _ w₂ h₂ => ?_) (fun _ _ h => hm₁.trans (.of_unmoved h))
  have hm₂ : Moved k w₁ w₂ := h₂.moved fun _ h => .create hd₁ _ ((hrun₂ _).symm.trans h)
  refine .pure (.intro hd (hm₁.trans hm₂) fun hh => ?_)
  cases h₂ with
  | done h _ _ =>
    have ⟨hf, ht⟩ := Tables.createSuperTable_ok ((hrun₂ _).symm.trans h)
    refine ⟨hf, ?_⟩
    obtain ⟨-, hs⟩ | e := ht
    · simp [Tables.superTables_of_describe hd₁] at hs
    · simp [e]
  | present hu hr he =>
    obtain ⟨refusal, hx, rfl⟩ := hr.honest (hh.later hm₁.toLater) he
    exact absurd he (by simp [Tables.createSuperTable_exists ((hrun₂ _).symm.trans hx)])

theorem alter_ensures {r : SyncReport} {S : TableSchema}
    (hd : w.engine.tables.describe k.superTable = some S) :
    Ensures (alter policy k (diff S signals) r) w (fun r' w' => Mended k signals w w' r r')
      (fun _ w' => Moved k w w') := by
  refine (addColumns_ensures w.Honest id missing_writable).step
    (fun _ w₁ ⟨added, refused, sent, ha, hr⟩ => ?_) (fun _ _ h => h)
  subst hr
  refine (widenColumns_ensures w.Honest (·.later ha.toLater) widenings_writable).step
    (fun _ w₂ ⟨widened, refused', sent', hw, hr⟩ => ?_) (fun _ _ h => ha.toMoved.trans h)
  subst hr
  exact .pure (.intro hd ha hw)

theorem Created.moved (h : Created k signals w w' r r') : Moved k w w' := by
  obtain ⟨-, hm, -⟩ := h
  exact hm

theorem Mended.moved (h : Mended k signals w w' r r') : Moved k w w' := by
  obtain ⟨-, ha, hw⟩ := h
  exact ha.toMoved.trans hw.toMoved

-- What was looked up about a category before the engine is asked.
structure Prepared (w : World Service) (code : String) (k : CategoryInfo)
    (signals : List SignalSpec) (text : String) : Prop where
  category : w.catalog.getCategory code = some k
  active : k.isActive
  listed : (w.catalog.listSignals code).map (·.toSignalSpec) = signals
  statement : superTableStatement k.toCategoryKey signals = .ok text

-- The report of a synchronization that has not done anything yet.
def blank (code : String) (k : CategoryKey) (text : String) : SyncReport :=
  { category := code, database := k.database, superTable := k.superTableName,
    fingerprint := fingerprint text }

-- The digest went on record.
structure Recorded (code text : String) (w w' : World Service) : Prop where
  engine : w'.engine = w.engine
  catalog : ∃ time, w.catalog.recordCategorySync code (fingerprint text) time = .ok ((), w'.catalog)
  catalogFaults : w'.catalogFaults.Sublist w.catalogFaults

-- The engine was brought to what the signals ask for, as far as the report says.
inductive Brought (k : CategoryKey) (signals : List SignalSpec) (w w' : World Service)
    (r r' : SyncReport) : Prop
  | created (h : Created k signals w w' r r')
  | mended (h : Mended k signals w w' r r')

-- The ways in which a synchronization ends well. Only one that rejected nothing is recorded.
inductive Synced (code : String) (inspect : Bool) (w w' : World Service) : SyncReport → Prop
  | skipped {k : CategoryInfo} (hp : Prepared w code k signals text) (hi : inspect = false)
    (hf : k.fingerprint = some (fingerprint text)) (hu : w.Untouched w') :
    Synced code inspect w w' (blank code k.toCategoryKey text)
  | recorded {k : CategoryInfo} (hp : Prepared w code k signals text) (ha : w.Asked w₁)
    (hb : Brought k.toCategoryKey signals w₁ w₂ (blank code k.toCategoryKey text) r)
    (hr : r.rejected = []) (h : Recorded code text w₂ w') : Synced code inspect w w' r
  | incomplete {k : CategoryInfo} (hp : Prepared w code k signals text) (ha : w.Asked w₁)
    (hb : Brought k.toCategoryKey signals w₁ w₂ (blank code k.toCategoryKey text) r)
    (hr : r.rejected ≠ []) (hu : w₂.Untouched w') : Synced code inspect w w' r

-- What a call for a category may have done when it fails.
inductive Touched (code : String) (w w' : World Service) : Prop
  | nothing (h : w.Untouched w')
  | moved {k : CategoryInfo} (hk : w.catalog.getCategory code = some k)
    (h : Moved k.toCategoryKey w w')

theorem Prepared.earlier {k : CategoryInfo} (h : Prepared w₁ code k signals text)
    (hu : w.Untouched w₁) :
    Prepared w code k signals text :=
  ⟨hu.catalog ▸ h.category, h.active, hu.catalog ▸ h.listed, h.statement⟩

theorem Recorded.later (h : Recorded code text w w') (hu : w'.Untouched w₂) :
    Recorded code text w w₂ :=
  ⟨hu.engine.trans h.engine, hu.catalog ▸ h.catalog, hu.catalogFaults.trans h.catalogFaults⟩

theorem Synced.between (h₁ : w.Untouched w₁) (h : Synced code inspect w₁ w₂ r)
    (h₂ : w₂.Untouched w') : Synced code inspect w w' r := by
  cases h with
  | skipped hp hi hf hu => exact .skipped (hp.earlier h₁) hi hf ((h₁.trans hu).trans h₂)
  | recorded hp ha hb hr h => exact .recorded (hp.earlier h₁) (h₁.asked.trans ha) hb hr (h.later h₂)
  | incomplete hp ha hb hr hu =>
    exact .incomplete (hp.earlier h₁) (h₁.asked.trans ha) hb hr (hu.trans h₂)

theorem Touched.between (h₁ : w.Untouched w₁) (h : Touched code w₁ w₂) (h₂ : w₂.Untouched w') :
    Touched code w w' := by
  cases h with
  | nothing h => exact .nothing ((h₁.trans h).trans h₂)
  | moved hk h =>
    have h := (Moved.of_unmoved h₁.asked.toUnmoved).trans h
    exact .moved (h₁.catalog ▸ hk) (h.trans (.of_unmoved h₂.asked.toUnmoved))

theorem Brought.moved (h : Brought k signals w w' r r') : Moved k w w' := by
  cases h with
  | created h => exact h.moved
  | mended h => exact h.moved

theorem bring_ensures {k : CategoryKey} {r : SyncReport} {category : String}
    {f : SyncReport → Action SyncReport} {Q : SyncReport → World Service → Prop}
    {E : SyncError → World Service → Prop} (ht : superTableStatement k signals = .ok text)
    (hf : ∀ r' w₁ w₂, w.Asked w₁ → Brought k signals w₁ w₂ r r' → Ensures (f r') w₂ Q E)
    (he : ∀ e w', Moved k w w' → E e w') :
    Ensures (describe policy category k.superTable >>= fun
        | none => create policy k signals text r >>= f
        | some S => alter policy k (diff S signals) r >>= f) w Q E := by
  refine describe_ensures.step (fun S w₁ ⟨hS, ha⟩ => ?_)
    (fun _ _ h => he _ _ (.of_unmoved h.1.toUnmoved))
  have hm : Moved k w w₁ := .of_unmoved ha.toUnmoved
  rw [← ha.tables] at hS
  cases S with
  | none =>
    exact (create_ensures ht hS.symm).step (fun r' w' h => hf _ _ _ ha (.created h))
      (fun _ _ h => he _ _ (hm.trans h))
  | some S =>
    exact (alter_ensures hS.symm).step (fun r' w' h => hf _ _ _ ha (.mended h))
      (fun _ _ h => he _ _ (hm.trans h))

theorem record_ensures {code text : String} {r : SyncReport} :
    Ensures (do
        catalog policy (.recordCategorySync code (fingerprint text) (← Program.now))
        return r) w
      (fun r' w' => r' = r ∧ Recorded code text w w') (fun _ w' => w.Untouched w') :=
  .lift <| (catalog_ensures).step
    (fun _ _ ⟨ho, he, hf⟩ => .pure ⟨rfl, he, ⟨_, ho⟩, hf⟩) (fun _ _ h => h.1)

theorem syncLocked_ensures {code : String} {inspect : Bool} :
    Ensures (syncLocked policy code inspect) w (fun r w' => Synced code inspect w w' r)
      (fun _ w' => Touched code w w') := by
  refine loadCategory_ensures.step (fun k w₁ ⟨hk, hu₁⟩ => ?_) (fun _ _ h => .nothing h.1)
  refine .guard (fun _ => .nothing hu₁) fun hactive => ?_
  refine (read_ensures rfl).step (fun signals w₂ ⟨hs, hu₂⟩ => ?_)
    (fun _ _ h => .nothing (hu₁.trans h.1))
  subst hs
  have hu := hu₁.trans hu₂
  refine checked_ensures.step (fun text w₃ ⟨ht, he⟩ => ?_) (fun _ _ ⟨he, _⟩ => he ▸ .nothing hu)
  subst he
  rw [hu₁.catalog] at ht ⊢
  have hp : Prepared w code k _ text := ⟨hk, by simpa using hactive, rfl, ht⟩
  dsimp only
  split
  case isTrue hs =>
    simp only [Bool.and_eq_true, Bool.not_eq_true', beq_iff_eq] at hs
    exact .pure (.skipped hp hs.1 hs.2 hu)
  case isFalse =>
    have hm {w'} (h : Moved k.toCategoryKey w₃ w') : Touched code w w' :=
      .moved hk ((Moved.of_unmoved hu.asked.toUnmoved).trans h)
    refine bring_ensures ht (fun r w₄ w₅ ha hb => ?_) (fun _ _ h => hm h)
    have hm₅ := (Moved.of_unmoved ha.toUnmoved).trans hb.moved
    have ha := hu.asked.trans ha
    split
    case isTrue hr =>
      refine record_ensures.mono (fun r' w' ⟨he, h⟩ => ?_) (fun _ _ h => ?_)
      · exact he ▸ .recorded hp ha hb (by simpa using hr) h
      · exact hm (hm₅.trans (.of_unmoved h.asked.toUnmoved))
    case isFalse hr => exact .pure (.incomplete hp ha hb (by simpa using hr) (.refl _))

theorem sync_ensures {code : String} :
    Ensures (sync policy code) w (fun r w' => Synced code false w w' r)
      (fun _ w' => Touched code w w') :=
  .holding fun _ h₁ => syncLocked_ensures.mono (fun _ _ h _ h₂ => .between h₁ h h₂)
    (fun _ _ h _ h₂ => .between h₁ h h₂)

theorem resync_ensures {code : String} :
    Ensures (resync policy code) w (fun r w' => Synced code true w w' r)
      (fun _ w' => Touched code w w') :=
  .holding fun _ h₁ => syncLocked_ensures.mono (fun _ _ h _ h₂ => .between h₁ h h₂)
    (fun _ _ h _ h₂ => .between h₁ h h₂)

-- What is on record about other categories stays.

theorem Recorded.others (h : Recorded other text w w') (hne : code ≠ other) :
    w'.catalog.category? code = w.catalog.category? code := by
  obtain ⟨time, hc⟩ := h.catalog
  exact Catalog.category?_changeCategory_of_ne hc (fun _ => rfl) hne

theorem sync_others {other code : String} (hne : code ≠ other) :
    ((sync policy other).run.run w).2.catalog.category? code = w.catalog.category? code := by
  have unmoved {w₁ w₂ : World Service} (h : w₂.catalog = w₁.catalog) :
      w₂.catalog.category? code = w₁.catalog.category? code := by rw [h]
  have brought {w₁ w₂ : World Service} {k : CategoryKey} {signals : List SignalSpec}
      {r r' : SyncReport} (ha : w.Asked w₁) (hb : Brought k signals w₁ w₂ r r') :
      w₂.catalog.category? code = w.catalog.category? code :=
    unmoved ((Moved.of_unmoved ha.toUnmoved).trans hb.moved).catalog
  refine sync_ensures.after (P := fun w' => w'.catalog.category? code = w.catalog.category? code)
    (fun r w' h => ?_) (fun _ w' h => ?_)
  · cases h with
    | skipped _ _ _ hu => exact unmoved hu.catalog
    | incomplete _ ha hb _ hu => exact (unmoved hu.catalog).trans (brought ha hb)
    | recorded _ ha hb _ hr => exact (hr.others hne).trans (brought ha hb)
  · cases h with
    | nothing hu => exact unmoved hu.catalog
    | moved _ hm => exact unmoved hm.catalog

end Historian.Synchronizer
