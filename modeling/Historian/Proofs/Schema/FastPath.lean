import Historian.Proofs.Schema.Faithful

namespace Historian.Synchronizer

open Engine World Schema Text

variable {w w' : World Service} {texts : List String} {k : CategoryKey} {policy : RetryPolicy}
  {code text : String}

-- A table that lacks nothing that a statement could give it is left alone.

theorem record_sound {k : CategoryInfo} {text : String} {r : SyncReport}
    (hk : w.catalog.getCategory code = some k) (hc : w.SoundCatalog) :
    Ensures (do
        catalog policy (.recordCategorySync code (fingerprint text) (← Program.now))
        return r) w
      (fun r' w' => r' = r ∧ w'.engine = w.engine) (fun _ _ => False) := by
  refine .lift <| (catalog_ensures).step (fun _ _ ⟨_, he, _⟩ => .pure ⟨rfl, he⟩) fun _ w'
    ⟨_, e, hf⟩ => ?_
  obtain ⟨k', hk', -⟩ := Option.map_eq_some_iff.mp hk
  cases hf with
  | arranged name hm => exact List.not_mem_nil (hc ▸ hm)
  | refused hr =>
    cases hk'.symm.trans (Catalog.changeCategory_error hr)

theorem syncLocked_quiet {k : CategoryInfo} {S : TableSchema} (hp : Prepared w code k signals text)
    (hc : w.SoundCatalog) (he : w.SoundEngine policy)
    (hd : w.engine.tables.describe k.superTable = some S) (hm : (diff S signals).missing = [])
    (hx : (diff S signals).widenings = []) :
    Ensures (syncLocked policy code true) w
      (fun r w' => r = conclude (diff S signals).conflicts (blank code k.toCategoryKey text) ∧
        w'.engine.tables = w.engine.tables ∧ w'.engine.statements = w.engine.statements)
      (fun _ _ => False) := by
  have sound {w₁} (h : World.Asked w w₁) := hc.later h.toLater
  refine loadCategory_ensures.step (fun k' w₁ ⟨hk, hu₁⟩ => ?_)
    (fun _ _ h => h.2 ⟨hc, by simp [hp.category]⟩)
  obtain rfl : k = k' := Option.some.inj (hp.category.symm.trans hk)
  refine .guard (fun hn => by simp [hp.active] at hn) fun _ => ?_
  refine (read_ensures rfl).step (fun listed w₂ ⟨hs, hu₂⟩ => ?_)
    (fun _ _ h => h.2 (sound hu₁.asked))
  have hu := (hu₁.trans hu₂).asked
  rw [hs, hu₁.catalog, hp.listed]
  refine checked_ensures.step (fun text' w₃ ⟨ht, he⟩ => ?_) (fun _ _ h => h.2 _ hp.statement)
  subst he
  obtain rfl : text = text' := Except.ok.inj (hp.statement.symm.trans ht)
  refine describe_ensures.step (fun found w₄ ⟨hf, ha⟩ => ?_)
    (fun _ _ h => h.2 (he.later hu.toLater))
  have ha := hu.trans ha
  rw [hf, hu.tables, hd]
  simp only [alter, hm, hx, addColumns, widenColumns, pure_bind]
  split
  case isTrue =>
    have hk : w₄.catalog.getCategory code = some k := by rw [ha.catalog, hp.category]
    refine (record_sound hk (sound ha)).mono (fun _ _ ⟨hr, hw⟩ => ?_) (fun _ _ h => h)
    exact ⟨hr, by rw [hw, ha.tables], by rw [hw, ha.statements]⟩
  case isFalse => exact .pure ⟨rfl, ha.tables, ha.statements⟩

theorem resync_quiet {k : CategoryInfo} {S : TableSchema} (hp : Prepared w code k signals text)
    (hc : w.SoundCatalog) (he : w.SoundEngine policy)
    (hd : w.engine.tables.describe k.superTable = some S) (hm : (diff S signals).missing = [])
    (hx : (diff S signals).widenings = []) :
    ∃ r w', (resync policy code).run.run w = (.ok r, w') ∧
      r = conclude (diff S signals).conflicts (blank code k.toCategoryKey text) ∧
      w'.engine.tables = w.engine.tables ∧ w'.engine.statements = w.engine.statements := by
  refine Ensures.exists_ok (.holding fun w₁ h₁ => ?_)
  have hp₁ : Prepared w₁ code k signals text :=
    ⟨h₁.catalog ▸ hp.category, hp.active, h₁.catalog ▸ hp.listed, hp.statement⟩
  have later := h₁.asked.toLater
  have quiet := syncLocked_quiet hp₁ (hc.later later) (he.later later) (h₁.engine ▸ hd) hm hx
  refine quiet.mono (fun r w₂ ⟨hr, ht, hs⟩ w₃ h₂ => ⟨hr, ?_, ?_⟩) (fun _ _ h _ _ => h)
  · rw [h₂.engine, ht, h₁.engine]
  · rw [h₂.engine, hs, h₁.engine]

-- A synchronization that asks the engine finds everything as it should be.
def Clean (policy : RetryPolicy) (code : String) (w : World Service) : Prop :=
  ∃ r w', (resync policy code).run.run w = (.ok r, w') ∧ r.action = .unchanged ∧ r.rejected = [] ∧
    w'.engine.statements = w.engine.statements

theorem Alters.nothing (h : Alters H act cs t [] [] t') : cs = [] := by
  cases h
  rfl

theorem Mended.unchanged {r r' : SyncReport} (h : Mended k signals w w' r r')
    (ha : r'.action = .unchanged)
    (hr : r'.rejected = []) : ∃ S, w.engine.tables.describe k.superTable = some S ∧
      ∀ c ∈ signalColumns signals, lackOf S c = .nothing := by
  obtain @⟨S, w₁, added, refused, sent, widened, refused', sent', hd, hadd, hwiden⟩ := h
  simp only [conclude, List.append_eq_nil_iff, List.map_eq_nil_iff] at hr
  obtain ⟨⟨⟨-, hra⟩, hrw⟩, hconf⟩ := hr
  have hs : sent = [] ∧ sent' = [] := by
    simp only [conclude] at ha
    split at ha
    case isTrue he => simp_all
    case isFalse => cases ha
  have ha : added = [] := List.length_eq_zero_iff.mp (by simp [← hadd.length, hs.1])
  have hw : widened = [] := List.length_eq_zero_iff.mp (by simp [← hwiden.length, hs.2])
  have adds := hadd.alters
  have widens := hwiden.alters
  simp only [ha, hra, hw, hrw, List.map_nil] at adds widens
  have lacks := lackOf_cases S signals
  simp only [adds.nothing, widens.nothing, hconf, List.not_mem_nil, exists_false, or_false] at lacks
  exact ⟨S, hd, lacks⟩

theorem diff_eq_nothing {S : TableSchema} (h : ∀ c ∈ signalColumns signals, lackOf S c = .nothing) :
    diff S signals = {} := by
  simp only [diff, Diff.ofColumns, Diff.mk.injEq, List.filter_eq_nil_iff, List.filterMap_eq_nil_iff]
  refine ⟨fun c hc => by simp [h c hc], fun c hc => by rw [h c hc], fun c hc => by rw [h c hc]⟩

theorem resync_clean_iff {k : CategoryInfo} (hp : Prepared w code k signals text)
    (hc : w.SoundCatalog)
    (he : w.SoundEngine policy) : Clean policy code w ↔
      ∃ S, w.engine.tables.describe k.superTable = some S ∧
        ∀ c ∈ signalColumns signals, lackOf S c = .nothing := by
  constructor
  · rintro ⟨r, w', hrun, ha, hr, -⟩
    cases resync_ensures.of_ok hrun with
    | skipped _ hi => cases hi
    | incomplete _ _ _ hx => contradiction
    | recorded hp' hasked hb =>
      obtain rfl := Option.some.inj (hp.category.symm.trans hp'.category)
      obtain rfl := hp.listed.symm.trans hp'.listed
      cases hb with
      | created h => cases h; cases ha
      | mended h => exact hasked.tables ▸ h.unchanged ha hr
  · rintro ⟨S, hd, hl⟩
    have hn := diff_eq_nothing hl
    have ⟨r, w', hrun, hr, _, hs⟩ := resync_quiet hp hc he hd (by rw [hn]) (by rw [hn])
    exact ⟨r, w', hrun, by simp [hr, hn, conclude, blank], by simp [hr, hn, conclude, blank], hs⟩

theorem lackOf_covered {S : TableSchema} {c : Column} (h : S.Covers c) :
    lackOf S c = .nothing ∨ (∃ why, lackOf S c = .conflict why) ∧
      ∃ d, S.column? c.name = some d ∧ d.type ≠ c.type ∧ c.type.widens d.type := by
  obtain ⟨ht, d, hd, hw⟩ := h
  by_cases he : d.type = c.type
  case pos => exact .inl (lackOf_eq_nothing.mpr ⟨ht, d, hd, he⟩)
  case neg =>
    have narrow : d.type.widens c.type = false :=
      Bool.eq_false_iff.mpr fun hn => he (ColumnType.widens_antisymm hn hw)
    exact .inr ⟨⟨.wrongType d.type c.type, by simp [lackOf, ht, hd, he, narrow]⟩, d, hd, he, hw⟩

theorem undisputed_of_has {S : TableSchema} {cs : List Column} (h : ∀ c ∈ cs, S.Has c) :
    ∀ c ∈ cs, Undisputed cs c := by
  intro c hc d hd hn
  obtain ⟨b, hb, hbt⟩ := h c hc
  obtain ⟨e, he, het⟩ := h d hd
  rw [TableSchema.column?, findColumn_congr hn] at he
  obtain rfl := Option.some.inj (hb.symm.trans he)
  exact het.symm.trans hbt

-- A table that covers all columns is given nothing, and the signals in conflict are the ones whose
-- columns are too wide.
theorem diff_covered {S : TableSchema}
    (hu : ∀ c ∈ signalColumns signals, Undisputed (signalColumns signals) c)
    (h : ∀ c ∈ signalColumns signals, S.Covers c) :
    (diff S signals).missing = [] ∧ (diff S signals).widenings = [] ∧
      ∀ c ∈ signalColumns signals, c.name ∈ (diff S signals).conflicts.map (·.1) ↔
        ∃ d, S.column? c.name = some d ∧ d.type ≠ c.type ∧ c.type.widens d.type := by
  have lacks c hc := lackOf_covered (h c hc)
  refine ⟨?_, ?_, fun c hc => ⟨fun hm => ?_, fun hw => ?_⟩⟩
  · refine List.eq_nil_iff_forall_not_mem.mpr fun c hm => ?_
    have ⟨hc, hl⟩ := mem_missing.mp hm
    rcases lacks c hc with hn | ⟨⟨why, hn⟩, -⟩ <;> cases hl.symm.trans hn
  · refine List.eq_nil_iff_forall_not_mem.mpr fun x hm => ?_
    have ⟨hc, hl⟩ := mem_widenings.mp hm
    rcases lacks _ hc with hn | ⟨⟨why, hn⟩, -⟩ <;> cases hl.symm.trans hn
  · obtain ⟨⟨x, why⟩, hm, hx⟩ := List.mem_map.mp hm
    obtain ⟨d, hd, rfl, hl⟩ := mem_conflicts.mp hm
    have hn : d.name = c.name := hx
    have same := lackOf_congr (S := S) (hn ▸ sameIgnoringCase_refl _)
        (hu c hc d hd (hn ▸ sameIgnoringCase_refl _))
    rcases lacks c hc with hn | ⟨-, hw⟩
    · cases (hl.symm.trans same).trans hn
    · exact hw
  · rcases lacks c hc with hn | ⟨⟨why, hn⟩, -⟩
    · have ⟨_, b, hb, hbt⟩ := lackOf_eq_nothing.mp hn
      obtain ⟨d, hd, hne, -⟩ := hw
      obtain rfl := Option.some.inj (hb.symm.trans hd)
      exact absurd hbt hne
    · exact List.mem_map.mpr ⟨_, mem_conflicts.mpr ⟨c, hc, rfl, hn⟩, rfl⟩

-- Under the digest on record, a synchronization that asks the engine differs from one that does not
-- only where a column is wider than its signal by now.
theorem fastPath_agrees {k : CategoryInfo} (h : Reached texts w)
    (hk : w.catalog.getCategory code = some k) (ha : k.isActive)
    (ht : schemaText w code = some text)
    (hf : k.fingerprint = some (fingerprint text))
    (hcollision : ∀ other ∈ texts, fingerprint other = fingerprint text → other = text)
    (hc : w.SoundCatalog) (he : w.SoundEngine policy) :
    let columns := signalColumns ((w.catalog.listSignals code).map (·.toSignalSpec))
    ∃ S, w.engine.tables.describe k.superTable = some S ∧
      (Clean policy code w ↔ ∀ c ∈ columns, S.Has c) ∧
      ((∀ c ∈ columns, Undisputed columns c) →
        ∃ r w', (resync policy code).run.run w = (.ok r, w') ∧ r.action = .unchanged ∧
          w'.engine.tables = w.engine.tables ∧ w'.engine.statements = w.engine.statements ∧
          ∀ c ∈ columns, c.name ∈ r.rejected.map (·.signal) ↔
            ∃ d, S.column? c.name = some d ∧ d.type ≠ c.type ∧ c.type.widens d.type) := by
  intro columns
  obtain ⟨k₀, hk₀, rfl⟩ := Option.map_eq_some_iff.mp hk
  have hs : superTableStatement k₀.toCategoryKey
      ((w.catalog.listSignals code).map (·.toSignalSpec)) =
      .ok text := by
    simp only [schemaText, hk, Option.bind_eq_bind, Option.bind_some] at ht
    exact toOption_eq_some.mp ht
  have hp : Prepared w code _ _ text := ⟨hk, ha, rfl, hs⟩
  obtain ⟨other, signals, hv⟩ := h.faithful.vouched k₀ (List.mem_of_find?_eq_some hk₀) _ hf
  obtain rfl := hcollision other hv.mem hv.digested
  obtain ⟨S, hd, hcovers⟩ := hv.covers
  rw [superTableStatement_columns hv.statement hs] at hcovers
  refine ⟨S, hd, ?_, fun hu => ?_⟩
  · rw [resync_clean_iff hp hc he]
    constructor
    · rintro ⟨S', hd', hl⟩
      obtain rfl := Option.some.inj (hd'.symm.trans hd)
      exact fun c hc => (lackOf_eq_nothing.mp (hl c hc)).2
    · intro hhas
      have hu := undisputed_of_has hhas
      exact ⟨S, hd, fun c hc => lackOf_eq_nothing.mpr ⟨(hcovers c hc (hu c hc)).1, hhas c hc⟩⟩
  · obtain ⟨hm, hx, hconf⟩ := diff_covered hu fun c hc => hcovers c hc (hu c hc)
    obtain ⟨r, w', hrun, hr, hsame, hstatements⟩ := resync_quiet hp hc he hd hm hx
    refine ⟨r, w', hrun, by simp [hr, conclude, blank], hsame, hstatements, fun c hc => ?_⟩
    rw [← hconf c hc]
    simp [hr, conclude, blank]

-- A category of one signal, synchronized.
def settled : List Event :=
  [ .edit (.createCategory { code := "motor", database := "plant", name := "Motor" }),
    .edit (.addSignal (.stored "motor" "rpm" .integer)), .call (.sync "motor") ]

theorem run_settled :
    let texts := (Event.run settled).1
    let w := (Event.run settled).2
    (w.catalog.getCategory "motor").map (fun k => (k.isActive, k.fingerprint.isSome)) =
        some (true, true) ∧
      texts = (schemaText w "motor").toList ∧ (schemaText w "motor").isSome ∧
      w.engine.faults = [] ∧ w.engine.latency = 0 ∧ w.catalogFaults.isEmpty := by
  delta Event.run Event.apply Call.run Service.instEndpoint Service.execute Service.receive
    Tables.apply
  rw [Sql.tokenize_characters]
  decide +kernel

theorem fastPath_agrees_settled :
    let w := (Event.run settled).2
    Reached (Event.run settled).1 w ∧ ∃ k S, w.catalog.getCategory "motor" = some k ∧
      w.engine.tables.describe k.superTable = some S ∧
      (Clean {} "motor" w ↔
        ∀ c ∈ signalColumns ((w.catalog.listSignals "motor").map (·.toSignalSpec)), S.Has c) := by
  have reached := Reached.run settled (by simp [settled, Event.Plain, Records])
  have facts := run_settled
  generalize (Event.run settled).1 = texts, (Event.run settled).2 = w at *
  obtain ⟨hrecord, htexts, htext, hfaults, hlatency, hcatalog⟩ := facts
  obtain ⟨k, hk, hrecord⟩ := Option.map_eq_some_iff.mp hrecord
  obtain ⟨ha, hdigest⟩ := Prod.mk.inj hrecord
  obtain ⟨text, ht⟩ := Option.isSome_iff_exists.mp htext
  obtain ⟨digested, hm, hf⟩ := reached.digested hk hdigest
  obtain rfl : digested = text := by simpa [htexts, ht] using hm
  have alone : ∀ other ∈ texts, fingerprint other = fingerprint digested → other = digested := by
    simp [htexts, ht]
  have sound : w.SoundEngine {} := ⟨fun e he => by simp [hfaults] at he, by simp [hlatency]⟩
  obtain ⟨S, hd, hclean, -⟩ :=
    fastPath_agrees reached hk ha ht hf alone (List.isEmpty_iff.mp hcatalog) sound
  exact ⟨reached, k, S, hk, hd, hclean⟩

-- Two categories whose super-tables have one name: the second widens the column of the first.
def shared : List Event :=
  [ .edit (.createCategory { code := "b", stem := "raw_a", database := "plant", name := "B" }),
    .edit (.addSignal (.stored "b" "x" .integer)), .call (.sync "b"),
    .edit (.createCategory { code := "a_b", stem := "raw", database := "plant", name := "AB" }),
    .edit (.addSignal (.stored "a_b" "x" .numeric)), .call (.sync "a_b") ]

theorem run_shared :
    let before := Event.run (shared.take 5)
    let w := (Event.run shared).2
    (before.2.catalog.getCategory "b").map (·.fingerprint.isSome) = some true ∧
      before.1 = (schemaText before.2 "b").toList ∧ (schemaText before.2 "b").isSome ∧
      schemaText w "b" = schemaText before.2 "b" ∧
      (w.catalog.getCategory "b").map (fun k => (k.superTable, k.isActive)) =
        some (⟨"plant", "raw_a_b"⟩, true) ∧
      signalColumns ((w.catalog.listSignals "b").map (·.toSignalSpec)) = [⟨"x", .bigint⟩] ∧
      (w.engine.tables.describe ⟨"plant", "raw_a_b"⟩).bind (·.column? "x") = some ⟨"x", .double⟩ ∧
      w.engine.faults = [] ∧ w.engine.latency = 0 ∧ w.catalogFaults.isEmpty := by
  delta Event.run Event.apply Call.run Service.instEndpoint Service.execute Service.receive
    Tables.apply
  rw [Sql.tokenize_characters]
  decide +kernel

-- Before the last event there is one digest, and the last leaves it on record.
theorem fastPath_drifts :
    let w := (Event.run shared).2
    Reached (Event.run shared).1 w ∧
      (w.catalog.getCategory "b").bind (·.fingerprint) = (schemaText w "b").map fingerprint ∧
      ¬Clean {} "b" w := by
  have reached := Reached.run shared (by simp [shared, Event.Plain, Records])
  have earlier := Reached.run (shared.take 5) (by simp [shared, Event.Plain, Records])
  have last (r : List String × World Service) :
      (Event.apply r (.call (.sync "a_b"))).2.catalog.category? "b" = r.2.catalog.category? "b" :=
    sync_others (by decide)
  have run : Event.run shared = Event.apply (Event.run (shared.take 5)) (.call (.sync "a_b")) := rfl
  have kept := last (Event.run (shared.take 5))
  rw [← run] at kept
  have facts := run_shared
  generalize Event.run shared = after, Event.run (shared.take 5) = before
    at reached earlier kept facts ⊢
  obtain ⟨hrecord, htexts, htext, hsame, hnow, hcolumns, htable, hfaults, hlatency, hcatalog⟩ :=
    facts
  obtain ⟨text, ht⟩ := Option.isSome_iff_exists.mp htext
  obtain ⟨k, hk, hnow⟩ := Option.map_eq_some_iff.mp hnow
  obtain ⟨hn, ha⟩ := Prod.mk.inj hnow
  refine ⟨reached, ?_, ?_⟩
  · obtain ⟨k', hk', hdigest⟩ := Option.map_eq_some_iff.mp hrecord
    obtain ⟨digested, hm, hf⟩ := earlier.digested hk' hdigest
    obtain rfl : digested = text := by simpa [htexts, ht] using hm
    have row (c : Catalog) : (c.getCategory "b").bind (·.fingerprint) =
        (c.category? "b").bind (·.fingerprint) := Option.bind_map
    rw [row, kept, ← row, hsame, ht, hk']
    exact hf
  · have hs : superTableStatement k.toCategoryKey
        ((after.2.catalog.listSignals "b").map (·.toSignalSpec)) = .ok text := by
      rw [ht, schemaText, hk] at hsame
      exact toOption_eq_some.mp hsame
    have sound : after.2.SoundEngine {} :=
      ⟨fun e he => by simp [hfaults] at he, by simp [hlatency]⟩
    rw [resync_clean_iff ⟨hk, ha, rfl, hs⟩ (List.isEmpty_iff.mp hcatalog) sound, hcolumns, hn]
    rintro ⟨S, hd, hl⟩
    obtain ⟨-, d, hc, narrow⟩ := lackOf_eq_nothing.mp (hl _ (.head _))
    obtain rfl := Option.some.inj (hc.symm.trans (by simpa [hd] using htable))
    cases narrow

end Historian.Synchronizer
