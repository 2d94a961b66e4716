import Historian.Proofs.Schema.FastPath
import Historian.Proofs.Schema.Mending

namespace Historian

open Engine World Schema Text

-- What may go away says nothing about what is there, and a refusal does not go away.

theorem Engine.not_exists_of_transient {e : EngineError} (h : isTransient e) :
    e.isAlreadyExists = false := by
  cases e with
  | rejected code text =>
    obtain rfl : code = .networkUnavailable := by simpa [isTransient, Transient.isTransient] using h
    simp only [EngineError.isAlreadyExists, EngineError.code?, Option.any_some]
    decide
  | _ => rfl

theorem Engine.Refusal.not_transient (r : Refusal) : isTransient r.error = false := by
  have other : r.code ≠ .networkUnavailable := by
    cases r <;> simp only [Refusal.code] <;> decide
  simpa [Refusal.error, isTransient, Transient.isTransient] using other

theorem Catalog.fingerprint_record {c c' : Catalog}
    (h : c.recordCategorySync code digest time = .ok (u, c')) :
    (c'.getCategory code).bind (·.fingerprint) = some digest := by
  obtain ⟨⟨k, hk⟩, -⟩ := changeCategory_ok h
  have found := category?_changeCategory h fun _ => rfl
  simp [getCategory, found, hk, info]

namespace Synchronizer

variable {w w' w'' : World Service} {policy : RetryPolicy} {k : CategoryKey} {n : TableName}
  {signals : List SignalSpec} {cs rest : List Column} {S S' : TableSchema}

-- Only errors that may go away are arranged.
def Passing (w : World Service) : Prop :=
  w.Meets fun e => isTransient e

theorem Refused.cases (h : Refused policy w sql e) (hw : Passing w) :
    isTransient e ∧ ¬w.SoundEngine policy ∨
      ∃ r, w.engine.tables.run sql = .error r ∧ e = r.error := by
  cases h with
  | missed h =>
    refine .inl ⟨?_, fun hs => hs.not_missed h⟩
    cases h with
    | arranged he => exact hw e he
    | late => rfl
  | refusal h => exact .inr ⟨_, h, rfl⟩

-- A statement that the engine is ready to accept takes effect, or the attempts run out.
theorem execute_ready {sql : String} {t : Tables} (hw : Passing w)
    (h : w.engine.tables.run sql = .ok t) :
    Ensures (execute policy sql) w
      (fun r w' => r = .ok () ∧ w'.engine.tables = t ∧ w'.catalog = w.catalog ∧ w.Later w' ∨
        ∃ f, r = .error f ∧ f.isExhausted ∧ ¬w.SoundEngine policy ∧ w.Unmoved w')
      (fun _ _ => False) := by
  refine execute_ensures.mono (fun r w' hx => ?_) (fun _ _ h => h)
  cases hx with
  | done hr hc hl => exact .inl ⟨rfl, Except.ok.inj (hr.symm.trans h), hc, hl⟩
  | present hu hr he =>
    rcases Refused.cases hr hw with ⟨transient, -⟩ | ⟨r, refused, rfl⟩
    · simp [not_exists_of_transient transient] at he
    · cases refused.symm.trans h
  | failed hu hr he =>
    rcases Refused.cases hr hw with ⟨transient, sound⟩ | ⟨r, refused, -⟩
    · exact .inr ⟨_, rfl, transient, sound, hu⟩
    · cases refused.symm.trans h

-- One that the engine is going to refuse is refused, or the attempts run out.
theorem execute_refused {sql : String} {r : Refusal} (hw : Passing w)
    (h : w.engine.tables.run sql = .error r) (hr : r.error.isAlreadyExists = false) :
    Ensures (execute policy sql) w
      (fun x w' => ∃ f, x = .error f ∧ w.Unmoved w' ∧ (f.isExhausted → ¬w.SoundEngine policy))
      (fun _ _ => False) := by
  refine execute_ensures.mono (fun x w' hx => ?_) (fun _ _ h => h)
  cases hx with
  | done hr _ _ => cases hr.symm.trans h
  | present hu hx he =>
    rcases Refused.cases hx hw with ⟨transient, -⟩ | ⟨r', hr', rfl⟩
    · simp [not_exists_of_transient transient] at he
    · cases hr'.symm.trans h
      simp [hr] at he
  | failed hu hx he =>
    refine ⟨_, rfl, hu, fun exhausted => ?_⟩
    rcases Refused.cases hx hw with ⟨-, sound⟩ | ⟨r', -, he⟩
    · exact sound
    · simp [RetryFailure.isExhausted, he, Refusal.not_transient] at exhausted

-- Columns that the statements for a category can name and the engine can tell apart.
structure Orderly (k : CategoryKey) (cs : List Column) : Prop where
  valid : k.Valid
  distinct : Distinct cs
  code : ∀ c ∈ cs, requireSignalCode c.name = .ok ()
  writable : ∀ c ∈ cs, c.type.Writable

-- Codes that differ in more than letter case give the engine columns that it can tell apart.
theorem distinct_signalColumns : Distinct (signalColumns signals) ↔
    (signals.filter (·.isStored)).Pairwise fun s s' => ¬sameIgnoringCase s.code s'.code := by
  have sorted := List.mergeSort_perm (signals.filter (·.isStored)) SignalSpec.precedes
  rw [← sorted.pairwise_iff fun h same => h (sameIgnoringCase_symm same)]
  exact List.pairwise_map

theorem Orderly.add (ho : Orderly k cs) (hc : c ∈ cs) : ∃ text, addColumnStatement k c = .ok text ∧
    ∀ t : Tables, t.run text = t.addColumn k.superTable c := by
  have made : ∃ text, addColumnStatement k c = .ok text := by
    simp [addColumnStatement, bind_unit_eq_ok, CategoryKey.check_ok, ho.valid, ho.code c hc]
  obtain ⟨text, ht⟩ := made
  exact ⟨text, ht, fun t => Tables.run_eq (addColumnStatement_parse ht (ho.writable c hc))⟩

theorem Orderly.modify (ho : Orderly k cs) (hc : c ∈ cs) :
    ∃ text, modifyColumnStatement k c = .ok text ∧
      ∀ t : Tables, t.run text = t.modifyColumn k.superTable c := by
  have made : ∃ text, modifyColumnStatement k c = .ok text := by
    simp [modifyColumnStatement, bind_unit_eq_ok, CategoryKey.check_ok, ho.valid, ho.code c hc]
  obtain ⟨text, ht⟩ := made
  exact ⟨text, ht, fun t => Tables.run_eq (modifyColumnStatement_parse ht (ho.writable c hc))⟩

-- A category's super-table was altered, and nothing else.
structure Along (n : TableName) (S : TableSchema) (w w' : World Service) : Prop
    extends Later w w' where
  catalog : w'.catalog = w.catalog
  tables : w'.engine.tables = w.engine.tables.given n S

theorem Along.refl (h : w.engine.tables.superTables[n]? = some S) : Along n S w w :=
  ⟨.refl w, rfl, (Tables.given_self h).symm⟩

theorem Along.trans (h₁ : Along n S w w') (h₂ : Along n S' w' w'') : Along n S' w w'' :=
  ⟨h₁.toLater.trans h₂.toLater, h₂.catalog.trans h₁.catalog, by
    rw [h₂.tables, h₁.tables, Tables.given_given]⟩

theorem Along.superTable (h : Along n S w w') : w'.engine.tables.superTables[n]? = some S := by
  simp [h.tables]

theorem Along.unmoved (h : Along n S w w') (hu : w'.Unmoved w'') : Along n S w w'' :=
  ⟨h.toLater.trans hu.toLater, hu.catalog.trans h.catalog, hu.tables.trans h.tables⟩

-- A row of statements is broken off only if the engine is not sound, and then the rest is still to
-- be done.
def Broken (policy : RetryPolicy) (k : CategoryKey) (cs : List Column) (S : TableSchema)
    (w w' : World Service) : Prop :=
  ¬w.SoundEngine policy ∧ ∃ S', Along k.superTable S' w w' ∧ Underway cs S S'

theorem Broken.after (h₁ : Along k.superTable S' w w') (hu : Underway cs S S')
    (h : Broken policy k cs S' w' w'') : Broken policy k cs S w w'' := by
  obtain ⟨sound, S'', h₂, hu'⟩ := h
  exact ⟨fun hs => sound (hs.later h₁.toLater), S'', h₁.trans h₂, hu.trans hu'⟩

-- A row of statements is issued one after another in one way, whether columns are added or widened.
def issue (policy : RetryPolicy) (category operation : String) (name : α → String)
    (statement : α → Except Invalid String) (note : α → String → SyncReport → SyncReport) :
    List α → SyncReport → Action SyncReport
  | [], r => return r
  | a :: as, r => do
    let text ← checked (statement a)
    match ← execute policy text with
    | .ok () => issue policy category operation name statement note as (note a text r)
    | .error f =>
      if f.isExhausted then throw (SyncError.ofEngine category operation f)
      issue policy category operation name statement note as
        { r with rejected := r.rejected ++ [⟨name a, f.error.message⟩] }

theorem addColumns_eq {rest : List Column} {r : SyncReport} :
    addColumns policy k rest r = issue policy k.code "add column" (·.name) (addColumnStatement k)
      (fun c text r => { r with
        added := r.added ++ [c.name], statements := r.statements ++ [text] }) rest r := by
  induction rest generalizing r with
  | nil => rfl
  | cons c rest ih =>
    refine bind_congr fun text => bind_congr fun answer => ?_
    cases answer with
    | ok => exact ih
    | error f => simp only [ih]

theorem widenColumns_eq {xs : List Widening} {r : SyncReport} :
    widenColumns policy k xs r = issue policy k.code "modify column" (·.name)
      (fun x => modifyColumnStatement k x.column)
      (fun x text r => { r with
        widened := r.widened ++ [x.name], statements := r.statements ++ [text] }) xs r := by
  induction xs generalizing r with
  | nil => rfl
  | cons x xs ih =>
    refine bind_congr fun text => bind_congr fun answer => ?_
    cases answer with
    | ok => exact ih
    | error f => simp only [ih]

section Issue

variable {category operation : String} {name : α → String} {statement : α → Except Invalid String}
  {note : α → String → SyncReport → SyncReport} {as : List α} {r : SyncReport}

-- `Left` says what is left to be issued for a table; the engine is ready for all of it.
theorem issue_mends (Left : List α → TableSchema → Prop)
    (ready : ∀ a as S, Left (a :: as) S → ∃ text S', statement a = .ok text ∧ Left as S' ∧
      Underway cs S S' ∧
        ∀ t : Tables, t.superTables[k.superTable]? = some S →
          t.run text = .ok (t.given k.superTable S'))
    (noted : ∀ a text r, (note a text r).rejected = r.rejected) (hw : Passing w)
    (hs : w.engine.tables.superTables[k.superTable]? = some S) (left : Left as S) :
    Ensures (issue policy category operation name statement note as r) w
      (fun r' w' => r'.rejected = r.rejected ∧
        ∃ S', Along k.superTable S' w w' ∧ Underway cs S S' ∧ Left [] S')
      (fun _ w' => Broken policy k cs S w w') := by
  induction as generalizing r w S with
  | nil => exact .pure ⟨rfl, S, .refl hs, .refl S, left⟩
  | cons a as ih =>
    obtain ⟨text, S₁, made, left₁, underway, accepted⟩ := ready a as S left
    refine checked_ensures.step (fun text' _ ⟨ht, he⟩ => ?_) (fun _ _ ⟨_, hn⟩ => absurd made (hn _))
    subst he
    obtain rfl : text = text' := Except.ok.inj (made.symm.trans ht)
    refine (execute_ready hw (accepted _ hs)).step (fun x w' hx => ?_) (fun _ _ h => h.elim)
    rcases hx with ⟨rfl, tables, catalog, later⟩ | ⟨f, rfl, exhausted, sound, hu⟩
    case inl =>
      have along : Along k.superTable S₁ _ w' := ⟨later, catalog, tables⟩
      refine (ih (hw.later later) along.superTable left₁).mono ?_
        (fun _ _ h => h.after along underway)
      rintro r' w'' ⟨hr, S', h, hu, left'⟩
      exact ⟨hr.trans (noted ..), S', along.trans h, underway.trans hu, left'⟩
    case inr =>
      simp only [exhausted, if_true]
      exact .throw ⟨sound, S, (Along.refl hs).unmoved hu, .refl S⟩

-- Where the table is no super-table, every statement is refused.
theorem issue_refused
    (refused : ∀ a ∈ as, ∃ text, statement a = .ok text ∧
      ∀ t : Tables, t.superTables[k.superTable]? = none →
        t.run text = .error (.superTableMissing k.superTable.table))
    (hw : Passing w) (hs : w.engine.tables.superTables[k.superTable]? = none) :
    Ensures (issue policy category operation name statement note as r) w
      (fun r' w' => w.Unmoved w' ∧ (r'.rejected = [] ↔ r.rejected = [] ∧ as = []))
      (fun _ w' => ¬w.SoundEngine policy ∧ w.Unmoved w') := by
  induction as generalizing r w with
  | nil => exact .pure ⟨.refl w, by simp⟩
  | cons a as ih =>
    have ⟨⟨text, made, missing⟩, rest⟩ := List.forall_mem_cons.mp refused
    refine checked_ensures.step (fun text' _ ⟨ht, he⟩ => ?_) (fun _ _ ⟨_, hn⟩ => absurd made (hn _))
    subst he
    obtain rfl : text = text' := Except.ok.inj (made.symm.trans ht)
    refine (execute_refused hw (missing _ hs) rfl).step (fun x w' hx => ?_) (fun _ _ h => h.elim)
    obtain ⟨f, rfl, hu, exhausted⟩ := hx
    cases hf : f.isExhausted with
    | true => simpa [hf] using .throw ⟨exhausted hf, hu⟩
    | false =>
      simp only [hf, Bool.false_eq_true, if_false]
      refine (ih rest (hw.later hu.toLater) (hu.tables ▸ hs)).mono ?_ ?_
      · exact fun r' w'' ⟨hu', hr⟩ => ⟨hu.trans hu', by simp [hr]⟩
      · exact fun _ w'' ⟨sound, hu'⟩ => ⟨fun h => sound (h.later hu.toLater), hu.trans hu'⟩

end Issue

theorem addColumns_mends {r : SyncReport} (ho : Orderly k cs) (hw : Passing w)
    (hs : w.engine.tables.superTables[k.superTable]? = some S) :
    Ensures (addColumns policy k (lacking S cs) r) w
      (fun r' w' => r'.rejected = r.rejected ∧ ∃ S', Along k.superTable S' w w' ∧
        Underway cs S S' ∧ lacking S' cs = [] ∧ narrow S' cs = narrow S cs)
      (fun _ w' => Broken policy k cs S w w') := by
  rw [addColumns_eq]
  let Left (rest : List Column) (S' : TableSchema) : Prop :=
    lacking S' cs = rest ∧ narrow S' cs = narrow S cs
  refine issue_mends Left (fun c rest S₁ ⟨hl, hn⟩ => ?_) (fun _ _ _ => rfl) hw hs ⟨rfl, rfl⟩
  obtain ⟨hc, lack⟩ := mem_lacking hl
  obtain ⟨text, made, run⟩ := ho.add hc
  obtain ⟨left, same, underway⟩ := underway_add ho.distinct hl
  exact ⟨text, _, made, ⟨left, same.trans hn⟩, underway,
    fun t ht => (run t).trans (Tables.addColumn_lacking ht lack)⟩

theorem widenColumns_mends {xs : List Widening} {r : SyncReport} (ho : Orderly k cs)
    (hw : Passing w) (hs : w.engine.tables.superTables[k.superTable]? = some S)
    (hl : lacking S cs = []) (hn : narrow S cs = xs.map (·.column)) :
    Ensures (widenColumns policy k xs r) w
      (fun r' w' => r'.rejected = r.rejected ∧ ∃ S', Along k.superTable S' w w' ∧
        Underway cs S S' ∧ lacking S' cs = [] ∧ narrow S' cs = [])
      (fun _ w' => Broken policy k cs S w w') := by
  rw [widenColumns_eq]
  let Left (xs : List Widening) (S' : TableSchema) : Prop :=
    lacking S' cs = [] ∧ narrow S' cs = xs.map (·.column)
  refine issue_mends Left (fun x xs S₁ ⟨hl, hn⟩ => ?_) (fun _ _ _ => rfl) hw hs ⟨hl, hn⟩
  obtain ⟨hc, old, lack⟩ := mem_narrow hn
  obtain ⟨text, made, run⟩ := ho.modify hc
  obtain ⟨none, left, underway⟩ := underway_retype ho.distinct hl hn
  exact ⟨text, _, made, ⟨none, left⟩, underway,
    fun t ht => (run t).trans (Tables.modifyColumn_narrow ht lack)⟩

theorem addColumns_refused {rest : List Column} {r : SyncReport} (ho : Orderly k cs)
    (hw : Passing w) (hs : w.engine.tables.superTables[k.superTable]? = none) (hc : rest ⊆ cs) :
    Ensures (addColumns policy k rest r) w
      (fun r' w' => w.Unmoved w' ∧ (r'.rejected = [] ↔ r.rejected = [] ∧ rest = []))
      (fun _ w' => ¬w.SoundEngine policy ∧ w.Unmoved w') := by
  rw [addColumns_eq]
  refine issue_refused (fun c hm => ?_) hw hs
  obtain ⟨text, made, run⟩ := ho.add (hc hm)
  exact ⟨text, made, fun t ht => (run t).trans (Tables.addColumn_missing ht)⟩

theorem widenColumns_refused {xs : List Widening} {r : SyncReport} (ho : Orderly k cs)
    (hw : Passing w) (hs : w.engine.tables.superTables[k.superTable]? = none)
    (hc : xs.map (·.column) ⊆ cs) :
    Ensures (widenColumns policy k xs r) w
      (fun r' w' => w.Unmoved w' ∧ (r'.rejected = [] ↔ r.rejected = [] ∧ xs = []))
      (fun _ w' => ¬w.SoundEngine policy ∧ w.Unmoved w') := by
  rw [widenColumns_eq]
  refine issue_refused (fun x hm => ?_) hw hs
  obtain ⟨text, made, run⟩ := ho.modify (hc (List.mem_map_of_mem hm))
  exact ⟨text, made, fun t ht => (run t).trans (Tables.modifyColumn_missing ht)⟩

-- The engine was brought to what the signals ask for; the catalog is as it was.
structure Through (k : CategoryKey) (signals : List SignalSpec) (w w' : World Service)
    (r : SyncReport) : Prop extends Later w w' where
  catalog : w'.catalog = w.catalog
  tables : w'.engine.tables = (brought k signals w.engine.tables).1
  rejected : r.rejected.isEmpty = (brought k signals w.engine.tables).2

-- Or the engine was not sound, and the same can still be done.
structure Halted (policy : RetryPolicy) (k : CategoryKey) (signals : List SignalSpec)
    (w w' : World Service) : Prop where
  unsound : ¬w.SoundEngine policy
  catalog : w'.catalog = w.catalog
  brought : brought k signals w'.engine.tables = brought k signals w.engine.tables

theorem Halted.of_unmoved (hs : ¬w.SoundEngine policy) (hu : w.Unmoved w') :
    Halted policy k signals w w' :=
  ⟨hs, hu.catalog, by rw [hu.tables]⟩

theorem Broken.halted (h : Broken policy k (signalColumns signals) S w w')
    (hs : w.engine.tables.superTables[k.superTable]? = some S) :
    Halted policy k signals w w' := by
  obtain ⟨unsound, S', along, underway⟩ := h
  exact ⟨unsound, along.catalog, by rw [along.tables, brought_underway hs underway]⟩

theorem alter_mends {r : SyncReport} (ho : Orderly k (signalColumns signals)) (hw : Passing w)
    (hs : w.engine.tables.superTables[k.superTable]? = some S) (hr : r.rejected = []) :
    Ensures (alter policy k (diff S signals) r) w (fun r' w' => Through k signals w w' r')
      (fun _ w' => Halted policy k signals w w') := by
  refine (addColumns_mends ho hw hs).step ?_ (fun _ _ h => h.halted hs)
  rintro r₁ w₁ ⟨hr₁, S₁, h₁, u₁, hl, hn⟩
  have widenings := hn.trans widenings_column.symm
  refine (widenColumns_mends ho (hw.later h₁.toLater) h₁.superTable hl widenings).step ?_
    (fun _ _ h => (h.after h₁ u₁).halted hs)
  rintro r₂ w₂ ⟨hr₂, S₂, h₂, u₂, hl₂, hn₂⟩
  have along := h₁.trans h₂
  have done : mended (signalColumns signals) S = S₂ := by
    rw [← (u₁.trans u₂).mended, mended_eq_self hl₂ hn₂]
  refine .pure ⟨along.toLater, along.catalog, ?_, ?_⟩
  · rw [along.tables, brought_superTable hs, done]
  · rw [brought_superTable hs]
    simp [conclude, hr₂, hr₁, hr]

theorem alter_refused {r : SyncReport} (ho : Orderly k (signalColumns signals)) (hw : Passing w)
    (hs : w.engine.tables.superTables[k.superTable]? = none)
    (hd : w.engine.tables.describe k.superTable = some S) (hr : r.rejected = []) :
    Ensures (alter policy k (diff S signals) r) w (fun r' w' => Through k signals w w' r')
      (fun _ w' => Halted policy k signals w w') := by
  have missing : (diff S signals).missing ⊆ signalColumns signals := List.filter_sublist.subset
  refine (addColumns_refused ho hw hs missing).step ?_ (fun _ _ h => .of_unmoved h.1 h.2)
  rintro r₁ w₁ ⟨u₁, hr₁⟩
  refine (widenColumns_refused ho (hw.later u₁.toLater) (u₁.tables ▸ hs) widened_subset).step ?_ ?_
  · rintro r₂ w₂ ⟨u₂, hr₂⟩
    have unmoved := u₁.trans u₂
    refine .pure ⟨unmoved.toLater, unmoved.catalog, ?_, ?_⟩
    · rw [unmoved.tables, brought_foreign hs hd]
    · rw [brought_foreign hs hd, Bool.eq_iff_iff]
      simp [conclude, hr₂, hr₁, hr, Diff.isEmpty, and_assoc]
  · rintro _ w₂ ⟨sound, u₂⟩
    exact .of_unmoved (fun h => sound (h.later u₁.toLater)) (u₁.trans u₂)

theorem mustExecute_ready {category operation sql : String} {t : Tables} (hw : Passing w)
    (h : w.engine.tables.run sql = .ok t) :
    Ensures (mustExecute policy category operation sql) w
      (fun _ w' => w'.engine.tables = t ∧ w'.catalog = w.catalog ∧ w.Later w')
      (fun _ w' => ¬w.SoundEngine policy ∧ w.Unmoved w') := by
  refine (execute_ready hw h).step (fun x w' hx => ?_) (fun _ _ h => h.elim)
  rcases hx with ⟨rfl, done⟩ | ⟨f, rfl, -, sound, hu⟩
  · exact .pure done
  · exact .throw ⟨sound, hu⟩

theorem create_makes {r : SyncReport} (ho : Orderly k (signalColumns signals)) (hw : Passing w)
    (ht : superTableStatement k signals = .ok text)
    (hd : w.engine.tables.describe k.superTable = none) (hr : r.rejected = []) :
    Ensures (create policy k signals text r) w (fun r' w' => Through k signals w w' r')
      (fun _ w' => Halted policy k signals w w') := by
  have made : ∃ text, databaseStatement k.database = .ok text := by
    simp [databaseStatement, bind_unit_eq_ok, requireIdentifier_ok, ho.valid.database]
  obtain ⟨text', made⟩ := made
  refine checked_ensures.step ?_ (fun _ _ h => absurd made (h.2 _))
  rintro database w ⟨hq, rfl⟩
  have database_run (t : Tables) := (t.run_eq (databaseStatement_parse hq)).trans
    (Tables.createDatabase_eq _)
  refine (mustExecute_ready hw (database_run _)).step ?_ (fun _ _ h => .of_unmoved h.1 h.2)
  rintro - w₁ ⟨tables₁, catalog₁, later₁⟩
  have undescribed := Tables.superTables_of_describe hd
  have reserved : ∀ c ∈ signalColumns signals, Identifier.isReserved c.name = false :=
    fun c hc => (requireSignalCode_ok.mp (ho.code c hc)).2
  have table_run : w₁.engine.tables.run text =
      .ok (w₁.engine.tables.given k.superTable (desired signals)) := by
    refine (Tables.run_eq (superTableStatement_parse ht)).trans
      (Tables.createSuperTable_eq ?_ ?_ ?_)
    · simp [tables₁, CategoryKey.superTable]
    · simp [tables₁, undescribed]
    · exact requireWellFormed_desired ho.distinct reserved
  refine (mustExecute_ready (hw.later later₁) table_run).step ?_ ?_
  · rintro - w₂ ⟨tables₂, catalog₂, later₂⟩
    refine .pure ⟨later₁.trans later₂, catalog₂.trans catalog₁, ?_, ?_⟩
    · rw [tables₂, tables₁, brought_none hd]
    · simp [brought_none hd, hr]
  · rintro - w₂ ⟨sound, hu⟩
    refine ⟨fun h => sound (h.later later₁), hu.catalog.trans catalog₁, ?_⟩
    rw [hu.tables, tables₁, brought_database hd]

theorem Through.asked (h : Through k signals w' w'' r) (ha : w.Asked w') :
    Through k signals w w'' r where
  toLater := ha.toLater.trans h.toLater
  catalog := h.catalog.trans ha.catalog
  tables := by rw [h.tables, ha.tables]
  rejected := by rw [h.rejected, ha.tables]

theorem Halted.asked (h : Halted policy k signals w' w'') (ha : w.Asked w') :
    Halted policy k signals w w'' where
  unsound hs := h.unsound (hs.later ha.toLater)
  catalog := h.catalog.trans ha.catalog
  brought := by rw [h.brought, ha.tables]

theorem bring_through {category : String} {r : SyncReport} {f : SyncReport → Action SyncReport}
    {Q : SyncReport → World Service → Prop} {E : SyncError → World Service → Prop}
    (ho : Orderly k (signalColumns signals)) (hw : Passing w)
    (ht : superTableStatement k signals = .ok text) (hr : r.rejected = [])
    (hf : ∀ r' w', Through k signals w w' r' → Ensures (f r') w' Q E)
    (he : ∀ e w', Halted policy k signals w w' → E e w') :
    Ensures (describe policy category k.superTable >>= fun
        | none => create policy k signals text r >>= f
        | some S => alter policy k (diff S signals) r >>= f) w Q E := by
  refine describe_ensures.step (fun found w₁ ⟨hfound, ha⟩ => ?_)
    (fun _ _ h => he _ _ (.of_unmoved h.2 h.1.toUnmoved))
  have passing := hw.later ha.toLater
  have halted {e w'} (h : Halted policy k signals w₁ w') : E e w' := he _ _ (h.asked ha)
  rw [← ha.tables] at hfound
  cases found with
  | none =>
    exact (create_makes ho passing ht hfound.symm hr).step (fun r' w' h => hf _ _ (h.asked ha))
      (fun _ _ h => halted h)
  | some S =>
    cases hs : w₁.engine.tables.superTables[k.superTable]? with
    | none =>
      exact (alter_refused ho passing hs hfound.symm hr).step (fun r' w' h => hf _ _ (h.asked ha))
        (fun _ _ h => halted h)
    | some S₀ =>
      obtain rfl : S₀ = S :=
        Option.some.inj ((Tables.describe_superTable hs).symm.trans hfound.symm)
      exact (alter_mends ho passing hs hr).step (fun r' w' h => hf _ _ (h.asked ha))
        (fun _ _ h => halted h)

-- A synchronization that is through: the digest is on record if nothing was rejected.
structure Settled (code : String) (k : CategoryInfo) (signals : List SignalSpec) (text : String)
    (w w' : World Service) : Prop where
  tables : w'.engine.tables = if k.fingerprint = some (fingerprint text) then w.engine.tables
    else (brought k.toCategoryKey signals w.engine.tables).1
  fingerprint : (w'.catalog.getCategory code).bind (·.fingerprint) =
    if (brought k.toCategoryKey signals w.engine.tables).2 then some (fingerprint text)
    else k.fingerprint

theorem Settled.between {w₁ w₂ : World Service} {k : CategoryInfo} (h₁ : w.Untouched w₁)
    (h : Settled code k signals text w₁ w₂) (h₂ : w₂.Untouched w') :
    Settled code k signals text w w' := by
  obtain ⟨tables, digest⟩ := h
  rw [h₁.engine] at tables digest
  exact ⟨by rw [h₂.engine, tables], by rw [h₂.catalog, digest]⟩

theorem record_settles {k : CategoryInfo} {r : SyncReport}
    (hk : w.catalog.getCategory code = some k) (hc : w.SoundCatalog) :
    Ensures (do
        catalog policy (.recordCategorySync code (fingerprint text) (← Program.now))
        return r) w
      (fun _ w' => w'.engine = w.engine ∧
        (w'.catalog.getCategory code).bind (·.fingerprint) = some (fingerprint text))
      (fun _ _ => False) := by
  refine .lift <| (catalog_ensures).step (fun _ w' ⟨ho, he, _⟩ => .pure ⟨he, ?_⟩) ?_
  · exact Catalog.fingerprint_record ho
  · rintro _ w' ⟨-, e, hf⟩
    obtain ⟨k', hk', -⟩ := Option.map_eq_some_iff.mp hk
    cases hk'.symm.trans (Catalog.changeCategory_error (hf.refused_of_sound hc))

theorem syncLocked_settles {k : CategoryInfo} (hp : Prepared w code k signals text)
    (ho : Orderly k.toCategoryKey (signalColumns signals)) (hc : w.SoundCatalog) (hw : Passing w) :
    Ensures (syncLocked policy code false) w (fun _ w' => Settled code k signals text w w')
      (fun _ w' => k.fingerprint ≠ some (fingerprint text) ∧
        Halted policy k.toCategoryKey signals w w') := by
  refine loadCategory_ensures.step (fun k' w₁ ⟨hk, hu₁⟩ => ?_)
    (fun _ _ h => absurd ⟨hc, by simp [hp.category]⟩ h.2)
  obtain rfl : k = k' := Option.some.inj (hp.category.symm.trans hk)
  refine .guard (fun hn => by simp [hp.active] at hn) fun _ => ?_
  refine (read_ensures rfl).step (fun listed w₂ ⟨hs, hu₂⟩ => ?_)
    (fun _ _ h => absurd (hc.later hu₁.asked.toLater) h.2)
  have hu := hu₁.trans hu₂
  rw [hs, hu₁.catalog, hp.listed]
  refine checked_ensures.step (fun text' w₃ ⟨ht, he⟩ => ?_)
    (fun _ _ h => absurd hp.statement (h.2 _))
  subst he
  obtain rfl : text = text' := Except.ok.inj (hp.statement.symm.trans ht)
  dsimp only
  split
  case isTrue same =>
    have same : k.fingerprint = some (fingerprint text) := by simpa using same
    refine .pure ⟨by rw [if_pos same, hu.engine], ?_⟩
    rw [hu.catalog, hp.category]
    simp [same]
  case isFalse differs =>
    have differs : k.fingerprint ≠ some (fingerprint text) := by simpa using differs
    refine bring_through ho (hw.later hu.asked.toLater) ht rfl (fun r w₄ through => ?_)
      (fun _ _ h => ⟨differs, h.asked hu.asked⟩)
    have through := through.asked hu.asked
    have listed : w₄.catalog.getCategory code = some k := by rw [through.catalog, hp.category]
    split
    case isTrue complete =>
      refine (record_settles listed (hc.later through.toLater)).mono ?_ (fun _ _ h => h.elim)
      rintro _ w₅ ⟨engine, digest⟩
      refine ⟨by rw [if_neg differs, engine, through.tables], ?_⟩
      rw [digest, ← through.rejected, if_pos complete]
    case isFalse incomplete =>
      refine .pure ⟨by rw [if_neg differs, through.tables], ?_⟩
      rw [← through.rejected, if_neg incomplete, listed]
      rfl

theorem sync_settles {k : CategoryInfo} (hp : Prepared w code k signals text)
    (ho : Orderly k.toCategoryKey (signalColumns signals)) (hc : w.SoundCatalog) (hw : Passing w) :
    Ensures (sync policy code) w (fun _ w' => Settled code k signals text w w')
      (fun _ w' => k.fingerprint ≠ some (fingerprint text) ∧
        Halted policy k.toCategoryKey signals w w') := by
  refine .holding fun w₁ h₁ => ?_
  have later := h₁.asked.toLater
  have hp₁ : Prepared w₁ code k signals text :=
    ⟨h₁.catalog ▸ hp.category, hp.active, h₁.catalog ▸ hp.listed, hp.statement⟩
  refine (syncLocked_settles hp₁ ho (hc.later later) (hw.later later)).mono ?_ ?_
  · exact fun _ w₂ h w₃ h₂ => h.between h₁ h₂
  · rintro _ w₂ ⟨differs, h⟩ w₃ h₂
    have h := h.asked h₁.asked
    exact ⟨differs, h.unsound, h₂.catalog.trans h.catalog, by rw [h₂.engine, h.brought]⟩

theorem loadCategory_sound (hc : w.SoundCatalog) :
    Ensures (loadCategory policy code) w
      (fun k w' => w.catalog.getCategory code = some k ∧ w.Untouched w')
      (fun e _ => e.isTransient = false) := by
  refine (read_ensures rfl).step (fun found w' ⟨hk, hu⟩ => ?_) (fun _ _ h => absurd hc h.2)
  cases found with
  | none => exact .throw rfl
  | some k => exact .pure ⟨hk.symm, hu⟩

theorem checked_lasting {x : Except Invalid α} :
    Ensures (checked x) w (fun a w' => x = .ok a ∧ w' = w) (fun e _ => e.isTransient = false) := by
  cases x with
  | error fault => exact (rfl : (SyncError.invalid fault).isTransient = false)
  | ok a => exact ⟨rfl, rfl⟩

-- The catalog being sound, only the engine makes a synchronization fail for want of attempts, and
-- it is not asked before the category has been looked up.
theorem sync_prepared (hc : w.SoundCatalog) :
    Ensures (sync policy code) w (fun _ _ => True)
      (fun e _ => e.isTransient → ∃ k signals text, Prepared w code k signals text) := by
  have lasting {e : SyncError} {P : Prop} (h : e.isTransient = false) : e.isTransient → P :=
    fun transient => by cases h.symm.trans transient
  refine .holding fun w₁ h₁ => ?_
  have sound := hc.later h₁.asked.toLater
  refine (loadCategory_sound sound).step (fun k w₂ ⟨hk, h₂⟩ => ?_) (fun _ _ h _ _ => lasting h)
  refine .guard (fun _ _ _ => lasting rfl) fun active => ?_
  refine (read_ensures rfl).step (fun listed w₃ ⟨hs, h₃⟩ => ?_)
    (fun _ _ h => absurd (sound.later h₂.asked.toLater) h.2)
  refine checked_lasting.step (fun text w₄ ⟨ht, _⟩ => ?_) (fun _ _ h _ _ => lasting h)
  rw [h₁.catalog] at hk
  rw [hs, h₂.catalog, h₁.catalog] at ht
  have prepared : Prepared w code k _ text := ⟨hk, by simpa using active, rfl, ht⟩
  exact .always (fun _ _ _ _ => trivial) fun _ _ _ _ _ => ⟨k, _, text, prepared⟩

theorem Prepared.orderly {k : CategoryInfo} (hp : Prepared w code k signals text)
    (hd : (signals.filter (·.isStored)).Pairwise fun s s' => ¬sameIgnoringCase s.code s'.code) :
    Orderly k.toCategoryKey (signalColumns signals) := by
  obtain ⟨valid, codes, -⟩ := superTableStatement_ok.mp hp.statement
  refine ⟨valid, distinct_signalColumns.mpr hd, ?_, ?_⟩
  · simpa [signalColumns, signalColumn] using codes
  · simp only [signalColumns, List.forall_mem_map]
    exact fun s _ => s.dataType.writable

-- The engine and the catalog answer every call in time and without error, and hold what others do.
structure Healthy (policy : RetryPolicy) (c : Catalog) (t : Tables) (w : World Service) : Prop where
  catalog : w.catalog = c
  tables : w.engine.tables = t
  soundCatalog : w.SoundCatalog
  soundEngine : w.SoundEngine policy

theorem Healthy.settles {k : CategoryInfo} {c : Catalog} {t : Tables} (h : Healthy policy c t w')
    (hc : w.catalog = c) (hp : Prepared w code k signals text)
    (ho : Orderly k.toCategoryKey (signalColumns signals)) :
    ∃ r w'', (sync policy code).run.run w' = (.ok r, w'') ∧ Settled code k signals text w' w'' := by
  have same : w'.catalog = w.catalog := h.catalog.trans hc.symm
  have prepared : Prepared w' code k signals text :=
    ⟨same ▸ hp.category, hp.active, same ▸ hp.listed, hp.statement⟩
  have passing : Passing w' := fun e he => (h.soundEngine.meets e he).elim
  refine Ensures.exists_ok ((sync_settles prepared ho h.soundCatalog passing).mono ?_ ?_)
  · exact fun _ _ settled => settled
  · exact fun _ _ ⟨_, halted⟩ => halted.unsound h.soundEngine

-- A synchronization that was cut off by an outage, and is called again, comes to the same as one
-- that was never disturbed.
theorem sync_repaired {policy policy₁ policy₂ : RetryPolicy} {code : String} {e : SyncError}
    {w w₁ again once : World Service}
    (distinct : ((w.catalog.listSignals code).filter (·.isStored)).Pairwise
      fun s s' => ¬sameIgnoringCase s.code s'.code)
    (hc : w.SoundCatalog) (hw : Passing w) (cut : (sync policy code).run.run w = (.error e, w₁))
    (he : e.isTransient) (ha : Healthy policy₁ w₁.catalog w₁.engine.tables again)
    (ho : Healthy policy₂ w.catalog w.engine.tables once) :
    w₁.catalog = w.catalog ∧ ∃ r again' r' once',
      (sync policy₁ code).run.run again = (.ok r, again') ∧
      (sync policy₂ code).run.run once = (.ok r', once') ∧
      again'.engine.tables = once'.engine.tables ∧
      (again'.catalog.getCategory code).bind (·.fingerprint) =
        (once'.catalog.getCategory code).bind (·.fingerprint) := by
  obtain ⟨k, signals, text, prepared⟩ := (sync_prepared hc).of_error cut he
  have orderly : Orderly k.toCategoryKey (signalColumns signals) := by
    refine prepared.orderly ?_
    rw [← prepared.listed, List.filter_map, List.pairwise_map]
    exact distinct
  obtain ⟨differs, halted⟩ := (sync_settles prepared orderly hc hw).of_error cut
  obtain ⟨r, again', ran, settled⟩ := ha.settles halted.catalog.symm prepared orderly
  obtain ⟨r', once', ran', settled'⟩ := ho.settles rfl prepared orderly
  refine ⟨halted.catalog, r, again', r', once', ran, ran', ?_, ?_⟩
  · rw [settled.tables, settled'.tables, if_neg differs, if_neg differs, ha.tables, ho.tables,
      halted.brought]
  · rw [settled.fingerprint, settled'.fingerprint, ha.tables, ho.tables, halted.brought]

-- A table that is to be made; the connection is lost after its database.
def interrupted : World Service :=
  let w := (Event.run [
    .edit (.createCategory { code := "motor", database := "plant", name := "Motor" }),
    .edit (.addSignal (.stored "motor" "current" .numeric))]).2
  { w with engine := { faults := [none, none, some (.transport "reset")] } }

def impatient : RetryPolicy := { maxAttempts := 1 }

def calm (c : Catalog) (t : Tables) : World Service :=
  { engine := { tables := t }, catalog := c }

theorem healthy_calm (c : Catalog) (t : Tables) : Healthy policy c t (calm c t) :=
  ⟨rfl, rfl, rfl, nofun, Nat.zero_le _⟩

-- Whether a call was given up in a way that may go away.
def falters : Except SyncError α → Bool
  | .error e => e.isTransient
  | .ok _ => false

theorem run_interrupted :
    let r := (sync impatient "motor").run.run interrupted
    falters r.1 ∧
      r.2.engine.tables.databases.contains "plant" ∧
      r.2.engine.tables.superTables.contains ⟨"plant", "raw_motor"⟩ = false ∧
      interrupted.catalogFaults.isEmpty ∧
      (interrupted.catalog.listSignals "motor").length = 1 := by
  decide +kernel

theorem sync_repaired_halfway :
    ∃ e w₁ r again r' once, (sync impatient "motor").run.run interrupted = (.error e, w₁) ∧
      e.isTransient ∧ w₁.engine.tables.databases.contains "plant" ∧
      w₁.engine.tables.superTables.contains ⟨"plant", "raw_motor"⟩ = false ∧
      (sync {} "motor").run.run (calm w₁.catalog w₁.engine.tables) = (.ok r, again) ∧
      (sync {} "motor").run.run (calm interrupted.catalog interrupted.engine.tables) =
        (.ok r', once) ∧
      again.engine.tables = once.engine.tables := by
  obtain ⟨failed, database, table, faults, one⟩ := run_interrupted
  have passing : Passing interrupted := by
    intro e he
    obtain rfl : e = .transport "reset" := by simpa [interrupted] using he
    rfl
  have distinct : ((interrupted.catalog.listSignals "motor").filter (·.isStored)).Pairwise
      fun s s' => ¬sameIgnoringCase s.code s'.code := by
    obtain ⟨s, hs⟩ := List.length_eq_one_iff.mp one
    rw [hs]
    exact (List.pairwise_singleton _ s).filter _
  generalize cut : (sync impatient "motor").run.run interrupted = result at failed database table
  obtain ⟨e | _, w₁⟩ := result
  case ok => cases failed
  obtain ⟨-, r, again, r', once, ran, ran', same, -⟩ := sync_repaired distinct
    (List.isEmpty_iff.mp faults) passing cut failed (healthy_calm _ _) (healthy_calm _ _)
  exact ⟨e, w₁, r, again, r', once, rfl, failed, database, table, ran, ran', same⟩

end Synchronizer

end Historian
