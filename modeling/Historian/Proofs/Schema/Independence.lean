import Historian.Proofs.Schema.Plan

namespace Historian

open Engine World Schema

namespace Engine.Tables

-- A change of what the engine holds that concerns one super-table: databases may be made, and that
-- table may be made or altered.
inductive Edits (n : TableName) : (Tables → Tables) → Prop
  | nothing : Edits n id
  | database (name : String) : Edits n fun t => { t with databases := t.databases.insert name }
  | table (S : TableSchema) : Edits n (·.given n S)
  | after {f g : Tables → Tables} (hf : Edits n f) (hg : Edits n g) : Edits n (g ∘ f)

variable {t : Tables} {n m : TableName} {f g : Tables → Tables}

-- No table of another kind has the name.
structure Free (t : Tables) (n : TableName) : Prop where
  child : t.childTables.contains n = false
  derived : t.derived.contains n = false

theorem Free.describe (h : t.Free n) : t.describe n = t.superTables[n]? := by
  have child := h.child
  rw [Std.ExtTreeMap.contains_eq_isSome_getElem?] at child
  have child := Option.isNone_iff_eq_none.mp (Option.isSome_eq_false_iff.mp child)
  unfold Tables.describe
  cases t.superTables[n]? <;> simp [child, h.derived]

theorem getElem?_given_of_ne (h : n ≠ m) :
    (t.given n S).superTables[m]? = t.superTables[m]? := by
  rw [given, getElem?_superTables_insert, if_neg h]

namespace Edits

theorem elsewhere (hf : Edits n f) (h : n ≠ m) (t : Tables) :
    (f t).superTables[m]? = t.superTables[m]? := by
  induction hf generalizing t with
  | nothing => rfl
  | database => rfl
  | table S => exact getElem?_given_of_ne h
  | after _ _ ihf ihg => exact (ihg _).trans (ihf t)

theorem free (hf : Edits n f) (h : t.Free m) : (f t).Free m := by
  induction hf generalizing t with
  | nothing => exact h
  | database => exact ⟨h.child, h.derived⟩
  | table S => exact ⟨h.child, h.derived⟩
  | after _ _ ihf ihg => exact ihg (ihf h)

theorem comm_database (hf : Edits n f) (name : String) (t : Tables) :
    f { t with databases := t.databases.insert name } =
      { f t with databases := (f t).databases.insert name } := by
  induction hf generalizing t with
  | nothing => rfl
  | database other =>
    have same : (t.databases.insert name).insert other = (t.databases.insert other).insert name := by
      refine Std.ExtTreeSet.ext_contains fun d => ?_
      simp only [Std.ExtTreeSet.contains_insert]
      exact Bool.or_left_comm ..
    simp only [same]
  | table S => rfl
  | after _ _ ihf ihg => rw [Function.comp_apply, ihf, ihg, Function.comp_apply]

theorem comm_given (hf : Edits n f) (h : n ≠ m) (t : Tables) :
    f (t.given m S) = (f t).given m S := by
  induction hf generalizing t with
  | nothing => rfl
  | database => rfl
  | table S' =>
    have same : (t.superTables.insert m S).insert n S' = (t.superTables.insert n S').insert m S := by
      refine Std.ExtTreeMap.ext_getElem? fun l => ?_
      simp only [Std.ExtTreeMap.getElem?_insert, Std.compare_eq_iff_eq]
      grind
    simp only [given, same]
  | after _ _ ihf ihg => rw [Function.comp_apply, ihf, ihg, Function.comp_apply]

-- Changes of different super-tables can be made in either order.
theorem comm (hf : Edits n f) (hg : Edits m g) (h : n ≠ m) (t : Tables) : f (g t) = g (f t) := by
  induction hg generalizing t with
  | nothing => rfl
  | database name => exact hf.comm_database name t
  | table S => exact hf.comm_given h t
  | after _ _ ih ih' => rw [Function.comp_apply, ih', ih, Function.comp_apply]

end Edits

-- A statement to whose outcome only one super-table matters, and which may alter that table.
def Alone (n : TableName) (text : String) : Prop :=
  ∀ S, (∃ r, ∀ t : Tables, t.superTables[n]? = S → t.run text = .error r) ∨
    ∃ S', ∀ t : Tables, t.superTables[n]? = S → t.run text = .ok (t.given n S')

theorem alone_addColumn {c : Column} (h : ∀ t : Tables, t.run text = t.addColumn n c) :
    Alone n text := by
  intro S
  cases S with
  | none =>
    exact .inl ⟨_, fun t ht => (h t).trans (addColumn_missing ht)⟩
  | some S =>
    by_cases taken : (S.column? c.name).isSome || (S.tag? c.name).isSome
    case pos =>
      refine .inl ⟨.columnExists c.name, fun t ht => ?_⟩
      simp only [h, addColumn, superTable, ht, ok_bind, taken, if_true]
      rfl
    case neg =>
      refine .inr ⟨{ S with columns := S.columns ++ [c] }, fun t ht => ?_⟩
      simp only [h, addColumn, superTable, ht, ok_bind, taken]
      rfl

theorem alone_modifyColumn {c : Column} (h : ∀ t : Tables, t.run text = t.modifyColumn n c) :
    Alone n text := by
  intro S
  cases S with
  | none =>
    exact .inl ⟨_, fun t ht => (h t).trans (modifyColumn_missing ht)⟩
  | some S =>
    cases hc : S.column? c.name with
    | none =>
      refine .inl ⟨.columnMissing c.name, fun t ht => ?_⟩
      simp [h, modifyColumn, superTable, ht, hc]
    | some old =>
      cases widens : old.type.widens c.type with
      | false =>
        refine .inl ⟨.narrowing c.name old.type c.type, fun t ht => ?_⟩
        simp [h, modifyColumn, superTable, ht, hc, widens]
      | true =>
        refine .inr ⟨{ S with columns := retype c.name c.type S.columns }, fun t ht => ?_⟩
        simp [h, modifyColumn, superTable, ht, hc, widens, given]

end Engine.Tables

namespace Catalog

variable {c c' c₁ c₂ : Catalog} {a b : String} {d d' : Option String}

-- The catalog without the times of synchronizations: only whether there was one is left.
def untimed (c : Catalog) : Catalog :=
  { c with categories := c.categories.map fun k =>
      { k with lastSyncedAt := k.lastSyncedAt.map fun _ => 0 } }

-- The catalog with a digest on record, if there is one.
def marked (code : String) (c : Catalog) : Option String → Catalog
  | none => c
  | some digest => c.stamped code digest 0

theorem getCategory_stamped (h : a ≠ b) (digest : String) (time : Int) :
    (c.stamped a digest time).getCategory b = c.getCategory b := by
  have found : (c.stamped a digest time).category? b = c.category? b := by
    simp only [category?, stamped]
    induction c.categories with
    | nil => rfl
    | cons k ks ih =>
      by_cases hk : k.code = a
      · have other : k.code ≠ b := fun he => h (hk.symm.trans he)
        simp [hk, h, ih]
      · simp only [List.map_cons, hk, if_false, List.find?_cons, ih]
  simp only [getCategory, found]
  rfl

theorem Marked.getCategory (hm : Marked a c c' d) (h : a ≠ b) :
    c'.getCategory b = c.getCategory b := by
  cases d with
  | none => rw [show c' = c from hm]
  | some digest =>
    obtain ⟨time, rfl⟩ := hm
    exact getCategory_stamped h digest time

theorem Marked.listSignals (hm : Marked a c c' d) (code : String) :
    c'.listSignals code = c.listSignals code := by
  cases d with
  | none => rw [show c' = c from hm]
  | some digest =>
    obtain ⟨time, rfl⟩ := hm
    rfl

theorem Marked.untimed (hm : Marked a c c' d) : c'.untimed = marked a c.untimed d := by
  cases d with
  | none => rw [show c' = c from hm, marked]
  | some digest =>
    obtain ⟨time, rfl⟩ := hm
    simp only [Catalog.untimed, marked, stamped, List.map_map, Catalog.mk.injEq, and_true]
    refine List.map_congr_left fun k _ => ?_
    simp only [Function.comp_apply]
    split <;> rfl

theorem marked_comm (h : a ≠ b) (c : Catalog) (d d' : Option String) :
    marked b (marked a c d) d' = marked a (marked b c d') d := by
  cases d with
  | none => rfl
  | some digest =>
    cases d' with
    | none => rfl
    | some digest' =>
      simp only [marked, stamped, List.map_map, Catalog.mk.injEq, and_true]
      refine List.map_congr_left fun k _ => ?_
      simp only [Function.comp_apply]
      grind

end Catalog

namespace Synchronizer

variable {w w' w'' : World Service} {policy : RetryPolicy} {n : TableName} {k : CategoryKey}
  {S S' : Option TableSchema}

-- What a statement comes to with an engine that is sound: it is sent once.
def taken (t : Tables) : Except Refusal Tables → Except (RetryFailure EngineError) Unit × Tables
  | .ok t' => (.ok (), t')
  | .error r => (if r.error.isAlreadyExists then .ok () else .error ⟨1, r.error⟩, t)

theorem execute_sound {sql : String} (he : w.SoundEngine policy) :
    Ensures (execute policy sql) w
      (fun x w' => (x, w'.engine.tables) = taken w.engine.tables (w.engine.tables.run sql) ∧
        w'.catalog = w.catalog ∧ w.Later w')
      (fun _ _ => False) := by
  refine .lift ?_
  have first := execute_cases policy.attemptTimeout sql w
  unfold Program.retryExecute RetryPolicy.retry RetryPolicy.retryFrom
  rw [Program.run_bind]
  generalize (Program.execute policy.attemptTimeout sql).run w = r at first
  obtain ⟨a, w'⟩ := r
  rcases first with ⟨-, late, -⟩ | ⟨e, -, arranged, -⟩ | ⟨r, rfl, hr, hu⟩ | ⟨rfl, hr, hc, hl⟩
  · exact absurd late (Nat.not_lt.mpr he.latency)
  · exact (he.meets e arranged).elim
  · simp only [Option.getD_some, r.not_transient, Bool.not_false, if_true, Program.run_pure, hr,
      taken]
    cases r.error.isAlreadyExists <;>
      exact .pure ⟨Prod.ext rfl hu.tables, hu.catalog, hu.toLater⟩
  · exact .pure ⟨by simp [hr, taken], hc, hl⟩

-- A world in which nothing goes wrong, the super-table of a name is the given one, and no table of
-- another kind has the name.
structure Sees (policy : RetryPolicy) (n : TableName) (S : Option TableSchema)
    (w : World Service) : Prop where
  catalog : w.SoundCatalog
  engine : w.SoundEngine policy
  free : w.engine.tables.Free n
  table : w.engine.tables.superTables[n]? = S

-- Nothing has changed but the tables, and these in the given way.
structure Edited (policy : RetryPolicy) (n : TableName) (f : Tables → Tables)
    (S : Option TableSchema) (w w' : World Service) : Prop extends Sees policy n S w' where
  tables : w'.engine.tables = f w.engine.tables
  same : w'.catalog = w.catalog

-- An action that works on one super-table: its result and what it changes depend on nothing else
-- that the engine holds.
def Local (policy : RetryPolicy) (n : TableName) (a : Action α) : Prop :=
  ∀ S, ∃ (x : Except SyncError α) (f : Tables → Tables) (S' : Option TableSchema),
    Tables.Edits n f ∧ ∀ w, Sees policy n S w → Ensures a w
      (fun v w' => x = .ok v ∧ Edited policy n f S' w w')
      (fun e w' => x = .error e ∧ Edited policy n f S' w w')

theorem Sees.later (h : Sees policy n S w) (hl : w.Later w') (hf : Tables.Edits n f)
    (ht : w'.engine.tables = f w.engine.tables) :
    Sees policy n w'.engine.tables.superTables[n]? w' :=
  ⟨h.catalog.later hl, h.engine.later hl, ht ▸ hf.free h.free, rfl⟩

theorem Edited.refl (h : Sees policy n S w) : Edited policy n id S w w :=
  ⟨h, rfl, rfl⟩

theorem Edited.trans (h : Edited policy n f S w w') (h' : Edited policy n g S' w' w'') :
    Edited policy n (g ∘ f) S' w w'' :=
  ⟨h'.toSees, by rw [h'.tables, h.tables, Function.comp_apply], h'.same.trans h.same⟩

namespace Local

variable {a : Action α} {b : α → Action β}

theorem pure (x : α) : Local policy n (Pure.pure x : Action α) :=
  fun S => ⟨.ok x, id, S, .nothing, fun _ h => .pure ⟨rfl, .refl h⟩⟩

theorem throw (e : SyncError) : Local policy n (MonadExcept.throw e : Action α) :=
  fun S => ⟨.error e, id, S, .nothing, fun _ h => .throw ⟨rfl, .refl h⟩⟩

theorem bind (ha : Local policy n a) (hb : ∀ v, Local policy n (b v)) :
    Local policy n (a >>= b) := by
  intro S
  obtain ⟨x, f, S', hf, first⟩ := ha S
  cases x with
  | error e =>
    refine ⟨.error e, f, S', hf, fun w h => (first w h).step (fun v w' hv => ?_) fun e' w' he => ?_⟩
    · cases hv.1
    · cases he.1
      exact ⟨rfl, he.2⟩
  | ok v =>
    obtain ⟨y, g, S'', hg, second⟩ := hb v S'
    refine ⟨y, g ∘ f, S'', hf.after hg, fun w h =>
      (first w h).step (fun v' w' hv => ?_) fun e w' he => ?_⟩
    · obtain ⟨hx, edited⟩ := hv
      cases hx
      exact (second w' edited.toSees).mono (fun _ _ h => ⟨h.1, edited.trans h.2⟩)
        fun _ _ h => ⟨h.1, edited.trans h.2⟩
    · cases he.1

theorem checked {x : Except Invalid α} (h : ∀ v, x = .ok v → Local policy n (b v)) :
    Local policy n (Synchronizer.checked x >>= b) := by
  cases x with
  | error fault => exact .throw (.invalid fault)
  | ok v => exact h v rfl

theorem describe (policy : RetryPolicy) (category : String) (n : TableName) :
    Local policy n (describe policy category n) := by
  refine fun S => ⟨.ok S, id, S, .nothing, fun w h => describe_ensures.mono ?_ ?_⟩
  · rintro s w' ⟨rfl, ha⟩
    have later := h.later ha.toLater .nothing ha.tables
    rw [ha.tables, h.table] at later
    exact ⟨by rw [h.free.describe, h.table], later, ha.tables, ha.catalog⟩
  · exact fun _ _ h' => absurd h.engine h'.2

theorem execute (h : Tables.Alone n text) : Local policy n (execute policy text) := by
  intro S
  rcases h S with ⟨r, refused⟩ | ⟨S', accepted⟩
  · refine ⟨.ok (taken {} (.error r)).1, id, S, .nothing, fun w h =>
      (execute_sound h.engine).mono (fun x w' ⟨hx, hc, hl⟩ => ?_) fun _ _ h => h.elim⟩
    rw [refused _ h.table] at hx
    obtain ⟨rfl, ht⟩ := Prod.mk.inj hx
    have later := h.later hl .nothing ht
    rw [ht, h.table] at later
    exact ⟨rfl, later, ht, hc⟩
  · refine ⟨.ok (.ok ()), (·.given n S'), some S', .table S', fun w h =>
      (execute_sound h.engine).mono (fun x w' ⟨hx, hc, hl⟩ => ?_) fun _ _ h => h.elim⟩
    rw [accepted _ h.table] at hx
    obtain ⟨rfl, ht⟩ := Prod.mk.inj hx
    have later := h.later hl (.table S') ht
    rw [ht, Tables.getElem?_given] at later
    exact ⟨rfl, later, ht, hc⟩

theorem issue {category operation : String} {name : α → String}
    {statement : α → Except Invalid String} {note : α → String → SyncReport → SyncReport}
    {as : List α} (h : ∀ a ∈ as, ∀ text, statement a = .ok text → Tables.Alone n text)
    (r : SyncReport) :
    Local policy n (issue policy category operation name statement note as r) := by
  induction as generalizing r with
  | nil => exact .pure r
  | cons a as ih =>
    have ⟨one, rest⟩ := List.forall_mem_cons.mp h
    refine .checked fun text ht => .bind (.execute (one text ht)) fun x => ?_
    cases x with
    | ok => exact ih rest _
    | error f =>
      cases hf : f.isExhausted with
      | true => simpa [hf] using .throw _
      | false => simpa [hf] using ih rest _

end Local

theorem alter_local (k : CategoryKey) (S : TableSchema) (signals : List SignalSpec)
    (r : SyncReport) : Local policy k.superTable (alter policy k (diff S signals) r) := by
  unfold alter
  rw [addColumns_eq]
  refine .bind (.issue (fun c hc text ht => ?_) r) fun r => ?_
  · exact Tables.alone_addColumn fun t =>
      Tables.run_eq (addColumnStatement_parse ht (missing_writable c hc))
  rw [widenColumns_eq]
  refine .bind (.issue (fun x hx text ht => ?_) r) fun r => .pure _
  exact Tables.alone_modifyColumn fun t =>
    Tables.run_eq (modifyColumnStatement_parse ht (widenings_writable x hx))

-- What becomes of a super-table that is to be made in a database that is there.
theorem createSuperTable_local (n : TableName) (D : TableSchema) (S : Option TableSchema) :
    (∃ r, r.error.isAlreadyExists = false ∧ ∀ t : Tables, t.databases.contains n.database →
      t.superTables[n]? = S → t.createSuperTable true n D = .error r) ∨
    ∃ f S', Tables.Edits n f ∧ ∀ t : Tables, t.databases.contains n.database →
      t.superTables[n]? = S → t.createSuperTable true n D = .ok (f t) ∧
        (f t).superTables[n]? = S' := by
  cases hw : Tables.requireWellFormed D with
  | error r =>
    refine .inl ⟨r, Tables.requireWellFormed_exists hw, fun t hd _ => ?_⟩
    simp [Tables.createSuperTable, Tables.requireDatabase, hd, hw]
  | ok =>
    cases S with
    | none =>
      exact .inr ⟨_, some D, .table D, fun t hd hs =>
        ⟨Tables.createSuperTable_eq hd hs hw, Tables.getElem?_given⟩⟩
    | some S =>
      refine .inr ⟨id, some S, .nothing, fun t hd hs => ⟨?_, hs⟩⟩
      have there : t.superTables.contains n := by
        rw [Std.ExtTreeMap.contains_eq_isSome_getElem?, hs]
        rfl
      simp [Tables.createSuperTable, Tables.requireDatabase, hd, hw, there]

theorem Sees.passing (h : Sees policy n S w) : Passing w :=
  fun e he => (h.engine.meets e he).elim

theorem Sees.accepted {category operation : String} (h : Sees policy n S w)
    (hf : Tables.Edits n f) (run : w.engine.tables.run text = .ok (f w.engine.tables))
    (here : (f w.engine.tables).superTables[n]? = S') :
    Ensures (mustExecute policy category operation text) w
      (fun _ w' => Edited policy n f S' w w') (fun _ _ => False) := by
  refine (mustExecute_ready h.passing run).mono (fun _ w' ⟨ht, hc, hl⟩ => ?_)
    fun _ _ h' => h'.1 h.engine
  have later := h.later hl hf ht
  rw [ht, here] at later
  exact ⟨later, ht, hc⟩

theorem Sees.refused {category operation : String} {r : Refusal} (h : Sees policy n S w)
    (run : w.engine.tables.run text = .error r) (lasting : r.error.isAlreadyExists = false) :
    Ensures (mustExecute policy category operation text) w (fun _ _ => False)
      (fun e w' => e = .schema category none r.error.message ∧ Edited policy n id S w w') := by
  refine (mustExecute_refused h.passing run lasting).mono (fun _ _ h => h) ?_
  rintro e w' ⟨hu, rfl | unsound⟩
  · have later := h.later hu.toLater .nothing hu.tables
    rw [hu.tables, h.table] at later
    exact ⟨rfl, later, hu.tables, hu.catalog⟩
  · exact absurd h.engine unsound

-- The database has to be there before the super-table, and it is made first.
theorem create_local (ht : superTableStatement k signals = .ok text) (r : SyncReport) :
    Local policy k.superTable (create policy k signals text r) := by
  refine .checked fun database hd S => ?_
  have run (t : Tables) := t.run_eq (superTableStatement_parse ht)
  have made {w} (h : Sees policy k.superTable S w) :
      Ensures (mustExecute policy k.code "create super-table" database) w _ _ :=
    h.accepted (.database k.database)
      ((Tables.run_eq (databaseStatement_parse hd)).trans (Tables.createDatabase_eq _)) h.table
  have there {w w' : World Service}
      (h : Edited policy k.superTable
        (fun t => { t with databases := t.databases.insert k.database }) S w w') :
      w'.engine.tables.databases.contains k.superTable.database := by
    simp [h.tables, CategoryKey.superTable]
  rcases createSuperTable_local k.superTable (desired signals) S with
    ⟨x, lasting, refused⟩ | ⟨f, S', hf, accepted⟩
  · refine ⟨.error (.schema k.code none x.error.message), _, S, .database k.database, fun w h =>
      (made h).step (fun _ w₁ h₁ => ?_) fun _ _ h => h.elim⟩
    have sent := (run _).trans (refused _ (there h₁) h₁.table)
    refine (h₁.refused sent lasting).step (fun _ _ h => h.elim) ?_
    rintro e w₂ ⟨rfl, h₂⟩
    exact ⟨rfl, h₁.trans h₂⟩
  · let made' : SyncReport := { r with
      action := .created
      added := (storedSignals signals).map (·.code)
      statements := [database, text] }
    refine ⟨.ok made', _, S', .after (.database k.database) hf, fun w h =>
      (made h).step (fun _ w₁ h₁ => ?_) fun _ _ h => h.elim⟩
    obtain ⟨sent, here⟩ := accepted _ (there h₁) h₁.table
    refine (h₁.accepted hf ((run _).trans sent) here).step (fun _ w₂ h₂ => ?_) fun _ _ h => h.elim
    exact .pure ⟨rfl, h₁.trans h₂⟩

theorem bring_local (category : String) (ht : superTableStatement k signals = .ok text)
    (r : SyncReport) : Local policy k.superTable (bring policy category k signals text r) := by
  refine .bind (.describe policy category k.superTable) fun found => ?_
  cases found with
  | none => exact create_local ht r
  | some S => exact alter_local k S signals r

-- What a synchronization leaves behind.
structure Leaves (policy : RetryPolicy) (code : String) (f : Tables → Tables)
    (digest : Option String) (w w' : World Service) : Prop where
  soundCatalog : w'.SoundCatalog
  soundEngine : w'.SoundEngine policy
  tables : w'.engine.tables = f w.engine.tables
  marked : Catalog.Marked code w.catalog w'.catalog digest

theorem Leaves.between {w₁ w₂ : World Service} (h₁ : w.Untouched w₁)
    (h : Leaves policy code f digest w₁ w₂) (h₂ : w₂.Untouched w') :
    Leaves policy code f digest w w' where
  soundCatalog := h.soundCatalog.later h₂.asked.toLater
  soundEngine := h.soundEngine.later h₂.asked.toLater
  tables := by rw [h₂.engine, h.tables, h₁.engine]
  marked := by rw [h₂.catalog, ← h₁.catalog]; exact h.marked

-- A world in which nothing goes wrong, and which has the same as another of one category.
structure Alike (policy : RetryPolicy) (code : String) (w w₁ : World Service) : Prop where
  soundCatalog : w₁.SoundCatalog
  soundEngine : w₁.SoundEngine policy
  category : w₁.catalog.getCategory code = w.catalog.getCategory code
  signals : w₁.catalog.listSignals code = w.catalog.listSignals code
  table : ∀ k, w.catalog.getCategory code = some k → w₁.engine.tables.Free k.superTable ∧
    w₁.engine.tables.superTables[k.superTable]? = w.engine.tables.superTables[k.superTable]?

theorem Alike.plan (h : Alike policy code w w') :
    plan code w'.catalog = plan code w.catalog := by
  simp only [Synchronizer.plan, h.category, h.signals]

theorem Alike.untouched (h : Alike policy code w w') (hu : w'.Untouched w'') :
    Alike policy code w w'' where
  soundCatalog := h.soundCatalog.later hu.asked.toLater
  soundEngine := h.soundEngine.later hu.asked.toLater
  category := hu.catalog ▸ h.category
  signals := hu.catalog ▸ h.signals
  table k hk := hu.engine ▸ h.table k hk

-- Where a synchronization may leave something behind.
inductive Reach (code : String) (c : Catalog) : (Tables → Tables) → Option String → Prop
  | nowhere : Reach code c id none
  | table {k : CategoryInfo} (hk : c.getCategory code = some k) (hf : Tables.Edits k.superTable f)
    (digest : Option String) : Reach code c f digest

-- The result of a synchronization, and what it leaves behind, depend on its category alone.
theorem syncLocked_leaves (policy : RetryPolicy) (code : String) (w : World Service) :
    ∃ (x : Except SyncError SyncReport) (f : Tables → Tables) (digest : Option String),
      Reach code w.catalog f digest ∧ ∀ w₁, Alike policy code w w₁ →
        Ensures (syncLocked policy code false) w₁
          (fun r w' => x = .ok r ∧ Leaves policy code f digest w₁ w')
          (fun e w' => x = .error e ∧ Leaves policy code f digest w₁ w') := by
  have unmoved {w₁ w' : World Service} (h : Alike policy code w w₁) (hu : w₁.Untouched w') :
      Leaves policy code id none w₁ w' :=
    ⟨(h.untouched hu).soundCatalog, (h.untouched hu).soundEngine, hu.asked.tables, hu.catalog⟩
  rw [syncLocked_eq]
  cases hp : plan code w.catalog with
  | refuse e =>
    refine ⟨.error e, id, none, .nowhere, fun w₁ h => .bind ?_⟩
    have planned := h.plan.trans hp
    refine survey_planned h.soundCatalog (fun e' w' he hu => ?_) (fun r w' hr hu => ?_)
      fun k signals text w' hk hu => ?_
    · cases planned.symm.trans he
      exact ⟨rfl, unmoved h hu⟩
    · cases planned.symm.trans hr
    · cases planned.symm.trans hk
  | skip r =>
    refine ⟨.ok r, id, none, .nowhere, fun w₁ h => .bind ?_⟩
    have planned := h.plan.trans hp
    refine survey_planned h.soundCatalog (fun e' w' he hu => ?_) (fun r w' hr hu => ?_)
      fun k signals text w' hk hu => ?_
    · cases planned.symm.trans he
    · cases planned.symm.trans hr
      exact .pure ⟨rfl, unmoved h hu⟩
    · cases planned.symm.trans hk
  | work k signals text =>
    obtain ⟨⟨info, hk, rfl⟩, ht⟩ := plan_work hp
    have brought : Local policy info.superTable (bring policy code _ _ _ _) :=
      bring_local code ht (blank code info.toCategoryKey text)
    obtain ⟨x, f, S', hf, comes⟩ := brought w.engine.tables.superTables[info.superTable]?
    let digest : Option String := x.toOption.bind fun r =>
      if r.rejected.isEmpty then some (fingerprint text) else none
    refine ⟨x, f, digest, .table hk hf digest, fun w₁ h => .bind ?_⟩
    have planned := h.plan.trans hp
    refine survey_planned h.soundCatalog (fun e' w' he hu => ?_) (fun r w' hr hu => ?_)
      fun k' signals' text' w' hk' hu => ?_
    · cases planned.symm.trans he
    · cases planned.symm.trans hr
    cases planned.symm.trans hk'
    have h' := h.untouched hu
    have ⟨free, same⟩ := h'.table info hk
    refine (comes w' ⟨h'.soundCatalog, h'.soundEngine, free, same⟩).mono ?_ ?_
    · rintro r w₂ ⟨rfl, edited⟩
      have found : w₂.catalog.getCategory code = some info := by
        rw [edited.same, h'.category, hk]
      refine (finish_marks found edited.catalog).mono ?_ (fun _ _ h => h.elim)
      rintro r' w₃ ⟨rfl, engine, later, marked⟩
      refine ⟨rfl, .between hu ⟨edited.catalog.later later, edited.engine.later later, ?_, ?_⟩
        (.refl _)⟩
      · rw [engine, edited.tables]
      · rw [← edited.same]
        exact marked
    · rintro e w₂ ⟨rfl, edited⟩
      exact ⟨rfl, .between hu ⟨edited.catalog, edited.engine, edited.tables, edited.same⟩
        (.refl _)⟩

theorem sync_leaves (policy : RetryPolicy) (code : String) (w : World Service) :
    ∃ (x : Except SyncError SyncReport) (f : Tables → Tables) (digest : Option String),
      Reach code w.catalog f digest ∧ ∀ w₁, Alike policy code w w₁ →
        ∃ w', (sync policy code).run.run w₁ = (x, w') ∧ Leaves policy code f digest w₁ w' := by
  obtain ⟨x, f, digest, reach, leaves⟩ := syncLocked_leaves policy code w
  refine ⟨x, f, digest, reach, fun w₁ h => ?_⟩
  have ends : Ensures (sync policy code) w₁
      (fun r w' => x = .ok r ∧ Leaves policy code f digest w₁ w')
      (fun e w' => x = .error e ∧ Leaves policy code f digest w₁ w') := by
    refine .holding fun w₂ h₂ => (leaves w₂ (h.untouched h₂)).mono ?_ ?_
    · exact fun r w₃ ⟨hx, hl⟩ w₄ h₄ => ⟨hx, .between h₂ hl h₄⟩
    · exact fun e w₃ ⟨hx, hl⟩ w₄ h₄ => ⟨hx, .between h₂ hl h₄⟩
  unfold Ensures at ends
  generalize (sync policy code).run.run w₁ = ran at ends
  obtain ⟨_ | _, w'⟩ := ran
  all_goals
    obtain ⟨rfl, hl⟩ := ends
    exact ⟨w', rfl, hl⟩

variable {a b : String} {f g : Tables → Tables} {d d' : Option String}

-- Two categories with super-tables of different names.
def Apart (c : Catalog) (a b : String) : Prop :=
  ∀ k k', c.getCategory a = some k → c.getCategory b = some k' → k.superTable ≠ k'.superTable

theorem Apart.ne {k : CategoryInfo} (h : Apart c a b) (hk : c.getCategory a = some k) : a ≠ b := by
  rintro rfl
  exact h k k hk hk rfl

-- The other category is as it was.
theorem Leaves.alike (h : Leaves policy a f d w w') (reach : Reach a w.catalog f d)
    (apart : Apart w.catalog a b) (hb : Alike policy b w w) : Alike policy b w w' := by
  have hm := h.marked
  have ht := h.tables
  cases reach with
  | nowhere =>
    have hm : w'.catalog = w.catalog := hm
    rw [id_eq] at ht
    exact ⟨h.soundCatalog, h.soundEngine, by rw [hm], by rw [hm], ht ▸ hb.table⟩
  | table hk hf =>
    have hn := apart.ne hk
    refine ⟨h.soundCatalog, h.soundEngine, hm.getCategory hn, hm.listSignals b, fun k' hk' => ?_⟩
    rw [ht]
    exact ⟨hf.free (hb.table k' hk').1, hf.elsewhere (apart _ _ hk hk') _⟩

theorem Reach.comm_tables (ha : Reach a c f d) (hb : Reach b c g d') (apart : Apart c a b)
    (t : Tables) : g (f t) = f (g t) := by
  cases ha with
  | nowhere => rfl
  | table hk hf =>
    cases hb with
    | nowhere => rfl
    | table hk' hg => exact (hf.comm hg (apart _ _ hk hk') t).symm

theorem Reach.comm_marked (ha : Reach a c f d) (apart : Apart c a b) (c' : Catalog)
    (d' : Option String) :
    Catalog.marked b (Catalog.marked a c' d) d' = Catalog.marked a (Catalog.marked b c' d') d := by
  cases ha with
  | nowhere => rfl
  | table hk _ => exact Catalog.marked_comm (apart.ne hk) c' d d'

-- Categories whose super-tables are different, and are no tables of another kind, are synchronized in
-- either order: each with the same result, and to the same end.
theorem syncs_commute {policy : RetryPolicy} {a b : String} {w : World Service}
    (soundCatalog : w.SoundCatalog) (soundEngine : w.SoundEngine policy)
    (apart : ∀ k k', w.catalog.getCategory a = some k → w.catalog.getCategory b = some k' →
      k.superTable ≠ k'.superTable)
    (free : ∀ k, w.catalog.getCategory a = some k ∨ w.catalog.getCategory b = some k →
      w.engine.tables.Free k.superTable) :
    ∃ x y first second first' second',
      (sync policy a).run.run w = (x, first) ∧ (sync policy b).run.run first = (y, second) ∧
      (sync policy b).run.run w = (y, first') ∧ (sync policy a).run.run first' = (x, second') ∧
      second.engine.tables = second'.engine.tables ∧
      second.catalog.untimed = second'.catalog.untimed := by
  have ha : Alike policy a w w := ⟨soundCatalog, soundEngine, rfl, rfl, fun k hk =>
    ⟨free k (.inl hk), rfl⟩⟩
  have hb : Alike policy b w w := ⟨soundCatalog, soundEngine, rfl, rfl, fun k hk =>
    ⟨free k (.inr hk), rfl⟩⟩
  have apart' : Apart w.catalog b a := fun k k' hk hk' => (apart k' k hk' hk).symm
  obtain ⟨x, f, d, reach, leaves⟩ := sync_leaves policy a w
  obtain ⟨y, g, d', reach', leaves'⟩ := sync_leaves policy b w
  obtain ⟨first, ran, left⟩ := leaves w ha
  obtain ⟨first', ran', left'⟩ := leaves' w hb
  obtain ⟨second, next, after⟩ := leaves' first (left.alike reach apart hb)
  obtain ⟨second', next', after'⟩ := leaves first' (left'.alike reach' apart' ha)
  refine ⟨x, y, first, second, first', second', ran, next, ran', next', ?_, ?_⟩
  · rw [after.tables, left.tables, after'.tables, left'.tables]
    exact reach.comm_tables reach' apart _
  · rw [after.marked.untimed, left.marked.untimed, after'.marked.untimed, left'.marked.untimed]
    exact reach.comm_marked apart _ d'

-- Two categories of one database that is still to be made.
def neighbours : World Service :=
  (Event.run [
    .edit (.createCategory { code := "motor", database := "plant", name := "Motor" }),
    .edit (.addSignal (.stored "motor" "current" .numeric)),
    .edit (.createCategory { code := "pump", database := "plant", name := "Pump" }),
    .edit (.addSignal (.stored "pump" "flow" .integer))]).2

theorem run_neighbours :
    (neighbours.catalog.getCategory "motor").map (·.superTable) = some ⟨"plant", "raw_motor"⟩ ∧
      (neighbours.catalog.getCategory "pump").map (·.superTable) = some ⟨"plant", "raw_pump"⟩ ∧
      neighbours.engine.faults = [] ∧ neighbours.engine.latency = 0 ∧
      neighbours.catalogFaults.isEmpty ∧ neighbours.engine.tables.childTables.isEmpty ∧
      neighbours.engine.tables.derived.isEmpty ∧
      ((sync {} "motor").run.run neighbours).1.toOption.map (·.action) = some .created := by
  decide +kernel

theorem syncs_commute_neighbours :
    ∃ r y first second first' second', r.action = .created ∧
      (sync {} "motor").run.run neighbours = (.ok r, first) ∧
      (sync {} "pump").run.run first = (y, second) ∧
      (sync {} "pump").run.run neighbours = (y, first') ∧
      (sync {} "motor").run.run first' = (.ok r, second') ∧
      second.engine.tables = second'.engine.tables ∧
      second.catalog.untimed = second'.catalog.untimed := by
  obtain ⟨motor, pump, faults, latency, catalog, child, derived, made⟩ := run_neighbours
  have sound : neighbours.SoundEngine {} := ⟨fun e he => by simp [faults] at he, by simp [latency]⟩
  have apart k k' (hk : neighbours.catalog.getCategory "motor" = some k)
      (hk' : neighbours.catalog.getCategory "pump" = some k') : k.superTable ≠ k'.superTable := by
    rw [hk] at motor
    rw [hk'] at pump
    have motor : k.superTable = ⟨"plant", "raw_motor"⟩ := Option.some.inj motor
    have pump : k'.superTable = ⟨"plant", "raw_pump"⟩ := Option.some.inj pump
    rw [motor, pump]
    decide
  have free n : neighbours.engine.tables.Free n :=
    ⟨by simp [Std.ExtTreeMap.isEmpty_iff.mp child], by simp [Std.ExtTreeSet.isEmpty_iff.mp derived]⟩
  obtain ⟨x, y, first, second, first', second', ran, next, ran', next', same⟩ :=
    syncs_commute (List.isEmpty_iff.mp catalog) sound apart fun k _ => free _
  rw [ran] at made
  obtain ⟨r, rfl, created⟩ : ∃ r, x = .ok r ∧ r.action = .created := by
    cases x <;> simp_all [Except.toOption]
  exact ⟨r, y, first, second, first', second', created, ran, next, ran', next', same⟩

end Synchronizer

end Historian
