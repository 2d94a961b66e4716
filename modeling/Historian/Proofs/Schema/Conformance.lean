import Historian.Proofs.Schema.Sync

namespace Historian

open Engine World Text

-- The schema has the column, with exactly the type.
def TableSchema.Has (S : TableSchema) (c : Column) : Prop :=
  ∃ d, S.column? c.name = some d ∧ d.type = c.type

theorem TableSchema.Has.congr {S : TableSchema} {c d : Column} (h : S.Has c)
    (hn : sameIgnoringCase c.name d.name) (ht : c.type = d.type) : S.Has d := by
  simpa only [Has, column?, findColumn_congr hn, ht] using h

namespace Schema

variable {S S' : TableSchema} {c d : Column}

theorem lackOf_congr (hn : sameIgnoringCase c.name d.name) (ht : c.type = d.type) :
    lackOf S c = lackOf S d := by
  simp only [lackOf, TableSchema.column?, TableSchema.tag?, findColumn_congr hn, ht]
  rfl

theorem lackOf_eq_nothing : lackOf S c = .nothing ↔ S.tag? c.name = none ∧ S.Has c := by
  unfold lackOf TableSchema.Has
  cases S.tag? c.name <;> cases S.column? c.name <;> grind

theorem lackOf_eq_column :
    lackOf S c = .column ↔ S.tag? c.name = none ∧ S.column? c.name = none := by
  unfold lackOf
  cases S.tag? c.name <;> cases S.column? c.name <;> grind

theorem lackOf_eq_width :
    lackOf S c = .width old ↔ S.tag? c.name = none ∧ ∃ d, S.column? c.name = some d ∧
      d.type = old ∧ old ≠ c.type ∧ old.widens c.type := by
  unfold lackOf
  cases S.tag? c.name <;> cases S.column? c.name <;> grind

-- The signal's name stands for one type only, whatever the letter case.
def Undisputed (cs : List Column) (c : Column) : Prop :=
  ∀ d ∈ cs, sameIgnoringCase d.name c.name → d.type = c.type

theorem Undisputed.mono {cs ds : List Column} (h : Undisputed cs c) (hs : ds ⊆ cs) :
    Undisputed ds c :=
  fun d hd => h d (hs hd)

theorem Undisputed.congr {cs : List Column} (h : Undisputed cs c) (hd : d ∈ cs)
    (hn : sameIgnoringCase d.name c.name) : Undisputed cs d :=
  fun e he hen => (h e he (sameIgnoringCase_trans hen hn)).trans (h d hd hn).symm

-- A table that got columns, all of them from the list.
structure Extended (cs : List Column) (S S' : TableSchema) : Prop where
  tags : S'.tags = S.tags
  kept : ∀ x d, S.column? x = some d → S'.column? x = some d
  new : ∀ x d, S'.column? x = some d → S.column? x = some d ∨ d ∈ cs

theorem Extended.refl (S : TableSchema) : Extended cs S S :=
  ⟨rfl, fun _ _ h => h, fun _ _ h => .inl h⟩

theorem Extended.skip (h : Extended cs S S') : Extended (c :: cs) S S' :=
  ⟨h.tags, h.kept, fun x d hd => (h.new x d hd).imp_right (.tail _)⟩

theorem Extended.add (h : Extended cs { S with columns := S.columns ++ [c] } S') :
    Extended (c :: cs) S S' where
  tags := h.tags
  kept x d hd := h.kept x d (by simp [TableSchema.column?_add, hd])
  new x d hd := by
    rcases h.new x d hd with hd | hd
    case inr => exact .inr (.tail _ hd)
    rw [TableSchema.column?_add, Option.or_eq_some_iff] at hd
    rcases hd with hd | ⟨-, hd⟩
    case inl => exact .inl hd
    split at hd <;> cases hd
    exact .inr (.head _)

theorem Extended.others (h : Extended cs S S') (hx : ∀ c ∈ cs, ¬sameIgnoringCase c.name x) :
    S'.column? x = S.column? x := by
  cases hd : S.column? x with
  | some d => exact h.kept x d hd
  | none =>
    refine Option.eq_none_iff_forall_ne_some.mpr fun d hd' => ?_
    rcases h.new x d hd' with h | hm
    · cases hd.symm.trans h
    · exact hx d hm (findColumn_name hd')

-- A table in which columns from the list got other types.
structure Retyped (cs : List Column) (S S' : TableSchema) : Prop where
  tags : S'.tags = S.tags
  others : ∀ x, (∀ c ∈ cs, ¬sameIgnoringCase c.name x) → S'.column? x = S.column? x

end Schema

namespace Synchronizer

open Schema

variable {H : Prop} {n : TableName} {t t' : Tables} {S : TableSchema} {cs : List Column}

theorem Alters.adds (h : Alters H (·.addColumn n ·) cs t done failed t') (hH : H)
    (hs : t.superTables[n]? = some S) :
    ∃ S', t'.superTables[n]? = some S' ∧ Extended cs S S' ∧
      (failed = [] → ∀ c ∈ cs, S.tag? c.name = none → (S'.column? c.name).isSome) := by
  induction h generalizing S with
  | nil => exact ⟨S, hs, .refl S, nofun⟩
  | @acted t c t₁ cs done failed t' h _ ih =>
    obtain ⟨S₁, hs₁, hc, -, rfl⟩ := Tables.addColumn_ok h
    obtain rfl : S₁ = S := Option.some.inj (hs₁.symm.trans hs)
    have ⟨S', hs', he, hall⟩ := ih (Tables.getElem?_superTables_insert.trans (if_pos rfl))
    refine ⟨S', hs', he.add, fun hf => List.forall_mem_cons.mpr ⟨fun _ => ?_, hall hf⟩⟩
    rw [he.kept c.name c (by simp [TableSchema.column?_add, hc])]
    rfl
  | @present t c cs done failed t' h _ ih =>
    have ⟨S', hs', he, hall⟩ := ih hs
    refine ⟨S', hs', he.skip, fun hf => List.forall_mem_cons.mpr ⟨fun hg => ?_, hall hf⟩⟩
    obtain ⟨r, hr, hx⟩ := h hH
    obtain ⟨S₁, hs₁, hp⟩ := Tables.addColumn_exists hr hx
    obtain rfl : S₁ = S := Option.some.inj (hs₁.symm.trans hs)
    simp only [hg, Option.isSome_none, Bool.false_eq_true, or_false] at hp
    obtain ⟨d, hd⟩ := Option.isSome_iff_exists.mp hp
    rw [he.kept _ d hd]
    rfl
  | refused _ ih =>
    have ⟨S', hs', he, _⟩ := ih hs
    exact ⟨S', hs', he.skip, nofun⟩

theorem Alters.widens (h : Alters H (·.modifyColumn n ·) cs t done failed t') (hH : H)
    (hs : t.superTables[n]? = some S) :
    ∃ S', t'.superTables[n]? = some S' ∧ Retyped cs S S' ∧
      (failed = [] → ∀ c ∈ cs, Undisputed cs c → S'.Has c) := by
  induction h generalizing S with
  | nil => exact ⟨S, hs, ⟨rfl, fun _ _ => rfl⟩, nofun⟩
  | @acted t c t₁ cs done failed t' h _ ih =>
    obtain ⟨S₁, old, hs₁, ho, -, rfl⟩ := Tables.modifyColumn_ok h
    obtain rfl : S₁ = S := Option.some.inj (hs₁.symm.trans hs)
    have ⟨S', hs', hr, hall⟩ := ih (Tables.getElem?_superTables_insert.trans (if_pos rfl))
    refine ⟨S', hs', ⟨hr.tags, fun x hx => ?_⟩, fun hf d hd hu => ?_⟩
    · have ⟨hc, hcs⟩ := List.forall_mem_cons.mp hx
      rw [hr.others x hcs, TableSchema.column?_retype, if_neg hc]
    -- A later statement for the same name asks for the same type.
    by_cases hlater : ∃ e ∈ cs, sameIgnoringCase e.name d.name
    case pos =>
      obtain ⟨e, he, hn⟩ := hlater
      have hu := hu.mono fun _ => .tail c
      exact (hall hf e he (hu.congr he hn)).congr hn (hu e he hn)
    case neg =>
      rcases List.mem_cons.mp hd with rfl | hd
      case inr => exact absurd ⟨d, hd, sameIgnoringCase_refl _⟩ hlater
      refine ⟨{ old with type := d.type }, ?_, rfl⟩
      rw [hr.others _ (by simpa using hlater), TableSchema.column?_retype]
      simp [ho]
  | present h =>
    have ⟨_, hr, hx⟩ := h hH
    simp [Tables.modifyColumn_exists hr] at hx
  | refused _ ih =>
    have ⟨S', hs', hr, _⟩ := ih hs
    exact ⟨S', hs', ⟨hr.tags, fun x hx => hr.others x (List.forall_mem_cons.mp hx).2⟩, nofun⟩

-- Where there is no super-table, the engine refuses.
theorem Alters.adds_nothing (h : Alters H (·.addColumn n ·) cs t done [] t') (hH : H)
    (hs : t.superTables[n]? = none) : cs = [] ∧ t' = t := by
  cases h with
  | nil => exact ⟨rfl, rfl⟩
  | acted h =>
    have ⟨_, hs', _⟩ := Tables.addColumn_ok h
    cases hs.symm.trans hs'
  | present h =>
    have ⟨_, hr, hx⟩ := h hH
    have ⟨_, hs', _⟩ := Tables.addColumn_exists hr hx
    cases hs.symm.trans hs'

theorem Alters.widens_nothing (h : Alters H (·.modifyColumn n ·) cs t done [] t') (hH : H)
    (hs : t.superTables[n]? = none) : cs = [] ∧ t' = t := by
  cases h with
  | nil => exact ⟨rfl, rfl⟩
  | acted h =>
    have ⟨_, _, hs', _⟩ := Tables.modifyColumn_ok h
    cases hs.symm.trans hs'
  | present h =>
    have ⟨_, hr, hx⟩ := h hH
    simp [Tables.modifyColumn_exists hr] at hx

-- What a synchronization that rejected nothing leaves of a category's table.
inductive Conforms (signals : List SignalSpec) (n : TableName) (t t' : Tables) : Prop
  | created (hd : t.describe n = none) (hs : t'.superTables[n]? = some (desired signals))
    (distinct : Distinct ((desired signals).columns ++ (desired signals).tags))
  | mended {S S' : TableSchema} (hs : t.superTables[n]? = some S)
    (hs' : t'.superTables[n]? = some S')
    (tags : S'.tags = S.tags) (time : S'.column? timeColumn.name = S.column? timeColumn.name)
    (others : ∀ x, (∀ c ∈ signalColumns signals, ¬sameIgnoringCase c.name x) →
      S'.column? x = S.column? x)
    (untagged : ∀ c ∈ signalColumns signals, S'.tag? c.name = none)
    (has : ∀ c ∈ signalColumns signals, Undisputed (signalColumns signals) c → S'.Has c)
  -- The name belongs to a child table, or to one that a stream writes.
  | foreign {S : TableSchema} (hs : t.superTables[n]? = none) (hd : t.describe n = some S)
    (ht : t' = t) (has : ∀ c ∈ signalColumns signals, S.tag? c.name = none ∧ S.Has c)

theorem mem_missing : c ∈ (diff S signals).missing ↔ c ∈ signalColumns signals ∧
    lackOf S c = .column := by
  simp [diff, Diff.ofColumns]

theorem widened_subset : (diff S signals).widenings.map (·.column) ⊆ signalColumns signals := by
  intro c hc
  obtain ⟨x, hx, rfl⟩ := List.mem_map.mp hc
  exact (mem_widenings.mp hx).1

theorem mem_conflicts : (x, why) ∈ (diff S signals).conflicts ↔
    ∃ c ∈ signalColumns signals, c.name = x ∧ lackOf S c = .conflict why := by
  simp only [diff, Diff.ofColumns, List.mem_filterMap]
  refine exists_congr fun c => and_congr_right fun _ => ?_
  split <;> simp_all

theorem lackOf_cases (S : TableSchema) (signals : List SignalSpec) :
    ∀ c ∈ signalColumns signals, lackOf S c = .nothing ∨ c ∈ (diff S signals).missing ∨
      c ∈ (diff S signals).widenings.map (·.column) ∨
      ∃ why, (c.name, why) ∈ (diff S signals).conflicts := by
  intro c hc
  cases h : lackOf S c with
  | nothing => exact .inl rfl
  | column => exact .inr (.inl (mem_missing.mpr ⟨hc, h⟩))
  | width old =>
    have hx : (⟨c.name, old, c.type⟩ : Widening) ∈ (diff S signals).widenings :=
      mem_widenings.mpr ⟨hc, h⟩
    exact .inr (.inr (.inl (List.mem_map_of_mem hx)))
  | conflict why => exact .inr (.inr (.inr ⟨why, mem_conflicts.mpr ⟨c, hc, rfl, h⟩⟩))

-- No stored signal takes the name of the time column.
theorem not_time (h : superTableStatement k signals = .ok text) :
    ∀ c ∈ signalColumns signals, ¬sameIgnoringCase c.name timeColumn.name := by
  have ⟨_, hs, _⟩ := superTableStatement_ok.mp h
  simp only [signalColumns, List.forall_mem_map]
  intro s hm hsame
  have hr := (requireSignalCode_ok.mp (hs s hm)).2
  simp_all [Identifier.isReserved, Identifier.reservedColumns, signalColumn, timeColumn]

theorem Mended.conforms {k : CategoryKey} {w w' : World Service} {r r' : SyncReport}
    (h : Mended k signals w w' r r') (hr : r'.rejected = []) (hw : w.Honest)
    (ht : superTableStatement k signals = .ok text) :
    Conforms signals k.superTable w.engine.tables w'.engine.tables := by
  obtain @⟨S, w₁, added, refused, sent, widened, refused', sent', hd, ha, hm⟩ := h
  simp only [conclude, List.append_eq_nil_iff, List.map_eq_nil_iff] at hr
  obtain ⟨⟨⟨-, hra⟩, hrm⟩, hconf⟩ := hr
  have lacks := lackOf_cases S signals
  simp only [hconf, List.not_mem_nil, exists_false, or_false] at lacks
  have adds := ha.alters
  have widens := hm.alters
  simp only [hra, hrm, List.map_nil] at adds widens
  cases hs : w.engine.tables.superTables[k.superTable]? with
  | none =>
    have ⟨hmissing, ht₁⟩ := adds.adds_nothing hw hs
    have ⟨hwidenings, ht'⟩ := widens.widens_nothing hw (ht₁ ▸ hs)
    simp only [hmissing, hwidenings, List.not_mem_nil, or_false] at lacks
    exact .foreign hs hd (ht'.trans ht₁) fun c hc => lackOf_eq_nothing.mp (lacks c hc)
  | some S₀ =>
    obtain rfl : S₀ = S := Option.some.inj ((Tables.describe_superTable hs).symm.trans hd)
    have ⟨S₁, hs₁, he, hadded⟩ := adds.adds hw hs
    have ⟨S₂, hs₂, hx, hwidened⟩ := widens.widens hw hs₁
    have others {x} (h : ∀ c ∈ signalColumns signals, ¬sameIgnoringCase c.name x) :
        S₂.column? x = S₀.column? x :=
      (hx.others x fun c hc => h c (widened_subset hc)).trans
        (he.others fun c hc => h c (mem_missing.mp hc).1)
    have tags := hx.tags.trans he.tags
    refine .mended hs hs₂ tags (others (not_time ht)) (fun _ => others) (fun c hc => ?_)
      fun c hc hu => ?_
    · rw [TableSchema.tag?, tags]
      rcases lacks c hc with hl | hl | hl
      · exact (lackOf_eq_nothing.mp hl).1
      · exact (lackOf_eq_column.mp (mem_missing.mp hl).2).1
      · obtain ⟨x, hx, rfl⟩ := List.mem_map.mp hl
        exact (lackOf_eq_width.mp (mem_widenings.mp hx).2).1
    by_cases hlater : ∃ d ∈ (diff S₀ signals).widenings.map (·.column),
      sameIgnoringCase d.name c.name
    case pos =>
      obtain ⟨d, hd, hn⟩ := hlater
      have hu := hu.mono (widened_subset (S := S₀))
      exact (hwidened rfl d hd (hu.congr hd hn)).congr hn (hu d hd hn)
    case neg =>
      rw [TableSchema.Has, hx.others c.name (by simpa using hlater)]
      rcases lacks c hc with hl | hl | hl
      · have ⟨_, d, hd, ht⟩ := lackOf_eq_nothing.mp hl
        exact ⟨d, he.kept _ _ hd, ht⟩
      · have ⟨htag, hnone⟩ := lackOf_eq_column.mp (mem_missing.mp hl).2
        obtain ⟨d, hd⟩ := Option.isSome_iff_exists.mp (hadded rfl c hl htag)
        rcases he.new _ _ hd with h | hm
        · cases hnone.symm.trans h
        · exact ⟨d, hd, hu d (mem_missing.mp hm).1 (findColumn_name hd)⟩
      · exact absurd ⟨c, hl, sameIgnoringCase_refl _⟩ hlater

theorem Brought.conforms {k : CategoryKey} {w w' : World Service} {r r' : SyncReport}
    (h : Brought k signals w w' r r') (hr : r'.rejected = []) (hw : w.Honest)
    (ht : superTableStatement k signals = .ok text) :
    Conforms signals k.superTable w.engine.tables w'.engine.tables := by
  cases h with
  | created h =>
    obtain ⟨hd, hm, hs⟩ := h
    exact .created hd (hs hw).2 (Tables.distinct_of_wellFormed (hs hw).1)
  | mended h => exact h.conforms hr hw ht

-- A category whose super-table somebody made before, with a tag of its own.
def tagged : World Service :=
  let k : CategorySpec := { code := "motor", database := "plant", name := "Motor" }
  let statements := ["CREATE DATABASE `plant`",
    "CREATE STABLE `plant`.`raw_motor` (`ts` TIMESTAMP) TAGS (`place` VARCHAR(8))"]
  { engine := { tables := (statements.foldlM Tables.run {}).toOption.getD {} }
    catalog := (({} : Catalog).createCategory k).toOption.elim {} (·.2) }

end Synchronizer

end Historian
