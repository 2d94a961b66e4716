import Historian.Engine.Service
import Historian.Proofs.Engine.Execution
import Historian.Proofs.Engine.Schemas

namespace Historian

open Text

-- Only the names of columns tell them apart, in whichever order they come.

theorem distinct_iff : Distinct cs ↔ (cs.map (·.name)).Pairwise (¬sameIgnoringCase · ·) := by
  simp only [Distinct, List.pairwise_map]

theorem Distinct.perm (h : Distinct cs) (hp : cs.Perm ds) : Distinct ds :=
  (hp.pairwise_iff fun h hs => h (sameIgnoringCase_symm hs)).mp h

theorem retype_names : (Engine.retype name type cs).map (·.name) = cs.map (·.name) := by
  induction cs with
  | nil => rfl
  | cons c cs ih =>
    unfold Engine.retype
    split
    case isTrue => rfl
    case isFalse => rw [List.map_cons, ih, List.map_cons]

theorem getElem?_retype {cs : List Column} {type : ColumnType} {i : Nat}
    (h : findColumn cs name = some old) (hw : old.type.widens type) (hc : cs[i]? = some c) :
    ∃ c', (Engine.retype name type cs)[i]? = some c' ∧ c'.name = c.name ∧
      c.type.widens c'.type := by
  induction cs generalizing i with
  | nil => cases hc
  | cons d ds ih =>
    unfold Engine.retype
    split
    case isTrue hd =>
      have found : old = d := by simpa [findColumn, hd] using h.symm
      cases i with
      | zero =>
        obtain rfl : d = c := by simpa using hc
        exact ⟨{ d with type }, rfl, rfl, found ▸ hw⟩
      | succ i => exact ⟨c, by simpa using hc, rfl, c.type.widens_refl⟩
    case isFalse hd =>
      cases i with
      | zero => exact ⟨c, hc, rfl, c.type.widens_refl⟩
      | succ i => exact ih (by simpa [findColumn, hd] using h) (by simpa using hc)

namespace TableSchema

variable {s s' s'' : TableSchema}

-- What the schema of a super-table is like, all its life.
structure Sound (s : TableSchema) : Prop where
  timestamp : s.columns.head?.map (·.type) = some .timestamp
  tagged : s.tags ≠ []
  distinct : Distinct (s.columns ++ s.tags)

-- Every column stays where it was under its name, perhaps of a wider type. Others may come after.
structure ExtendsTo (s s' : TableSchema) : Prop where
  tags : s'.tags = s.tags
  columns : ∀ (i : Nat) c, s.columns[i]? = some c →
    ∃ c', s'.columns[i]? = some c' ∧ c'.name = c.name ∧ c.type.widens c'.type

-- What a statement can make of a schema.
inductive Altered (s : TableSchema) : TableSchema → Prop
  | added {c : Column} (hc : s.column? c.name = none) (ht : s.tag? c.name = none) :
    Altered s { s with columns := s.columns ++ [c] }
  | widened {c old : Column} (h : s.column? c.name = some old) (hw : old.type.widens c.type) :
    Altered s { s with columns := Engine.retype c.name c.type s.columns }

namespace ExtendsTo

theorem refl (s : TableSchema) : s.ExtendsTo s :=
  ⟨rfl, fun _ c h => ⟨c, h, rfl, c.type.widens_refl⟩⟩

theorem trans (h : s.ExtendsTo s') (h' : s'.ExtendsTo s'') : s.ExtendsTo s'' := by
  refine ⟨h'.tags.trans h.tags, fun i c hc => ?_⟩
  obtain ⟨c', hc', hn', hw'⟩ := h.columns i c hc
  obtain ⟨c'', hc'', hn'', hw''⟩ := h'.columns i c' hc'
  exact ⟨c'', hc'', hn''.trans hn', ColumnType.widens_trans hw' hw''⟩

-- No type other than that of times holds times.
theorem timestamp (h : s.ExtendsTo s') (ht : s.columns.head?.map (·.type) = some .timestamp) :
    s'.columns.head?.map (·.type) = some .timestamp := by
  rw [List.head?_eq_getElem?] at ht ⊢
  obtain ⟨c, hc, ht⟩ := Option.map_eq_some_iff.mp ht
  obtain ⟨c', hc', -, hw⟩ := h.columns 0 c hc
  rw [ht] at hw
  cases hc'' : c'.type <;> simp_all [ColumnType.widens]

end ExtendsTo

theorem Sound.of_wellFormed (h : Engine.Tables.requireWellFormed s = .ok ()) : s.Sound := by
  have distinct := Engine.Tables.distinct_of_wellFormed h
  unfold Engine.Tables.requireWellFormed at h
  simp only [throw_eq_error, error_bind] at h
  split at h
  case isTrue => cases h
  case isFalse ht =>
    split at h
    case isTrue => cases h
    case isFalse hg => exact ⟨by simpa using ht, by simpa using hg, distinct⟩

namespace Altered

theorem extendsTo (h : s.Altered s') : s.ExtendsTo s' := by
  cases h with
  | @added column hc ht =>
    refine ⟨rfl, fun i c h => ⟨c, ?_, rfl, c.type.widens_refl⟩⟩
    exact (List.getElem?_append_left (List.getElem?_eq_some_iff.mp h).1).trans h
  | widened h hw => exact ⟨rfl, fun i c => getElem?_retype h hw⟩

theorem sound (h : s.Altered s') (hs : s.Sound) : s'.Sound := by
  refine ⟨h.extendsTo.timestamp hs.timestamp, h.extendsTo.tags ▸ hs.tagged, ?_⟩
  cases h with
  | @added c hc ht =>
    have absent : ∀ d ∈ s.columns ++ s.tags, ¬sameIgnoringCase d.name c.name := by
      intro d hd
      rcases List.mem_append.mp hd with hd | hd
      · exact List.find?_eq_none.mp hc d hd
      · exact List.find?_eq_none.mp ht d hd
    have first : Distinct (c :: (s.columns ++ s.tags)) :=
      List.pairwise_cons.mpr ⟨fun d hd hs => absent d hd (sameIgnoringCase_symm hs), hs.distinct⟩
    refine first.perm ?_
    simpa using List.perm_middle.symm
  | widened =>
    rw [distinct_iff, List.map_append, retype_names, ← List.map_append, ← distinct_iff]
    exact hs.distinct

end Altered

end TableSchema

namespace Engine

namespace Tables

variable {t t' t'' : Tables} {n : TableName}

-- What the databases and super-tables of an engine are like at every moment.
structure Sound (t : Tables) : Prop where
  database : ∀ (n : TableName) s, t.superTables[n]? = some s → n.database ∈ t.databases
  schema : ∀ (n : TableName) (s : TableSchema), t.superTables[n]? = some s → s.Sound

-- Whatever there was is there, and not more than extended.
structure ExtendsTo (t t' : Tables) : Prop where
  databases : ∀ d, d ∈ t.databases → d ∈ t'.databases
  superTables : ∀ (n : TableName) (s : TableSchema), t.superTables[n]? = some s →
    ∃ s', t'.superTables[n]? = some s' ∧ s.ExtendsTo s'

namespace ExtendsTo

theorem refl (t : Tables) : t.ExtendsTo t :=
  ⟨fun _ => id, fun _ s h => ⟨s, h, .refl s⟩⟩

theorem trans (h : t.ExtendsTo t') (h' : t'.ExtendsTo t'') : t.ExtendsTo t'' := by
  refine ⟨fun d => h'.databases d ∘ h.databases d, fun n s hs => ?_⟩
  obtain ⟨s', hs', he⟩ := h.superTables n s hs
  obtain ⟨s'', hs'', he'⟩ := h'.superTables n s' hs'
  exact ⟨s'', hs'', he.trans he'⟩

end ExtendsTo

-- What a statement can do to databases and super-tables.
inductive Changed (t : Tables) : Tables → Prop
  | spared {t' : Tables} (hd : t'.databases = t.databases) (hs : t'.superTables = t.superTables) :
    Changed t t'
  | database {d : String} : Changed t { t with databases := t.databases.insert d }
  | created {n : TableName} {s : TableSchema} (hd : n.database ∈ t.databases)
    (hn : t.superTables[n]? = none) (hs : s.Sound) :
    Changed t { t with superTables := t.superTables.insert n s }
  | altered {n : TableName} {s s' : TableSchema} (hn : t.superTables[n]? = some s)
    (hs : s.Altered s') : Changed t { t with superTables := t.superTables.insert n s' }

namespace Changed

theorem extendsTo (h : t.Changed t') : t.ExtendsTo t' := by
  cases h with
  | spared hd hs => exact ⟨fun _ => (hd ▸ ·), fun _ s h => ⟨s, hs ▸ h, .refl s⟩⟩
  | database =>
    exact ⟨fun _ h => Std.ExtTreeSet.mem_insert.mpr (.inr h), fun _ s h => ⟨s, h, .refl s⟩⟩
  | created hd hn hs =>
    refine ⟨fun _ => id, fun m s hm => ⟨s, ?_, .refl s⟩⟩
    rw [getElem?_superTables_insert]
    grind
  | altered hn hs =>
    refine ⟨fun _ => id, fun m s hm => ?_⟩
    rw [getElem?_superTables_insert]
    grind [TableSchema.ExtendsTo.refl, hs.extendsTo]

theorem sound (h : t.Changed t') (ht : t.Sound) : t'.Sound := by
  have kept := h.extendsTo.databases
  cases h with
  | spared hd hs => exact ⟨hd ▸ hs ▸ ht.database, hs ▸ ht.schema⟩
  | database => exact ⟨fun n s h => kept _ (ht.database n s h), ht.schema⟩
  | created hd hn hs =>
    constructor <;> intro m r hm <;> rw [getElem?_superTables_insert] at hm <;> split at hm
    case database.isTrue he => exact he ▸ hd
    case database.isFalse => exact ht.database m r hm
    case schema.isTrue => exact Option.some.inj hm ▸ hs
    case schema.isFalse => exact ht.schema m r hm
  | altered hn hs =>
    constructor <;> intro m r hm <;> rw [getElem?_superTables_insert] at hm <;> split at hm
    case database.isTrue he => exact he ▸ ht.database _ _ hn
    case database.isFalse => exact ht.database m r hm
    case schema.isTrue => exact Option.some.inj hm ▸ hs.sound (ht.schema _ _ hn)
    case schema.isFalse => exact ht.schema m r hm

end Changed

theorem createDatabase_changed (h : t.createDatabase ifNotExists d = .ok t') : t.Changed t' := by
  unfold createDatabase at h
  split at h
  case isTrue =>
    cases ifNotExists <;> cases h
    exact .spared rfl rfl
  case isFalse =>
    cases h
    exact .database

theorem requireDatabase_ok (h : t.requireDatabase d = .ok ()) : d ∈ t.databases := by
  unfold requireDatabase at h
  split at h
  case isTrue hd => simpa using hd
  case isFalse => cases h

theorem createSuperTable_changed {s : TableSchema}
    (h : t.createSuperTable ifNotExists n s = .ok t') : t.Changed t' := by
  simp only [createSuperTable, bind_unit_eq_ok] at h
  obtain ⟨hd, hs, h⟩ := h
  split at h
  case isTrue =>
    cases ifNotExists <;> cases h
    exact .spared rfl rfl
  case isFalse hn =>
    cases h
    exact .created (requireDatabase_ok hd) (by simpa using hn) (.of_wellFormed hs)

theorem addColumn_changed {c : Column} (h : t.addColumn n c = .ok t') : t.Changed t' := by
  obtain ⟨s, hs, hc, ht, rfl⟩ := addColumn_ok h
  exact .altered hs (.added hc ht)

theorem modifyColumn_changed {c : Column} (h : t.modifyColumn n c = .ok t') : t.Changed t' := by
  obtain ⟨s, old, hs, ho, hw, rfl⟩ := modifyColumn_ok h
  exact .altered hs (.widened ho hw)

-- Child tables and streams have maps of their own.

theorem createChildTable_changed {tags : List String}
    (h : t.createChildTable ifNotExists n m tags = .ok t') : t.Changed t' := by
  simp only [createChildTable, bind_eq_ok] at h
  obtain ⟨-, -, s, -, h⟩ := h
  split at h
  case isTrue => cases h
  split at h
  case isTrue => cases ifNotExists <;> cases h; exact .spared rfl rfl
  case isFalse => cases h; exact .spared rfl rfl

theorem createStream_changed {target source : TableName}
    (h : t.createStream sql ifNotExists d target source = .ok t') : t.Changed t' := by
  simp only [createStream, bind_eq_ok] at h
  obtain ⟨-, -, h⟩ := h
  split at h
  case isTrue => cases h
  split at h
  case isTrue => cases ifNotExists <;> cases h; exact .spared rfl rfl
  case isFalse => cases h; exact .spared rfl rfl

theorem setPaused_changed (h : t.setPaused ifExists d paused = .ok t') : t.Changed t' := by
  unfold setPaused at h
  split at h
  case h_1 => cases h; exact .spared rfl rfl
  case h_2 => cases ifExists <;> cases h; exact .spared rfl rfl

theorem dropStream_changed (h : t.dropStream ifExists d = .ok t') : t.Changed t' := by
  unfold dropStream at h
  split at h
  case isTrue => cases h; exact .spared rfl rfl
  case isFalse => cases ifExists <;> cases h; exact .spared rfl rfl

theorem run_changed (h : t.run sql = .ok t') : t.Changed t' := by
  unfold run at h
  split at h
  case h_2 => cases h
  case h_1 statement _ =>
    cases statement with
    | createDatabase => exact createDatabase_changed h
    | createSuperTable => exact createSuperTable_changed h
    | addColumn => exact addColumn_changed h
    | modifyColumn => exact modifyColumn_changed h
    | createChildTable => exact createChildTable_changed h
    | createStream => exact createStream_changed h
    | setPaused => exact setPaused_changed h
    | dropStream => exact dropStream_changed h

theorem apply_cases (t : Tables) (text : String) :
    (∃ refusal, t.apply text = (.error refusal, t)) ∨
      ∃ t', t.apply text = (.ok (), t') ∧ t.run text = .ok t' := by
  rw [apply_eq]
  cases t.run text with
  | error refusal => exact .inl ⟨refusal, rfl⟩
  | ok t' => exact .inr ⟨t', rfl, rfl⟩

theorem apply_changed (t : Tables) (text : String) : t.Changed (t.apply text).2 := by
  obtain ⟨_, refused⟩ | ⟨_, accepted, run⟩ := t.apply_cases text
  · rw [refused]
    exact .spared rfl rfl
  · rw [accepted]
    exact run_changed run

end Tables

namespace Service

variable {e : Service} {calls : List (Option Nat × String)}

-- A call that is late, meets a fault, or is refused, leaves the tables as they are.
theorem execute_changed {limit : Option Nat} {text : String} :
    e.tables.Changed (e.execute limit text).2.tables := by
  unfold execute receive nextFault
  split
  case isTrue => exact .spared rfl rfl
  case isFalse =>
    cases e.faults.head?.join with
    | some fault => exact .spared rfl rfl
    | none => exact Tables.apply_changed e.tables text

-- The engine after a row of calls, each with its limit and its text.
def executeAll (e : Service) (calls : List (Option Nat × String)) : Service :=
  calls.foldl (fun e call => (e.execute call.1 call.2).2) e

theorem executeAll_extendsTo : e.tables.ExtendsTo (e.executeAll calls).tables := by
  induction calls generalizing e with
  | nil => exact .refl _
  | cons call calls ih => exact execute_changed.extendsTo.trans ih

theorem executeAll_sound (h : e.tables.Sound) : (e.executeAll calls).tables.Sound := by
  induction calls generalizing e with
  | nil => exact h
  | cons call calls ih => exact ih (execute_changed.sound h)

-- At every moment of a life that starts with no tables the super-tables are sound, and at every
-- later one they are there still, with more columns and wider ones at most.
theorem schemas_grow (e : Service) (early late : List (Option Nat × String)) :
    let start := { e with tables := {} }
    let before := (start.executeAll early).tables
    let after := (start.executeAll (early ++ late)).tables
    ∀ (n : TableName) s, before.superTables[n]? = some s →
      n.database ∈ before.databases ∧ s.Sound ∧
        ∃ s', after.superTables[n]? = some s' ∧ s.ExtendsTo s' := by
  intro start before after
  have empty : start.tables.Sound := by
    constructor <;> intro n s h <;> simp [start] at h
  have sound : before.Sound := executeAll_sound empty
  have grown : before.ExtendsTo after := by
    simp only [before, after, executeAll, List.foldl_append]
    exact executeAll_extendsTo
  exact fun n s h => ⟨sound.database n s h, sound.schema n s h, grown.superTables n s h⟩

end Service

end Engine

end Historian
