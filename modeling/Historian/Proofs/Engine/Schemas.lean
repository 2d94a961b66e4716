import Historian.Engine.Tables
import Historian.Proofs.Basic

namespace Historian

open Text

theorem ColumnType.widens_antisymm {a b : ColumnType} (h : a.widens b) (h' : b.widens a) :
    a = b := by
  cases a <;> cases b <;> simp_all [widens]
  omega

-- Columns are found by their names, whatever the letter case.

theorem findColumn_name (h : findColumn cs x = some c) : sameIgnoringCase c.name x := by
  simpa using List.find?_some h

theorem findColumn_congr (h : sameIgnoringCase x y) : findColumn cs x = findColumn cs y := by
  simp only [sameIgnoringCase_iff] at h
  simp [findColumn, sameIgnoringCase, h]

theorem findColumn_retype {name : String} {type : ColumnType} :
    findColumn (Engine.retype name type cs) x =
      if sameIgnoringCase name x then (findColumn cs x).map
        ({ · with type }) else findColumn cs x := by
  induction cs with
  | nil => simp [Engine.retype, findColumn]
  | cons c cs ih =>
    simp only [findColumn, Engine.retype, sameIgnoringCase_iff] at ih ⊢
    split <;> simp only [List.find?_cons, ih] <;> grind [sameIgnoringCase]

-- No two columns have names that differ in letter case only.
def Distinct (cs : List Column) : Prop :=
  cs.Pairwise fun c d => ¬sameIgnoringCase c.name d.name

theorem findColumn_of_distinct (h : Distinct cs) (hc : c ∈ cs) : findColumn cs c.name = some c := by
  induction cs with
  | nil => contradiction
  | cons d ds ih =>
    have ⟨hd, hds⟩ := List.pairwise_cons.mp h
    rcases List.mem_cons.mp hc with rfl | hm
    · simp [findColumn]
    · simpa [findColumn, hd c hm] using ih hds hm

theorem findColumn_of_distinct_append (h : Distinct (cs ++ ds)) (hc : c ∈ cs) :
    findColumn ds c.name = none := by
  have ⟨_, _, hd⟩ := List.pairwise_append.mp h
  simp only [findColumn, List.find?_eq_none]
  exact fun d hm hs => hd c hc d hm (sameIgnoringCase_symm hs)

theorem distinct_of_firstDuplicate (h : Engine.firstDuplicate seen cs = none) :
    Distinct cs ∧ ∀ c ∈ cs, c.name.toLower ∉ seen := by
  induction cs generalizing seen with
  | nil => exact ⟨.nil, nofun⟩
  | cons c cs ih =>
    unfold Engine.firstDuplicate at h
    split at h <;> try contradiction
    have ⟨hd, hs⟩ := ih h
    simp only [List.mem_cons, not_or] at hs
    refine ⟨List.pairwise_cons.mpr ⟨fun d hm hsame => ?_, hd⟩, ?_⟩
    · exact (hs d hm).1 (sameIgnoringCase_iff.mp hsame).symm
    · simp_all

namespace TableSchema

-- A later state of a schema: columns were added and widened, nothing else.
structure Grown (s s' : TableSchema) : Prop where
  tags : s'.tags = s.tags
  columns : ∀ x c, s.column? x = some c →
    ∃ c', s'.column? x = some c' ∧ c'.name = c.name ∧ c.type.widens c'.type

namespace Grown

theorem refl (s : TableSchema) : s.Grown s :=
  ⟨rfl, fun _ c h => ⟨c, h, rfl, c.type.widens_refl⟩⟩

theorem trans {s₁ s₂ s₃ : TableSchema} (h₁ : s₁.Grown s₂) (h₂ : s₂.Grown s₃) : s₁.Grown s₃ := by
  refine ⟨h₂.tags.trans h₁.tags, fun x c h => ?_⟩
  have ⟨c', hc', hn', hw'⟩ := h₁.columns x c h
  have ⟨c'', hc'', hn'', hw''⟩ := h₂.columns x c' hc'
  exact ⟨c'', hc'', hn''.trans hn', ColumnType.widens_trans hw' hw''⟩

end Grown

theorem column?_add {s : TableSchema} {c : Column} :
    column? { s with columns := s.columns ++ [c] } x =
      (s.column? x).or (if sameIgnoringCase c.name x then some c else none) := by
  simp [column?, findColumn]

theorem grown_add (s : TableSchema) (c : Column) :
    s.Grown { s with columns := s.columns ++ [c] } :=
  ⟨rfl, fun x d h => ⟨d, by simp [column?_add, h], rfl, d.type.widens_refl⟩⟩

theorem column?_retype {s : TableSchema} {c : Column} :
    column? { s with columns := Engine.retype c.name c.type s.columns } x =
      if sameIgnoringCase c.name x then (s.column? x).map ({ · with type := c.type })
      else s.column? x :=
  findColumn_retype

theorem grown_retype {s : TableSchema} {c old : Column} (h : s.column? c.name = some old)
    (hw : old.type.widens c.type) :
    s.Grown { s with columns := Engine.retype c.name c.type s.columns } := by
  refine ⟨rfl, fun x d hd => ?_⟩
  rw [column?_retype]
  split
  case isTrue hs =>
    have hx : s.column? x = some old := (findColumn_congr hs).symm.trans h
    obtain rfl : old = d := Option.some.inj (hx.symm.trans hd)
    exact ⟨{ old with type := c.type }, by simp [hx], rfl, hw⟩
  case isFalse => exact ⟨d, hd, rfl, d.type.widens_refl⟩

end TableSchema

namespace Engine.Tables

variable {t t' t'' : Tables} {n m : TableName}

-- What is put in last under a key stays.
theorem insert_insert [Ord κ] [Std.TransOrd κ] [Std.LawfulEqOrd κ] {m : Std.ExtTreeMap κ α}
    {a b : α} : (m.insert k a).insert k b = m.insert k b := by
  refine Std.ExtTreeMap.ext_getElem? fun l => ?_
  simp only [Std.ExtTreeMap.getElem?_insert]
  split <;> rfl

-- The state after a change of one super-table.
theorem getElem?_superTables_insert {s : TableSchema} :
    (t.superTables.insert n s)[m]? = if n = m then some s else t.superTables[m]? := by
  simp [Std.ExtTreeMap.getElem?_insert]

-- Every description that was given before is given still, of a grown schema.
def Grows (t t' : Tables) : Prop :=
  ∀ n s, t.describe n = some s → ∃ s', t'.describe n = some s' ∧ s.Grown s'

namespace Grows

theorem refl (t : Tables) : t.Grows t :=
  fun _ s h => ⟨s, h, .refl s⟩

theorem trans (h₁ : t.Grows t') (h₂ : t'.Grows t'') : t.Grows t'' := by
  intro n s h
  have ⟨s', hs', hg'⟩ := h₁ n s h
  have ⟨s'', hs'', hg''⟩ := h₂ n s' hs'
  exact ⟨s'', hs'', hg'.trans hg''⟩

end Grows

theorem describe_superTable (h : t.superTables[n]? = some s) : t.describe n = some s := by
  simp [describe, h]

theorem superTables_of_describe (h : t.describe n = none) : t.superTables[n]? = none := by
  cases hs : t.superTables[n]? <;> simp_all [describe]

theorem grows_alter {s' : TableSchema} (h : t.superTables[n]? = some s) (hg : s.Grown s') :
    t.Grows { t with superTables := t.superTables.insert n s' } := by
  intro m r hr
  simp only [describe, getElem?_superTables_insert] at hr ⊢
  grind [TableSchema.Grown.refl]

-- A new super-table is one only if nothing was described under its name: the child tables of a name
-- without a super-table are not described.
theorem grows_create (h : t.describe n = none) (s : TableSchema) :
    t.Grows { t with superTables := t.superTables.insert n s } := by
  have hn := superTables_of_describe h
  intro m r hr
  have hm : n ≠ m := by
    rintro rfl
    simp_all
  simp only [describe, getElem?_superTables_insert] at hr ⊢
  grind [TableSchema.Grown.refl]

theorem grows_bind (h : t.describe n = none) (c : ChildTable) :
    t.Grows { t with childTables := t.childTables.insert n c } := by
  intro m r hr
  have hm : n ≠ m := by
    rintro rfl
    simp_all
  refine ⟨r, ?_, .refl r⟩
  simp only [describe] at hr ⊢
  simpa [Std.ExtTreeMap.getElem?_insert, hm] using hr

-- The statements, each with what it takes to be accepted.

theorem superTable_eq_ok : t.superTable n = .ok s ↔ t.superTables[n]? = some s := by
  unfold superTable
  split <;> simp_all

theorem createDatabase_ok (h : t.createDatabase true d = .ok t') :
    t' = t ∨ t' = { t with databases := t.databases.insert d } := by
  unfold createDatabase at h
  split at h <;> simp_all

theorem distinct_of_wellFormed {s : TableSchema} (h : requireWellFormed s = .ok ()) :
    Distinct (s.columns ++ s.tags) := by
  unfold requireWellFormed at h
  cases hd : firstDuplicate [] (s.columns ++ s.tags) with
  | none => exact (distinct_of_firstDuplicate hd).1
  | some name =>
    simp only [hd, throw_eq_error, error_bind] at h
    split at h <;> try split at h
    all_goals cases h

theorem createSuperTable_ok {s : TableSchema} (h : t.createSuperTable true n s = .ok t') :
    requireWellFormed s = .ok () ∧
      (t' = t ∧ (t.superTables[n]?).isSome ∨
        t' = { t with superTables := t.superTables.insert n s }) := by
  simp only [createSuperTable, bind_unit_eq_ok] at h
  obtain ⟨-, hs, h⟩ := h
  refine ⟨hs, ?_⟩
  split at h <;> simp_all [pure, Except.pure]

-- A definition that the engine does not admit is refused as such.
theorem requireWellFormed_exists {s : TableSchema} (h : requireWellFormed s = .error r) :
    r.error.isAlreadyExists = false := by
  have syntaxError : r.code = EngineCode.syntaxError := by
    simp only [requireWellFormed, throw_eq_error, error_bind, pure_except] at h
    split at h
    case isTrue => cases h; rfl
    split at h
    case isTrue => cases h; rfl
    split at h <;> cases h
    rfl
  simp only [Refusal.error, EngineError.isAlreadyExists, EngineError.code?, syntaxError]
  decide

theorem createSuperTable_exists {s : TableSchema} (h : t.createSuperTable true n s = .error r) :
    r.error.isAlreadyExists = false := by
  simp only [createSuperTable, bind_eq_error] at h
  obtain h | ⟨_, -, h | ⟨_, -, h⟩⟩ := h
  · unfold requireDatabase at h
    split at h <;> cases h
    rfl
  · exact requireWellFormed_exists h
  · split at h <;> cases h

theorem addColumn_ok {c : Column} (h : t.addColumn n c = .ok t') :
    ∃ s, t.superTables[n]? = some s ∧ s.column? c.name = none ∧ s.tag? c.name = none ∧
      t' = { t with
        superTables := t.superTables.insert n { s with columns := s.columns ++ [c] } } := by
  simp only [addColumn, bind_eq_ok, superTable_eq_ok] at h
  obtain ⟨s, hs, h⟩ := h
  refine ⟨s, hs, ?_⟩
  split at h <;> simp_all

-- That a column is there already is the one refusal of these that counts as success.
theorem addColumn_exists {c : Column} (h : t.addColumn n c = .error r)
    (hr : r.error.isAlreadyExists) :
    ∃ s, t.superTables[n]? = some s ∧ ((s.column? c.name).isSome ∨ (s.tag? c.name).isSome) := by
  unfold addColumn superTable at h
  cases hs : t.superTables[n]? with
  | none =>
    simp [hs] at h
    subst h
    cases hr
  | some s =>
    refine ⟨s, rfl, ?_⟩
    simp only [hs, ok_bind] at h
    split at h <;> simp_all

theorem modifyColumn_ok {c : Column} (h : t.modifyColumn n c = .ok t') :
    ∃ s old, t.superTables[n]? = some s ∧ s.column? c.name = some old ∧ old.type.widens c.type ∧
      t' = { t with superTables :=
        t.superTables.insert n { s with columns := retype c.name c.type s.columns } } := by
  simp only [modifyColumn, bind_eq_ok, superTable_eq_ok] at h
  obtain ⟨s, hs, h⟩ := h
  split at h
  case h_1 => cases h
  case h_2 old ho =>
    refine ⟨s, old, hs, ho, ?_⟩
    cases hw : old.type.widens c.type <;> simp_all

theorem modifyColumn_exists {c : Column} (h : t.modifyColumn n c = .error r) :
    r.error.isAlreadyExists = false := by
  unfold modifyColumn superTable at h
  cases hs : t.superTables[n]? with
  | none =>
    simp [hs] at h
    subst h
    rfl
  | some s =>
    simp only [hs, ok_bind] at h
    split at h
    case h_1 => cases h; rfl
    case h_2 => split at h <;> simp_all; subst h; rfl

theorem createChildTable_ok {tags : List String} (h : t.createChildTable true n m tags = .ok t') :
    t' = t ∨ t' = { t with childTables := t.childTables.insert n ⟨m.table, tags⟩ } := by
  simp only [createChildTable, bind_eq_ok] at h
  obtain ⟨-, s, hs, h⟩ := h
  split at h <;> simp_all
  split at h <;> simp_all

end Engine.Tables

end Historian
