import Mathlib.Data.List.Basic
import Historian.Proofs.Schema.Conformance

namespace Historian

open Engine Text

theorem Distinct.nodup (h : Distinct cs) : cs.Nodup :=
  List.Pairwise.imp (fun hn he => hn (by rw [he]; exact sameIgnoringCase_refl _)) h

theorem Distinct.not_same (h : Distinct cs) (hc : c ∈ cs) (hd : d ∈ cs) (hn : d ≠ c) :
    ¬sameIgnoringCase c.name d.name := by
  intro same
  have found := findColumn_of_distinct h hc
  rw [findColumn_congr same, findColumn_of_distinct h hd] at found
  exact hn (Option.some.inj found)

namespace Schema

variable {S S' S'' : TableSchema} {cs rest : List Column} {c : Column}

-- The columns that a table does not have, and those that it has with a type too narrow.

def lacking (S : TableSchema) (cs : List Column) : List Column :=
  cs.filter fun c => lackOf S c = .column

def Lack.isWidth : Lack → Bool
  | .width _ => true
  | _ => false

def narrow (S : TableSchema) (cs : List Column) : List Column :=
  cs.filter fun c => (lackOf S c).isWidth

theorem widenings_column :
    (Diff.ofColumns S cs).widenings.map (·.column) = narrow S cs := by
  simp only [Diff.ofColumns, narrow]
  induction cs with
  | nil => rfl
  | cons c cs ih => cases h : lackOf S c <;> simpa [h, Lack.isWidth, Widening.column] using ih


theorem lackOf_same (ht : S'.tags = S.tags) (hc : S'.column? c.name = S.column? c.name) :
    lackOf S' c = lackOf S c := by
  simp only [lackOf, TableSchema.tag?, ht, hc]
  rfl

-- A table that lacks one of the columns no longer, and of the others what it lacked before.
structure Fills (cs : List Column) (c : Column) (S S' : TableSchema) : Prop where
  here : lackOf S' c = .nothing
  elsewhere : ∀ d ∈ cs, d ≠ c → lackOf S' d = lackOf S d

theorem fills_add (hcs : Distinct cs) (hc : c ∈ cs) (h : lackOf S c = .column) :
    Fills cs c S { S with columns := S.columns ++ [c] } := by
  obtain ⟨tag, column⟩ := lackOf_eq_column.mp h
  refine ⟨lackOf_eq_nothing.mpr ⟨tag, c, by simp [TableSchema.column?_add, column], rfl⟩, ?_⟩
  intro d hd hn
  exact lackOf_same rfl (by simp [TableSchema.column?_add, hcs.not_same hc hd hn])

theorem fills_retype (hcs : Distinct cs) (hc : c ∈ cs) (h : lackOf S c = .width old) :
    Fills cs c S { S with columns := retype c.name c.type S.columns } := by
  obtain ⟨tag, d, column, -⟩ := lackOf_eq_width.mp h
  constructor
  · refine lackOf_eq_nothing.mpr ⟨tag, { d with type := c.type }, ?_, rfl⟩
    simp [TableSchema.column?_retype, column]
  · intro e he hn
    exact lackOf_same rfl (by simp [TableSchema.column?_retype, hcs.not_same hc he hn])

theorem Fills.filter (h : Fills cs c S S') (p : Lack → Bool) (hp : p .nothing = false) :
    cs.filter (fun d => p (lackOf S' d)) =
      (cs.filter fun d => p (lackOf S d)).filter (· ≠ c) := by
  rw [List.filter_filter]
  refine List.filter_congr fun d hd => ?_
  by_cases hn : d = c
  case pos => simp [hn, h.here, hp]
  case neg => simp [hn, h.elsewhere d hd hn]

-- What is filled was next.
theorem Fills.next (h : Fills cs c S S') (hcs : cs.Nodup) {p : Lack → Bool}
    (hp : p .nothing = false) (hl : (cs.filter fun d => p (lackOf S d)) = c :: rest) :
    (cs.filter fun d => p (lackOf S' d)) = rest := by
  have gone : c ∉ rest := (List.nodup_cons.mp (hl ▸ hcs.filter _)).1
  rw [h.filter p hp, hl, List.filter_cons_of_neg (by simp)]
  refine List.filter_eq_self.mpr fun d hd => ?_
  simpa using ne_of_mem_of_not_mem hd gone

-- What is filled was something else.
theorem Fills.same (h : Fills cs c S S') {p : Lack → Bool} (hp : p .nothing = false)
    (hc : p (lackOf S c) = false) :
    (cs.filter fun d => p (lackOf S' d)) = cs.filter fun d => p (lackOf S d) := by
  rw [h.filter p hp]
  refine List.filter_eq_self.mpr fun d hd => ?_
  have lacks := (List.mem_filter.mp hd).2
  simp only [ne_eq, decide_not, Bool.not_eq_true', decide_eq_false_iff_not]
  rintro rfl
  simp [hc] at lacks

theorem Fills.conflicts (h : Fills cs c S S') (hc : ∀ why, lackOf S c ≠ .conflict why) :
    (Diff.ofColumns S' cs).conflicts = (Diff.ofColumns S cs).conflicts := by
  refine List.filterMap_congr fun d hd => ?_
  by_cases hn : d = c
  case pos =>
    rw [hn, h.here]
    cases hl : lackOf S c <;> simp_all
  case neg => rw [h.elsewhere d hd hn]

-- A table that has been given all it lacks, as far as it can be given.
def mended (cs : List Column) (S : TableSchema) : TableSchema :=
  { S with
    columns := (narrow S cs).foldl (fun all c => retype c.name c.type all)
      (S.columns ++ lacking S cs) }

-- A table on its way, to which the same is left to be done.
structure Underway (cs : List Column) (S S' : TableSchema) : Prop where
  mended : mended cs S' = mended cs S
  conflicts : (Diff.ofColumns S' cs).conflicts = (Diff.ofColumns S cs).conflicts

theorem Underway.refl (S : TableSchema) : Underway cs S S :=
  ⟨rfl, rfl⟩

theorem Underway.trans (h₁ : Underway cs S S') (h₂ : Underway cs S' S'') : Underway cs S S'' :=
  ⟨h₂.mended.trans h₁.mended, h₂.conflicts.trans h₁.conflicts⟩

theorem mem_lacking (hl : lacking S cs = c :: rest) : c ∈ cs ∧ lackOf S c = .column := by
  have hm : c ∈ lacking S cs := hl ▸ .head _
  simpa [lacking] using hm

theorem mem_narrow (hn : narrow S cs = c :: rest) : c ∈ cs ∧ ∃ old, lackOf S c = .width old := by
  have hm : c ∈ narrow S cs := hn ▸ .head _
  obtain ⟨hc, hw⟩ := List.mem_filter.mp hm
  refine ⟨hc, ?_⟩
  cases hl : lackOf S c <;> simp_all [Lack.isWidth]

-- The missing columns are added first, in their order, and then the narrow ones widened.

theorem underway_add (hcs : Distinct cs) (hl : lacking S cs = c :: rest) :
    let S' : TableSchema := { S with columns := S.columns ++ [c] }
    lacking S' cs = rest ∧ narrow S' cs = narrow S cs ∧ Underway cs S S' := by
  obtain ⟨hc, lack⟩ := mem_lacking hl
  have fills := fills_add hcs hc lack
  have left : lacking _ cs = rest := fills.next hcs.nodup (p := (· = .column)) rfl hl
  have same : narrow _ cs = narrow S cs := fills.same rfl (by rw [lack]; rfl)
  refine ⟨left, same, ?_, fills.conflicts (by simp [lack])⟩
  simp only [mended, left, same, hl, List.append_assoc, List.singleton_append]

theorem underway_retype (hcs : Distinct cs) (hl : lacking S cs = [])
    (hn : narrow S cs = c :: rest) :
    let S' : TableSchema := { S with columns := retype c.name c.type S.columns }
    lacking S' cs = [] ∧ narrow S' cs = rest ∧ Underway cs S S' := by
  obtain ⟨hc, old, lack⟩ := mem_narrow hn
  have fills := fills_retype hcs hc lack
  have none : lacking _ cs = [] :=
    (fills.same (p := (· = .column)) rfl (by simp [lack])).trans hl
  have left : narrow _ cs = rest := fills.next hcs.nodup rfl hn
  refine ⟨none, left, ?_, fills.conflicts (by simp [lack])⟩
  simp only [mended, none, left, hl, hn, List.append_nil, List.foldl_cons]

theorem mended_eq_self (hl : lacking S cs = []) (hn : narrow S cs = []) : mended cs S = S := by
  simp [mended, hl, hn]

-- What is made where there is no table is well formed.

theorem firstDuplicate_eq_none {seen : List String} (h : Distinct cs)
    (hs : ∀ c ∈ cs, c.name.toLower ∉ seen) : firstDuplicate seen cs = none := by
  induction cs generalizing seen with
  | nil => rfl
  | cons c cs ih =>
    have ⟨hc, hcs⟩ := List.pairwise_cons.mp h
    have ⟨fresh, rest⟩ := List.forall_mem_cons.mp hs
    rw [firstDuplicate, if_neg fresh]
    refine ih hcs fun d hd => ?_
    rw [List.mem_cons, not_or]
    exact ⟨fun he => hc d hd (sameIgnoringCase_iff.mpr he.symm), rest d hd⟩

theorem distinct_desired (h : Distinct (signalColumns signals))
    (hr : ∀ c ∈ signalColumns signals, Identifier.isReserved c.name = false) :
    Distinct ((desired signals).columns ++ (desired signals).tags) := by
  have reserved {c x} (hc : c ∈ signalColumns signals) (hx : x ∈ Identifier.reservedColumns) :
      ¬sameIgnoringCase c.name x := by
    have none := List.any_eq_false.mp (hr c hc) x hx
    simpa using none
  have own : Distinct (timeColumn :: assetTags) := by
    unfold Distinct
    decide +kernel
  have ⟨time, tags⟩ := List.pairwise_cons.mp own
  simp only [desired, Distinct, List.cons_append, List.pairwise_cons, List.pairwise_append,
    List.mem_append]
  refine ⟨?_, h, tags, fun c hc d hd => reserved hc ?_⟩
  · rintro d (hd | hd)
    · exact fun same => reserved hd (by decide) (sameIgnoringCase_symm same)
    · exact time d hd
  · revert d
    decide

theorem requireWellFormed_desired (h : Distinct (signalColumns signals))
    (hr : ∀ c ∈ signalColumns signals, Identifier.isReserved c.name = false) :
    Tables.requireWellFormed (desired signals) = .ok () := by
  have none : firstDuplicate [] ((desired signals).columns ++ (desired signals).tags) = none :=
    firstDuplicate_eq_none (distinct_desired h hr) (by simp)
  simp only [Tables.requireWellFormed, none]
  rfl

end Schema

namespace Engine.Tables

open Schema

variable {t t' : Tables} {n : TableName} {S S' : TableSchema} {c : Column}

-- The tables with one super-table put in.
def given (t : Tables) (n : TableName) (S : TableSchema) : Tables :=
  { t with superTables := t.superTables.insert n S }

theorem given_self (h : t.superTables[n]? = some S) : t.given n S = t := by
  have same : t.superTables.insert n S = t.superTables := by
    refine Std.ExtTreeMap.ext_getElem? fun m => ?_
    rw [Std.ExtTreeMap.getElem?_insert]
    split
    case isTrue he => rw [← h, Std.LawfulEqCmp.eq_of_compare he]
    case isFalse => rfl
  rw [given, same]

theorem given_given : (t.given n S).given n S' = t.given n S' := by
  simp only [given, insert_insert]

@[simp] theorem getElem?_given : (t.given n S).superTables[n]? = some S := by
  simp [given]

-- The engine accepts what the difference asks for, as long as there is a super-table.

theorem addColumn_lacking (hs : t.superTables[n]? = some S) (h : lackOf S c = .column) :
    t.addColumn n c = .ok (t.given n { S with columns := S.columns ++ [c] }) := by
  obtain ⟨tag, column⟩ := lackOf_eq_column.mp h
  simp [addColumn, superTable, hs, tag, column, given]

theorem modifyColumn_narrow (hs : t.superTables[n]? = some S) (h : lackOf S c = .width old) :
    t.modifyColumn n c = .ok (t.given n { S with columns := retype c.name c.type S.columns }) := by
  obtain ⟨-, d, column, rfl, -, widens⟩ := lackOf_eq_width.mp h
  simp [modifyColumn, superTable, hs, column, widens, given]

theorem addColumn_missing (hs : t.superTables[n]? = none) :
    t.addColumn n c = .error (.superTableMissing n.table) := by
  simp [addColumn, superTable, hs]

theorem modifyColumn_missing (hs : t.superTables[n]? = none) :
    t.modifyColumn n c = .error (.superTableMissing n.table) := by
  simp [modifyColumn, superTable, hs]

theorem createDatabase_eq (d : String) :
    t.createDatabase true d = .ok { t with databases := t.databases.insert d } := by
  unfold createDatabase
  split
  case isFalse => rfl
  case isTrue hd =>
    have same : t.databases.insert d = t.databases := by
      refine Std.ExtTreeSet.ext_contains fun e => ?_
      rw [Std.ExtTreeSet.contains_insert]
      by_cases he : compare d e = .eq
      · rw [← Std.LawfulEqCmp.eq_of_compare he]
        simp [hd]
      · simp [he]
    simp [same]

theorem createSuperTable_eq (hd : t.databases.contains n.database) (hs : t.superTables[n]? = none)
    (hw : requireWellFormed S = .ok ()) : t.createSuperTable true n S = .ok (t.given n S) := by
  have fresh : t.superTables.contains n = false := by
    rw [Std.ExtTreeMap.contains_eq_isSome_getElem?, hs]
    rfl
  simp [createSuperTable, requireDatabase, hd, hw, fresh, given]

end Engine.Tables

namespace Schema

-- What the engine holds when a category is synchronized, and whether nothing was rejected on the
-- way. Under the name of a table that is no super-table nothing can be made or altered.
def brought (k : CategoryKey) (signals : List SignalSpec) (t : Tables) : Tables × Bool :=
  match t.describe k.superTable with
  | none =>
    ({ t with databases := t.databases.insert k.database }.given k.superTable (desired signals),
      true)
  | some S =>
    if (t.superTables[k.superTable]?).isSome then
      (t.given k.superTable (mended (signalColumns signals) S), (diff S signals).conflicts.isEmpty)
    else (t, (diff S signals).isEmpty)

variable {k : CategoryKey} {signals : List SignalSpec} {t : Tables}

theorem brought_none (h : t.describe k.superTable = none) :
    brought k signals t =
      ({ t with databases := t.databases.insert k.database }.given k.superTable (desired signals),
        true) := by
  simp [brought, h]

theorem brought_superTable (h : t.superTables[k.superTable]? = some S) :
    brought k signals t = (t.given k.superTable (mended (signalColumns signals) S),
      (diff S signals).conflicts.isEmpty) := by
  simp [brought, Tables.describe_superTable h, h]

theorem brought_foreign (hs : t.superTables[k.superTable]? = none)
    (hd : t.describe k.superTable = some S) :
    brought k signals t = (t, (diff S signals).isEmpty) := by
  simp [brought, hd, hs]

-- Work that was broken off is taken up again.

theorem brought_underway (h : t.superTables[k.superTable]? = some S)
    (hu : Underway (signalColumns signals) S S') :
    brought k signals (t.given k.superTable S') = brought k signals t := by
  rw [brought_superTable h, brought_superTable Tables.getElem?_given, Tables.given_given, hu.mended]
  simp only [diff, hu.conflicts]

theorem brought_database (h : t.describe k.superTable = none) :
    brought k signals { t with databases := t.databases.insert k.database } =
      brought k signals t := by
  have same :
      (t.databases.insert k.database).insert k.database = t.databases.insert k.database := by
    refine Std.ExtTreeSet.ext_contains fun e => ?_
    simp only [Std.ExtTreeSet.contains_insert]
    cases compare k.database e == .eq <;> rfl
  have undescribed :
      Tables.describe { t with databases := t.databases.insert k.database } k.superTable = none := h
  rw [brought_none h, brought_none undescribed]
  simp only [Tables.given, same]

end Schema

end Historian
