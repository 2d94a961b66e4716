import Historian.Proofs.Feature.Canonical
import Historian.Proofs.Schema.Mending
import Historian.Proofs.Sorting

namespace Historian.Schema

open FeatureConfig Text

variable {S S' : TableSchema} {signals : List SignalSpec} {cs before after : List Column}
  {c : Column}

theorem lackOf_eq_conflict : lackOf S c = .conflict why ↔
    (S.tag? c.name).isSome ∧ why = .isTag ∨ S.tag? c.name = none ∧ ∃ d, S.column? c.name = some d ∧
      d.type.widens c.type = false ∧ why = .wrongType d.type c.type := by
  unfold lackOf
  cases S.tag? c.name <;> cases S.column? c.name <;> grind [ColumnType.widens_refl]

def Lack.isConflict : Lack → Bool
  | .conflict _ => true
  | _ => false

-- A signal whose values a table does not take as it is: its code is a tag there, or it has no
-- column of its type.
def Unserved (S : TableSchema) (s : SignalSpec) : Prop :=
  (S.tag? s.code).isSome ∨ (S.column? s.code).map (·.type) ≠ some s.dataType.columnType

instance (S : TableSchema) : DecidablePred (Unserved S) :=
  fun _ => inferInstanceAs (Decidable (_ ∨ _))

theorem unserved_iff {s : SignalSpec} : Unserved S s ↔ lackOf S (signalColumn s) ≠ .nothing := by
  rw [Ne, lackOf_eq_nothing, Unserved, TableSchema.Has]
  simp only [signalColumn]
  cases S.tag? s.code <;> cases S.column? s.code <;> simp

-- Whatever is lacking is lacking in one way.
theorem lacks_perm (f : α → Lack) (as : List α) :
    (as.filter (f · = .column) ++ as.filter (f · |>.isWidth) ++
      as.filter (f · |>.isConflict)).Perm (as.filter (f · ≠ .nothing)) := by
  induction as with
  | nil => exact .nil
  | cons a as ih =>
    cases h : f a with
    | nothing => simpa [h, Lack.isWidth, Lack.isConflict] using ih
    | column => simpa [h, Lack.isWidth, Lack.isConflict] using ih
    | width =>
      rw [List.append_assoc] at ih
      simpa [h, Lack.isWidth, Lack.isConflict] using List.perm_middle.trans (ih.cons a)
    | conflict =>
      simpa [h, Lack.isWidth, Lack.isConflict] using List.perm_middle.trans (ih.cons a)

theorem conflicts_name :
    (Diff.ofColumns S cs).conflicts.map (·.1) =
      (cs.filter fun c => (lackOf S c).isConflict).map (·.name) := by
  simp only [Diff.ofColumns]
  induction cs with
  | nil => rfl
  | cons c cs ih => cases h : lackOf S c <;> simpa [h, Lack.isConflict] using ih

theorem storedSignals_precedes (signals : List SignalSpec) :
    (storedSignals signals).Pairwise (·.precedes ·) := by
  have sorted : InOrder (compareLex (compareOn fun s : SignalSpec => s.order)
      (compareOn fun s : SignalSpec => s.code)) (storedSignals signals) := inOrder_mergeSort
  exact sorted

-- The signals that the entries of a diff are for, list by list in the order of their columns.
structure Sorts (S : TableSchema) (signals : List SignalSpec) (d : Diff)
    (absent tight barred : List SignalSpec) : Prop where
  rows : (absent ++ tight ++ barred).Perm (signals.filter fun s => s.isStored ∧ Unserved S s)
  ordered : ∀ rows ∈ [absent, tight, barred], rows.Pairwise (·.precedes ·)
  missing : d.missing = absent.map signalColumn
  widenings : d.widenings.map (·.column) = tight.map signalColumn
  conflicts : d.conflicts.map (·.1) = barred.map (·.code)
  unknown : ∀ s ∈ absent, S.tag? s.code = none ∧ S.column? s.code = none
  unfit : ∀ s ∈ barred, (S.tag? s.code).isSome ∨
    ∃ old, S.column? s.code = some old ∧ ¬old.type.widens s.dataType.columnType

theorem diff_sorts (S : TableSchema) (signals : List SignalSpec) :
    ∃ absent tight barred, Sorts S signals (diff S signals) absent tight barred := by
  let lack (s : SignalSpec) := lackOf S (signalColumn s)
  refine ⟨(storedSignals signals).filter (lack · = .column),
    (storedSignals signals).filter (lack · |>.isWidth),
    (storedSignals signals).filter (lack · |>.isConflict), ?_⟩
  constructor
  case rows =>
    have stored : (storedSignals signals).Perm (signals.filter (·.isStored)) :=
      List.mergeSort_perm _ _
    refine (lacks_perm lack _).trans ((stored.filter _).trans (.of_eq ?_))
    rw [List.filter_filter]
    refine List.filter_congr fun s _ => ?_
    simp [unserved_iff, lack, Bool.and_comm]
  case ordered =>
    have sorted {p : SignalSpec → Bool} :
        ((storedSignals signals).filter p).Pairwise (·.precedes ·) :=
      (storedSignals_precedes signals).sublist List.filter_sublist
    simpa using ⟨sorted, sorted, sorted⟩
  case missing => exact List.filter_map
  case widenings => exact widenings_column.trans List.filter_map
  case conflicts =>
    rw [diff, conflicts_name, signalColumns, List.filter_map, List.map_map]
    rfl
  case unknown =>
    intro s hs
    exact lackOf_eq_column.mp (of_decide_eq_true (List.mem_filter.mp hs).2)
  case unfit =>
    intro s hs
    have conflict : (lack s).isConflict := (List.mem_filter.mp hs).2
    cases hl : lack s with
    | conflict why =>
      obtain ⟨tag, -⟩ | ⟨-, old, found, kept, -⟩ := lackOf_eq_conflict.mp hl
      · exact .inl tag
      · exact .inr ⟨old, found, Bool.eq_false_iff.mp kept⟩
    | _ => simp [hl, Lack.isConflict] at conflict

theorem Sorts.names {d : Diff} (h : Sorts S signals d absent tight barred) :
    (d.missing.map (·.name) ++ d.widenings.map (·.name) ++ d.conflicts.map (·.1)).Perm
      ((signals.filter fun s => s.isStored ∧ Unserved S s).map (·.code)) := by
  have widened : d.widenings.map (·.name) = tight.map (·.code) := by
    simpa [Widening.column, signalColumn, Function.comp_def] using
      congrArg (List.map Column.name) h.widenings
  rw [h.missing, widened, h.conflicts]
  simpa [signalColumn, Function.comp_def] using h.rows.map (·.code)

-- A column that no signal asks for.
theorem lackOf_insert (hs : S.columns = before ++ after)
    (other : ¬sameIgnoringCase c.name d.name) :
    lackOf { S with columns := before ++ c :: after } d = lackOf S d :=
  lackOf_same rfl (by simp [TableSchema.column?, findColumn, hs, other])

theorem ofColumns_congr (h : ∀ c ∈ cs, lackOf S' c = lackOf S c) :
    Diff.ofColumns S' cs = Diff.ofColumns S cs := by
  simp only [Diff.ofColumns, Diff.mk.injEq]
  refine ⟨List.filter_congr fun c hc => by rw [h c hc], List.filterMap_congr fun c hc => ?_,
    List.filterMap_congr fun c hc => ?_⟩
  · rw [h c hc]
  · rw [h c hc]

-- Every stored signal that the table does not serve comes into one of the lists, once, and nothing
-- else does.
theorem diff_classifies (S : TableSchema) (signals : List SignalSpec) :
    let d := diff S signals
    (d.missing.map (·.name) ++ d.widenings.map (·.name) ++ d.conflicts.map (·.1)).Perm
      ((signals.filter fun s => s.isStored ∧ Unserved S s).map (·.code)) ∧
    (∃ absent tight barred, Sorts S signals d absent tight barred) ∧
    (∀ x ∈ d.widenings, (∃ old, S.column? x.name = some old ∧ old.type = x.old) ∧
      x.old.widens x.new ∧ x.old ≠ x.new ∧
      ∃ s ∈ signals, s.isStored ∧ s.code = x.name ∧ s.dataType.columnType = x.new) ∧
    ∀ before after c, S.columns = before ++ after →
      (∀ s ∈ signals, s.isStored → ¬sameIgnoringCase c.name s.code) →
      diff { S with columns := before ++ c :: after } signals = d := by
  obtain ⟨absent, tight, barred, sorts⟩ := diff_sorts S signals
  refine ⟨sorts.names, ⟨absent, tight, barred, sorts⟩, fun x hx => ?_,
    fun before after c hs other => ofColumns_congr fun d hd => ?_⟩
  · obtain ⟨asked, lack⟩ := Synchronizer.mem_widenings.mp hx
    obtain ⟨-, old, found, type, changed, wide⟩ := lackOf_eq_width.mp lack
    obtain ⟨s, hs, same⟩ := List.mem_map.mp asked
    obtain ⟨hm, stored⟩ := List.mem_filter.mp (List.mem_mergeSort.mp hs)
    exact ⟨⟨old, found, type⟩, wide, changed, s, hm, stored, congrArg Column.name same,
      congrArg Column.type same⟩
  · obtain ⟨s, hm, rfl⟩ := List.mem_map.mp hd
    obtain ⟨hm, stored⟩ := List.mem_filter.mp (List.mem_mergeSort.mp hm)
    exact lackOf_insert hs (other s hm stored)

-- A table that takes one signal as it is, and of the others lacks something each.

def varied : TableSchema where
  columns := [timeColumn, ⟨"rpm", .bigint⟩, ⟨"Mode", .bool⟩, ⟨"current", .double⟩]
  tags := [⟨"place", .varchar 8⟩]

def sensed : List SignalSpec :=
  [.stored "motor" "voltage" .numeric, .stored "motor" "current" .numeric,
    .stored "motor" "place" .string, .stored "motor" "RPM" .numeric,
    .stored "motor" "mode" .integer, { SignalSpec.stored "motor" "torque" .numeric with
      isStored := false }]

theorem diff_classifies_varied :
    let d := diff varied sensed
    (d.missing.map (·.name) ++ d.widenings.map (·.name) ++ d.conflicts.map (·.1)).Perm
      ["voltage", "place", "RPM", "mode"] ∧
    (∃ absent tight barred, Sorts varied sensed d absent tight barred) ∧
    (∀ s ∈ sensed, s.isStored → ¬sameIgnoringCase "torque" s.code) ∧
    diff { varied with columns := varied.columns ++ [⟨"torque", .bool⟩] } sensed = d := by
  obtain ⟨names, sorts, -, spared⟩ := diff_classifies varied sensed
  have wanting : (sensed.filter fun s => s.isStored ∧ Unserved varied s).map (·.code) =
      ["voltage", "place", "RPM", "mode"] := by
    simp only [Unserved, TableSchema.tag?, TableSchema.column?, findColumn, sameIgnoringCase_eq]
    decide
  have unasked : ∀ s ∈ sensed, s.isStored → ¬sameIgnoringCase "torque" s.code := by
    simp only [sameIgnoringCase_eq]
    decide
  rw [wanting] at names
  exact ⟨names, sorts, unasked, spared varied.columns [] _ (List.append_nil _).symm unasked⟩

end Historian.Schema
