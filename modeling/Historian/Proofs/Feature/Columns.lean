import Historian.Proofs.Schema.Rendering

namespace Historian

open Schema Synchronizer Text

variable {signals : List SignalSpec} {c : FeatureConfig}

theorem Catalog.listSignals_ordered (c : Catalog) (category : String) :
    ((c.listSignals category).map (·.toSignalSpec)).Pairwise (·.precedes ·) := by
  have sorted : InOrder (compareLex (compareOn fun s : Signal => s.order)
      (compareOn fun s : Signal => s.code)) (c.listSignals category) := inOrder_mergeSort
  exact List.pairwise_map.mpr sorted

theorem Schema.storedSignals_of_ordered (h : signals.Pairwise (·.precedes ·)) :
    storedSignals signals = signals.filter (·.isStored) :=
  List.mergeSort_of_pairwise (h.sublist List.filter_sublist)

-- What a stream can find in a table under a name.
def TableSchema.Offers (S : TableSchema) (x : String) : Prop :=
  (S.column? x).isSome ∨ (S.tag? x).isSome

namespace FeatureConfig

-- The column that a feature aggregates holds values that its function accepts.
def FedBy (c : FeatureConfig) (S : TableSchema) : Prop :=
  ∃ t, c.function.accepts t ∧ (S.column? c.signal).map (·.type) = some t.columnType

theorem find?_filter_of_find? {p q : α → Bool} {as : List α} (h : as.find? p = some a) (ha : q a) :
    (as.filter q).find? p = some a := by
  obtain ⟨hp, before, after, rfl, none⟩ := List.find?_eq_some_iff_append.mp h
  refine List.find?_eq_some_iff_append.mpr ⟨hp, before.filter q, after.filter q, ?_, ?_⟩
  · simp [ha]
  · exact fun b hb => none b (List.mem_filter.mp hb).1

-- Columns stand in the order in which the signals are listed: the first signal of a name, if it is
-- stored, has the first column of that name.
theorem findColumn_of_findSignal (ordered : signals.Pairwise (·.precedes ·))
    (found : findSignal signals x = some s) (stored : s.isStored) :
    findColumn (signalColumns signals) x = some (signalColumn s) := by
  rw [signalColumns, storedSignals_of_ordered ordered, findColumn, List.find?_map]
  exact congrArg (·.map signalColumn) (find?_filter_of_find? found stored)

-- The time stands before all signals.
theorem column?_desired (signals : List SignalSpec) (x : String) : (desired signals).column? x =
    if sameIgnoringCase timeColumn.name x then some timeColumn
    else findColumn (signalColumns signals) x := by
  simp only [TableSchema.column?, desired, findColumn, List.find?_cons]
  cases sameIgnoringCase timeColumn.name x <;> rfl

theorem offers_of_findSignal (ordered : signals.Pairwise (·.precedes ·))
    (found : findSignal signals x = some s) (stored : s.isStored) : (desired signals).Offers x := by
  rw [TableSchema.Offers, column?_desired, findColumn_of_findSignal ordered found stored]
  split <;> simp

theorem offers_tag (h : tags.any (sameIgnoringCase · x)) : (desired signals).Offers x :=
  .inr (by simpa [TableSchema.tag?, findColumn, desired, assetTags, tags] using h)

theorem checkField_eq_ok : checkField category signals x = .ok () ↔
    tags.any (sameIgnoringCase · x) ∨ ∃ s, findSignal signals x = some s ∧ s.isStored := by
  unfold checkField
  cases ht : tags.any (sameIgnoringCase · x) with
  | true => simp
  | false =>
    cases hs : findSignal signals x with
    | none => simp
    | some s => cases h : s.isStored <;> simp [h]

theorem check_eq_ok (own : c.sourceTable = none) : c.check category signals = .ok () ↔
    ∃ s, findSignal signals c.signal = some s ∧ s.isStored ∧ c.function.accepts s.dataType ∧
      ∀ x ∈ c.fields, checkField category signals x = .ok () := by
  unfold check
  cases hs : findSignal signals c.signal with
  | none => simp [own]
  | some s =>
    cases stored : s.isStored <;> cases accepted : c.function.accepts s.dataType <;>
      simp [own, stored, accepted, forM_eq_ok]

theorem reserved_of_findSignal (found : findSignal signals x = some s)
    (time : sameIgnoringCase timeColumn.name x) : Identifier.isReserved s.code := by
  have named : sameIgnoringCase s.code x := by simpa using List.find?_some found
  have reserved : timeColumn.name ∈ Identifier.reservedColumns := by decide
  refine List.any_eq_true.mpr ⟨timeColumn.name, reserved, ?_⟩
  rw [sameIgnoringCase_iff] at named time ⊢
  exact named.trans time.symm

-- What a checked feature reads is there, whatever names the signals share. Only a signal that is
-- called like the time has a column that does not come first; no catalog holds such a signal.
theorem offered_of_check (ordered : signals.Pairwise (·.precedes ·)) (own : c.sourceTable = none)
    (passed : c.check category signals = .ok ()) :
    (∀ x ∈ c.signal :: groupTag :: c.fields, (desired signals).Offers x) ∧
      ((sameIgnoringCase timeColumn.name c.signal → c.function.accepts .timestamp) →
        c.FedBy (desired signals)) ∧
      ∀ ops code, signals = ((Catalog.after ops).listSignals code).map (·.toSignalSpec) →
        c.FedBy (desired signals) := by
  obtain ⟨s, found, stored, accepts, fields⟩ := (check_eq_ok own).mp passed
  have fed (h : sameIgnoringCase timeColumn.name c.signal → c.function.accepts .timestamp) :
      c.FedBy (desired signals) := by
    by_cases time : sameIgnoringCase timeColumn.name c.signal
    case pos => exact ⟨.timestamp, h time, by rw [column?_desired, if_pos time]; rfl⟩
    case neg =>
      refine ⟨s.dataType, accepts, ?_⟩
      rw [column?_desired, if_neg time, findColumn_of_findSignal ordered found stored]
      rfl
  refine ⟨fun x hx => ?_, fed, fun ops code listed => fed fun time => ?_⟩
  · rcases List.mem_cons.mp hx with rfl | hx
    · exact offers_of_findSignal ordered found stored
    rcases List.mem_cons.mp hx with rfl | hx
    · exact offers_tag (by simp [tags, groupTag])
    rcases checkField_eq_ok.mp (fields x hx) with tag | ⟨s, found, stored⟩
    · exact offers_tag tag
    · exact offers_of_findSignal ordered found stored
  · have renderable : (Catalog.after ops).Renderable := .foldl ⟨by simp [Catalog.keys], by simp⟩ ops
    have coded : requireSignalCode s.code = .ok () :=
      listed_coded renderable code s (listed ▸ List.mem_of_find?_eq_some found)
    have free := (requireSignalCode_ok.mp coded).2
    exact absurd (reserved_of_findSignal found time) (by simp [free])

-- Signals of which two share a name, the one that is not stored coming later.
def measured : List SignalSpec :=
  [.stored "motor" "line" .string, .stored "motor" "load" .integer,
    .stored "motor" "speed" .numeric, .stored "motor" "temp" .numeric,
    .stored "motor" "zone" .string,
    { SignalSpec.stored "motor" "TEMP" .string with isStored := false, order := 1 }]

theorem offered_of_check_measured : measured.Pairwise (·.precedes ·) ∧
    settled.sourceTable = none ∧ settled.check "motor" measured = .ok () ∧
    settled.FedBy (desired measured) ∧ (desired measured).Offers "zone" := by
  have ordered : measured.Pairwise (·.precedes ·) := by decide
  have passed : settled.check "motor" measured = .ok () := by
    simp only [check, findSignal, sameIgnoringCase_eq]
    cbv
  obtain ⟨offers, fed, -⟩ := offered_of_check ordered rfl passed
  exact ⟨ordered, rfl, passed, fed (by rw [sameIgnoringCase_eq]; decide), offers _ (by decide)⟩

-- A feature of a signal that is called like the time.
def timed : Json :=
  .object [("function", .text "avg"), ("name", .text "avg1"), ("source_signal", .text "ts"),
    ("window", .text "1h")]

theorem read_timed : read timed =
    .ok { settled with signal := timeColumn.name, filters := [], groupBy := [] } := by
  refine read_eq_ok.mpr ⟨⟨_, rfl, by decide +kernel⟩, rfl, rfl, rfl, rfl,
    ⟨_, rfl, readFunction_name .avg⟩, ⟨_, rfl, ?_⟩, ⟨none, rfl, rfl⟩, by decide,
    Filter.readAll_null, rfl, rfl, rfl, rfl⟩
  exact readDuration_eq_ok.mpr (toOption_eq_some.mp (by decide +kernel))

-- The check finds the signal, but the column that comes under its name holds the times.
theorem not_fed_of_check : ¬∀ category signals raw c,
    signals.Pairwise (·.precedes ·) → read raw = .ok c → c.sourceTable = none →
      c.check category signals = .ok () →
      (∀ x ∈ c.signal :: groupTag :: c.fields, (desired signals).Offers x) ∧
        c.FedBy (desired signals) := by
  intro h
  have passed : check "motor" [.stored "motor" "ts" .numeric]
      { settled with signal := timeColumn.name, filters := [], groupBy := [] } = .ok () := by
    simp only [check, findSignal, sameIgnoringCase_eq]
    cbv
  obtain ⟨-, t, accepts, type⟩ := h _ _ _ _ (by simp) read_timed rfl passed
  rw [column?_desired, if_pos (by rw [sameIgnoringCase_eq]; decide)] at type
  have time : t = .timestamp := by cases t <;> first | rfl | cases type
  cases time
  cases accepts

end FeatureConfig

end Historian
