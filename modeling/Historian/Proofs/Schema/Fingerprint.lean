import Historian.Proofs.Schema.Statement

namespace Historian

-- Two texts that have the same digest.
def Sha256.Collides (a b : String) : Prop := a ≠ b ∧ hex a = hex b

theorem DataType.columnType_injective {t t' : DataType} (h : t.columnType = t'.columnType) :
    t = t' := by
  cases t <;> cases t' <;> first | rfl | cases h

namespace Schema

variable {k k' : CategoryKey} {signals signals' : List SignalSpec} {text text' : String}

-- What the stored signals are called and what their values are, in the order of their columns.
def storedTypes (signals : List SignalSpec) : List (String × DataType) :=
  (storedSignals signals).map fun s => (s.code, s.dataType)

theorem signalColumns_eq_iff : signalColumns signals = signalColumns signals' ↔
    storedTypes signals = storedTypes signals' := by
  have written (signals : List SignalSpec) :
      signalColumns signals = (storedTypes signals).map fun s => ⟨s.1, s.2.columnType⟩ := by
    simp [signalColumns, storedTypes, signalColumn, Function.comp_def]
  have injective : Function.Injective fun s : String × DataType =>
      (⟨s.1, s.2.columnType⟩ : Column) := by
    intro s s' same
    obtain ⟨code, type⟩ := Column.mk.inj same
    exact Prod.ext code (DataType.columnType_injective type)
  rw [written, written, (List.map_injective_iff.mpr injective).eq_iff]

theorem desired_eq_iff :
    desired signals = desired signals' ↔ signalColumns signals = signalColumns signals' := by
  simp [desired]

-- The engine reads the table and its columns back from the text, so that no two of them have the
-- same.
theorem superTableStatement_eq_iff (h : superTableStatement k signals = .ok text)
    (h' : superTableStatement k' signals' = .ok text') :
    text = text' ↔ k.superTable = k'.superTable ∧ desired signals = desired signals' := by
  constructor
  · rintro rfl
    have same := (superTableStatement_parse h).symm.trans (superTableStatement_parse h')
    obtain ⟨-, table, schema⟩ := Sql.Statement.createSuperTable.inj (Except.ok.inj same)
    exact ⟨table, schema⟩
  · rintro ⟨table, schema⟩
    rw [← (superTableStatement_ok.mp h).2.2, ← (superTableStatement_ok.mp h').2.2, table, schema]

-- The text stands for the schema, and so does its digest, as far as digests stand for texts.
theorem superTableStatement_faithful (h : superTableStatement k signals = .ok text)
    (h' : superTableStatement k' signals' = .ok text') :
    (text = text' ↔ k.database = k'.database ∧ k.superTableName = k'.superTableName ∧
      storedTypes signals = storedTypes signals') ∧
    (fingerprint text = fingerprint text' ↔
      k.superTable = k'.superTable ∧ desired signals = desired signals' ∨
      Sha256.Collides text text') := by
  have same := superTableStatement_eq_iff h h'
  constructor
  · rw [same, desired_eq_iff, signalColumns_eq_iff, CategoryKey.superTable, CategoryKey.superTable,
      TableName.mk.injEq, and_assoc]
  · rw [← same]
    by_cases equal : text = text'
    · simp [equal]
    · simp [equal, Sha256.Collides, fingerprint]

-- Two categories whose names come to one super-table, and signals that are listed in two orders.

def pipes : List SignalSpec :=
  [.stored "b" "flow" .numeric, .stored "b" "count" .integer,
    { SignalSpec.stored "b" "note" .string with isStored := false }]

def tanks (type : DataType) : List SignalSpec :=
  [.stored "a_b" "count" type, .stored "a_b" "flow" .numeric]

theorem statement_of_checked (checked : k.check = .ok ())
    (coded : ∀ s ∈ signals, requireSignalCode s.code = .ok ()) :
    ∃ text, superTableStatement k signals = .ok text := by
  refine ⟨_, superTableStatement_ok.mpr ⟨CategoryKey.check_ok.mp checked, fun s hs => ?_, rfl⟩⟩
  exact coded s (List.mem_filter.mp (List.mem_mergeSort.mp hs)).1

theorem superTableStatement_faithful_joined :
    ∃ text text' other,
      superTableStatement ⟨"b", "plant", "raw_a"⟩ pipes = .ok text ∧
      superTableStatement ⟨"a_b", "plant", "raw"⟩ (tanks .integer) = .ok text' ∧
      superTableStatement ⟨"a_b", "plant", "raw"⟩ (tanks .numeric) = .ok other ∧
      text = text' ∧ text ≠ other ∧
      (fingerprint text = fingerprint other → Sha256.Collides text other) := by
  have coded (type : DataType) : ∀ s ∈ tanks type, requireSignalCode s.code = .ok () :=
    List.forall_mem_cons.mpr ⟨by cbv, List.forall_mem_singleton.mpr (by cbv)⟩
  have checked : (⟨"a_b", "plant", "raw"⟩ : CategoryKey).check = .ok () := by cbv
  obtain ⟨text, h⟩ : ∃ text, superTableStatement ⟨"b", "plant", "raw_a"⟩ pipes = .ok text := by
    refine statement_of_checked (by cbv) ?_
    simp only [pipes, List.forall_mem_cons]
    exact ⟨by cbv, by cbv, by cbv, List.forall_mem_nil _⟩
  obtain ⟨text', h'⟩ := statement_of_checked checked (coded .integer)
  obtain ⟨other, ho⟩ := statement_of_checked checked (coded .numeric)
  have piped : storedTypes pipes = [("count", .integer), ("flow", .numeric)] := by cbv
  have tanked (type : DataType) : storedTypes (tanks type) =
      [("count", type), ("flow", .numeric)] := by cbv
  have differ : storedTypes pipes ≠ storedTypes (tanks .numeric) := by simp [piped, tanked]
  have apart : text ≠ other := fun he =>
    differ ((superTableStatement_faithful h ho).1.mp he).2.2
  refine ⟨text, text', other, h, h', ho,
    (superTableStatement_faithful h h').1.mpr ⟨rfl, by cbv, piped.trans (tanked _).symm⟩,
    apart, fun digest => ?_⟩
  exact ((superTableStatement_faithful h ho).2.mp digest).resolve_left fun physical =>
    differ (signalColumns_eq_iff.mp (desired_eq_iff.mp physical.2))

end Schema

end Historian
