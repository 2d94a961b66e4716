import Historian.Proofs.Schema.Classification

namespace Historian

theorem SignalSpec.code_of_precedes {s s' : SignalSpec} (h : s.precedes s') (h' : s'.precedes s) :
    s.code = s'.code := by
  have same : compareLex (compareOn fun s : SignalSpec => s.order)
      (compareOn fun s : SignalSpec => s.code) s s' = .eq :=
    Std.OrientedCmp.isLE_antisymm h h'
  exact Std.LawfulEqCmp.eq_of_compare (compareLex_eq_eq.mp same).2

namespace Schema

variable {signals signals' rows : List SignalSpec}

-- Signals with codes of their own can be put in order in one way only.
theorem storedSignals_eq (distinct : (signals.map (·.code)).Nodup)
    (all : rows.Perm (signals.filter (·.isStored))) (ordered : rows.Pairwise (·.precedes ·)) :
    storedSignals signals = rows := by
  have stored : (storedSignals signals).Perm rows := (List.mergeSort_perm _ _).trans all.symm
  refine stored.eq_of_pairwise (fun s s' hs hs' h h' => ?_) (storedSignals_precedes signals) ordered
  have listed : s ∈ signals := (List.mem_filter.mp (List.mem_mergeSort.mp hs)).1
  have listed' : s' ∈ signals := (List.mem_filter.mp (all.mem_iff.mp hs')).1
  exact List.inj_on_of_nodup_map distinct listed listed' (SignalSpec.code_of_precedes h h')

theorem storedSignals_perm (same : signals.Perm signals')
    (distinct : (signals.map (·.code)).Nodup) :
    storedSignals signals = storedSignals signals' := by
  refine storedSignals_eq distinct ?_ (storedSignals_precedes signals')
  exact (List.mergeSort_perm _ _).trans (same.symm.filter _)

-- However the signals are listed, they ask for one table: a column for every stored signal, in
-- order. So there is one text that makes the table, or one reason why there is none, and one
-- difference from any table that is there.
theorem schema_of_perm (same : signals.Perm signals') (distinct : (signals.map (·.code)).Nodup) :
    (∀ k, superTableStatement k signals' = superTableStatement k signals) ∧
    desired signals' = desired signals ∧
    (∀ S, diff S signals' = diff S signals) ∧
    ∀ rows : List SignalSpec, rows.Perm (signals.filter (·.isStored)) →
      rows.Pairwise (·.precedes ·) →
      desired signals' = ⟨timeColumn :: rows.map signalColumn, assetTags⟩ := by
  have stored := storedSignals_perm same distinct
  have columns : signalColumns signals' = signalColumns signals := by
    rw [signalColumns, signalColumns, stored]
  have table : desired signals' = desired signals := by rw [desired, desired, columns]
  refine ⟨fun k => ?_, table, fun S => ?_, fun rows all ordered => ?_⟩
  · simp only [superTableStatement, stored, table]
  · rw [diff, diff, columns]
  · rw [table, desired, signalColumns, storedSignals_eq distinct all ordered]

-- Codes decide where the orders are equal, and the signal that is not stored has no column.
def unsorted : List SignalSpec :=
  [.stored "motor" "voltage" .numeric, .stored "motor" "current" .numeric,
    { SignalSpec.stored "motor" "health" .integer with isStored := false },
    { SignalSpec.stored "motor" "status" .string with order := -1 }]

theorem schema_of_perm_unsorted :
    (unsorted.map (·.code)).Nodup ∧ unsorted.Perm unsorted.reverse ∧
      (∀ k, superTableStatement k unsorted.reverse = superTableStatement k unsorted) ∧
      (∀ S, diff S unsorted.reverse = diff S unsorted) ∧
      desired unsorted.reverse =
        ⟨[timeColumn, ⟨"status", .varchar 256⟩, ⟨"current", .double⟩, ⟨"voltage", .double⟩],
          assetTags⟩ := by
  have distinct : (unsorted.map (·.code)).Nodup := by decide
  have same : unsorted.Perm unsorted.reverse := (List.reverse_perm unsorted).symm
  obtain ⟨statement, -, difference, table⟩ := schema_of_perm same distinct
  have ordered : (unsorted.filter (·.isStored)).reverse.Pairwise (·.precedes ·) := by decide
  exact ⟨distinct, same, statement, difference, table _ (List.reverse_perm _) ordered⟩

end Schema

end Historian
