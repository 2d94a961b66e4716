import Historian.Proofs.Feature.Equivalence
import Historian.Proofs.Schema.Statement

namespace Historian

theorem Aggregate.sameIgnoringCase_of_ofAnyCase? {f : Aggregate} (h : ofAnyCase? s = some f) :
    Text.sameIgnoringCase s f.name := by
  have found := List.find?_some h
  rw [Text.sameIgnoringCase_iff] at found ⊢
  exact found.symm

namespace Filter

-- The filters as they were asked for and as they are kept.
structure Settles (raw : Json) (fs : List Filter) : Prop where
  fields : ∀ f ∈ fs, Identifier.Valid Identifier.codeLimit f.field
  increasing : fs.Pairwise (compare · · = .lt)
  kept : ∀ f, Asked raw f → ∃ g ∈ fs, g.same f
  asked : ∀ f ∈ fs, Asked raw f

theorem settles_of_readAll (h : readAll raw = .ok fs) (finite : raw.Finite) : Settles raw fs := by
  obtain ⟨gs, listed, fields, rfl⟩ := readAll_eq_ok.mp h
  have repeats : ∀ f ∈ gs, f.same f := fun f hf =>
    same_self (((asked_iff listed).mp hf).finite finite)
  exact {
    fields f hf := requireIdentifier_ok.mp (fields f (mem_of_mem_settle hf))
    increasing := settle_increasing repeats
    kept f hf :=
      have hf := (asked_iff listed).mpr hf
      exists_mem_settle hf (repeats f hf)
    asked f hf := (asked_iff listed).mp (mem_of_mem_settle hf) }

end Filter

namespace FeatureConfig

-- The grouping keys as they were listed and as they are kept.
structure Groups (raw : Option Json) (ks : List String) : Prop where
  keys : ∀ k ∈ ks, Identifier.Valid Identifier.codeLimit k
  increasing : ks.Pairwise (· < ·)
  listed : ∀ k, k ∈ ks ↔ Lists raw k ∧ ¬Text.sameIgnoringCase k groupTag

theorem groups_of_readGroupBy (h : readGroupBy raw = .ok ks) : Groups raw ks := by
  obtain ⟨ls, lists, fits, rfl⟩ := readGroupBy_ok h
  have increasing : (canonicalKeys ls).Pairwise (compare · · = .lt) :=
    settle_increasing fun _ _ => beq_self_eq_true _
  have listed (k : String) : k ∈ canonicalKeys ls ↔
      k ∈ ls ∧ ¬Text.sameIgnoringCase k groupTag := by
    constructor
    · intro hk
      have kept : k ∈ ls.filter (!Text.sameIgnoringCase · groupTag) := mem_of_mem_settle hk
      simpa using kept
    · intro hk
      have kept : k ∈ ls.filter (!Text.sameIgnoringCase · groupTag) := by simpa using hk
      obtain ⟨l, hl, same⟩ := exists_mem_settle kept (beq_self_eq_true k)
      exact eq_of_beq same ▸ hl
  exact {
    keys k hk := requireIdentifier_ok.mp (fits k ((listed k).mp hk).1)
    increasing := increasing.imp compareOfLessAndEq_eq_lt.mp
    listed k := by rw [listed, lists] }

-- What an accepted feature has kept of its document, and in which form.
structure NormalForm (raw : Json) (c : FeatureConfig) : Prop where
  name : raw.member? "name" = some (.text c.name) ∧ Identifier.Valid Identifier.codeLimit c.name
  signal : raw.member? "source_signal" = some (.text c.signal) ∧
    Identifier.Valid Identifier.codeLimit c.signal
  function : ∃ s, raw.member? "function" = some (.text s) ∧
    Text.sameIgnoringCase s c.function.name
  window : Lasts raw "window" c.window.millis
  slide : Slides raw c.slide.millis
  slideFits : 1 ≤ c.slide.millis ∧ c.slide.millis ≤ c.window.millis
  filters : Filter.Settles ((raw.member? "filters").getD .null) c.filters
  groupBy : Groups (raw.member? "group_by") c.groupBy
  sourceTable : given raw "source_table" = c.sourceTable.map .text
  description : given raw "description" = c.description.map .text

theorem normalForm_of_read {c : FeatureConfig} (h : read raw = .ok c) (finite : raw.Finite) :
    NormalForm raw c := by
  have reads := read_eq_ok.mp h
  exact {
    name := ⟨requiredText_eq_ok.mp reads.name, requireIdentifier_ok.mp reads.nameFits⟩
    signal := ⟨requiredText_eq_ok.mp reads.signal, requireIdentifier_ok.mp reads.signalFits⟩
    function :=
      have ⟨s, hs, hf⟩ := reads.function
      ⟨s, requiredText_eq_ok.mp hs,
        Aggregate.sameIgnoringCase_of_ofAnyCase? (readFunction_eq_ok.mp hf)⟩
    window := reads.lasts
    slide := reads.slides
    slideFits := ⟨c.slide.pos, by simpa [Duration.le] using reads.slideFits⟩
    filters := Filter.settles_of_readAll reads.filters finite.getD
    groupBy := groups_of_readGroupBy reads.groupBy
    sourceTable := optionalText_eq_ok.mp reads.sourceTable
    description := optionalText_eq_ok.mp reads.description }

theorem normalForm_spelled :
    read spelled = .ok settled ∧ spelled.Finite ∧ NormalForm spelled settled :=
  ⟨read_spelled, finite_spelled, normalForm_of_read read_spelled finite_spelled⟩

end FeatureConfig

end Historian
