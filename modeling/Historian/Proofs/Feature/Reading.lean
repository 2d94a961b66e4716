import Historian.Feature.Config
import Historian.Proofs.Feature.Filters

namespace Historian.FeatureConfig

-- Members of a document.

theorem requiredText_eq_ok : requiredText raw key = .ok s ↔ raw.member? key = some (.text s) := by
  unfold requiredText
  split
  case h_1 h => simp [h]
  case h_2 h => simp [h]
  case h_3 h => simp [h]
  case h_4 j hn ht h => simp_all

-- What a document has under a key, null being nothing.
def given (raw : Json) (key : String) : Option Json :=
  match raw.member? key with
  | some .null => none
  | j => j

theorem member?_of_given (h : given raw key = some j) : raw.member? key = some j := by
  unfold given at h
  split at h
  · cases h
  · exact h

theorem optionalText_eq_ok : optionalText raw key = .ok s ↔ given raw key = s.map .text := by
  unfold optionalText given
  split
  case h_1 h => cases s <;> simp [h]
  case h_2 h => cases s <;> simp [h]
  case h_3 h => cases s <;> simp [h]
  case h_4 j hn ht h => cases s <;> simp_all

theorem given_of_map {s : Option String} (h : raw.member? key = s.map .text) :
    given raw key = s.map .text := by
  rw [given, h]
  cases s <;> rfl

theorem readDuration_eq_ok : readDuration key s = .ok d ↔ Duration.read s = .ok d :=
  mapError_eq_ok

theorem readFunction_eq_ok : readFunction s = .ok f ↔ Aggregate.ofAnyCase? s = some f := by
  unfold readFunction
  cases Aggregate.ofAnyCase? s <;> simp

theorem ofAnyCase?_congr (h : Text.sameIgnoringCase s t) :
    Aggregate.ofAnyCase? s = Aggregate.ofAnyCase? t := by
  simp only [Aggregate.ofAnyCase?, Text.sameIgnoringCase, Text.sameIgnoringCase_iff.mp h]

-- Grouping keys.

theorem readGroupKey_eq_ok : readGroupKey item = .ok k ↔
    item = .text k ∧ requireIdentifier "group_by" k = .ok () := by
  unfold readGroupKey
  split
  case h_1 s =>
    simp only [bind_eq_ok, pure_eq_ok, Json.text.injEq]
    constructor
    · rintro ⟨_, h, rfl⟩
      exact ⟨rfl, h⟩
    · rintro ⟨rfl, h⟩
      exact ⟨_, h, rfl⟩
  case h_2 h => exact ⟨nofun, fun hk => absurd hk.1 (h k)⟩

-- The entries of a list.
def Lists (j : Option Json) (k : String) : Prop :=
  ∃ items, j = some (.list items) ∧ .text k ∈ items

theorem lists_texts (ks : List String) (k : String) :
    Lists (some (.list (ks.map .text))) k ↔ k ∈ ks := by
  simp [Lists]

theorem canonicalKeys_eq_settle (ks : List String) : canonicalKeys ks =
    settle compare (· == ·) (ks.filter (!Text.sameIgnoringCase · groupTag)) :=
  rfl

theorem canonicalKeys_canonicalKeys (ks : List String) :
    canonicalKeys (canonicalKeys ks) = canonicalKeys ks := by
  have kept : (canonicalKeys ks).filter (!Text.sameIgnoringCase · groupTag) = canonicalKeys ks :=
    List.filter_eq_self.mpr fun _ hk => (List.mem_filter.mp (mem_of_mem_settle hk)).2
  rw [canonicalKeys_eq_settle (canonicalKeys ks), kept]
  exact settle_settle

theorem canonicalKeys_congr {ks ls : List String}
    (h : ∀ k, ¬Text.sameIgnoringCase k groupTag → (k ∈ ks ↔ k ∈ ls)) :
    canonicalKeys ks = canonicalKeys ls := by
  refine settle_congr (fun _ _ => beq_self_eq_true _) fun k => ?_
  simp only [List.mem_filter]
  by_cases hk : Text.sameIgnoringCase k groupTag <;> simp [hk, h]

theorem readGroupBy_ok (h : readGroupBy j = .ok ks) : ∃ ls, (∀ k, k ∈ ls ↔ Lists j k) ∧
    (∀ k ∈ ls, requireIdentifier "group_by" k = .ok ()) ∧ canonicalKeys ls = ks := by
  unfold readGroupBy at h
  split at h
  case h_1 =>
    cases h
    exact ⟨[], fun _ => ⟨nofun, nofun⟩, nofun, by simp [canonicalKeys_eq_settle]⟩
  case h_2 =>
    cases h
    exact ⟨[], fun _ => ⟨nofun, nofun⟩, nofun, by simp [canonicalKeys_eq_settle]⟩
  case h_3 items =>
    obtain ⟨ls, hl, h⟩ := bind_eq_ok.mp h
    cases h
    refine ⟨ls, fun k => ?_, fun k hk => ?_, rfl⟩
    · rw [mem_of_mapM_eq_ok hl]
      constructor
      · rintro ⟨_, hi, hk⟩
        obtain ⟨rfl, -⟩ := readGroupKey_eq_ok.mp hk
        exact ⟨items, rfl, hi⟩
      · rintro ⟨_, ⟨rfl⟩, hi⟩
        obtain ⟨_, hk⟩ := exists_of_mapM_eq_ok hl hi
        cases (readGroupKey_eq_ok.mp hk).1
        exact ⟨_, hi, hk⟩
    · obtain ⟨_, -, hk⟩ := (mem_of_mapM_eq_ok hl).mp hk
      exact (readGroupKey_eq_ok.mp hk).2
  case h_4 => cases h

theorem readGroupBy_texts (h : readGroupBy j = .ok ks) :
    readGroupBy (some (.list (ks.map .text))) = .ok ks := by
  obtain ⟨ls, -, fits, rfl⟩ := readGroupBy_ok h
  have hk {k} (hk : k ∈ canonicalKeys ls) : readGroupKey (.text k) = .ok k :=
    readGroupKey_eq_ok.mpr ⟨rfl, fits k (List.mem_filter.mp (mem_of_mem_settle hk)).1⟩
  rw [readGroupBy, mapM_map_eq_ok fun _ => hk, ok_bind, canonicalKeys_canonicalKeys]
  rfl

def slideOf (window : Duration) : Option String → Except Invalid Duration
  | some text => readDuration "slide_interval" text
  | none => .ok window

-- What a document is read as, part by part.
structure Reads (raw : Json) (c : FeatureConfig) : Prop where
  known : ∃ ms, raw = .object ms ∧ ms.find? (fun m => m.1 ∉ keys) = none
  name : requiredText raw "name" = .ok c.name
  nameFits : requireIdentifier "feature" c.name = .ok ()
  signal : requiredText raw "source_signal" = .ok c.signal
  signalFits : requireIdentifier "signal" c.signal = .ok ()
  function : ∃ s, requiredText raw "function" = .ok s ∧ readFunction s = .ok c.function
  window : ∃ s, requiredText raw "window" = .ok s ∧ readDuration "window" s = .ok c.window
  slide : ∃ s, optionalText raw "slide_interval" = .ok s ∧ slideOf c.window s = .ok c.slide
  slideFits : c.slide.le c.window
  filters : Filter.readAll ((raw.member? "filters").getD .null) = .ok c.filters
  groupBy : readGroupBy (raw.member? "group_by") = .ok c.groupBy
  sourceTable : optionalText raw "source_table" = .ok c.sourceTable
  tableFits : c.sourceTable.forM requireTableName = .ok ()
  description : optionalText raw "description" = .ok c.description

-- What is left to read once the slide is known.
def finish (raw : Json) (name signal : String) (function : Aggregate) (window slide : Duration) :
    Except Invalid FeatureConfig := do
  if !slide.le window then throw (.slideExceedsWindow window slide)
  let filters ← Filter.readAll ((raw.member? "filters").getD .null)
  let groupBy ← readGroupBy (raw.member? "group_by")
  let sourceTable ← optionalText raw "source_table"
  sourceTable.forM requireTableName
  let description ← optionalText raw "description"
  return { name, signal, function, window, slide, filters, groupBy, sourceTable, description }

theorem finish_eq_ok {c : FeatureConfig} : finish raw n s f w d = .ok c ↔
    (c.name = n ∧ c.signal = s ∧ c.function = f ∧ c.window = w ∧ c.slide = d) ∧ d.le w ∧
    Filter.readAll ((raw.member? "filters").getD .null) = .ok c.filters ∧
    readGroupBy (raw.member? "group_by") = .ok c.groupBy ∧
    optionalText raw "source_table" = .ok c.sourceTable ∧
    c.sourceTable.forM requireTableName = .ok () ∧
    optionalText raw "description" = .ok c.description := by
  unfold finish
  by_cases hd : d.le w
  case neg => simp [hd]
  case pos =>
    simp only [hd, Bool.not_true, Bool.false_eq_true, if_false, bind_eq_ok, pure_eq_ok]
    constructor
    · rintro ⟨fs, hf, ks, hk, t, ht, _, hfit, e, he, rfl⟩
      exact ⟨⟨rfl, rfl, rfl, rfl, rfl⟩, trivial, hf, hk, ht, hfit, he⟩
    · rintro ⟨⟨rfl, rfl, rfl, rfl, rfl⟩, -, hf, hk, ht, hfit, he⟩
      exact ⟨_, hf, _, hk, _, ht, _, hfit, _, he, rfl⟩

theorem read_object (hk : ms.find? (fun m => m.1 ∉ keys) = none) :
    (do
      let name ← requiredText (.object ms) "name"
      requireIdentifier "feature" name
      let signal ← requiredText (.object ms) "source_signal"
      requireIdentifier "signal" signal
      let function ← readFunction (← requiredText (.object ms) "function")
      let window ← readDuration "window" (← requiredText (.object ms) "window")
      let slide ← slideOf window (← optionalText (.object ms) "slide_interval")
      finish (.object ms) name signal function window slide) = read (.object ms) := by
  simp only [read, hk, pure_bind]
  congr! with _ _ _ _ _ _ _ slide
  cases slide <;> rfl

theorem read_eq_ok : read raw = .ok c ↔ Reads raw c := by
  constructor
  · intro h
    cases raw <;> try cases h
    case object ms =>
      cases hk : ms.find? fun m => m.1 ∉ keys with
      | some unknown =>
        simp only [read, hk] at h
        cases h
      | none =>
        simp only [← read_object hk, bind_eq_ok, finish_eq_ok] at h
        obtain ⟨name, hn, _, hnf, signal, hs, _, hsf, f, hf, function, hfn, w, hw, window, hwd, s,
          hsl, slide, hsd, ⟨rfl, rfl, rfl, rfl, rfl⟩, le, hfs, hg, ht, htf, hd⟩ := h
        exact ⟨⟨ms, rfl, hk⟩, hn, hnf, hs, hsf, ⟨f, hf, hfn⟩, ⟨w, hw, hwd⟩, ⟨s, hsl, hsd⟩, le, hfs,
          hg, ht, htf, hd⟩
  · rintro ⟨⟨ms, rfl, hk⟩, hn, hnf, hs, hsf, ⟨f, hf, hfn⟩, ⟨w, hw, hwd⟩, ⟨s, hsl, hsd⟩, le, hfs,
      hg, ht, htf, hd⟩
    simp only [← read_object hk, bind_eq_ok, finish_eq_ok]
    exact ⟨_, hn, _, hnf, _, hs, _, hsf, f, hf, _, hfn, w, hw, _, hwd, s, hsl, _, hsd,
      ⟨rfl, rfl, rfl, rfl, rfl⟩, le, hfs, hg, ht, htf, hd⟩

end Historian.FeatureConfig
