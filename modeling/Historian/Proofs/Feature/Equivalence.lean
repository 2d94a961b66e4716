import Historian.Feature.Query
import Historian.Proofs.Feature.Canonical
import Historian.Proofs.Json.Finite

namespace Historian.FeatureConfig

def Lasts (raw : Json) (key : String) (millis : Nat) : Prop :=
  ∃ s, raw.member? key = some (.text s) ∧ Duration.Spells s millis

-- The slide that a document asks for, which is the window if it gives none.
def Slides (raw : Json) (millis : Nat) : Prop :=
  given raw "slide_interval" = none ∧ Lasts raw "window" millis ∨ Lasts raw "slide_interval" millis

-- Documents that say the same of a feature, each in its own way: the order and the repetition of
-- filters and grouping keys, the spelling of operators, durations and the function, what goes
-- without saying and what is null are left to them.
structure Alike (a b : Json) : Prop where
  name : a.member? "name" = b.member? "name"
  signal : a.member? "source_signal" = b.member? "source_signal"
  function : ∃ s t, a.member? "function" = some (.text s) ∧ b.member? "function" = some (.text t) ∧
    Text.sameIgnoringCase s t
  window : ∃ n, Lasts a "window" n ∧ Lasts b "window" n
  slide : ∃ n, Slides a n ∧ Slides b n
  filters : ∀ f, Filter.Asked ((a.member? "filters").getD .null) f ↔
    Filter.Asked ((b.member? "filters").getD .null) f
  groupBy : ∀ k, ¬Text.sameIgnoringCase k groupTag →
    (Lists (a.member? "group_by") k ↔ Lists (b.member? "group_by") k)
  sourceTable : given a "source_table" = given b "source_table"
  description : given a "description" = given b "description"

theorem optionalText_inj (ha : optionalText a key = .ok s) (hb : optionalText b key = .ok t)
    (h : given a key = given b key) : s = t := by
  rw [optionalText_eq_ok] at ha hb
  rw [ha, hb] at h
  exact Option.map_injective (fun _ _ => Json.text.inj) h

namespace Reads

variable {c : FeatureConfig}

theorem ofAnyCase?_function (h : Reads raw c) (hm : raw.member? "function" = some (.text s)) :
    Aggregate.ofAnyCase? s = some c.function := by
  obtain ⟨_, ht, hf⟩ := h.function
  cases (requiredText_eq_ok.mpr hm).symm.trans ht
  exact readFunction_eq_ok.mp hf

theorem window_millis (h : Reads raw c) (hl : Lasts raw "window" n) : c.window.millis = n := by
  obtain ⟨s, hs, spells⟩ := hl
  obtain ⟨_, ht, hd⟩ := h.window
  cases (requiredText_eq_ok.mpr hs).symm.trans ht
  exact Duration.read_of_spells spells (readDuration_eq_ok.mp hd)

theorem slide_millis (h : Reads raw c) (hs : Slides raw n) : c.slide.millis = n := by
  obtain ⟨t, ht, hd⟩ := h.slide
  rw [optionalText_eq_ok] at ht
  rcases hs with ⟨none, hl⟩ | ⟨s, hs, spells⟩
  case inl =>
    cases t with
    | none =>
      rw [← Except.ok.inj hd]
      exact h.window_millis hl
    | some s => exact absurd (none.symm.trans ht) (by simp)
  case inr =>
    simp only [given, hs] at ht
    obtain ⟨_, rfl, ht⟩ := Option.map_eq_some_iff.mp ht.symm
    cases ht
    exact Duration.read_of_spells spells (readDuration_eq_ok.mp hd)

theorem lasts (h : Reads raw c) : Lasts raw "window" c.window.millis := by
  obtain ⟨s, hs, hd⟩ := h.window
  exact ⟨s, requiredText_eq_ok.mp hs, Duration.spells_of_read (readDuration_eq_ok.mp hd)⟩

theorem slides (h : Reads raw c) : Slides raw c.slide.millis := by
  obtain ⟨t, ht, hd⟩ := h.slide
  rw [optionalText_eq_ok] at ht
  cases t with
  | none => exact .inl ⟨ht, Except.ok.inj hd ▸ h.lasts⟩
  | some s =>
    exact .inr ⟨s, member?_of_given ht, Duration.spells_of_read (readDuration_eq_ok.mp hd)⟩

-- Every document that is read is like itself: there is no spelling that is left out.
theorem alike_self (h : Reads raw c) : Alike raw raw where
  name := rfl
  signal := rfl
  function :=
    have ⟨s, hs, _⟩ := h.function
    ⟨s, s, requiredText_eq_ok.mp hs, requiredText_eq_ok.mp hs, Text.sameIgnoringCase_refl s⟩
  window := ⟨_, h.lasts, h.lasts⟩
  slide := ⟨_, h.slides, h.slides⟩
  filters _ := .rfl
  groupBy _ _ := .rfl
  sourceTable := rfl
  description := rfl

end Reads

theorem eq_of_alike {c d : FeatureConfig} (h : Alike a b) (finite : a.Finite) (ha : Reads a c)
    (hb : Reads b d) : c = d := by
  obtain ⟨s, t, hs, ht, same⟩ := h.function
  obtain ⟨w, hwa, hwb⟩ := h.window
  obtain ⟨l, hla, hlb⟩ := h.slide
  have name : c.name = d.name := by
    simpa [requiredText_eq_ok.mp ha.name, requiredText_eq_ok.mp hb.name] using h.name
  have signal : c.signal = d.signal := by
    simpa [requiredText_eq_ok.mp ha.signal, requiredText_eq_ok.mp hb.signal] using h.signal
  have function : c.function = d.function := by
    simpa [ha.ofAnyCase?_function hs, hb.ofAnyCase?_function ht] using ofAnyCase?_congr same
  have window : c.window = d.window :=
    Duration.ext_millis ((ha.window_millis hwa).trans (hb.window_millis hwb).symm)
  have slide : c.slide = d.slide :=
    Duration.ext_millis ((ha.slide_millis hla).trans (hb.slide_millis hlb).symm)
  have filters : c.filters = d.filters :=
    Filter.readAll_congr ha.filters hb.filters finite.getD h.filters
  have groupBy : c.groupBy = d.groupBy := by
    obtain ⟨ks, hks, -, hc⟩ := readGroupBy_ok ha.groupBy
    obtain ⟨ls, hls, -, hd⟩ := readGroupBy_ok hb.groupBy
    rw [← hc, ← hd]
    exact canonicalKeys_congr fun k hk => by rw [hks, hls, h.groupBy k hk]
  have sourceTable := optionalText_inj ha.sourceTable hb.sourceTable h.sourceTable
  have description := optionalText_inj ha.description hb.description h.description
  cases c
  cases d
  simp_all

-- What comes from a text is finite.
theorem eq_of_texts {c d : FeatureConfig} (hs : Json.read? s = some a) (h : Alike a b)
    (ha : read a = .ok c) (hb : read b = .ok d) : c = d :=
  eq_of_alike h (Json.finite_of_read? hs) (read_eq_ok.mp ha) (read_eq_ok.mp hb)

-- Documents that say the same become one feature, one canonical text and one stream.
theorem compiled_of_alike (h : Alike a b) (finite : a.Finite) (ha : read a = .ok c)
    (hb : read b = .ok d) : c = d ∧ c.toJson.write = d.toJson.write ∧
      ∀ k n, CompiledStream.ofFeature k c n = CompiledStream.ofFeature k d n := by
  obtain rfl := eq_of_alike h finite (read_eq_ok.mp ha) (read_eq_ok.mp hb)
  exact ⟨rfl, rfl, fun _ _ => rfl⟩

-- The document `spelled` in other words.
def plain : Json :=
  .object [
    ("description", .null),
    ("filters", .list [
      .object [("field", .text "load"), ("op", .text "= "), ("value", .number (.int 3))],
      .object [("field", .text "speed"), ("op", .text "!="), ("value", .number (.real ⟨true, 0⟩))],
      .object [("field", .text "speed"), ("op", .text "<>"), ("value", .number (.real .zero))]]),
    ("function", .text "avg"),
    ("group_by", .list [.text "line", .text "zone"]),
    ("name", .text "avg1"), ("slide_interval", .text "60m"), ("source_signal", .text "temp"),
    ("window", .text "1h")]

theorem listed_plain : Filter.listOfJson ((plain.member? "filters").getD .null) =
    .ok [⟨"load", .eq, .number (.int 3)⟩, ⟨"speed", .ne, .number (.real ⟨true, 0⟩)⟩,
      ⟨"speed", .ne, .number (.real .zero)⟩] :=
  toOption_eq_some.mp (by cbv)

theorem read_plain : read plain = .ok settled := by
  refine read_eq_ok.mpr ⟨⟨_, rfl, by cbv⟩, rfl, rfl, rfl, rfl,
    ⟨_, rfl, readFunction_name .avg⟩, ⟨_, rfl, ?_⟩, ⟨some _, rfl, ?_⟩, by decide, ?_, ?_, rfl, rfl,
    rfl⟩
  · exact readDuration_eq_ok.mpr (toOption_eq_some.mp (by cbv))
  · have slide : Duration.read "60m" = .ok settled.slide := toOption_eq_some.mp (by cbv)
    show readDuration "slide_interval" "60m" = .ok settled.slide
    exact readDuration_eq_ok.mpr slide
  · exact Filter.readAll_eq_ok.mpr ⟨_, listed_plain, by simpa using ⟨rfl, rfl⟩, canonical_sorted⟩
  · exact congrArg Except.ok canonicalKeys_sorted

theorem alike_spelled_plain : Alike spelled plain where
  name := rfl
  signal := rfl
  function := ⟨_, _, rfl, rfl, by rw [sameIgnoringCase_eq]; cbv⟩
  window := ⟨_, (read_eq_ok.mp read_spelled).lasts, (read_eq_ok.mp read_plain).lasts⟩
  slide := ⟨_, (read_eq_ok.mp read_spelled).slides, (read_eq_ok.mp read_plain).slides⟩
  filters f := by
    rw [← Filter.asked_iff listed_spelled, ← Filter.asked_iff listed_plain]
    simp only [List.mem_cons]
    tauto
  groupBy k hk := by
    have other : k ≠ "Asset_ID" := by
      rintro rfl
      exact hk (by rw [sameIgnoringCase_eq]; cbv)
    refine (lists_texts ["zone", "Asset_ID", "line", "zone"] k).trans
      (Iff.trans ?_ (lists_texts ["line", "zone"] k).symm)
    simp only [List.mem_cons, other, false_or]
    tauto
  sourceTable := rfl
  description := rfl

theorem finite_spelled : spelled.Finite := by
  simp [spelled, Json.Finite, Json.FiniteItems, Json.FiniteMembers]
  decide

theorem compiled_of_alike_plain : ∃ c d, Alike spelled plain ∧ spelled.Finite ∧
    read spelled = .ok c ∧ read plain = .ok d ∧ c = d ∧ c.toJson.write = d.toJson.write ∧
    ∀ k n, CompiledStream.ofFeature k c n = CompiledStream.ofFeature k d n :=
  ⟨settled, settled, alike_spelled_plain, finite_spelled, read_spelled, read_plain,
    compiled_of_alike alike_spelled_plain finite_spelled read_spelled read_plain⟩

end Historian.FeatureConfig
