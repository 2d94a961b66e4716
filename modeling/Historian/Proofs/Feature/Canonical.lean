import Mathlib
import Historian.Proofs.Feature.Reading

namespace Historian.FeatureConfig

theorem lookup_memberOf : (memberOf key s).reverse.lookup k =
    if k = key then s.map Json.text else none := by
  cases s <;> simp [memberOf, Json.lookup_member]

theorem lookup_listMember : (listMember key items).reverse.lookup k =
    if k = key ∧ items ≠ [] then some (.list items) else none := by
  cases items <;> simp [listMember, Json.lookup_member]

theorem toJson_known (c : FeatureConfig) :
    ∃ ms, c.toJson = .object ms ∧ ms.find? (fun m => m.1 ∉ keys) = none := by
  refine ⟨_, rfl, List.find?_eq_none.mpr fun m hm => ?_⟩
  have listed {key items} (hk : key ∈ keys) (hm : m ∈ listMember key items) : m.1 ∈ keys := by
    unfold listMember at hm
    split at hm <;> simp_all
  have given {key s} (hk : key ∈ keys) (hm : m ∈ memberOf key s) : m.1 ∈ keys := by
    cases s <;> simp_all [memberOf]
  suffices h : m.1 ∈ keys by simpa using h
  have hm := Json.mem_ofMembers rfl hm
  simp only [List.mem_append] at hm
  rcases hm with (((hm | hm) | hm) | hm) | hm
  · simp only [List.mem_cons, List.not_mem_nil, or_false] at hm
    rcases hm with rfl | rfl | rfl | rfl | rfl <;> simp [keys]
  · exact listed (by decide) hm
  · exact listed (by decide) hm
  · exact given (by decide) hm
  · exact given (by decide) hm

theorem member?_toJson (c : FeatureConfig) (k : String) : c.toJson.member? k =
    ((if k = "description" then c.description.map .text else none).or <|
    (if k = "source_table" then c.sourceTable.map .text else none).or <|
    (if k = "group_by" ∧ c.groupBy ≠ [] then some (.list (c.groupBy.map .text)) else none).or <|
    (if k = "filters" ∧ c.filters ≠ [] then some (.list (c.filters.map Filter.toJson)) else none).or
    (if k = "slide_interval" then some (.text c.slide.write)
      else if k = "window" then some (.text c.window.write)
      else if k = "function" then some (.text c.function.name)
      else if k = "source_signal" then some (.text c.signal)
      else if k = "name" then some (.text c.name) else none)) := by
  simp [toJson, Json.member?_ofMembers, List.lookup_append, lookup_memberOf, lookup_listMember,
    Json.lookup_member]

theorem readFunction_name (f : Aggregate) : readFunction f.name = .ok f := by
  refine readFunction_eq_ok.mpr ?_
  cases f <;> cbv

theorem readDuration_write (d : Duration) : readDuration key d.write = .ok d :=
  readDuration_eq_ok.mpr d.read_write

-- What was read is written as what is read as it.
theorem Reads.toJson {c : FeatureConfig} (h : Reads raw c) : Reads c.toJson c where
  known := c.toJson_known
  name := requiredText_eq_ok.mpr (by simp [member?_toJson])
  nameFits := h.nameFits
  signal := requiredText_eq_ok.mpr (by simp [member?_toJson])
  signalFits := h.signalFits
  function := ⟨_, requiredText_eq_ok.mpr (by simp [member?_toJson]), readFunction_name _⟩
  window := ⟨_, requiredText_eq_ok.mpr (by simp [member?_toJson]), readDuration_write _⟩
  slide := ⟨some _, optionalText_eq_ok.mpr (given_of_map (by simp [member?_toJson])),
    readDuration_write _⟩
  slideFits := h.slideFits
  filters := by
    by_cases hf : c.filters = []
    case pos => simpa [member?_toJson, hf] using Filter.readAll_null
    case neg => simpa [member?_toJson, hf] using Filter.readAll_toJson h.filters
  groupBy := by
    by_cases hg : c.groupBy = []
    case pos => simp [member?_toJson, hg, readGroupBy]
    case neg => simpa [member?_toJson, hg] using readGroupBy_texts h.groupBy
  sourceTable := optionalText_eq_ok.mpr (given_of_map (by simp [member?_toJson]))
  tableFits := h.tableFits
  description := optionalText_eq_ok.mpr (given_of_map (by simp [member?_toJson]))

-- Whatever is read has a canonical document, which is read as the same and is its own canonical
-- document.
theorem canonical_fixed (h : read raw = .ok c) :
    read c.toJson = .ok c ∧ (read c.toJson).map toJson = .ok c.toJson := by
  have again : read c.toJson = .ok c := read_eq_ok.mpr (read_eq_ok.mp h).toJson
  refine ⟨again, ?_⟩
  rw [again]
  rfl

theorem sameIgnoringCase_eq (a b : String) : Text.sameIgnoringCase a b =
    (a.toList.map Char.toLower == b.toList.map Char.toLower) := by
  have lower (s : String) : s.toLower.toList = s.toList.map Char.toLower := String.toList_map
  rw [Bool.eq_iff_iff, Text.sameIgnoringCase_iff, ← String.toList_inj, lower, lower, beq_iff_eq]

-- A document with both zeros, two spellings of an operator, a filter and a grouping key that come
-- twice, and the key that goes without saying.
def spelled : Json :=
  .object [
    ("filters", .list [
      .object [("field", .text "speed"), ("op", .text " <> "), ("value", .number (.real .zero))],
      .object [("field", .text "speed"), ("op", .text "!="), ("value", .number (.real ⟨true, 0⟩))],
      .object [("field", .text "load"), ("value", .number (.int 3))],
      .object [("field", .text "load"), ("op", .text "=="), ("value", .number (.int 3))]]),
    ("function", .text "AVG"),
    ("group_by", .list [.text "zone", .text "Asset_ID", .text "line", .text "zone"]),
    ("name", .text "avg1"), ("source_signal", .text "temp"), ("window", .text " 3600s")]

def settled : FeatureConfig where
  name := "avg1"
  signal := "temp"
  function := .avg
  window := ⟨3600000, by decide, by decide⟩
  slide := ⟨3600000, by decide, by decide⟩
  filters := [⟨"load", .eq, .number (.int 3)⟩, ⟨"speed", .ne, .number (.real ⟨true, 0⟩)⟩]
  groupBy := ["line", "zone"]

theorem listed_spelled : Filter.listOfJson ((spelled.member? "filters").getD .null) =
    .ok [⟨"speed", .ne, .number (.real .zero)⟩, ⟨"speed", .ne, .number (.real ⟨true, 0⟩)⟩,
      ⟨"load", .eq, .number (.int 3)⟩, ⟨"load", .eq, .number (.int 3)⟩] :=
  toOption_eq_some.mp (by cbv)

theorem canonical_sorted : Filter.canonical [⟨"load", .eq, .number (.int 3)⟩,
    ⟨"speed", .ne, .number (.real ⟨true, 0⟩)⟩, ⟨"speed", .ne, .number (.real .zero)⟩] =
      settled.filters := by
  refine settle_of_inOrder ?_
  unfold InOrder
  decide

theorem canonical_spelled : Filter.canonical [⟨"speed", .ne, .number (.real .zero)⟩,
    ⟨"speed", .ne, .number (.real ⟨true, 0⟩)⟩, ⟨"load", .eq, .number (.int 3)⟩,
    ⟨"load", .eq, .number (.int 3)⟩] = settled.filters := by
  refine (settle_congr (by decide) fun f => ?_).trans canonical_sorted
  simp only [List.mem_cons]
  tauto

theorem canonicalKeys_sorted : canonicalKeys ["line", "zone"] = settled.groupBy := by
  have kept : ["line", "zone"].filter (!Text.sameIgnoringCase · groupTag) = ["line", "zone"] := by
    cbv
  rw [canonicalKeys_eq_settle, kept]
  refine settle_of_inOrder ?_
  unfold InOrder
  decide

theorem canonicalKeys_spelled :
    canonicalKeys ["zone", "Asset_ID", "line", "zone"] = settled.groupBy := by
  refine (canonicalKeys_congr fun k hk => ?_).trans canonicalKeys_sorted
  have other : k ≠ "Asset_ID" := by
    rintro rfl
    exact hk (by rw [sameIgnoringCase_eq]; cbv)
  simp only [List.mem_cons, other, false_or]
  tauto

theorem read_spelled : read spelled = .ok settled := by
  have function : Aggregate.ofAnyCase? "AVG" = some .avg := by
    simp only [Aggregate.ofAnyCase?, sameIgnoringCase_eq]
    cbv
  refine read_eq_ok.mpr ⟨⟨_, rfl, by cbv⟩, rfl, rfl, rfl, rfl, ⟨_, rfl, ?_⟩,
    ⟨_, rfl, ?_⟩, ⟨none, rfl, rfl⟩, by decide, ?_, ?_, rfl, rfl, rfl⟩
  · exact readFunction_eq_ok.mpr function
  · exact readDuration_eq_ok.mpr (toOption_eq_some.mp (by cbv))
  · exact Filter.readAll_eq_ok.mpr ⟨_, listed_spelled, by simpa using ⟨rfl, rfl⟩, canonical_spelled⟩
  · exact congrArg Except.ok canonicalKeys_spelled

theorem canonical_fixed_spelled : read spelled = .ok settled ∧
    read settled.toJson = .ok settled ∧ (read settled.toJson).map toJson = .ok settled.toJson :=
  ⟨read_spelled, canonical_fixed read_spelled⟩

end Historian.FeatureConfig
