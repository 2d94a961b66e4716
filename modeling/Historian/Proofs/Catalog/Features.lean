import Historian.Proofs.Catalog.Operations

namespace Historian.Catalog

variable {c c' : Catalog} {f : Feature} {document : Json}

theorem feature?_congr (h : c'.features = c.features) :
    c'.feature? category name = c.feature? category name := by
  simp only [feature?, h]

-- The generation that a feature has once it is given a document.
def generationWith (c : Catalog) (category name : String) (document : Json) : Int :=
  match c.feature? category name with
  | some f => if f.document = document.write then f.generation else f.generation + 1
  | none => 1

theorem upsertFeature_total (document : Json) (hk : c.category? category = some k)
    (hn : requireIdentifier "feature" name = .ok ()) :
    ∃ f c', c.upsertFeature category name document = .ok (f, c') := by
  simp only [upsertFeature, hn, requireCategory, hk, ok_mapError, ok_bind]
  split
  · exact ⟨_, _, rfl⟩
  · split <;> exact ⟨_, _, rfl⟩

-- It is found with that document then.
theorem upsertFeature_finds (h : c.upsertFeature category name document = .ok (f, c')) :
    c'.feature? category name = some f ∧
      f.generation = c.generationWith category name document := by
  obtain ⟨-, -, upserted⟩ := upsertFeature_upserted h
  cases upserted with
  | added hn =>
    have others : c.features.find? (fun r => r.category == category && r.name == name) = none := hn
    simp [feature?, generationWith, others]
  | kept hf hd => exact ⟨hf, by simp [generationWith, hf, hd]⟩
  | @changed old hf hd =>
    have named := feature?_some hf
    have found : c.features.find? (fun r => r.category == category && r.name == name) = some old :=
      hf
    -- replacing the feature does not change which one is found
    have alike : ((fun r => r.category == category && r.name == name) ∘ fun r : Feature =>
        if r.category = category ∧ r.name = name then
          { old with document := document.write, generation := old.generation + 1 } else r) =
        fun r => r.category == category && r.name == name := by
      funext r
      by_cases hr : r.category = category ∧ r.name = name <;> simp [hr, named]
    refine ⟨?_, by simp [generationWith, hf, hd]⟩
    rw [feature?, List.find?_map, alike, found]
    simp [named]

end Historian.Catalog
