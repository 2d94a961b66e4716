import Historian.Proofs.Engine.Schemas
import Historian.Schema.Statement

namespace Historian.Schema

open Engine

-- What one statement of the synchronizer does for a category. A table is only made where the engine
-- described none.
inductive Step (k : CategoryKey) (t t' : Tables) : Prop
  | database (h : t.createDatabase true k.database = .ok t')
  | create (hd : t.describe k.superTable = none) (schema : TableSchema)
    (h : t.createSuperTable true k.superTable schema = .ok t')
  | add (c : Column) (h : t.addColumn k.superTable c = .ok t')
  | modify (c : Column) (h : t.modifyColumn k.superTable c = .ok t')
  | bind (asset : String) (hd : t.describe (k.childTable asset) = none) (tags : List String)
    (h : t.createChildTable true (k.childTable asset) k.superTable tags = .ok t')

inductive Steps (k : CategoryKey) (t : Tables) : Tables → Prop
  | refl : Steps k t t
  | tail (hs : Steps k t t') (h : Step k t' t'') : Steps k t t''

namespace Steps

theorem trans (h₁ : Steps k t t') (h₂ : Steps k t' t'') : Steps k t t'' := by
  induction h₂ with
  | refl => exact h₁
  | tail _ h ih => exact ih.tail h

theorem single (h : Step k t t') : Steps k t t' :=
  .tail .refl h

theorem head (h : Step k t t') (hs : Steps k t' t'') : Steps k t t'' :=
  (single h).trans hs

end Steps

theorem Step.grows (h : Step k t t') : t.Grows t' := by
  cases h with
  | database h =>
    obtain rfl | rfl := Tables.createDatabase_ok h
    · exact .refl _
    · exact fun n s hs => ⟨s, hs, .refl s⟩
  | create hd schema h =>
    obtain ⟨-, ⟨rfl, -⟩ | rfl⟩ := Tables.createSuperTable_ok h
    · exact .refl _
    · exact Tables.grows_create hd schema
  | add c h =>
    obtain ⟨s, hs, -, -, rfl⟩ := Tables.addColumn_ok h
    exact Tables.grows_alter hs (s.grown_add c)
  | modify c h =>
    obtain ⟨s, old, hs, ho, hw, rfl⟩ := Tables.modifyColumn_ok h
    exact Tables.grows_alter hs (TableSchema.grown_retype ho hw)
  | bind asset hd tags h =>
    obtain rfl | rfl := Tables.createChildTable_ok h
    · exact .refl _
    · exact Tables.grows_bind hd _

theorem Step.streams (h : Step k t t') : t'.streams = t.streams := by
  cases h with
  | database h => obtain rfl | rfl := Tables.createDatabase_ok h <;> rfl
  | create _ _ h => obtain ⟨-, ⟨rfl, -⟩ | rfl⟩ := Tables.createSuperTable_ok h <;> rfl
  | add _ h => obtain ⟨_, -, -, -, rfl⟩ := Tables.addColumn_ok h; rfl
  | modify _ h => obtain ⟨_, _, -, -, -, rfl⟩ := Tables.modifyColumn_ok h; rfl
  | bind _ _ _ h => obtain rfl | rfl := Tables.createChildTable_ok h <;> rfl

theorem Steps.grows (h : Steps k t t') : t.Grows t' := by
  induction h with
  | refl => exact .refl _
  | tail _ h ih => exact ih.trans h.grows

theorem Steps.streams (h : Steps k t t') : t'.streams = t.streams := by
  induction h with
  | refl => rfl
  | tail _ h ih => exact h.streams.trans ih

end Historian.Schema
