import Historian.Proofs.Catalog.Integrity

namespace Historian

namespace Catalog

variable {c c' : Catalog} {code : String}

theorem createAsset_ne (h : c.createAsset spec = .ok (a, c')) : c' ≠ c := by
  simp only [createAsset, bind_eq_ok] at h
  obtain ⟨_, -, _, -, h⟩ := h
  split at h <;> cases h
  intro he
  have longer := congrArg (·.assets.length) he
  simp at longer

end Catalog

namespace CatalogOp

open Catalog

variable {c c' : Catalog} {op : CatalogOp}

-- An asset was made that nobody can read.
def Loses (c : Catalog) (op : CatalogOp) : Prop :=
  ∃ spec a c', op = .createAsset spec ∧ c.createAsset spec = .ok (a, c') ∧ a.unreadable?.isSome

-- Whoever loses an asset is told of an error.
theorem Loses.fails (h : op.Loses c) : ∃ e c', op.carryOut c = (.error e, c') ∧ c' ≠ c := by
  obtain ⟨spec, a, c', rfl, made, unreadable⟩ := h
  have performed : (CatalogOp.createAsset spec).perform c = .ok (a, c') := made
  obtain ⟨e, he⟩ := Option.isSome_iff_exists.mp unreadable
  have withheld : (CatalogOp.createAsset spec).unreadable? a = some e := he
  exact ⟨e, c', by simp [carryOut, performed, withheld], createAsset_ne made⟩

-- Two categories, one of them with an asset.
def neighbours : List CatalogOp :=
  [.createCategory { code := "motor", database := "plant", name := "Motor" },
    .createCategory { code := "pump", database := "plant", name := "Pump" },
    .createAsset { category := "motor", code := "m1", name := "First" }]

def twin : AssetSpec := { category := "motor", code := "m1", name := "Twin" }

theorem run_neighbours :
    ((after neighbours).createAsset twin).isOk = false ∧
      ((CatalogOp.createAsset twin).carryOut (after neighbours)).1.isOk = false ∧
      ((after neighbours).category? "motor").isSome ∧
      ((after neighbours).asset? "m2").isNone := by
  decide +kernel

def nested (n : Nat) : Json := Nat.repeat (fun v => .list [v]) n (.list [])

end CatalogOp

end Historian
