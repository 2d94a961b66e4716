import Std.Data.ExtTreeMap
import Historian.Sql.Quote

/-!
Names of engine tables. A table belongs to a database, and the two names together identify it. The
names are in order of the databases and then of the tables, each by code points, so that maps keyed
by them list their entries in one order.
-/
namespace Historian

/-- A table of a database. -/
structure TableName where
  database : String
  table : String
deriving DecidableEq, Repr, Inhabited

namespace TableName

instance : Ord TableName where
  compare a b := (compare a.database b.database).then (compare a.table b.table)

theorem compare_def (a b : TableName) :
    compare a b = (compare a.database b.database).then (compare a.table b.table) := rfl

theorem compare_eq_iff {a b : TableName} : compare a b = .eq ↔ a = b := by
  obtain ⟨_, _⟩ := a
  obtain ⟨_, _⟩ := b
  simp [compare_def, Ordering.then_eq_eq]

instance : Std.OrientedOrd TableName where
  eq_swap {a b} := by
    simp only [compare_def, Ordering.swap_then]
    rw [Std.OrientedOrd.eq_swap (a := a.database), Std.OrientedOrd.eq_swap (a := a.table)]

instance : Std.LawfulEqOrd TableName where
  compare_self := compare_eq_iff.2 rfl
  eq_of_compare := compare_eq_iff.1

theorem compare_isLE_iff {a b : TableName} : (compare a b).isLE ↔
    compare a.database b.database = .lt ∨
    (a.database = b.database ∧ (compare a.table b.table).isLE) := by
  rw [compare_def]
  rcases h : compare a.database b.database
  · simp
  · simp [Std.LawfulEqOrd.eq_of_compare h]
  · have : a.database ≠ b.database := fun he => by simp [he] at h
    simp [this]

instance : Std.TransOrd TableName where
  isLE_trans {a b c} h h' := by
    rw [compare_isLE_iff] at *
    rcases h with h | ⟨h, ht⟩ <;> rcases h' with h' | ⟨h', ht'⟩
    · exact .inl (Std.TransCmp.lt_trans h h')
    · exact .inl (h' ▸ h)
    · exact .inl (h ▸ h')
    · exact .inr ⟨h.trans h', Std.TransCmp.isLE_trans ht ht'⟩

/-- The name as statements spell it. -/
def write (t : TableName) : String := Sql.qualified t.database t.table

end TableName

end Historian
