/-!
Letter case of the ASCII letters. Names are compared ignoring it in several places; letters outside
ASCII are never folded.
-/
namespace Historian.Text

/-- Equality that does not tell ASCII capitals from small letters. -/
def sameIgnoringCase (a b : String) : Bool :=
  a.toLower == b.toLower

theorem sameIgnoringCase_iff {a b : String} : sameIgnoringCase a b ↔ a.toLower = b.toLower := by
  simp [sameIgnoringCase]

@[simp] theorem sameIgnoringCase_refl (a : String) : sameIgnoringCase a a := by
  simp [sameIgnoringCase]

theorem sameIgnoringCase_symm {a b : String} (h : sameIgnoringCase a b) : sameIgnoringCase b a := by
  simp_all [sameIgnoringCase]

theorem sameIgnoringCase_trans {a b c : String} (h : sameIgnoringCase a b)
    (h' : sameIgnoringCase b c) : sameIgnoringCase a c := by
  simp_all [sameIgnoringCase]

end Historian.Text
