/-!
Cutting a text at marks, once or everywhere. The marks belong to no part, and joined again by them
the parts are the text.
-/
namespace Historian.Text

/-- The part of a text before the first mark, and the part after it if there is one. -/
def cut (isMark : Char → Bool) : List Char → List Char × Option (List Char)
  | [] => ([], none)
  | c :: cs =>
    if isMark c then ([], some cs)
    else
      let (before, after) := cut isMark cs
      (c :: before, after)

theorem cut_eq_none {isMark : Char → Bool} {cs : List Char} (h : (cut isMark cs).2 = none) :
    (cut isMark cs).1 = cs := by
  induction cs with
  | nil => rfl
  | cons c cs ih => by_cases hc : isMark c <;> simp_all [cut]

theorem eq_of_cut {isMark : Char → Bool} {cs after : List Char}
    (h : (cut isMark cs).2 = some after) :
    ∃ mark, isMark mark ∧ cs = (cut isMark cs).1 ++ mark :: after := by
  induction cs with
  | nil => simp [cut] at h
  | cons c cs ih =>
    by_cases hc : isMark c
    · exact ⟨c, hc, by simp_all [cut]⟩
    · obtain ⟨mark, hm, hcs⟩ := ih (by simpa [cut, hc] using h)
      exact ⟨mark, hm, by simpa [cut, hc] using hcs⟩

/-- The parts of a text between the marks; one more than there are marks. -/
def split (mark : Char) : List Char → List (List Char)
  | [] => [[]]
  | c :: cs =>
    match split mark cs with
    | [] => [[c]]
    | first :: rest => if c = mark then [] :: first :: rest else (c :: first) :: rest

theorem split_ne_nil (mark : Char) (cs : List Char) : split mark cs ≠ [] := by
  cases cs with
  | nil => simp [split]
  | cons c cs => simp only [split]; split <;> (try split) <;> simp

theorem intercalate_split (mark : Char) (cs : List Char) :
    [mark].intercalate (split mark cs) = cs := by
  induction cs with
  | nil => rfl
  | cons c cs ih =>
    simp only [split]
    match h : split mark cs with
    | [] => exact absurd h (split_ne_nil mark cs)
    | first :: rest =>
      rw [h] at ih
      by_cases hc : c = mark
      · simp [hc, ← ih, List.intercalate]
      · cases rest <;> simp_all [List.intercalate]

end Historian.Text
