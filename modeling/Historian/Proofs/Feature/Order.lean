import Historian.Feature.Filter
import Historian.Proofs.Json.Numerals
import Historian.Proofs.Sorting
import Std.Data.String.ToInt

namespace Historian

open Std

namespace Json.Number

-- What the text of an integer is made of; that of no other number is.
def Whole (s : String) : Prop :=
  ∀ c ∈ s.toList, c.isDigit ∨ c = '-'

theorem whole_int (n : Int) : Whole (write (.int n)) := by
  cases n with
  | ofNat n =>
    intro c hc
    exact .inl (isDigit_toDigits n c (by simpa [write, Int.toString_eq_repr, Int.repr] using hc))
  | negSucc n =>
    intro c hc
    have : c = '-' ∨ c ∈ Nat.toDigits 10 (n + 1) := by
      simpa [write, Int.toString_eq_repr, Int.repr] using hc
    exact this.symm.imp_left (isDigit_toDigits _ c)

theorem point_mem_positional (ds : List Char) (e : Int) :
    '.' ∈ Decimal.setPositional true ds e := by
  unfold Decimal.setPositional
  split
  case isTrue => simp
  case isFalse =>
    dsimp only
    split <;> simp

theorem mark_mem_scientific (ds : List Char) (e : Int) : 'e' ∈ Decimal.setScientific ds e := by
  simp [Decimal.setScientific]

theorem not_whole_real (x : Binary64) : ¬Whole (write (.real x)) := by
  intro h
  have clash {c : Char} (hd : ¬c.isDigit) (hm : c ≠ '-') : c ∉ (write (.real x)).toList :=
    fun hc => (h c hc).elim hd hm
  by_cases hf : x.isFinite
  case neg => exact clash (c := 'n') (by decide) (by decide) (by simp [write, hf])
  case pos =>
    have number := Json.isNaN_of_isFinite hf
    have point : realLayout.keepPoint = true := rfl
    by_cases hz : x.isZero
    case pos =>
      refine clash (c := '.') (by decide) (by decide) ?_
      simp [write, hf, Decimal.Layout.write, number, hz, point]
    case neg =>
      by_cases hp : realLayout.positional (Decimal.shortest x).normalForm.2
      case pos =>
        refine clash (c := '.') (by decide) (by decide) ?_
        simp [write, hf, Decimal.Layout.write, number, hz, hp, point, point_mem_positional]
      case neg =>
        refine clash (c := 'e') (by decide) (by decide) ?_
        simp [write, hf, Decimal.Layout.write, number, hz, hp, mark_mem_scientific]

-- Numbers of one size and one text are one number.
theorem eq_of_write_eq {a b : Number} (hs : a.toReal.totalKey = b.toReal.totalKey)
    (hw : a.write = b.write) : a = b := by
  cases a with
  | int a =>
    cases b with
    | int b => exact congrArg Number.int (Int.repr_inj.mp hw)
    | real b => exact absurd (hw ▸ whole_int a) (not_whole_real b)
  | real a =>
    cases b with
    | int b => exact absurd (hw ▸ whole_int b) (not_whole_real a)
    | real b => exact congrArg Number.real (Binary64.totalKey_injective hs)

end Json.Number

theorem FilterOp.rank_injective : Function.Injective rank := by
  intro a b h
  cases a <;> cases b <;> first | rfl | cases h

namespace FilterValue

-- The parts that decide the order, first to last.

def size : FilterValue → Int
  | .bool b => b.toNat
  | .number n => n.toReal.totalKey
  | .text _ => 0

def words : FilterValue → String
  | .bool _ => ""
  | .number n => n.write
  | .text s => s

theorem compare_eq : compare =
    compareLex (compareOn rank) (compareLex (compareOn size) (compareOn words)) := by
  funext a b
  cases a <;> cases b
  case bool.bool a b => cases a <;> cases b <;> rfl
  case number.number a b => rfl
  case text.text a b => simp [compare, compareLex, compareOn, rank, size, words]
  all_goals rfl

theorem ext {a b : FilterValue} (hr : a.rank = b.rank) (hs : a.size = b.size)
    (hw : a.words = b.words) : a = b := by
  cases a <;> cases b <;> try cases hr
  case bool.bool a b => cases a <;> cases b <;> first | rfl | cases hs
  case number.number a b => exact congrArg number (Json.Number.eq_of_write_eq hs hw)
  case text.text a b => exact congrArg text hw

instance : TransCmp compare := by
  rw [compare_eq]
  infer_instance

instance : LawfulEqCmp compare where
  eq_of_compare h := by
    simp only [compare_eq, compareLex, Ordering.then_eq_eq, compareOn,
      LawfulEqOrd.compare_eq_iff_eq] at h
    exact ext h.1 h.2.1 h.2.2

end FilterValue

namespace Filter

theorem compare_eq : compare = compareLex (compareOn field)
    (compareLex (compareOn (·.op.rank)) fun a b => a.value.compare b.value) :=
  rfl

instance : TransCmp fun a b : Filter => a.value.compare b.value where
  eq_swap := OrientedCmp.eq_swap
  isLE_trans := TransCmp.isLE_trans

instance : TransCmp compare :=
  inferInstanceAs (TransCmp (compareLex (compareOn field)
    (compareLex (compareOn (·.op.rank)) fun a b => a.value.compare b.value)))

instance : LawfulEqCmp compare where
  eq_of_compare {a b} h := by
    simp only [compare_eq, compareLex, Ordering.then_eq_eq, compareOn,
      LawfulEqCmp.compare_eq_iff_eq] at h
    obtain ⟨hf, ho, hv⟩ := h
    have ho := FilterOp.rank_injective ho
    cases a
    cases b
    cases hf
    cases ho
    cases hv
    rfl

end Filter

end Historian
