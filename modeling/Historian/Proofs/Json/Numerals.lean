import Mathlib.Data.List.TakeWhile
import Historian.Proofs.Json.Scanning

namespace Historian

theorem Numeral.read_zeros {ds : List Char} (h : ∀ d ∈ ds, d = '0') : read ds = 0 := by
  induction ds with
  | nil => rfl
  | cons d ds ih =>
    obtain ⟨rfl, hds⟩ := List.forall_mem_cons.mp h
    exact ih hds

theorem Binary64.div_le_roundQuotient (a b : Nat) : a / b ≤ roundQuotient a b := by
  simp only [roundQuotient]
  split <;> omega

-- The digits of the shortest text of a number are not all zeros.

namespace Decimal

theorem contains_zero {i : Interval} {e : Int} (h : 0 < i.low) : i.contains 0 e = false := by
  have low : 0 < i.low * tenTo (-e).toNat := Nat.mul_pos h (Nat.pow_pos (by decide))
  simp only [Interval.contains, Nat.zero_mul, Nat.not_le.mpr low, Nat.not_lt_zero, decide_false,
    Bool.false_and, ite_self]

theorem significand_pos {x : Binary64} (h : x.isZero = false) : 0 < x.significand := by
  have nonzero : x.magnitude ≠ 0 := by simpa [Binary64.isZero] using h
  have hidden : 0 < Binary64.hiddenBit := by decide
  have parts := Nat.div_add_mod x.magnitude Binary64.hiddenBit
  simp only [Binary64.significand]
  split
  case isTrue hd => rw [hd] at parts; omega
  case isFalse => omega

theorem roundingInterval_low_pos {x : Binary64} (h : x.isZero = false) :
    0 < (roundingInterval x).low := by
  have m := significand_pos h
  refine Nat.mul_pos ?_ (Nat.pow_pos (by decide))
  split <;> omega

theorem onGrid_pos {x : Binary64} (h : x.isZero = false) (hd : onGrid x n = some d) :
    0 < d.digits := by
  have inside {k : Nat} {e : Int} (hk : (roundingInterval x).contains k e = true) : 0 < k := by
    refine Nat.pos_of_ne_zero ?_
    rintro rfl
    simp [contains_zero (roundingInterval_low_pos h)] at hk
  simp only [onGrid] at hd
  split at hd
  case h_1 below _ =>
    obtain rfl := Option.some.inj hd
    exact Nat.lt_of_lt_of_le (inside below) (Binary64.div_le_roundQuotient _ _)
  case h_2 below _ =>
    obtain rfl := Option.some.inj hd
    exact inside below
  case h_3 =>
    obtain rfl := Option.some.inj hd
    exact Nat.succ_pos _
  case h_4 => cases hd

theorem shortest_pos {x : Binary64} (h : x.isZero = false) : 0 < (shortest x).digits := by
  unfold shortest
  cases hs : (List.range 17).findSome? fun n => onGrid x (n + 1) with
  | none => exact Nat.mul_pos (significand_pos h) (Nat.pow_pos (by decide))
  | some d =>
    obtain ⟨n, -, hd⟩ := List.exists_of_findSome?_eq_some hs
    exact onGrid_pos h hd

theorem normalForm_ne_nil {d : Decimal} (h : 0 < d.digits) : d.normalForm.1 ≠ [] := by
  intro hn
  have zeros : ∀ c ∈ Numeral.write d.digits, c = '0' := by
    simpa [normalForm, List.dropWhile_eq_nil_iff] using hn
  have none := Numeral.read_zeros zeros
  rw [Numeral.read_write] at none
  omega

end Decimal

namespace Json

open Token

-- A number has digits before its point, and in its exponent.
structure Full (n : NumberText) : Prop where
  whole : n.whole ≠ []
  exponent : ∀ y, n.exponent = some y → y.2 ≠ []

-- A text in the shape of a number without its sign.
def Numeric (cs : List Char) : Prop :=
  ∃ n : NumberText, Digital n ∧ Full n ∧ cs = unsigned n

theorem isDigit_toDigits (n : Nat) : ∀ d ∈ Nat.toDigits 10 n, d.isDigit :=
  fun _ hd => Nat.isDigit_of_mem_toDigits (by decide) (by decide) hd

theorem numeric_whole (n : Nat) : Numeric (Nat.toDigits 10 n) :=
  ⟨⟨false, Nat.toDigits 10 n, none, none⟩, ⟨isDigit_toDigits n, nofun, nofun⟩, ⟨by simp, nofun⟩,
    by simp [unsigned, fractionText, exponentText]⟩

theorem numeric_point {whole fraction : List Char} (hw : ∀ d ∈ whole, d.isDigit)
    (hf : ∀ d ∈ fraction, d.isDigit) (hn : whole ≠ []) : Numeric (whole ++ '.' :: fraction) := by
  refine ⟨⟨false, whole, some fraction, none⟩, ⟨hw, ?_, nofun⟩, ⟨hn, nofun⟩,
    by simp [unsigned, fractionText, exponentText]⟩
  rintro _ ⟨⟩
  exact hf

theorem numeric_positional {ds : List Char} (h : ∀ d ∈ ds, d.isDigit) (e : Int) :
    Numeric (Decimal.setPositional true ds e) := by
  have zeros (n : Nat) : ∀ d ∈ List.replicate n '0', d.isDigit := by
    intro d hd
    rw [List.eq_of_mem_replicate hd]
    decide
  have both {as bs : List Char} (ha : ∀ d ∈ as, d.isDigit) (hb : ∀ d ∈ bs, d.isDigit) :
      ∀ d ∈ as ++ bs, d.isDigit := fun d hd => (List.mem_append.mp hd).elim (ha d) (hb d)
  unfold Decimal.setPositional
  split
  case isTrue => exact numeric_point (zeros 1) (both (zeros _) h) (by simp)
  case isFalse =>
    dsimp only
    split
    case isTrue hl =>
      refine numeric_point (both h (zeros _)) (zeros 1) ?_
      cases ds <;> simp
    case isFalse hl =>
      refine numeric_point (fun d hd => h d (List.mem_of_mem_take hd))
        (fun d hd => h d (List.mem_of_mem_drop hd)) fun he => ?_
      simp only [List.take_eq_nil_iff, Nat.add_one_ne_zero, false_or] at he
      simp [he] at hl

theorem numeric_scientific {ds : List Char} (h : ∀ d ∈ ds, d.isDigit) (hn : ds ≠ []) (e : Int) :
    Numeric (Decimal.setScientific ds e) := by
  refine ⟨⟨false, ds.take 1, if (ds.drop 1).isEmpty then none else some (ds.drop 1),
    some (decide (e < 0), Numeral.write e.natAbs)⟩,
      ⟨fun d hd => h d (List.mem_of_mem_take hd), ?_, ?_⟩, ⟨by simpa using hn, ?_⟩, ?_⟩
  · dsimp only
    split
    · nofun
    · rintro _ ⟨⟩ d hd
      exact h d (List.mem_of_mem_drop hd)
  · rintro _ ⟨⟩
    exact isDigit_toDigits _
  · rintro _ ⟨⟩
    simp [Numeral.write]
  · unfold Decimal.setScientific unsigned exponentText
    dsimp only
    split <;> simp_all [fractionText]

theorem normalForm_digits (d : Decimal) : ∀ c ∈ d.normalForm.1, c.isDigit := by
  intro c hc
  have hm : c ∈ (Numeral.write d.digits).reverse.dropWhile (· == '0') := by
    simpa [Decimal.normalForm] using hc
  exact isDigit_toDigits _ c (List.mem_reverse.mp ((List.dropWhile_sublist _).subset hm))

-- A text in the shape of a number, its sign included.
def Signed (s : String) : Prop :=
  ∃ negative cs, Numeric cs ∧ s.toList = signText negative ++ cs

theorem signed_int (n : Int) : Signed (toString n) := by
  cases n with
  | ofNat n => exact ⟨false, _, numeric_whole n, by simp [signText, Int.toString_eq_repr, Int.repr]⟩
  | negSucc n =>
    exact ⟨true, _, numeric_whole (n + 1), by simp [signText, Int.toString_eq_repr, Int.repr]⟩

theorem isNaN_of_isFinite {x : Binary64} (h : x.isFinite) : x.isNaN = false := by
  simp only [Binary64.isFinite, Binary64.isNaN, decide_eq_true_eq, decide_eq_false_iff_not] at *
  omega

theorem signed_real {x : Binary64} (h : x.isFinite) : Signed (realLayout.write x) := by
  have number := isNaN_of_isFinite h
  have sign : (if x.negative then "-" else "").toList = signText x.negative := by
    cases x.negative <;> rfl
  refine ⟨x.negative, ?_⟩
  unfold Decimal.Layout.write
  simp only [number, h, Bool.not_true, Bool.false_eq_true, if_false]
  by_cases hz : x.isZero
  case pos =>
    have zero : Numeric (Decimal.setPositional true [] 0) := numeric_positional (by simp) 0
    refine ⟨_, zero, ?_⟩
    simp only [hz, if_true, String.toList_append, sign]
    rfl
  case neg =>
    have digits := normalForm_digits (Decimal.shortest x)
    have some := Decimal.normalForm_ne_nil (Decimal.shortest_pos (by simpa using hz))
    simp only [hz, Bool.false_eq_true, if_false, String.toList_append, sign, String.toList_ofList]
    refine ⟨_, ?_, rfl⟩
    split
    · exact numeric_positional digits _
    · exact numeric_scientific digits some _

theorem Signed.reads {s : String} (h : Signed s) :
    ∃ n, ∀ rest, Ends rest → Reads s.toList [.number n] rest := by
  obtain ⟨negative, _, ⟨n, hd, hn, rfl⟩, hs⟩ := h
  have signed : Digital { n with negative } := ⟨hd.whole, hd.fraction, hd.exponent⟩
  exact ⟨_, fun rest hr => hs ▸ reads_number signed (.inl hn.whole) hr⟩

-- Every number is written as one, or as what stands for nothing.
theorem Number.write_cases (x : Number) : x.write = "null" ∨ Signed x.write := by
  cases x with
  | int n => exact .inr (signed_int n)
  | real x =>
    by_cases hf : x.isFinite
    case pos => exact .inr (by simpa [Number.write, hf] using signed_real hf)
    case neg => exact .inl (by simp [Number.write, hf])

end Json

end Historian
