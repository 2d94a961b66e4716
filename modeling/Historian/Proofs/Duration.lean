import Historian.Duration
import Mathlib.Data.List.Induction
import Mathlib.Data.List.TakeWhile
import Mathlib.Data.Nat.Digits.Defs

namespace Historian

namespace Text

-- The characters of a text but for blanks at its ends.
def Framed (body : List Char) (s : String) : Prop :=
  ∃ before after, s.toList = before ++ body ++ after ∧ (∀ c ∈ before, isBlank c) ∧
    ∀ c ∈ after, isBlank c

theorem framed_trimBlanks (s : String) : Framed (trimBlanks s.toList) s := by
  have skipped (cs : List Char) : ∀ c ∈ cs.takeWhile isBlank, isBlank c :=
    fun _ hc => List.mem_takeWhile_imp hc
  let rest := s.toList.dropWhile isBlank
  refine ⟨s.toList.takeWhile isBlank, (rest.reverse.takeWhile isBlank).reverse, ?_, skipped _,
    fun c hc => skipped _ c (List.mem_reverse.mp hc)⟩
  have kept : trimBlanks s.toList ++ (rest.reverse.takeWhile isBlank).reverse = rest := by
    rw [trimBlanks, ← List.reverse_append, List.takeWhile_append_dropWhile, List.reverse_reverse]
  rw [List.append_assoc, kept, List.takeWhile_append_dropWhile]

theorem framed_self (s : String) : Framed s.toList s :=
  ⟨[], [], by simp, nofun, nofun⟩

theorem dropWhile_of_none {p : α → Bool} {as : List α} (h : ∀ a ∈ as, ¬p a) :
    as.dropWhile p = as := by
  cases as with
  | nil => rfl
  | cons a as => simp [h a (.head _)]

theorem trimBlanks_of_framed (h : Framed body s) (solid : ∀ c ∈ body, ¬isBlank c) :
    trimBlanks s.toList = body := by
  obtain ⟨before, after, hs, hb, ha⟩ := h
  rw [trimBlanks, hs, List.append_assoc, List.dropWhile_append_of_pos hb]
  cases body with
  | nil => simp [List.dropWhile_eq_nil_iff.mpr ha]
  | cons c cs =>
    have front : (c :: cs ++ after).dropWhile isBlank = c :: cs ++ after := by
      simp [solid c (.head _)]
    rw [front, List.reverse_append,
      List.dropWhile_append_of_pos fun c hc => ha c (List.mem_reverse.mp hc),
      dropWhile_of_none fun c hc => solid c (List.mem_reverse.mp hc), List.reverse_reverse]

theorem not_isBlank_of_isDigit {c : Char} (h : c.isDigit) : ¬isBlank c := by
  have range : 48 ≤ c.toNat ∧ c.toNat ≤ 57 := Char.isDigit_iff_toNat.mp h
  simp only [isBlank, Bool.or_eq_true, Bool.and_eq_true, decide_eq_true_eq, beq_iff_eq]
  omega

end Text

namespace Numeral

-- The number that digits stand for by their places, the last one counting ones.
def value (ds : List Char) : Nat :=
  Nat.ofDigits 10 (ds.reverse.map fun d => d.toNat - '0'.toNat)

theorem read_eq_value (ds : List Char) : read ds = value ds := by
  induction ds using List.reverseRecOn with
  | nil => rfl
  | append_singleton ds d ih =>
    calc
      read (ds ++ [d]) = 10 * read ds + (d.toNat - '0'.toNat) := List.foldl_append ..
      _ = (d.toNat - '0'.toNat) + 10 * value ds := by rw [ih, Nat.add_comm]
      _ = value (ds ++ [d]) := by
        rw [value, value, List.reverse_concat, List.map_cons, Nat.ofDigits_cons]

end Numeral

namespace TimeUnit

-- The ways to write a unit.
def Written (cs : List Char) (u : TimeUnit) : Prop :=
  cs = [u.symbol] ∨ u = .millisecond ∧ cs = ['m', 's']

theorem ofSymbol?_eq_some : ofSymbol? cs = some u ↔ Written cs u := by
  constructor
  · intro h
    unfold ofSymbol? at h
    split at h
    case isTrue hc =>
      cases h
      exact .inr ⟨rfl, hc⟩
    case isFalse =>
      split at h
      case h_1 c =>
        have hc := List.find?_some h
        exact .inl (congrArg ([·]) (eq_of_beq hc).symm)
      case h_2 => cases h
  · rintro (rfl | ⟨rfl, rfl⟩)
    · exact ofSymbol?_symbol u
    · rfl

theorem solid_symbol (u : TimeUnit) : ¬u.symbol.isDigit ∧ ¬Text.isBlank u.symbol := by
  cases u <;> decide

theorem Written.solid (h : Written cs u) :
    cs ≠ [] ∧ ∀ c ∈ cs, ¬Char.isDigit c ∧ ¬Text.isBlank c := by
  rcases h with rfl | ⟨rfl, rfl⟩
  · simpa using u.solid_symbol
  · have minute := solid_symbol .minute
    have second := solid_symbol .second
    exact ⟨nofun, List.forall_mem_cons.mpr ⟨minute, List.forall_mem_singleton.mpr second⟩⟩

end TimeUnit

namespace Duration

-- A text that gives a duration of that many milliseconds: digits and a unit.
def Spells (s : String) (millis : Nat) : Prop :=
  ∃ digits symbol u, Text.Framed (digits ++ symbol) s ∧ digits ≠ [] ∧ (∀ d ∈ digits, d.isDigit) ∧
    TimeUnit.Written symbol u ∧ millis = Numeral.read digits * u.millis

theorem readBody_append (hn : digits ≠ []) (hd : ∀ d ∈ digits, d.isDigit)
    (hs : TimeUnit.Written symbol u) :
    readBody (digits ++ symbol) =
      if wordEnd ≤ Numeral.read digits then .error (.badNumber (String.ofList digits))
      else ofMillis? (Numeral.read digits * u.millis) := by
  obtain ⟨given, solid⟩ := hs.solid
  have front : (digits ++ symbol).takeWhile Char.isDigit = digits := by
    obtain ⟨c, cs, rfl⟩ := List.exists_cons_of_ne_nil given
    simp [List.takeWhile_append_of_pos hd, (solid c (.head _)).1]
  have back : (digits ++ symbol).dropWhile Char.isDigit = symbol := by
    rw [List.dropWhile_append_of_pos hd, Text.dropWhile_of_none fun c hc => (solid c hc).1]
  simp only [readBody, front, back, List.isEmpty_iff, given, hn, if_false,
    TimeUnit.ofSymbol?_eq_some.mpr hs]

theorem ofMillis?_eq_ok {n : Nat} : ofMillis? n = .ok d ↔ d.millis = n := by
  unfold ofMillis?
  split
  case isTrue hp =>
    split
    case isTrue hf => exact ⟨fun h => by cases h; rfl, fun h => by cases h; rfl⟩
    case isFalse hf => exact ⟨nofun, fun h => absurd (h ▸ d.fits) hf⟩
  case isFalse hp => exact ⟨nofun, fun h => absurd (h ▸ d.pos) hp⟩

theorem read_framed (framed : Text.Framed (digits ++ symbol) s) (hn : digits ≠ [])
    (hd : ∀ d ∈ digits, d.isDigit) (hs : TimeUnit.Written symbol u) :
    read s =
      if wordEnd ≤ Numeral.read digits then .error (.badNumber (String.ofList digits))
      else ofMillis? (Numeral.read digits * u.millis) := by
  have solid : ∀ c ∈ digits ++ symbol, ¬Text.isBlank c := fun c hc =>
    (List.mem_append.mp hc).elim (fun hc => Text.not_isBlank_of_isDigit (hd c hc))
      fun hc => (hs.solid.2 c hc).2
  rw [read, Text.trimBlanks_of_framed framed solid, readBody_append hn hd hs]

theorem read_of_spells (h : Spells s n) (hr : read s = .ok d) : d.millis = n := by
  obtain ⟨digits, symbol, u, framed, hn, hd, hs, rfl⟩ := h
  rw [read_framed framed hn hd hs] at hr
  split at hr
  case isTrue => cases hr
  case isFalse => exact ofMillis?_eq_ok.mp hr

-- A number that does not fit has no product that does, as units are at least a millisecond long.
theorem exists_read_of_spells (h : Spells s n) (hp : 0 < n) (hf : n < wordEnd) :
    ∃ d, read s = .ok d ∧ d.millis = n := by
  obtain ⟨digits, symbol, u, framed, hn, hd, hs, rfl⟩ := h
  have fits : ¬wordEnd ≤ Numeral.read digits :=
    Nat.not_le.mpr (Nat.lt_of_le_of_lt (Nat.le_mul_of_pos_right _ u.millis_pos) hf)
  rw [read_framed framed hn hd hs, if_neg fits]
  exact ⟨⟨_, hp, hf⟩, ofMillis?_eq_ok.mpr rfl, rfl⟩

theorem spells_of_read (h : read s = .ok d) : Spells s d.millis := by
  have framed := Text.framed_trimBlanks s
  rw [← List.takeWhile_append_dropWhile (p := Char.isDigit) (l := Text.trimBlanks s.toList)]
    at framed
  simp only [read, readBody] at h
  split at h
  case isTrue => cases h
  case isFalse =>
    split at h
    case isTrue => cases h
    case isFalse hn =>
      split at h
      case isTrue => cases h
      case isFalse =>
        split at h
        case h_1 => cases h
        case h_2 u hu =>
          exact ⟨_, _, u, framed, by simpa using hn, fun _ => List.mem_takeWhile_imp,
            TimeUnit.ofSymbol?_eq_some.mp hu, ofMillis?_eq_ok.mp h⟩

-- A text that is a number in digits and a unit, blanks around them apart.
def Gives (s : String) (number : Nat) (u : TimeUnit) : Prop :=
  ∃ digits symbol, Text.Framed (digits ++ symbol) s ∧ digits ≠ [] ∧ (∀ d ∈ digits, d.isDigit) ∧
    TimeUnit.Written symbol u ∧ number = Numeral.value digits

theorem spells_iff : Spells s n ↔ ∃ number u, Gives s number u ∧ n = number * u.millis := by
  simp only [Spells, Gives, Numeral.read_eq_value]
  constructor
  · rintro ⟨digits, symbol, u, framed, hn, hd, hs, rfl⟩
    exact ⟨_, u, ⟨digits, symbol, framed, hn, hd, hs, rfl⟩, rfl⟩
  · rintro ⟨_, u, ⟨digits, symbol, framed, hn, hd, hs, rfl⟩, rfl⟩
    exact ⟨digits, symbol, u, framed, hn, hd, hs, rfl⟩

-- Just the texts of that grammar whose milliseconds fit are read, and read as what they say.
theorem read_grammar (s : String) (n : Nat) :
    (∃ d, read s = .ok d ∧ d.millis = n) ↔
      (∃ number u, Gives s number u ∧ n = number * u.millis) ∧ 1 ≤ n ∧ n ≤ 2 ^ 64 - 1 := by
  have bound : n ≤ 2 ^ 64 - 1 ↔ n < wordEnd := Nat.le_sub_one_iff_lt (by decide)
  rw [← spells_iff, bound]
  constructor
  · rintro ⟨d, hr, rfl⟩
    exact ⟨spells_of_read hr, d.pos, d.fits⟩
  · rintro ⟨spells, hp, hf⟩
    exact exists_read_of_spells spells hp hf

theorem ext_millis {a b : Duration} (h : a.millis = b.millis) : a = b := by
  cases a
  cases b
  cases h
  rfl

theorem unit_dvd (d : Duration) : d.unit.millis ∣ d.millis := by
  unfold unit
  cases h : TimeUnit.all.find? fun u => d.millis % u.millis == 0 with
  | none => exact Nat.one_dvd _
  | some u => exact Nat.dvd_of_mod_eq_zero (by simpa using List.find?_some h)

theorem read_write (d : Duration) : read d.write = .ok d := by
  let digits := Numeral.write (d.millis / d.unit.millis)
  have hd : ∀ c ∈ digits, c.isDigit := fun _ hc =>
    Nat.isDigit_of_mem_toDigits (by decide) (by decide) hc
  have hn : digits ≠ [] := by simp [digits, Numeral.write]
  have solid : ∀ c ∈ d.write.toList, ¬Text.isBlank c := by
    intro c hc
    rw [write, String.toList_ofList] at hc
    rcases List.mem_append.mp hc with hc | hc
    · exact Text.not_isBlank_of_isDigit (hd c hc)
    · obtain rfl := List.mem_singleton.mp hc
      exact d.unit.solid_symbol.2
  have fits : ¬wordEnd ≤ d.millis / d.unit.millis :=
    Nat.not_le.mpr (Nat.lt_of_le_of_lt (Nat.div_le_self _ _) d.fits)
  rw [read, Text.trimBlanks_of_framed (Text.framed_self _) solid, write, String.toList_ofList,
    readBody_append hn hd (.inl rfl), Numeral.read_write, if_neg fits, ofMillis?_eq_ok,
    Nat.div_mul_cancel d.unit_dvd]

theorem write_injective {a b : Duration} (h : a.write = b.write) : a = b :=
  Except.ok.inj (a.read_write.symm.trans ((congrArg read h).trans b.read_write))

-- The units are looked through from the largest on.
theorem le_unit {v : TimeUnit} (d : Duration) (h : v.millis ∣ d.millis) :
    v.millis ≤ d.unit.millis := by
  have listed : v ∈ TimeUnit.all := by cases v <;> decide
  have descends : TimeUnit.all.Pairwise fun u v => v.millis ≤ u.millis := by decide
  have divides : d.millis % v.millis == 0 := by simpa using Nat.mod_eq_zero_of_dvd h
  have found : (TimeUnit.all.find? fun u => d.millis % u.millis == 0).isSome :=
    List.find?_isSome.mpr ⟨v, listed, divides⟩
  obtain ⟨u, hu⟩ := Option.isSome_iff_exists.mp found
  obtain ⟨-, before, after, split, earlier⟩ := List.find?_eq_some_iff_append.mp hu
  rw [unit, hu, Option.getD_some]
  rw [split] at listed descends
  rcases List.mem_append.mp listed with hv | hv
  · exact absurd divides (by simpa using earlier v hv)
  rcases List.mem_cons.mp hv with rfl | hv
  · exact Nat.le_refl _
  · exact List.rel_of_pairwise_cons (List.pairwise_append.mp descends).2.1 hv

theorem write_eq (d : Duration) : d.write = s!"{d.millis / d.unit.millis}{d.unit.symbol}" := by
  rw [write, Numeral.write, String.ofList_append]
  rfl

-- A number of milliseconds has one text, in the largest unit that divides it, and that is what all
-- texts of the same length are shown as.
theorem write_canonical :
    (∀ n, 1 ≤ n → n ≤ 2 ^ 64 - 1 → ∃ d, ofMillis? n = .ok d ∧ d.millis = n ∧
      read d.write = .ok d ∧ ∃ u : TimeUnit, u.millis ∣ n ∧
        (∀ v : TimeUnit, v.millis ∣ n → v.millis ≤ u.millis) ∧
        d.write = s!"{n / u.millis}{u.symbol}") ∧
    ∀ s t a b, read s = .ok a → read t = .ok b → (a.millis = b.millis ↔ a.write = b.write) := by
  refine ⟨fun n hp hf => ?_, fun s t a b _ _ => ?_⟩
  · let d : Duration := ⟨n, hp, Nat.lt_of_le_of_lt hf (by decide)⟩
    exact ⟨d, ofMillis?_eq_ok.mpr rfl, rfl, d.read_write, d.unit, d.unit_dvd, fun _ => d.le_unit,
      d.write_eq⟩
  · exact ⟨fun h => congrArg write (ext_millis h), fun h => congrArg millis (write_injective h)⟩

-- Ninety minutes are no whole number of hours; an hour can be written in many ways.
theorem write_canonical_minutes :
    (∃ d, ofMillis? 5400000 = .ok d ∧ read "90m" = .ok d ∧ d.write = "90m") ∧
    ∃ a b, read " 1h\n" = .ok a ∧ read "03600000ms" = .ok b ∧ a.millis = b.millis ∧
      a.write = b.write := by
  obtain ⟨canonical, same⟩ := write_canonical
  obtain ⟨d, made, millis, reads, -⟩ := canonical 5400000 (by decide) (by decide)
  have minutes : d.write = "90m" := by
    obtain rfl : d = ⟨5400000, by decide, by decide⟩ := ext_millis millis
    decide +kernel
  have short : read " 1h\n" = .ok ⟨3600000, by decide, by decide⟩ := by decide +kernel
  have long : read "03600000ms" = .ok ⟨3600000, by decide, by decide⟩ := by decide +kernel
  exact ⟨⟨d, made, minutes ▸ reads, minutes⟩, _, _, short, long, rfl,
    (same _ _ _ _ short long).mp rfl⟩

end Duration

end Historian
