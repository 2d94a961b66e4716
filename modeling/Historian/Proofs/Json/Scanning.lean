import Historian.Json.Printer
import Historian.Json.Token

namespace Historian.Json.Token

-- If a text that begins with `cs` is read at all, then `cs` is read as the tokens `ts`. Numbers may
-- not be read, because nothing is known here about the zeros at their front.
def Reads (cs : List Char) (ts : List Token) (rest : List Char) : Prop :=
  ∀ us, scan (cs ++ rest) = some us → ∃ vs, us = ts ++ vs ∧ scan rest = some vs

theorem scan_nil : scan [] = some [] := by
  simp [scan]

theorem scan_cons_ok (h : scan (c :: cs) = some us) :
    ∃ t rest vs, next c cs = some (t, rest) ∧ scan rest = some vs ∧ us = t.toList ++ vs := by
  rw [scan] at h
  split at h
  case h_1 => cases h
  case h_2 t rest hn =>
    obtain ⟨vs, hv, rfl⟩ := Option.map_eq_some_iff.mp h
    exact ⟨t, rest, vs, hn, hv, rfl⟩

namespace Reads

theorem append (h₁ : Reads cs ts (ds ++ rest)) (h₂ : Reads ds us rest) :
    Reads (cs ++ ds) (ts ++ us) rest := by
  intro all h
  rw [List.append_assoc] at h
  obtain ⟨_, rfl, hs⟩ := h₁ all h
  obtain ⟨vs, rfl, hv⟩ := h₂ _ hs
  exact ⟨vs, by simp, hv⟩

theorem of_next {t : Token} (h : ∀ r, next c (cs ++ rest) = some r → r = (some t, rest)) :
    Reads (c :: cs) [t] rest := by
  intro us hs
  obtain ⟨u, rest', vs, hn, hv, rfl⟩ := scan_cons_ok hs
  cases h _ hn
  exact ⟨vs, rfl, hv⟩

theorem of_none (h : next c (cs ++ rest) = none) : Reads (c :: cs) ts rest := by
  intro us hs
  obtain ⟨_, _, _, hn, -⟩ := scan_cons_ok hs
  cases h.symm.trans hn

-- The tokens of a whole text.
theorem scan_ok (h : Reads cs ts []) (hs : scan cs = some us) : us = ts := by
  obtain ⟨vs, rfl, hv⟩ := h us (by simpa using hs)
  obtain rfl := Option.some.inj (scan_nil.symm.trans hv)
  simp

end Reads

-- Marks and words.

theorem reads_mark {c : Char} {t : Token} (h : ∀ rest, next c rest = some (some t, rest)) :
    Reads [c] [t] rest :=
  .of_next fun _ hr => (Option.some.inj (hr.symm.trans (h _)))

theorem reads_null : Reads "null".toList [.literal .null] rest := by
  have eq : "null".toList = ['n', 'u', 'l', 'l'] := by decide
  rw [eq]
  refine .of_next fun r hr => ?_
  simpa [next, isSpace, eq_comm] using hr

theorem reads_true : Reads "true".toList [.literal (.bool true)] rest := by
  have eq : "true".toList = ['t', 'r', 'u', 'e'] := by decide
  rw [eq]
  refine .of_next fun r hr => ?_
  simpa [next, isSpace, eq_comm] using hr

theorem reads_false : Reads "false".toList [.literal (.bool false)] rest := by
  have eq : "false".toList = ['f', 'a', 'l', 's', 'e'] := by decide
  rw [eq]
  refine .of_next fun r hr => ?_
  simpa [next, isSpace, eq_comm] using hr

-- Texts.

-- How a character is written inside a text, read back.
def pieceOf (c : Char) : Piece :=
  if c.toNat < 0x20 ∧ c ∉ ['\x08', '\x0c', '\n', '\r', '\t'] then .unit c.toNat else .char c

-- The four digits of a control character.
theorem unit_control : ∀ n < 0x20,
    List.replicate (4 - (Nat.toDigits 16 n).length) '0' ++ Nat.toDigits 16 n =
      ['0', '0', Nat.digitChar (n / 16), Nat.digitChar (n % 16)] ∧
    unit? '0' '0' (Nat.digitChar (n / 16)) (Nat.digitChar (n % 16)) = some n := by
  decide

theorem stringBody_plain {c : Char} (h₁ : c ≠ '"') (h₂ : c ≠ '\\') (h : ¬c.toNat < 0x20) :
    stringBody (c :: rest) = (stringBody rest).map fun r => (.char c :: r.1, r.2) := by
  rw [stringBody.eq_def]
  split <;> grind

theorem stringBody_escaped {e d : Char} (he : e ≠ 'u') (h : escaped? e = some d) :
    stringBody ('\\' :: e :: rest) = (stringBody rest).map fun r => (.char d :: r.1, r.2) := by
  rw [stringBody.eq_def]
  split <;> grind

theorem stringBody_unit (h : unit? a b c d = some n) :
    stringBody ('\\' :: 'u' :: a :: b :: c :: d :: rest) =
      (stringBody rest).map fun r => (.unit n :: r.1, r.2) := by
  rw [stringBody]
  simp [h]

theorem stringBody_writeChar (c : Char) (rest : List Char) :
    stringBody (writeChar c ++ rest) = (stringBody rest).map fun r => (pieceOf c :: r.1, r.2) := by
  by_cases hs : c ∈ ['"', '\\', '\x08', '\x0c', '\n', '\r', '\t']
  case pos =>
    simp only [List.mem_cons, List.not_mem_nil, or_false] at hs
    rcases hs with rfl | rfl | rfl | rfl | rfl | rfl | rfl <;>
      exact stringBody_escaped (by decide) rfl
  case neg =>
    simp only [List.mem_cons, List.not_mem_nil, or_false, not_or] at hs
    obtain ⟨h₁, h₂, h₃, h₄, h₅, h₆, h₇⟩ := hs
    by_cases hc : c.toNat < 0x20
    case pos =>
      have ⟨digits, unit⟩ := unit_control _ hc
      have written : writeChar c = '\\' :: 'u' ::
          (List.replicate (4 - (Nat.toDigits 16 c.toNat).length) '0' ++
            Nat.toDigits 16 c.toNat) := by
        simp only [writeChar, h₁, h₂, h₃, h₄, h₅, h₆, h₇, hc, if_true, if_false]
        rfl
      have piece : pieceOf c = .unit c.toNat := by simp [pieceOf, hc, h₃, h₄, h₅, h₆, h₇]
      rw [written, digits, piece]
      exact stringBody_unit unit
    case neg =>
      have written : writeChar c = [c] := by
        simp only [writeChar, h₁, h₂, h₃, h₄, h₅, h₆, h₇, hc, if_false]
      have piece : pieceOf c = .char c := by simp [pieceOf, hc]
      rw [written, piece]
      exact stringBody_plain h₁ h₂ hc

theorem characters_unit {ps : List Piece} (h : n < 0x20) :
    Piece.characters? (.unit n :: ps) = (Piece.characters? ps).map (Char.ofNat n :: ·) := by
  have high : Piece.isHighSurrogate n = false := by simp [Piece.isHighSurrogate]; omega
  have low : Piece.isLowSurrogate n = false := by simp [Piece.isLowSurrogate]; omega
  rw [Piece.characters?.eq_def]
  split <;> simp_all

theorem characters_pieceOf (cs : List Char) : Piece.characters? (cs.map pieceOf) = some cs := by
  induction cs with
  | nil => rfl
  | cons c cs ih =>
    rw [List.map_cons, pieceOf]
    split
    case isTrue hc => simp [characters_unit hc.1, ih, Char.ofNat_toNat]
    case isFalse => simp only [Piece.characters?, ih, Option.map_some]

theorem stringBody_write {cs : List Char} :
    stringBody (cs.flatMap writeChar ++ '"' :: rest) = some (cs.map pieceOf, rest) := by
  induction cs with
  | nil => simp [stringBody]
  | cons c cs ih => simp [stringBody_writeChar, ih]

theorem reads_text {s : String} : Reads (writeText s).toList
    [.text (s.toList.map pieceOf)] rest := by
  have eq : (writeText s).toList = '"' :: (s.toList.flatMap writeChar ++ ['"']) := by
    simp [writeText]
  rw [eq]
  refine .of_next fun r hr => ?_
  simpa [next, isSpace, stringBody_write, eq_comm] using hr

theorem text?_pieceOf (s : String) : text? (.text (s.toList.map pieceOf)) = some s := by
  simp [text?, characters_pieceOf]

-- Numbers.

-- What may follow a value.
def Ends (rest : List Char) : Prop :=
  ∀ c ∈ rest.head?, c ∈ [',', ']', '\x7d']

theorem Ends.mark (h : c ∈ [',', ']', '\x7d']) : Ends (c :: rest) := by
  simpa [Ends] using h

-- The parts of a number, as they are written.

def signText (negative : Bool) : List Char :=
  if negative then ['-'] else []

def fractionText : Option (List Char) → List Char
  | none => []
  | some ds => '.' :: ds

def exponentText : Option (Bool × List Char) → List Char
  | none => []
  | some (down, ds) => 'e' :: (if down then '-' else '+') :: ds

theorem digits_append {ds : List Char} (h : ∀ d ∈ ds, d.isDigit)
    (hr : ∀ c ∈ rest.head?, c.isDigit = false) : digits (ds ++ rest) = (ds, rest) := by
  have ht : rest.takeWhile Char.isDigit = [] := by cases rest <;> simp_all
  have hd : rest.dropWhile Char.isDigit = rest := by cases rest <;> simp_all
  simp [digits, List.takeWhile_append_of_pos h, List.dropWhile_append_of_pos h, ht, hd]

theorem whole_ok {ds : List Char} (h : ∀ d ∈ ds, d.isDigit)
    (hr : ∀ c ∈ rest.head?, c.isDigit = false)
    (hw : whole? (ds ++ rest) = some r) : r = (ds, rest) := by
  simp only [whole?, digits_append h hr] at hw
  split at hw <;> simp_all

theorem fraction_ok {f : Option (List Char)} (h : ∀ ds, f = some ds → ∀ d ∈ ds, d.isDigit)
    (hr : ∀ c ∈ rest.head?, c.isDigit = false ∧ c ≠ '.')
    (hf : fraction? (fractionText f ++ rest) = some r) : r = (f, rest) := by
  cases f with
  | none =>
    unfold fractionText fraction? at hf
    split at hf <;> simp_all
  | some ds =>
    simp only [fractionText, List.cons_append, fraction?,
      digits_append (h ds rfl) fun c hc => (hr c hc).1] at hf
    split at hf <;> simp_all

theorem exponent_ok {x : Option (Bool × List Char)} (h : ∀ y, x = some y → ∀ d ∈ y.2, d.isDigit)
    (hr : ∀ c ∈ rest.head?, c.isDigit = false ∧ c ≠ 'e' ∧ c ≠ 'E')
    (hx : exponent? (exponentText x ++ rest) = some r) : r = (x, rest) := by
  cases x with
  | none =>
    unfold exponentText exponent? at hx
    split at hx <;> simp_all
  | some y =>
    obtain ⟨down, ds⟩ := y
    have read := digits_append (h _ rfl) fun c hc => (hr c hc).1
    cases down <;>
    · simp [exponentText, exponent?, exponentDigits?, read] at hx
      split at hx <;> simp_all

-- The digits of a number text, as far as there are any.
structure Digital (n : NumberText) : Prop where
  whole : ∀ d ∈ n.whole, d.isDigit
  fraction : ∀ ds, n.fraction = some ds → ∀ d ∈ ds, d.isDigit
  exponent : ∀ y, n.exponent = some y → ∀ d ∈ y.2, d.isDigit

def unsigned (n : NumberText) : List Char :=
  n.whole ++ (fractionText n.fraction ++ exponentText n.exponent)

theorem number_ok {n : NumberText} (h : Digital n) (hr : Ends rest)
    (hn : number? n.negative (unsigned n ++ rest) = some r) : r = (n, rest) := by
  have ends : ∀ c ∈ rest.head?, c.isDigit = false ∧ c ≠ '.' ∧ c ≠ 'e' ∧ c ≠ 'E' := by
    intro c hc
    have hm := hr c hc
    simp only [List.mem_cons, List.not_mem_nil, or_false] at hm
    rcases hm with rfl | rfl | rfl <;> decide
  have afterFraction : ∀ c ∈ (exponentText n.exponent ++ rest).head?,
      c.isDigit = false ∧ c ≠ '.' := by
    intro c hc
    cases he : n.exponent with
    | none =>
      have ⟨hd, hp, _⟩ := ends c (by simpa [he, exponentText] using hc)
      exact ⟨hd, hp⟩
    | some y =>
      obtain rfl : 'e' = c := by simpa [he, exponentText] using hc
      decide
  have afterWhole : ∀ c ∈ (fractionText n.fraction ++ (exponentText n.exponent ++ rest)).head?,
      c.isDigit = false := by
    intro c hc
    cases hf : n.fraction with
    | none => exact (afterFraction c (by simpa [hf, fractionText] using hc)).1
    | some ds =>
      obtain rfl : '.' = c := by simpa [hf, fractionText] using hc
      decide
  simp only [number?, unsigned, List.append_assoc, Option.bind_eq_bind, Option.bind_eq_some_iff,
    Option.pure_def, Option.some.injEq] at hn
  obtain ⟨w, hw, f, hf, x, hx, rfl⟩ := hn
  obtain rfl := whole_ok h.whole afterWhole hw
  obtain rfl := fraction_ok h.fraction afterFraction hf
  obtain rfl := exponent_ok h.exponent (fun c hc => ⟨(ends c hc).1, (ends c hc).2.2⟩) hx
  rfl

theorem next_digit {c : Char} (h : c.isDigit) :
    next c rest = (number? false (c :: rest)).map fun r => (some (.number r.1), r.2) := by
  have blank : isSpace c = false := by
    unfold isSpace
    refine Bool.eq_false_iff.mpr fun hs => ?_
    simp only [Bool.or_eq_true, beq_iff_eq] at hs
    rcases hs with ((rfl | rfl) | rfl) | rfl <;> cases h
  unfold next
  simp only [blank, Bool.false_eq_true, if_false]
  split <;> simp_all

-- Of a text in the shape of a number nothing is read but that number.
theorem reads_number {n : NumberText} (h : Digital n) (hn : n.whole ≠ [] ∨ n.exponent.isSome)
    (hr : Ends rest) : Reads (signText n.negative ++ unsigned n) [.number n] rest := by
  cases hneg : n.negative with
  | true =>
    refine .of_next fun r hs => ?_
    have read : (number? true (unsigned n ++ rest)).map
        (fun r => (some (.number r.1), r.2)) = some r := by
      simpa [next, isSpace] using hs
    obtain ⟨q, hq, rfl⟩ := Option.map_eq_some_iff.mp read
    obtain rfl : q = (n, rest) := number_ok h hr (by rwa [hneg])
    rfl
  | false =>
    simp only [signText, Bool.false_eq_true, if_false, List.nil_append]
    cases hw : n.whole with
    | cons d ds =>
      have text :
          unsigned n = d :: (ds ++ (fractionText n.fraction ++ exponentText n.exponent)) := by
        simp [unsigned, hw]
      rw [text]
      refine .of_next fun r hs => ?_
      rw [next_digit (h.whole d (by simp [hw]))] at hs
      obtain ⟨q, hq, rfl⟩ := Option.map_eq_some_iff.mp hs
      obtain rfl : q = (n, rest) := number_ok h hr (by rwa [hneg, text])
      rfl
    | nil =>
      obtain ⟨⟨down, ds⟩, hx⟩ := Option.isSome_iff_exists.mp (hn.resolve_left (by simp [hw]))
      simp only [unsigned, hw, hx]
      cases hf : n.fraction <;> exact .of_none (by simp [next, isSpace])

end Historian.Json.Token
