import Mathlib
import Historian.Identifier
import Historian.Sql.Lexer
import Historian.Sql.Quote

namespace Historian

-- The characters of a text, taken from its bytes one by one if that is what they are. Statements
-- are long, and to look up every character of one is the longest part of computing what it does.
def Text.characters (s : String) : List Char :=
  let bytes := s.toByteArray.data.toList
  let cs := bytes.map fun b => Char.ofNat b.toNat
  if cs.flatMap String.utf8EncodeChar = bytes then cs else s.toList

theorem Text.characters_eq (s : String) : characters s = s.toList := by
  unfold characters
  extract_lets bytes cs
  split
  case isFalse => rfl
  case isTrue h =>
    have encoded : cs.utf8Encode = s.toByteArray :=
      ByteArray.ext (Array.toList_inj.mp (List.toList_data_toByteArray.trans h))
    have same : String.ofList cs = s :=
      String.toByteArray_inj.mp (String.toByteArray_ofList.trans encoded)
    rw [← same, String.toList_ofList]

theorem Sql.tokenize_characters : tokenize = fun s => Lexer.scan (Text.characters s) := by
  funext s
  rw [Text.characters_eq]
  rfl

namespace Sql.Lexer

-- The front `cs` of a text is read as the tokens `ts`. What follows is part of the statement
-- because words, numbers and names go on as far as they can.
def Reads (cs : List Char) (ts : List Token) (rest : List Char) : Prop :=
  scan (cs ++ rest) = (scan rest).map (ts ++ ·)

theorem scan_nil : scan [] = .ok [] := by
  simp [scan]

theorem scan_cons {t : Option Token} (h : next c cs = .ok (t, rest)) :
    scan (c :: cs) = (scan rest).map (t.toList ++ ·) := by
  rw [scan]
  split <;> simp_all

namespace Reads

theorem nil : Reads [] [] rest := by
  cases h : scan rest <;> simp [Reads, h, Except.map]

theorem append (h₁ : Reads cs ts (ds ++ rest)) (h₂ : Reads ds us rest) :
    Reads (cs ++ ds) (ts ++ us) rest := by
  unfold Reads at *
  rw [List.append_assoc, h₁, h₂]
  cases scan rest <;> simp [Except.map]

theorem of_next {t : Option Token} (h : next c (cs ++ rest) = .ok (t, rest)) :
    Reads (c :: cs) t.toList rest :=
  scan_cons h

-- A text that is read to its end has exactly these tokens.
theorem scan_eq (h : Reads cs ts []) : scan cs = .ok ts := by
  simpa [Reads, scan_nil, Except.map] using h

theorem tokenize_eq {s : String} (h : Reads s.toList ts []) : tokenize s = .ok ts :=
  h.scan_eq

-- If the whole is read, so is the rest.
theorem tokenize_ok {s : String} (hs : s.toList = cs ++ rest) (h : Reads cs ts rest)
    (ho : tokenize s = .ok us) : ∃ vs, scan rest = .ok vs ∧ us = ts ++ vs := by
  rw [tokenize, hs, h] at ho
  cases hr : scan rest <;> simp_all [Except.map]

theorem blank : Reads [' '] [] rest :=
  of_next (t := none) <| by simp [next]

end Reads

-- Names between backticks.

theorem nameBody_append {cs : List Char} (h : '`' ∉ cs) (hr : rest.head? ≠ some '`') :
    nameBody (cs ++ '`' :: rest) = some (cs, rest) := by
  induction cs with
  | nil =>
    cases rest with
    | nil => simp [nameBody]
    | cons d ds => simp_all [nameBody]
  | cons c cs ih =>
    have hc : c ≠ '`' := fun he => h (he ▸ List.mem_cons_self)
    have hcs : '`' ∉ cs := fun hm => h (List.mem_cons_of_mem _ hm)
    cases cs <;> simp_all [nameBody]

theorem Reads.name {s : String} (h : '`' ∉ s.toList) (hr : rest.head? ≠ some '`') :
    Reads (name s).toList [.quoted s] rest := by
  have hn : (Sql.name s).toList = '`' :: (s.toList ++ ['`']) := by simp [Sql.name]
  rw [hn]
  refine of_next (t := some (.quoted s)) ?_
  simp [next, quotedName, nameBody_append h hr, found]

-- Words.

-- The word before a text ends where the text begins.
def Stops (rest : List Char) : Prop :=
  ∀ c ∈ rest.head?, isWordPart c = false ∧ c ≠ '\''

theorem Stops.nil : Stops [] := nofun

theorem Stops.cons (h : isWordPart c = false := by decide) (h' : c ≠ '\'' := by decide) :
    Stops (c :: rest) := by
  simp [Stops, h, h']

theorem isWordPart_of_isPart {c : Char} (h : Identifier.isPart c) : isWordPart c := by
  have := @Text.isLetter_of_isAlpha c
  simp_all [Identifier.isPart, isWordPart, isWordStart, Char.isAlphanum]
  grind

-- A bare word in letters, digits and underscores.
def isPlainWord (s : String) : Bool :=
  match s.toList with
  | [] => false
  | c :: cs => Identifier.isStart c && cs.all Identifier.isPart

theorem wordAfter_append {first cs rest : List Char} (h : ∀ d ∈ cs, Identifier.isPart d)
    (hr : Stops rest) :
    wordAfter first (cs ++ rest) = (.word (String.ofList (first ++ cs)), rest) := by
  have ht : rest.takeWhile isWordPart = [] := by
    cases rest <;> simp_all [Stops]
  have hd : rest.dropWhile isWordPart = rest := by
    cases rest <;> simp_all [Stops]
  have hcs : ∀ d ∈ cs, isWordPart d := fun d hd => isWordPart_of_isPart (h d hd)
  simp [wordAfter, List.takeWhile_append_of_pos hcs, List.dropWhile_append_of_pos hcs, ht, hd]

theorem next_isStart {c : Char} (h : Identifier.isStart c) (hr : rest.head? ≠ some '\'') :
    next c rest = found (wordAfter [c] rest) := by
  have marked : markedText c rest = found (wordAfter [c] rest) := by
    unfold markedText; split <;> simp_all
  have escaped : escapedText c rest = found (wordAfter [c] rest) := by
    unfold escapedText; split <;> simp_all
  have start : isWordStart c := by
    have := @Text.isLetter_of_isAlpha c
    simp_all [Identifier.isStart, isWordStart]
    grind
  have other : ∀ d : Char, Identifier.isStart d = false → c ≠ d := by
    rintro d hd rfl
    simp_all
  have digit : c.isDigit = false := by
    simp only [Identifier.isStart, Bool.or_eq_true, beq_iff_eq] at h
    rcases h with h | rfl
    · simp [Char.isAlpha, Char.isUpper, Char.isLower, Char.isDigit] at *; grind
    · decide
  unfold next
  simp only [marked, escaped, start, digit, other ' ' (by decide), other '\t' (by decide),
    other '\n' (by decide), other '\r' (by decide), other '\'' (by decide), other '"' (by decide),
    other '`' (by decide), other '#' (by decide), other '-' (by decide), other '/' (by decide),
    other '@' (by decide), other '?' (by decide)]
  simp [other '.' (by decide)]

theorem Reads.word {s : String} (hr : Stops rest) (h : isPlainWord s := by decide) :
    Reads s.toList [.word s] rest := by
  unfold isPlainWord at h
  split at h <;> try contradiction
  case h_2 c cs hs =>
  obtain ⟨hc, hcs⟩ : Identifier.isStart c ∧ ∀ d ∈ cs, Identifier.isPart d := by simpa using h
  have quote : (cs ++ rest).head? ≠ some '\'' := by
    cases cs with
    | nil => cases rest <;> simp_all [Stops]
    | cons d ds => rintro hd; simp at hd; subst hd; simp [Identifier.isPart] at hcs
  have ho : String.ofList (c :: cs) = s := by simp [← hs]
  rw [hs]
  refine of_next (t := some (.word s)) ?_
  rw [next_isStart hc quote, wordAfter_append hcs hr]
  simp [found, ho]

-- Words with a blank after each.
def phrase (ws : List String) : List Char :=
  ws.flatMap fun w => w.toList ++ [' ']

theorem Reads.phrase {ws : List String} (h : ∀ w ∈ ws, isPlainWord w) :
    Reads (phrase ws) (ws.map .word) rest := by
  induction ws with
  | nil => exact .nil
  | cons w ws ih =>
    have ⟨hw, hws⟩ := List.forall_mem_cons.mp h
    have word : Reads w.toList [.word w] ([' '] ++ (Lexer.phrase ws ++ rest)) := .word .cons hw
    simpa [Lexer.phrase] using (word.append .blank).append (ih hws)

theorem Reads.words (ws : List String) (hs : cs = Lexer.phrase ws := by rfl)
    (h : ∀ w ∈ ws, isPlainWord w := by decide) : Reads cs (ws.map .word) rest :=
  hs ▸ .phrase h

-- Marks.

theorem operators_find {c : Char} (h : c ∈ ['(', ')', ',']) :
    operators.find? (·.isPrefixOf (c :: rest)) = none := by
  simp only [List.mem_cons, List.not_mem_nil, or_false] at h
  obtain rfl | rfl | rfl := h <;> simp [operators]

theorem Reads.mark {c : Char} (h : c ∈ ['(', ')', ',']) : Reads [c] [.punct c] rest := by
  refine of_next (t := some (.punct c)) ?_
  have hs : symbol c rest = (.punct c, rest) := by simp [symbol, operators_find h]
  simp only [List.mem_cons, List.not_mem_nil, or_false] at h
  have hn : next c rest = found (symbol c rest) := by
    obtain rfl | rfl | rfl := h <;> simp [next, isWordStart, Text.isLetter, Text.isBlank]
  simp [hn, hs, found]

theorem Reads.point (h : ∀ c ∈ rest.head?, c.isDigit = false) : Reads ['.'] [.punct '.'] rest := by
  refine of_next (t := some (.punct '.')) ?_
  have ht : rest.takeWhile Char.isDigit = [] := by cases rest <;> simp_all
  have hd : rest.dropWhile Char.isDigit = rest := by cases rest <;> simp_all
  simp [next, number, digitsAndPoint, ht, hd, found]

-- Numbers.

theorem number_digits {ds rest : List Char} (h : ds ≠ []) (hd : ∀ d ∈ ds, d.isDigit)
    (hr : ∀ c ∈ rest.head?, isWordPart c = false ∧ c ≠ '.') :
    number (ds ++ rest) = (.number (String.ofList ds), rest) := by
  have ht : rest.takeWhile isWordPart = [] := by cases rest <;> simp_all
  have digit : ∀ c ∈ rest.head?, c.isDigit = false := by
    intro c hc; have := (hr c hc).1; simp_all [isWordPart]
  have ht' : rest.takeWhile Char.isDigit = [] := by cases rest <;> simp_all
  have hd' : rest.dropWhile Char.isDigit = rest := by cases rest <;> simp_all
  have hp : digitsAndPoint (ds ++ rest) = (ds, rest) := by
    simp [digitsAndPoint, List.takeWhile_append_of_pos hd,
      List.dropWhile_append_of_pos hd, ht', hd']
    split <;> simp_all
  have notMark : ∀ c ∈ rest.head?, c ≠ 'e' ∧ c ≠ 'E' ∧ c ≠ 'x' := by
    rintro c hc
    have := (hr c hc).1
    refine ⟨?_, ?_, ?_⟩ <;> rintro rfl <;> contradiction
  have he : exponent? rest = none := by
    unfold exponent?
    split <;> simp_all
  have notPoint : ds ≠ ['.'] := by
    rintro rfl
    simpa using hd '.' List.mem_cons_self
  unfold number
  split
  case h_1 cs heq =>
    have : ∀ d ∈ ds, d ≠ 'x' := by rintro d hm rfl; simpa using hd _ hm
    cases ds with
    | nil => contradiction
    | cons d ds => cases ds <;> simp_all
  case h_2 => simp [hp, notPoint, he, ht]

theorem next_digit {c : Char} (h : c.isDigit) : next c rest = found (number (c :: rest)) := by
  have other : ∀ d : Char, d.isDigit = false → c ≠ d := by
    rintro d hd rfl
    simp_all
  unfold next
  simp only [h, other ' ' (by decide), other '\t' (by decide), other '\n' (by decide),
    other '\r' (by decide), other '\'' (by decide), other '"' (by decide), other '`' (by decide),
    other 'e' (by decide), other 'E' (by decide)]
  simp [other 'n' (by decide), other 'N' (by decide), other 'x' (by decide), other 'X' (by decide)]

theorem Reads.number {cs : List Char} (h : cs ≠ []) (hd : ∀ d ∈ cs, d.isDigit)
    (hr : ∀ c ∈ rest.head?, isWordPart c = false ∧ c ≠ '.') :
    Reads cs [.number (String.ofList cs)] rest := by
  have hn := number_digits h hd hr
  cases cs with
  | nil => contradiction
  | cons c cs =>
    refine of_next (t := some (.number (String.ofList (c :: cs)))) ?_
    rw [next_digit (hd c List.mem_cons_self)]
    simp_all [found]

theorem Reads.numeral (n : Nat) (hr : ∀ c ∈ rest.head?, isWordPart c = false ∧ c ≠ '.') :
    Reads (toString n).toList [.number (toString n)] rest := by
  have hs : (toString n).toList = Nat.toDigits 10 n := by simp
  have hn : toString n = String.ofList (Nat.toDigits 10 n) := by rw [← hs, String.ofList_toList]
  have digit : ∀ d ∈ Nat.toDigits 10 n, d.isDigit := fun d hd =>
    Nat.isDigit_of_mem_toDigits (by decide) (by decide) hd
  rw [hs, hn]
  exact .number (by simp) digit hr

-- Texts between quotes.

theorem textBody_literal {cs : List Char} (hr : rest.head? ≠ some '\'') :
    textBody '\'' (cs.flatMap literalChar ++ '\'' :: rest) = some (cs, rest) := by
  induction cs with
  | nil => cases rest <;> simp_all [textBody]
  | cons c cs ih =>
    obtain ⟨d, ds, hd⟩ := List.exists_cons_of_ne_nil
      (l := cs.flatMap literalChar ++ '\'' :: rest) (by simp)
    by_cases hc : c = '\\' ∨ c = '\''
    · obtain rfl | rfl := hc <;> simp [literalChar, textBody, ih, unescape]
    · have ⟨h₁, h₂⟩ := not_or.mp hc
      simp_all [literalChar, textBody]

theorem Reads.literal {s : String} (hr : rest.head? ≠ some '\'') :
    Reads (literal s).toList [.text s] rest := by
  have hl : (Sql.literal s).toList = '\'' :: (s.toList.flatMap literalChar ++ ['\'']) := by
    simp [Sql.literal]
  rw [hl]
  refine of_next (t := some (.text s)) ?_
  simp [next, textToken, quotedText, textBody_literal hr, found]

end Sql.Lexer

end Historian
