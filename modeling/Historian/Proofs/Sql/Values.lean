import Historian.Duration
import Historian.Feature.Filter
import Historian.Proofs.Json.Numerals
import Historian.Proofs.Sql.Lexing

namespace Historian.Sql.Lexer

open Json (Full)
open Json.Token (Digital unsigned fractionText exponentText)

-- A number before a text ends where the text begins.
def Parts (rest : List Char) : Prop :=
  ∀ c ∈ rest.head?, isWordPart c = false ∧ c ≠ '.'

theorem Parts.cons (h : isWordPart c = false := by decide) (h' : c ≠ '.' := by decide) :
    Parts (c :: rest) := by
  simp [Parts, h, h']

theorem Parts.not_digit (h : Parts rest) : ∀ c ∈ rest.head?, c.isDigit = false := by
  intro c hc
  have := (h c hc).1
  simp_all [isWordPart]

theorem Parts.not_letter (h : Parts rest) {d : Char} (hd : isWordPart d = true := by decide) :
    rest.head? ≠ some d := by
  intro he
  have := (h d he).1
  simp_all

-- The front of a text, as far as a class of characters goes.

theorem takeWhile_front {p : Char → Bool} {cs rest : List Char} (inside : ∀ c ∈ cs, p c)
    (outside : ∀ c ∈ rest.head?, p c = false) : (cs ++ rest).takeWhile p = cs := by
  rw [List.takeWhile_append_of_pos inside]
  cases rest <;> simp_all

theorem dropWhile_front {p : Char → Bool} {cs rest : List Char} (inside : ∀ c ∈ cs, p c)
    (outside : ∀ c ∈ rest.head?, p c = false) : (cs ++ rest).dropWhile p = rest := by
  rw [List.dropWhile_append_of_pos inside]
  cases rest <;> simp_all

-- The numbers of documents are numbers of statements.

theorem digitsAndPoint_append {whole after : List Char} {fraction : Option (List Char)}
    (hw : ∀ d ∈ whole, d.isDigit) (hf : ∀ ds, fraction = some ds → ∀ d ∈ ds, d.isDigit)
    (ha : ∀ c ∈ after.head?, c.isDigit = false ∧ c ≠ '.') :
    digitsAndPoint (whole ++ (fractionText fraction ++ after)) =
      (whole ++ fractionText fraction, after) := by
  have outside : ∀ c ∈ after.head?, c.isDigit = false := fun c hc => (ha c hc).1
  cases fraction with
  | none =>
    simp only [digitsAndPoint, fractionText, List.nil_append, List.append_nil,
      takeWhile_front hw outside, dropWhile_front hw outside]
    split <;> simp_all
  | some ds =>
    have point : ∀ c ∈ ('.' :: (ds ++ after)).head?, c.isDigit = false := by simp
    simp only [digitsAndPoint, fractionText, List.cons_append, takeWhile_front hw point,
      dropWhile_front hw point, takeWhile_front (hf ds rfl) outside,
      dropWhile_front (hf ds rfl) outside]

theorem exponent?_append {ds : List Char} {down : Bool} (hd : ∀ d ∈ ds, d.isDigit) (hn : ds ≠ [])
    (hr : Parts rest) :
    exponent? (exponentText (some (down, ds)) ++ rest) =
      some (exponentText (some (down, ds)), rest) := by
  have front := takeWhile_front hd hr.not_digit
  have back := dropWhile_front hd hr.not_digit
  cases down <;> simp [exponent?, exponentText, front, back, hn]

theorem exponent?_none (hr : Parts rest) : exponent? rest = none := by
  have e := hr.not_letter (d := 'e')
  have e' := hr.not_letter (d := 'E')
  unfold exponent?
  split <;> simp_all

theorem not_mem_unsigned {n : Json.NumberText} (h : Digital n) : 'x' ∉ unsigned n := by
  have digits {ds : List Char} (hd : ∀ d ∈ ds, d.isDigit) : 'x' ∉ ds := fun hm => by
    simpa using hd 'x' hm
  simp only [unsigned, List.mem_append, not_or]
  refine ⟨digits h.whole, ?_, ?_⟩
  · cases hf : n.fraction with
    | none => simp [fractionText]
    | some ds => simpa [fractionText] using digits (h.fraction ds hf)
  · cases he : n.exponent with
    | none => simp [exponentText]
    | some y =>
      have := digits (h.exponent y he)
      obtain ⟨down, ds⟩ := y
      cases down <;> simpa [exponentText] using this

theorem number_unsigned {n : Json.NumberText} (h : Digital n) (hf : Full n) (hr : Parts rest) :
    number (unsigned n ++ rest) = (.number (String.ofList (unsigned n)), rest) := by
  have after : ∀ c ∈ (exponentText n.exponent ++ rest).head?, c.isDigit = false ∧ c ≠ '.' := by
    cases n.exponent with
    | none => exact fun c hc => ⟨hr.not_digit c hc, (hr c hc).2⟩
    | some y => simp [exponentText]
  have parts := digitsAndPoint_append h.whole h.fraction after
  obtain ⟨d, ds, hw⟩ := List.exists_cons_of_ne_nil hf.whole
  have notPoint : n.whole ++ fractionText n.fraction ≠ ['.'] := by
    intro he
    obtain ⟨rfl, -⟩ : d = '.' ∧ _ := by simpa [hw] using he
    simpa using h.whole '.' (by simp [hw])
  have notHex : ∀ cs, unsigned n ++ rest ≠ '0' :: 'x' :: cs := by
    intro cs he
    have inside := not_mem_unsigned h
    have outside := hr.not_letter (d := 'x')
    cases hu : unsigned n with
    | nil => simp [unsigned, hw] at hu
    | cons c us => cases us <;> simp_all
  have whole : unsigned n ++ rest =
      n.whole ++ (fractionText n.fraction ++ (exponentText n.exponent ++ rest)) := by
    simp [unsigned]
  unfold number
  split
  case h_1 cs he => exact absurd he (notHex cs)
  case h_2 =>
    simp only [whole, parts, notPoint, if_false]
    cases he : n.exponent with
    | none =>
      have ends : ([] ++ rest).takeWhile isWordPart = [] :=
        takeWhile_front (by simp) fun c hc => (hr c hc).1
      rw [List.nil_append] at ends
      simp [exponentText, exponent?_none hr, unsigned, he, ends]
    | some y =>
      obtain ⟨down, ds⟩ := y
      rw [exponent?_append (h.exponent _ he) (hf.exponent _ he) hr]
      have l := hr.not_letter (d := 'L')
      split <;> simp_all [unsigned]

theorem Reads.magnitude {n : Json.NumberText} (h : Digital n) (hf : Full n) (hr : Parts rest) :
    Reads (unsigned n) [.number (String.ofList (unsigned n))] rest := by
  have read := number_unsigned h hf hr
  obtain ⟨d, ds, hw⟩ := List.exists_cons_of_ne_nil hf.whole
  have text : unsigned n =
      d :: (ds ++ (fractionText n.fraction ++ exponentText n.exponent)) := by
    simp [unsigned, hw]
  rw [text] at read ⊢
  refine of_next (t := some (.number _)) ?_
  rw [next_digit (h.whole d (by simp [hw])), ← List.cons_append, read]
  rfl

-- The tokens of a number as documents write it: the sign is one of its own.
def numberTokens (s : String) : List Token :=
  match s.toList with
  | '-' :: cs => [.punct '-', .number (String.ofList cs)]
  | 'n' :: _ => [.word s]
  | _ => [.number s]

theorem Reads.minus (h : ∀ c ∈ rest.head?, c.isDigit) : Reads ['-'] [.punct '-'] rest := by
  refine of_next (t := some (.punct '-')) ?_
  cases rest with
  | nil => simp [next, symbol, operators, isWordStart, Text.isLetter, Text.isBlank, found]
  | cons d ds =>
    have hd : d.isDigit := h d rfl
    have minus : d ≠ '-' := by rintro rfl; contradiction
    have arrow : '>' ≠ d := by rintro rfl; contradiction
    simp [next, symbol, operators, isWordStart, Text.isLetter, Text.isBlank, found, minus, arrow]

theorem Reads.jsonNumber (x : Json.Number) :
    Reads x.write.toList (numberTokens x.write) (' ' :: rest) := by
  rcases x.write_cases with hn | ⟨negative, _, ⟨n, hd, hf, rfl⟩, hs⟩
  case inl =>
    rw [hn]
    exact .word .cons
  case inr =>
    have magnitude : Reads (unsigned n) _ (' ' :: rest) := .magnitude hd hf .cons
    obtain ⟨d, ds, hw⟩ := List.exists_cons_of_ne_nil hf.whole
    have digit : d.isDigit := hd.whole d (by simp [hw])
    have front : unsigned n =
        d :: (ds ++ (fractionText n.fraction ++ exponentText n.exponent)) := by
      simp [unsigned, hw]
    unfold numberTokens
    cases negative with
    | true =>
      rw [hs]
      exact Reads.append (.minus (by simp [front, digit])) magnitude
    | false =>
      have whole : x.write = String.ofList (unsigned n) := by
        rw [← String.ofList_toList (s := x.write), hs]
        rfl
      rw [whole, String.toList_ofList]
      split
      case h_1 cs he =>
        obtain ⟨rfl, -⟩ := List.cons.inj (front.symm.trans he)
        contradiction
      case h_2 cs he =>
        obtain ⟨rfl, -⟩ := List.cons.inj (front.symm.trans he)
        contradiction
      case h_3 => exact magnitude

-- Operators and truth values.

theorem next_symbol {c : Char} (h : c ∈ ['=', '!', '<', '>']) :
    next c rest = found (symbol c rest) := by
  simp only [List.mem_cons, List.not_mem_nil, or_false] at h
  obtain rfl | rfl | rfl | rfl := h <;> simp [next, isWordStart, Text.isLetter, Text.isBlank]

-- The engine has one token for both spellings of "not equal".
def opToken : FilterOp → Token
  | .eq => .punct '='
  | .ne => .operator "<>"
  | .gt => .punct '>'
  | .ge => .operator ">="
  | .lt => .punct '<'
  | .le => .operator "<="

theorem Reads.op (op : FilterOp) : Reads op.symbol.toList [opToken op] (' ' :: rest) := by
  have single (c : Char) (hc : c ∈ ['=', '<', '>']) : Reads [c] [.punct c] (' ' :: rest) := by
    refine of_next (t := some (.punct c)) ?_
    simp only [List.mem_cons, List.not_mem_nil, or_false] at hc
    rw [next_symbol (by simp; tauto)]
    obtain rfl | rfl | rfl := hc <;> simp [symbol, operators, found]
  have double (c : Char) (hc : c ∈ ['!', '<', '>']) : Reads [c, '=']
      [.operator (String.ofList (printedOperator [c, '=']))] (' ' :: rest) := by
    refine of_next (t := some (.operator _)) ?_
    simp only [List.mem_cons, List.not_mem_nil, or_false] at hc
    rw [next_symbol (by simp; tauto)]
    obtain rfl | rfl | rfl := hc <;>
      simp [symbol, operators, found, Token.ofPrinted, printedOperator]
  cases op with
  | eq => exact single '=' (by simp)
  | gt => exact single '>' (by simp)
  | lt => exact single '<' (by simp)
  | ge => exact double '>' (by simp)
  | le => exact double '<' (by simp)
  | ne => exact double '!' (by simp)

-- A duration is one word.

theorem number_word {ds : List Char} {u : TimeUnit} (hn : ds ≠ []) (hd : ∀ d ∈ ds, d.isDigit)
    (hr : Stops rest) :
    number (ds ++ u.symbol :: rest) = (.word (String.ofList (ds ++ [u.symbol])), rest) := by
  have unit : Identifier.isPart u.symbol ∧ u.symbol.isDigit = false ∧ u.symbol ≠ '.' ∧
      u.symbol ≠ 'e' ∧ u.symbol ≠ 'E' ∧ u.symbol ≠ 'x' := by
    cases u <;> decide
  obtain ⟨part, notDigit, point, e, e', x⟩ := unit
  have parts : digitsAndPoint (ds ++ (fractionText none ++ u.symbol :: rest)) =
      (ds ++ fractionText none, u.symbol :: rest) :=
    digitsAndPoint_append hd nofun (by simp [notDigit, point])
  rw [fractionText, List.nil_append, List.append_nil] at parts
  have notPoint : ds ≠ ['.'] := by
    rintro rfl
    simpa using hd '.' List.mem_cons_self
  have none : exponent? (u.symbol :: rest) = none := by
    cases rest <;> simp [exponent?, e, e']
  have word : wordAfter ds ([u.symbol] ++ rest) =
      (.word (String.ofList (ds ++ [u.symbol])), rest) :=
    wordAfter_append (by simpa using part) hr
  unfold number
  split
  case h_1 cs he =>
    cases ds with
    | nil => contradiction
    | cons d ds => cases ds <;> simp_all
  case h_2 =>
    simpa [parts, notPoint, none, atExponentMark, e, e', isWordPart_of_isPart part] using word

theorem Reads.duration (d : Duration) (hr : Stops rest) :
    Reads d.write.toList [.word d.write] rest := by
  let digits := Numeral.write (d.millis / d.unit.millis)
  have hd : ∀ c ∈ digits, c.isDigit := Json.isDigit_toDigits _
  obtain ⟨c, cs, hc⟩ := List.exists_cons_of_ne_nil (l := digits) (by simp [digits, Numeral.write])
  have read := number_word (u := d.unit) (by simp [hc]) hd hr
  have write : d.write = String.ofList (digits ++ [d.unit.symbol]) := rfl
  have text : d.write.toList = c :: (cs ++ [d.unit.symbol]) := by
    rw [write, String.toList_ofList, hc, List.cons_append]
  rw [text]
  refine of_next (t := some (.word d.write)) ?_
  rw [next_digit (hd c (by simp [hc])), List.append_assoc, List.singleton_append,
    ← List.cons_append, ← hc, read]
  rfl

end Historian.Sql.Lexer
