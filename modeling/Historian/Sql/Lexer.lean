import Historian.Sql.Token
import Historian.Text.Blank
import Historian.Text.Letter
import Historian.Text.Number

/-!
Splitting a statement into tokens. `next` reads one token off the front of the text and says what is
left, which is never longer than what followed its first character; `scan` reads them all. Words
take in every character from U+0080 to U+FFFF; names stand between backticks, texts between quotes
that are doubled to stand for themselves, with backslash escapes; blanks and comments are dropped.
-/
namespace Historian.Sql

/-- What a text can break off in. -/
inductive LexCause
  | openText | openName | openComment | openEscapedText
deriving DecidableEq, Repr

def LexCause.message : LexCause → String
  | .openText => "Unterminated string literal"
  | .openName => "Expected close delimiter '`' before EOF."
  | .openComment => "Unexpected EOF while in a multi-line comment"
  | .openEscapedText => "Unterminated encoded string literal"

/-- A fault of the text, with the part of it that begins where the fault is reported. -/
structure LexFault where
  cause : LexCause
  rest : List Char
deriving Repr

/-- A line and a column, counted from one. -/
structure Position where
  line : Nat := 1
  column : Nat := 1
deriving DecidableEq, Repr

def Position.advance (p : Position) (c : Char) : Position :=
  if c = '\n' then ⟨p.line + 1, 1⟩ else ⟨p.line, p.column + 1⟩

/-- The fault of a text with its place. -/
def LexFault.message (f : LexFault) (text : List Char) : String :=
  let p := (text.take (text.length - f.rest.length)).foldl Position.advance {}
  s!"{f.cause.message} at Line: {p.line}, Column: {p.column}"

namespace Lexer

/-- The characters a word can begin with. -/
def isWordStart (c : Char) : Bool :=
  Text.isLetter c || c == '_' || c == '$' || c == '@' || (0x80 ≤ c.toNat && c.toNat ≤ 0xFFFF)

def isWordPart (c : Char) : Bool := isWordStart c || c.isDigit

def isHexDigit (c : Char) : Bool :=
  c.isDigit || ('a' ≤ c && c ≤ 'f') || ('A' ≤ c && c ≤ 'F')

/-- The word that begins with `first`, which has been read, and what follows it. -/
def wordAfter (first rest : List Char) : Token × List Char :=
  (.word (String.ofList (first ++ rest.takeWhile isWordPart)), rest.dropWhile isWordPart)

/-- The rest of a line, its end included, dropped. -/
def dropLine : List Char → List Char
  | [] => []
  | c :: cs => if c = '\n' then cs else dropLine cs

/-- What follows a comment of which `depth` levels are open, `last` being the character before.
Comments nest, and one character can end a mark and begin the next. -/
def dropComment : (depth : Nat) → (last : Char) → List Char → Option (List Char)
  | _, _, [] => none
  | depth, last, c :: cs =>
    if last = '/' ∧ c = '*' then dropComment (depth + 1) c cs
    else if last = '*' ∧ c = '/' then
      match depth with
      | 0 | 1 => some cs
      | depth + 2 => dropComment (depth + 1) c cs
    else dropComment depth c cs

/-- The character that a backslash and `c` stand for. -/
def unescape (c : Char) : Char :=
  match c with
  | '0' => '\x00'
  | 'a' => '\x07'
  | 'b' => '\x08'
  | 'f' => '\x0c'
  | 'n' => '\n'
  | 'r' => '\r'
  | 't' => '\t'
  | 'Z' => '\x1a'
  | c => c

/-- The rest of a text after its opening quote: the characters up to the closing quote, and what
follows it. -/
def textBody (quote : Char) : List Char → Option (List Char × List Char)
  | [] => none
  | [c] => if c = quote then some ([], []) else none
  | c :: d :: cs =>
    if c = quote then
      if d = quote then (textBody quote cs).map fun r => (quote :: r.1, r.2)
      else some ([], d :: cs)
    else if c = '\\' then (textBody quote cs).map fun r => (unescape d :: r.1, r.2)
    else (textBody quote (d :: cs)).map fun r => (c :: r.1, r.2)

/-- The rest of a name after its opening backtick. -/
def nameBody : List Char → Option (List Char × List Char)
  | [] => none
  | [c] => if c = '`' then some ([], []) else none
  | c :: d :: cs =>
    if c = '`' then
      if d = '`' then (nameBody cs).map fun r => ('`' :: r.1, r.2)
      else some ([], d :: cs)
    else (nameBody (d :: cs)).map fun r => (c :: r.1, r.2)

def hexValue (ds : List Char) : Nat :=
  ds.foldl (fun n d =>
    16 * n + (if d.isDigit then d.toNat - 48 else d.toLower.toNat - 87)) 0

def octalValue (ds : List Char) : Nat :=
  ds.foldl (fun n d => 8 * n + (d.toNat - 48)) 0

def isOctalDigit (c : Char) : Bool := '0' ≤ c && c ≤ '7'

/-- Drops a plus before the digits of a number. -/
def dropPlus : List Char → List Char
  | '+' :: ds => ds
  | ds => ds

/-- The character of the hexadecimal number in the first `n` characters, if it is one, and what
follows. A plus before the digits is one of the `n`. -/
def codePoint? (n : Nat) (cs : List Char) : Option (Char × List Char) :=
  let ds := dropPlus (cs.take n)
  if (cs.take n).length = n ∧ ds.all isHexDigit ∧ (hexValue ds).isValidChar then
    some (Char.ofNat (hexValue ds), cs.drop n)
  else none

/-- What an escape in a text marked `E` stands for: `c` is the character after the backslash.
Escapes of one byte stand for ASCII characters only. -/
def escapedTextChar? (c : Char) (cs : List Char) : Option (Char × List Char) :=
  match c with
  | 'b' => some ('\x08', cs)
  | 'f' => some ('\x0c', cs)
  | 'n' => some ('\n', cs)
  | 'r' => some ('\r', cs)
  | 't' => some ('\t', cs)
  | 'u' => codePoint? 4 cs
  | 'U' => codePoint? 8 cs
  | 'x' =>
    let ds := (cs.take 2).takeWhile isHexDigit
    if ds.isEmpty then some ('x', cs)
    else if hexValue ds < 128 then some (Char.ofNat (hexValue ds), cs.drop ds.length)
    else none
  | c =>
    if isOctalDigit c then
      let ds := c :: (cs.take 2).takeWhile isOctalDigit
      let n := octalValue ds % 256
      if n < 128 then some (Char.ofNat n, cs.drop (ds.length - 1)) else none
    else some (c, cs)

theorem escapedTextChar_length {c : Char} {cs : List Char} {r : Char × List Char}
    (h : escapedTextChar? c cs = some r) : r.2.length ≤ cs.length := by
  have codePoint {n : Nat} (h : codePoint? n cs = some r) : r.2.length ≤ cs.length := by
    simp only [codePoint?] at h
    split at h <;> simp at h
    subst h; simp
  unfold escapedTextChar? at h
  split at h
  case h_6 => exact codePoint h
  case h_7 => exact codePoint h
  case h_8 =>
    simp only at h
    split at h
    case isTrue => simp at h; subst h; simp
    case isFalse => split at h <;> simp at h; subst h; simp
  case h_9 =>
    split at h
    case isFalse => simp at h; subst h; simp
    case isTrue => simp only at h; split at h <;> simp at h; subst h; simp
  all_goals simp at h; subst h; simp

/-- The rest of a text marked `E` after its opening quote. No character of it may be NUL. -/
def escapedTextBody (cs : List Char) : Option (List Char × List Char) :=
  match cs with
  | [] => none
  | '\'' :: '\'' :: cs => (escapedTextBody cs).map fun r => ('\'' :: r.1, r.2)
  | '\'' :: cs => some ([], cs)
  | '\\' :: c :: cs =>
    match h : escapedTextChar? c cs with
    | none => none
    | some (d, rest) =>
      have : rest.length ≤ cs.length := escapedTextChar_length h
      if d = '\x00' then none else (escapedTextBody rest).map fun r => (d :: r.1, r.2)
  | c :: cs => if c = '\\' then none else (escapedTextBody cs).map fun r => (c :: r.1, r.2)
termination_by cs.length

/-- The exponent at the front of a text: its mark, sign and digits, and what follows. -/
def exponent? : List Char → Option (List Char × List Char)
  | e :: sign :: cs =>
    if e = 'e' ∨ e = 'E' then
      if sign = '+' ∨ sign = '-' then
        if (cs.takeWhile Char.isDigit).isEmpty then none
        else some (e :: sign :: cs.takeWhile Char.isDigit, cs.dropWhile Char.isDigit)
      else if sign.isDigit then
        some (e :: (sign :: cs).takeWhile Char.isDigit, (sign :: cs).dropWhile Char.isDigit)
      else none
    else none
  | _ => none

/-- Whether the mark of an exponent comes next, digits or not. -/
def atExponentMark : List Char → Bool
  | c :: _ => c == 'e' || c == 'E'
  | [] => false

/-- The digits and the point at the front of a text. -/
def digitsAndPoint (cs : List Char) : List Char × List Char :=
  let whole := cs.takeWhile Char.isDigit
  match cs.dropWhile Char.isDigit with
  | '.' :: rest => (whole ++ '.' :: rest.takeWhile Char.isDigit, rest.dropWhile Char.isDigit)
  | rest => (whole, rest)

/-- The token at the front of a text that begins with a digit or a point. Word characters right
after a number without an exponent make the whole a word. -/
def number (cs : List Char) : Token × List Char :=
  match cs with
  | '0' :: 'x' :: rest =>
    (.ofPrinted ("X'".toList ++ rest.takeWhile isHexDigit ++ ['\'']), rest.dropWhile isHexDigit)
  | cs =>
    let (digits, rest) := digitsAndPoint cs
    if digits = ['.'] then (.punct '.', rest)
    else match exponent? rest with
      | some (exponent, 'L' :: rest) => (.number (String.ofList (digits ++ exponent)), rest)
      | some (exponent, rest) => (.number (String.ofList (digits ++ exponent)), rest)
      | none =>
        if atExponentMark rest || (rest.takeWhile isWordPart).isEmpty then
          (.number (String.ofList digits), rest)
        else wordAfter digits rest

/-- The operators of more than one character, a longer one before its beginnings. -/
def operators : List (List Char) :=
  ["->>", "||/", "<=>", "!~~*", "~~*", "!~*", "!~~", "->", "|/", "||", "=>", "==", "!=", "!!", "!~",
    "<=", "<>", "<<", "<@", ">=", ">>", "::", ":=", "&&", "^@", "~*", "~~"].map String.toList

/-- An operator as it is printed: both spellings of "not equal" are printed the same way. -/
def printedOperator (op : List Char) : List Char :=
  if op = ['!', '='] then ['<', '>'] else op

/-- The token of an operator or a single character at the front. -/
def symbol (c : Char) (rest : List Char) : Token × List Char :=
  match operators.find? (·.isPrefixOf (c :: rest)) with
  | some op => (.ofPrinted (printedOperator op), rest.drop (op.length - 1))
  | none => (.punct c, rest)

/-- What follows an `@`, which alone is a token only before a blank, at the end, or with one of its
operators; otherwise the next character begins a word with it, whatever it is. -/
def atSign (rest : List Char) : Token × List Char :=
  match rest with
  | '>' :: cs => (.operator "@>", cs)
  | '?' :: cs => (.operator "@?", cs)
  | '@' :: ' ' :: cs => (.operator "@@", ' ' :: cs)
  | ['@'] => (.operator "@@", [])
  | '@' :: c :: cs => wordAfter ['@', '@', c] cs
  | ' ' :: cs => (.punct '@', ' ' :: cs)
  | [] => (.punct '@', [])
  | c :: cs => wordAfter ['@', c] cs

/-- A text between quotes, or the fault of one that has no end; `start` is the text from the opening
quote on. -/
def quotedText (quote : Char) (start : List Char) : Except LexFault (List Char × List Char) :=
  match textBody quote (start.drop 1) with
  | some r => .ok r
  | none => .error ⟨.openText, start⟩

/-- A token that was found, and what follows it. -/
def found (r : Token × List Char) : Except LexFault (Option Token × List Char) :=
  .ok (some r.1, r.2)

/-- The text that begins with the quote `c`, as a token of its content. -/
def textToken (token : List Char → Token) (c : Char) (rest : List Char) :
    Except LexFault (Option Token × List Char) :=
  match quotedText c (c :: rest) with
  | .ok (body, rest) => found (token body, rest)
  | .error fault => .error fault

/-- What begins with the letter `c`: a text with that mark before its quote, or a word. -/
def markedText (c : Char) (rest : List Char) : Except LexFault (Option Token × List Char) :=
  match rest with
  | '\'' :: body => textToken (fun cs => .ofPrinted (c.toUpper :: '\'' :: cs ++ ['\''])) '\'' body
  | rest => found (wordAfter [c] rest)

/-- What begins with the letter `c`, an `e`: a text with escapes of its own, or a word. -/
def escapedText (c : Char) (rest : List Char) : Except LexFault (Option Token × List Char) :=
  match rest with
  | '\'' :: body =>
    match escapedTextBody body with
    | some (cs, rest) => found (.ofPrinted ('E' :: '\'' :: cs ++ ['\'']), rest)
    | none => .error ⟨.openEscapedText, c :: '\'' :: body⟩
  | rest => found (wordAfter [c] rest)

/-- What begins with a backtick. -/
def quotedName (rest : List Char) : Except LexFault (Option Token × List Char) :=
  match nameBody rest with
  | some (cs, rest) => found (.quoted (String.ofList cs), rest)
  | none => .error ⟨.openName, '`' :: rest⟩

/-- What begins with a slash: a comment, or the slash itself. -/
def slash (rest : List Char) : Except LexFault (Option Token × List Char) :=
  match rest with
  | '*' :: cs =>
    match dropComment 1 ' ' cs with
    | some rest => .ok (none, rest)
    | none => .error ⟨.openComment, []⟩
  | rest => found (.punct '/', rest)

/-- A question mark and the digits after it. -/
def placeholder (rest : List Char) : Token × List Char :=
  (.ofPrinted ('?' :: rest.takeWhile Text.isNumeric), rest.dropWhile Text.isNumeric)

/-- The token that begins with `c`, if it is one, and what follows it. -/
def next (c : Char) (rest : List Char) : Except LexFault (Option Token × List Char) :=
  if c = ' ' ∨ c = '\t' ∨ c = '\n' ∨ c = '\r' then .ok (none, rest)
  else if c ∈ ['n', 'N', 'x', 'X'] then markedText c rest
  else if c = 'e' ∨ c = 'E' then escapedText c rest
  else if c = '\'' then textToken (fun cs => .text (String.ofList cs)) c rest
  else if c = '"' then textToken (fun cs => .ofPrinted (c :: cs ++ [c])) c rest
  else if c = '`' then quotedName rest
  else if c.isDigit || c == '.' then found (number (c :: rest))
  else if c = '#' ∨ (c = '-' ∧ rest.head? = some '-') then .ok (none, dropLine rest)
  else if c = '/' then slash rest
  else if c = '@' then found (atSign rest)
  else if c = '?' then found (placeholder rest)
  else if isWordStart c then found (wordAfter [c] rest)
  else if Text.isBlank c then .ok (none, rest)
  else found (symbol c rest)

-- What is left is never longer than what followed the first character.

theorem wordAfter_length (first rest : List Char) : (wordAfter first rest).2.length ≤ rest.length :=
  (List.dropWhile_sublist _).length_le

theorem dropLine_length (cs : List Char) : (dropLine cs).length ≤ cs.length := by
  fun_induction dropLine cs <;> grind

theorem dropComment_length {depth : Nat} {last : Char} {cs r : List Char}
    (h : dropComment depth last cs = some r) : r.length ≤ cs.length := by
  fun_induction dropComment depth last cs generalizing r <;> grind

theorem textBody_length {quote : Char} {cs : List Char} {r : List Char × List Char}
    (h : textBody quote cs = some r) : r.2.length ≤ cs.length := by
  fun_induction textBody quote cs generalizing r <;> simp_all <;> try grind

theorem nameBody_length {cs : List Char} {r : List Char × List Char} (h : nameBody cs = some r) :
    r.2.length ≤ cs.length := by
  fun_induction nameBody cs generalizing r <;> simp_all <;> try grind

theorem escapedTextBody_length {cs : List Char} {r : List Char × List Char}
    (h : escapedTextBody cs = some r) : r.2.length ≤ cs.length := by
  fun_induction escapedTextBody cs generalizing r <;> simp_all <;> try grind

theorem exponent_length {cs : List Char} {r : List Char × List Char} (h : exponent? cs = some r) :
    r.2.length ≤ cs.length := by
  have digits (ds : List Char) : (ds.dropWhile Char.isDigit).length ≤ ds.length :=
    (List.dropWhile_sublist _).length_le
  unfold exponent? at h
  grind

theorem digitsAndPoint_length {c : Char} {rest : List Char} (h : c.isDigit || c == '.') :
    (digitsAndPoint (c :: rest)).2.length ≤ rest.length := by
  have digits (ds : List Char) : (ds.dropWhile Char.isDigit).length ≤ ds.length :=
    (List.dropWhile_sublist _).length_le
  have := digits rest
  rcases hc : c.isDigit
  · simp only [hc, Bool.false_or, beq_iff_eq] at h
    subst h
    simpa [digitsAndPoint, hc] using this
  · simp only [digitsAndPoint, List.dropWhile_cons, hc, if_true]
    split
    · rename_i ds heq
      have := digits ds
      have := digits rest
      rw [heq] at this
      simp at this ⊢; omega
    · simpa

theorem number_length {c : Char} {rest : List Char} (h : c.isDigit || c == '.') :
    (number (c :: rest)).2.length ≤ rest.length := by
  have first := @digitsAndPoint_length c rest h
  unfold number
  split
  · rename_i heq
    obtain ⟨rfl, rfl⟩ := List.cons.inj heq
    have := (List.dropWhile_sublist isHexDigit (l := ‹List Char›)).length_le
    simp; omega
  · simp only
    split
    · exact first
    · split
      · rename_i heq
        have := exponent_length heq
        simp at this ⊢; omega
      · rename_i heq
        have := exponent_length heq
        simp at this ⊢; omega
      · split
        · exact first
        · exact Nat.le_trans (wordAfter_length ..) first

theorem symbol_length (c : Char) (rest : List Char) : (symbol c rest).2.length ≤ rest.length := by
  unfold symbol
  split <;> simp

theorem atSign_length (rest : List Char) : (atSign rest).2.length ≤ rest.length := by
  unfold atSign
  have word (first rest : List Char) : (wordAfter first rest).2.length ≤ rest.length :=
    wordAfter_length ..
  split <;> try simp
  · exact Nat.le_trans (word _ _) (by omega)
  · exact Nat.le_trans (word _ _) (by omega)

theorem quotedText_length {quote c : Char} {rest : List Char} {r : List Char × List Char}
    (h : quotedText quote (c :: rest) = .ok r) : r.2.length ≤ rest.length := by
  simp only [quotedText, List.drop_succ_cons, List.drop_zero] at h
  split at h <;> simp at h
  subst h
  exact textBody_length ‹_›

theorem found_length {t : Token × List Char} {n : Nat} {r : Option Token × List Char}
    (ht : t.2.length ≤ n) (h : found t = .ok r) : r.2.length ≤ n := by
  simp only [found, Except.ok.injEq] at h
  exact h ▸ ht

theorem textToken_length {token : List Char → Token} {c : Char} {rest : List Char}
    {r : Option Token × List Char} (h : textToken token c rest = .ok r) :
    r.2.length ≤ rest.length := by
  unfold textToken at h
  split at h
  · exact found_length (quotedText_length ‹_›) h
  · simp at h

theorem markedText_length {c : Char} {rest : List Char} {r : Option Token × List Char}
    (h : markedText c rest = .ok r) : r.2.length ≤ rest.length := by
  unfold markedText at h
  split at h
  · exact Nat.le_succ_of_le (textToken_length h)
  · exact found_length (wordAfter_length ..) h

theorem escapedText_length {c : Char} {rest : List Char} {r : Option Token × List Char}
    (h : escapedText c rest = .ok r) : r.2.length ≤ rest.length := by
  unfold escapedText at h
  split at h
  · split at h
    · exact found_length (Nat.le_succ_of_le (escapedTextBody_length ‹_›)) h
    · simp at h
  · exact found_length (wordAfter_length ..) h

theorem quotedName_length {rest : List Char} {r : Option Token × List Char}
    (h : quotedName rest = .ok r) : r.2.length ≤ rest.length := by
  unfold quotedName at h
  split at h
  · exact found_length (nameBody_length ‹_›) h
  · simp at h

theorem slash_length {rest : List Char} {r : Option Token × List Char} (h : slash rest = .ok r) :
    r.2.length ≤ rest.length := by
  unfold slash at h
  split at h
  · split at h
    · simp only [Except.ok.injEq] at h
      exact h ▸ Nat.le_succ_of_le (dropComment_length ‹_›)
    · simp at h
  · exact found_length (Nat.le_refl _) h

theorem next_length {c : Char} {rest : List Char} {r : Option Token × List Char} :
    next c rest = .ok r → r.2.length ≤ rest.length := by
  have dropped {cs : List Char} (hcs : cs.length ≤ rest.length)
      (h : (.ok (none, cs) : Except LexFault (Option Token × List Char)) = .ok r) :
      r.2.length ≤ rest.length := by
    simp only [Except.ok.injEq] at h
    exact h ▸ hcs
  have branch {p : Prop} [Decidable p] {a b : Except LexFault (Option Token × List Char)}
      (ha : p → a = .ok r → r.2.length ≤ rest.length) (hb : b = .ok r → r.2.length ≤ rest.length) :
      (if p then a else b) = .ok r → r.2.length ≤ rest.length := by
    by_cases hp : p
    · rw [if_pos hp]; exact ha hp
    · rw [if_neg hp]; exact hb
  exact branch (fun _ => dropped (Nat.le_refl _))
    (branch (fun _ => markedText_length)
    (branch (fun _ => escapedText_length)
    (branch (fun _ => textToken_length)
    (branch (fun _ => textToken_length)
    (branch (fun _ => quotedName_length)
    (branch (fun hc => found_length (number_length hc))
    (branch (fun _ => dropped (dropLine_length _))
    (branch (fun _ => slash_length)
    (branch (fun _ => found_length (atSign_length _))
    (branch (fun _ => found_length (List.dropWhile_sublist _).length_le)
    (branch (fun _ => found_length (wordAfter_length ..))
    (branch (fun _ => dropped (Nat.le_refl _))
    (found_length (symbol_length ..))))))))))))))

/-- The tokens of a text, blanks and comments dropped. -/
def scan (cs : List Char) : Except LexFault (List Token) :=
  match cs with
  | [] => .ok []
  | c :: rest =>
    match h : next c rest with
    | .error fault => .error fault
    | .ok (t, rest') =>
      have : rest'.length ≤ rest.length := next_length h
      (scan rest').map fun ts => t.toList ++ ts
termination_by cs.length

end Lexer

/-- The tokens of a statement. -/
def tokenize (statement : String) : Except LexFault (List Token) :=
  Lexer.scan statement.toList

end Historian.Sql
