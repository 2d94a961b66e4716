import Historian.Json.Numeral

/-!
The tokens of JSON text. Each is read off the front of the text together with what is left, which is
never longer than what was there; `scan` reads a whole text. A token holds what is written. It may
be well written and still stand for no value: a number too large for any, or a string with half of a
surrogate pair.
-/
namespace Historian.Json

/-- A part of a string as it is written: a character, or a code unit given by its digits. -/
inductive Piece
  | char (c : Char)
  | unit (n : Nat)
deriving DecidableEq, Repr

namespace Piece

def isHighSurrogate (n : Nat) : Bool := 0xD800 ≤ n && n < 0xDC00

def isLowSurrogate (n : Nat) : Bool := 0xDC00 ≤ n && n < 0xE000

/-- The characters that a string stands for. A surrogate counts only as half of a pair. -/
def characters? : List Piece → Option (List Char)
  | [] => some []
  | .char c :: ps => (characters? ps).map (c :: ·)
  | .unit n :: .unit m :: ps =>
    if isHighSurrogate n then
      if isLowSurrogate m then
        (characters? ps).map (Char.ofNat (0x10000 + (n - 0xD800) * 0x400 + (m - 0xDC00)) :: ·)
      else none
    else if isLowSurrogate n then none
    else (characters? (.unit m :: ps)).map (Char.ofNat n :: ·)
  | .unit n :: ps =>
    if isHighSurrogate n || isLowSurrogate n then none
    else (characters? ps).map (Char.ofNat n :: ·)

-- Plain characters stand for themselves.

theorem characters_map_char (cs : List Char) : characters? (cs.map .char) = some cs := by
  induction cs with
  | nil => rfl
  | cons c cs ih => simp [characters?, ih]

end Piece

inductive Token
  | openList | closeList | openObject | closeObject | comma | colon
  | literal (value : Json)
  | number (written : NumberText)
  | text (written : List Piece)
deriving Repr

namespace Token

/-- The text that a string stands for. -/
def text? : Token → Option String
  | .text ps => (Piece.characters? ps).map String.ofList
  | _ => none

/-- The value that a token alone stands for. -/
def value? : Token → Option Json
  | .literal v => some v
  | .number n => n.value?.map .number
  | t => t.text?.map .text

/-- The four characters that separate tokens. -/
def isSpace (c : Char) : Bool := c == ' ' || c == '\n' || c == '\r' || c == '\t'

def hexValue? (c : Char) : Option Nat :=
  if c.isDigit then some (c.toNat - '0'.toNat)
  else if 'a' ≤ c ∧ c ≤ 'f' then some (c.toNat - 'a'.toNat + 10)
  else if 'A' ≤ c ∧ c ≤ 'F' then some (c.toNat - 'A'.toNat + 10)
  else none

/-- The code unit that four hexadecimal digits write. -/
def unit? (a b c d : Char) : Option Nat := do
  let a ← hexValue? a
  let b ← hexValue? b
  let c ← hexValue? c
  let d ← hexValue? d
  return ((a * 16 + b) * 16 + c) * 16 + d

/-- The character after a backslash, escapes with code units apart. -/
def escaped? : Char → Option Char
  | '"' => some '"'
  | '\\' => some '\\'
  | '/' => some '/'
  | 'b' => some '\x08'
  | 'f' => some '\x0c'
  | 'n' => some '\n'
  | 'r' => some '\r'
  | 't' => some '\t'
  | _ => none

/-- The rest of a string after its opening quote, and what follows the closing one. -/
def stringBody : List Char → Option (List Piece × List Char)
  | '"' :: rest => some ([], rest)
  | '\\' :: 'u' :: a :: b :: c :: d :: rest =>
    match unit? a b c d with
    | none => none
    | some n => (stringBody rest).map fun r => (.unit n :: r.1, r.2)
  | '\\' :: e :: rest =>
    match escaped? e with
    | none => none
    | some c => (stringBody rest).map fun r => (.char c :: r.1, r.2)
  | c :: rest =>
    if c = '\\' ∨ c.toNat < 0x20 then none
    else (stringBody rest).map fun r => (.char c :: r.1, r.2)
  | [] => none

/-- Splits off the digits at the front. -/
def digits (cs : List Char) : List Char × List Char :=
  (cs.takeWhile Char.isDigit, cs.dropWhile Char.isDigit)

/-- A point and the digits after it, if a point comes next. -/
def fraction? : List Char → Option (Option (List Char) × List Char)
  | '.' :: cs =>
    match digits cs with
    | ([], _) => none
    | (ds, rest) => some (some ds, rest)
  | cs => some (none, cs)

/-- The digits of an exponent whose mark and sign are read. -/
def exponentDigits? (negative : Bool) (cs : List Char) :
    Option (Option (Bool × List Char) × List Char) :=
  match digits cs with
  | ([], _) => none
  | (ds, rest) => some (some (negative, ds), rest)

/-- An exponent, if one comes next. -/
def exponent? : List Char → Option (Option (Bool × List Char) × List Char)
  | c :: cs =>
    if c = 'e' ∨ c = 'E' then
      match cs with
      | '+' :: rest => exponentDigits? false rest
      | '-' :: rest => exponentDigits? true rest
      | _ => exponentDigits? false cs
    else some (none, c :: cs)
  | [] => some (none, [])

/-- The digits before the point: a single zero, or digits that do not begin with one. -/
def whole? (cs : List Char) : Option (List Char × List Char) :=
  match digits cs with
  | ([], _) => none
  | ('0' :: _ :: _, _) => none
  | (ds, rest) => some (ds, rest)

/-- A number after its sign. -/
def number? (negative : Bool) (cs : List Char) : Option (NumberText × List Char) := do
  let (whole, cs) ← whole? cs
  let (fraction, cs) ← fraction? cs
  let (exponent, cs) ← exponent? cs
  return (⟨negative, whole, fraction, exponent⟩, cs)

/-- What the token that begins with `c` is, and what follows it. -/
def next (c : Char) (rest : List Char) : Option (Option Token × List Char) :=
  let number (negative : Bool) (cs : List Char) : Option (Option Token × List Char) :=
    (number? negative cs).map fun r => (some (.number r.1), r.2)
  if isSpace c then some (none, rest)
  else match c with
  | '[' => some (some .openList, rest)
  | ']' => some (some .closeList, rest)
  | '\x7b' => some (some .openObject, rest)
  | '\x7d' => some (some .closeObject, rest)
  | ',' => some (some .comma, rest)
  | ':' => some (some .colon, rest)
  | '"' => (stringBody rest).map fun r => (some (.text r.1), r.2)
  | '-' => number true rest
  | 'n' => match rest with
    | 'u' :: 'l' :: 'l' :: cs => some (some (.literal .null), cs)
    | _ => none
  | 't' => match rest with
    | 'r' :: 'u' :: 'e' :: cs => some (some (.literal (.bool true)), cs)
    | _ => none
  | 'f' => match rest with
    | 'a' :: 'l' :: 's' :: 'e' :: cs => some (some (.literal (.bool false)), cs)
    | _ => none
  | c => if c.isDigit then number false (c :: rest) else none

-- What is left is never longer.

theorem stringBody_length {cs : List Char} {r : List Piece × List Char}
    (h : stringBody cs = some r) :
    r.2.length ≤ cs.length := by
  fun_induction stringBody cs generalizing r <;> simp_all <;> (try grind)

theorem digits_length (cs : List Char) : (digits cs).2.length ≤ cs.length := by
  exact (List.dropWhile_sublist _).length_le

theorem fraction_length {cs : List Char} {r} (h : fraction? cs = some r) :
    r.2.length ≤ cs.length := by
  unfold fraction? at h
  split at h
  case h_1 cs =>
    have := digits_length cs
    split at h <;> simp_all
    subst h; simp; omega
  case h_2 => simp at h; subst h; simp

theorem exponentDigits_length {negative : Bool} {cs : List Char} {r}
    (h : exponentDigits? negative cs = some r) : r.2.length ≤ cs.length := by
  have := digits_length cs
  unfold exponentDigits? at h
  split at h <;> simp_all
  subst h; simpa

theorem exponent_length {cs : List Char} {r} (h : exponent? cs = some r) :
    r.2.length ≤ cs.length := by
  unfold exponent? at h
  split at h
  case h_2 => simp at h; subst h; simp
  case h_1 c cs =>
    split at h
    case isFalse => simp at h; subst h; simp
    case isTrue =>
      split at h <;> have := exponentDigits_length h <;> simp at this ⊢ <;> omega

theorem whole_length {cs : List Char} {r} (h : whole? cs = some r) : r.2.length < cs.length := by
  have len := congrArg List.length (List.takeWhile_append_dropWhile (p := Char.isDigit) (l := cs))
  simp only [List.length_append] at len
  rcases hds : cs.takeWhile Char.isDigit with _ | ⟨d, ds⟩
  · simp [whole?, digits, hds] at h
  · have : r.2 = cs.dropWhile Char.isDigit := by
      simp only [whole?, digits, hds] at h
      split at h <;> simp_all
      exact h ▸ rfl
    rw [this, ← len, hds]
    simp

theorem number_length {negative : Bool} {cs : List Char} {r} (h : number? negative cs = some r) :
    r.2.length < cs.length := by
  simp only [number?, Option.bind_eq_bind, Option.bind_eq_some_iff, Option.pure_def,
    Option.some.injEq] at h
  obtain ⟨w, hw, f, hf, e, he, rfl⟩ := h
  have h₁ := whole_length hw
  have h₂ := fraction_length hf
  have h₃ := exponent_length he
  simp only; omega

theorem next_length {c : Char} {rest : List Char} {r} (h : next c rest = some r) :
    r.2.length ≤ rest.length := by
  have number {negative : Bool} {cs : List Char} {r : Option Token × List Char}
      (h : (number? negative cs).map (fun r => (some (Token.number r.1), r.2)) = some r) :
      r.2.length < cs.length := by
    obtain ⟨t, ht, rfl⟩ := Option.map_eq_some_iff.1 h
    exact number_length ht
  unfold next at h
  simp only at h
  split at h
  case isTrue => simp at h; subst h; simp
  case isFalse =>
    split at h
    case h_7 =>
      obtain ⟨s, hs, rfl⟩ := Option.map_eq_some_iff.1 h
      exact stringBody_length hs
    case h_8 => exact Nat.le_of_lt (number h)
    case h_9 => split at h <;> simp at h; subst h; simp; omega
    case h_10 => split at h <;> simp at h; subst h; simp; omega
    case h_11 => split at h <;> simp at h; subst h; simp; omega
    case h_12 =>
      split at h
      case isTrue => have := number h; simp at this; omega
      case isFalse => simp at h
    all_goals simp at h; subst h; simp

/-- The tokens of a text, blanks between them dropped; none if a part of it is no token. -/
def scan (cs : List Char) : Option (List Token) :=
  match cs with
  | [] => some []
  | c :: rest =>
    match h : next c rest with
    | none => none
    | some (t, rest') =>
      have : rest'.length ≤ rest.length := next_length h
      (scan rest').map fun ts => t.toList ++ ts
termination_by cs.length

end Token

end Historian.Json
