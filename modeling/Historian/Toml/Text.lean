import Historian.Json.Value
import Historian.Toml.Scalar

/-!
Quoted texts of TOML documents. A text between double quotes has escapes, one between single quotes
is taken as it stands; three quotes allow line ends, of which one right after the opening is
dropped.
-/
namespace Historian.Toml

/-- Whether a character may stand in a text as it is: no control character but the tab. -/
def isPlain (c : Char) : Bool := c = '\t' || (0x20 ≤ c.toNat && c.toNat ≠ 0x7F)

def simpleEscape? : Char → Option Char
  | 'b' => some '\x08'
  | 't' => some '\t'
  | 'n' => some '\n'
  | 'f' => some '\x0c'
  | 'r' => some '\r'
  | '"' => some '"'
  | '\\' => some '\\'
  | _ => none

/-- The character of hexadecimal digits. -/
def codePoint? (ds : List Char) : Option Char :=
  if ds.all isHexDigit && (valueIn 16 ds).isValidChar then some (Char.ofNat (valueIn 16 ds))
  else none

def push (c : Char) (r : List Char × List Char) : List Char × List Char := (c :: r.1, r.2)

/-- The rest of a text after its opening double quote. -/
def escapedBody : List Char → Option (List Char × List Char)
  | '"' :: rest => some ([], rest)
  | '\\' :: 'u' :: a :: b :: c :: d :: rest => do
    return push (← codePoint? [a, b, c, d]) (← escapedBody rest)
  | '\\' :: 'U' :: a :: b :: c :: d :: e :: f :: g :: h :: rest => do
    return push (← codePoint? [a, b, c, d, e, f, g, h]) (← escapedBody rest)
  | '\\' :: e :: rest => do return push (← simpleEscape? e) (← escapedBody rest)
  | c :: rest => if c ≠ '\\' ∧ isPlain c then do return push c (← escapedBody rest) else none
  | [] => none

/-- The rest of a text after its opening single quote. -/
def literalBody : List Char → Option (List Char × List Char)
  | '\'' :: rest => some ([], rest)
  | c :: rest => if isPlain c then do return push c (← literalBody rest) else none
  | [] => none

/-- Whether only blanks come before the end of the line. -/
def endsLine : List Char → Bool
  | ' ' :: cs | '\t' :: cs => endsLine cs
  | '\n' :: _ | '\r' :: '\n' :: _ => true
  | _ => false

/-- The rest of a text after its three opening double quotes. While `skipping`, blanks and line ends
are dropped, which a backslash at the end of a line begins. -/
def escapedLines (skipping : Bool) : List Char → Option (List Char × List Char)
  | '"' :: '"' :: '"' :: '"' :: '"' :: rest => some (['"', '"'], rest)
  | '"' :: '"' :: '"' :: '"' :: rest => some (['"'], rest)
  | '"' :: '"' :: '"' :: rest => some ([], rest)
  | '\\' :: 'u' :: a :: b :: c :: d :: rest => do
    return push (← codePoint? [a, b, c, d]) (← escapedLines false rest)
  | '\\' :: 'U' :: a :: b :: c :: d :: e :: f :: g :: h :: rest => do
    return push (← codePoint? [a, b, c, d, e, f, g, h]) (← escapedLines false rest)
  | '\r' :: '\n' :: rest =>
    if skipping then escapedLines true rest else do return push '\n' (← escapedLines false rest)
  | '\n' :: rest =>
    if skipping then escapedLines true rest else do return push '\n' (← escapedLines false rest)
  | '\\' :: e :: rest =>
    if endsLine (e :: rest) then escapedLines true (e :: rest)
    else do return push (← simpleEscape? e) (← escapedLines false rest)
  | c :: rest =>
    if skipping && (c == ' ' || c == '\t') then escapedLines true rest
    else if c ≠ '\\' ∧ isPlain c then do return push c (← escapedLines false rest)
    else none
  | [] => none

/-- The rest of a text after its three opening single quotes. -/
def literalLines : List Char → Option (List Char × List Char)
  | '\'' :: '\'' :: '\'' :: '\'' :: '\'' :: rest => some (['\'', '\''], rest)
  | '\'' :: '\'' :: '\'' :: '\'' :: rest => some (['\''], rest)
  | '\'' :: '\'' :: '\'' :: rest => some ([], rest)
  | '\r' :: '\n' :: rest => do return push '\n' (← literalLines rest)
  | '\n' :: rest => do return push '\n' (← literalLines rest)
  | c :: rest => if isPlain c then do return push c (← literalLines rest) else none
  | [] => none

/-- Drops a line end at the front. -/
def dropLineEnd : List Char → List Char
  | '\n' :: cs | '\r' :: '\n' :: cs => cs
  | cs => cs

/-- The quoted text at the front, within one line, and what follows it. -/
def lineText? : List Char → Option (String × List Char)
  | '"' :: cs => do
    let (s, rest) ← escapedBody cs
    return (String.ofList s, rest)
  | '\'' :: cs => do
    let (s, rest) ← literalBody cs
    return (String.ofList s, rest)
  | _ => none

/-- The quoted text at the front and what follows it. -/
def text? : List Char → Option (String × List Char)
  | '"' :: '"' :: '"' :: cs => do
    let (s, rest) ← escapedLines false (dropLineEnd cs)
    return (String.ofList s, rest)
  | '\'' :: '\'' :: '\'' :: cs => do
    let (s, rest) ← literalLines (dropLineEnd cs)
    return (String.ofList s, rest)
  | cs => lineText? cs

end Historian.Toml
