import Historian.Json.Printer
import Historian.Toml.Table
import Historian.Toml.Text

/-!
Reading TOML documents. A document is read line by line: a header says which table the following
keys belong to. The result is one JSON object.
-/
namespace Historian.Toml

def isBlank (c : Char) : Bool := c == ' ' || c == '\t'

def dropBlanks (cs : List Char) : List Char := cs.dropWhile isBlank

theorem length_lt_of_dropBlanks {c : Char} {cs rest : List Char} (h : dropBlanks cs = c :: rest) :
    rest.length < cs.length := by
  have := (List.dropWhile_sublist isBlank (l := cs)).length_le
  rw [← dropBlanks, h, List.length_cons] at this
  exact this

def isLineEnd (c : Char) : Bool := c == '\n' || c == '\r'

/-- What follows a comment after its mark; it ends before the end of its line. -/
def afterComment? (cs : List Char) : Option (List Char) :=
  if (cs.takeWhile (!isLineEnd ·)).all isPlain then some (cs.dropWhile (!isLineEnd ·)) else none

theorem length_le_of_afterComment? {cs rest : List Char} (h : afterComment? cs = some rest) :
    rest.length ≤ cs.length := by
  simp only [afterComment?, Option.ite_none_right_eq_some, Option.some.injEq] at h
  rw [← h.2]
  exact (List.dropWhile_sublist _).length_le

/-- What follows a comment, if one comes next. -/
def dropComment? : List Char → Option (List Char)
  | '#' :: cs => afterComment? cs
  | cs => some cs

/-- What follows the end of a line, blanks and a comment before it dropped. -/
def lineEnd? (cs : List Char) : Option (List Char) := do
  match ← dropComment? (dropBlanks cs) with
  | '\n' :: rest | '\r' :: '\n' :: rest => some rest
  | [] => some []
  | _ => none

/-- Drops blanks, comments and line ends. -/
def dropLines (cs : List Char) : Option (List Char) :=
  match h : dropBlanks cs with
  | '\n' :: rest =>
    have : rest.length < cs.length := length_lt_of_dropBlanks h
    dropLines rest
  | '\r' :: '\n' :: rest =>
    have : rest.length < cs.length := Nat.lt_of_succ_lt (length_lt_of_dropBlanks h)
    dropLines rest
  | '#' :: comment =>
    match hc : afterComment? comment with
    | none => none
    | some rest =>
      have : rest.length < cs.length :=
        Nat.lt_of_le_of_lt (length_le_of_afterComment? hc) (length_lt_of_dropBlanks h)
      dropLines rest
  | rest => some rest
termination_by cs.length

def isKeyChar (c : Char) : Bool := c.isAlphanum || c == '_' || c == '-'

/-- One part of a key and what follows it. -/
def keyPart? (cs : List Char) : Option (String × List Char) :=
  match lineText? cs with
  | some r => some r
  | none =>
    let key := cs.takeWhile isKeyChar
    if key.isEmpty then none else some (String.ofList key, cs.dropWhile isKeyChar)

/-- The parts of a key with dots between them, and what follows the blanks after it. -/
def key? (cs : List Char) : Option (List String × List Char) :=
  match keyPart? (dropBlanks cs) with
  | none => none
  | some (part, rest) =>
    match dropBlanks rest with
    | '.' :: more =>
      if more.length < cs.length then (key? more).map fun r => (part :: r.1, r.2) else none
    | rest => some ([part], rest)
termination_by cs.length

/-- The characters that scalars without quotes are made of. -/
def isScalarChar (c : Char) : Bool :=
  c.isAlphanum || c == '_' || c == '+' || c == '-' || c == '.' || c == ':'

/-- The characters of the scalar at the front, and what follows it. A blank between a date and a
time belongs to them. -/
def scalarText (cs : List Char) : List Char × List Char :=
  let first := cs.takeWhile isScalarChar
  match cs.dropWhile isScalarChar with
  | ' ' :: d :: rest =>
    if isDate first && d.isDigit then
      (first ++ ' ' :: (d :: rest).takeWhile isScalarChar, (d :: rest).dropWhile isScalarChar)
    else (first, ' ' :: d :: rest)
  | rest => (first, rest)

/-- The items of an array after its opening bracket, and what follows the closing one. -/
def items? (value : List Char → Option (Json × List Char)) (cs : List Char) :
    Option (List Json × List Char) :=
  match dropLines cs with
  | none => none
  | some (']' :: rest) => some ([], rest)
  | some start =>
    match value start with
    | none => none
    | some (v, rest) =>
      match dropLines rest with
      | some (',' :: more) =>
        if more.length < cs.length then (items? value more).map fun r => (v :: r.1, r.2) else none
      | some (']' :: rest) => some ([v], rest)
      | _ => none
termination_by cs.length

/-- The pairs of an inline table after its opening brace and the first blanks, put into the entries.
-/
def pairs? (value : List Char → Option (Json × List Char)) (es : Entries) (cs : List Char) :
    Option (Entries × List Char) := do
  let (keys, rest) ← key? cs
  let '=' :: rest := rest | none
  let (v, rest) ← value (dropBlanks rest)
  let es ← assign .header false keys v es
  match dropBlanks rest with
  | ',' :: more => if more.length < cs.length then pairs? value es more else none
  | '\x7d' :: rest => return (es, rest)
  | _ => none
termination_by cs.length

/-- A value and what follows it. Arrays and inline tables nest at most `depth` deep. -/
def value? (depth : Nat) (cs : List Char) : Option (Json × List Char) :=
  match depth with
  | 0 => none
  | depth + 1 =>
    match cs with
    | '[' :: rest => (items? (value? depth) rest).map fun r => (.list r.1, r.2)
    | '\x7b' :: rest =>
      match dropBlanks rest with
      | '\x7d' :: rest => some (.object [], rest)
      | start => (pairs? (value? depth) [] start).map fun r => (.ofMembers (members r.1), r.2)
    | cs =>
      match text? cs with
      | some (s, rest) => some (.text s, rest)
      | none =>
        let (s, rest) := scalarText cs
        (scalar? s).map fun v => (v, rest)

/-- Nesting that is still read. -/
def depthLimit : Nat := 80

/-- A document that has been read so far. -/
structure Document where
  entries : Entries := []
  /-- The table that the following keys belong to. -/
  current : List String := []

/-- Reads one line that is not empty, and says what follows it. -/
def line? (d : Document) (cs : List Char) : Option (Document × List Char) :=
  match cs with
  | '[' :: '[' :: rest => do
    let (path, rest) ← key? rest
    let ']' :: ']' :: rest := rest | none
    let rest ← lineEnd? rest
    let entries ← within path.dropLast (beginItem (← path.getLast?)) d.entries
    return (⟨entries, path⟩, rest)
  | '[' :: rest => do
    let (path, rest) ← key? rest
    let ']' :: rest := rest | none
    let rest ← lineEnd? rest
    let entries ← within path.dropLast (beginTable (← path.getLast?)) d.entries
    return (⟨entries, path⟩, rest)
  | cs => do
    let (keys, rest) ← key? cs
    let '=' :: rest := rest | none
    let (v, rest) ← value? depthLimit (dropBlanks rest)
    let rest ← lineEnd? rest
    let entries ← within d.current (assign .header false keys v) d.entries
    return (⟨entries, d.current⟩, rest)

/-- Reads the rest of a document. -/
def lines? (d : Document) (cs : List Char) : Option Document :=
  match dropLines cs with
  | none => none
  | some [] => some d
  | some start =>
    match line? d start with
    | none => none
    | some (d, rest) => if rest.length < cs.length then lines? d rest else none
termination_by cs.length

/-- Drops a byte order mark. -/
def dropMark : List Char → List Char
  | c :: cs => if c = '\ufeff' then cs else c :: cs
  | [] => []

/-- Reads a document as one object. -/
def read? (s : String) : Option Json := do
  let d ← lines? {} (dropMark s.toList)
  return .ofMembers (members d.entries)

example : (read? "a.b = [1, 'x'] # c\n[t]\nk = 0x1F\n").map Json.write =
    some "\x7b\"a\":\x7b\"b\":[1,\"x\"]\x7d,\"t\":\x7b\"k\":31\x7d\x7d" := by decide +kernel

end Historian.Toml
