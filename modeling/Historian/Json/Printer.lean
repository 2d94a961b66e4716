import Historian.Decimal.Shortest
import Historian.Json.Value

/-!
The compact text of a JSON value: no blanks, members in their order, and numbers with the fewest
digits that read back as the same number.
-/
namespace Historian.Json

/-- Numbers from 1e-5 up to 1e16 are written positionally, and whole ones keep `.0`. -/
def realLayout : Decimal.Layout where
  positional exponent := -5 ≤ exponent && exponent < 16
  keepPoint := true
  infinite := "null"
  notNumber := "null"

def Number.write : Number → String
  | .int n => toString n
  | .real x => if x.isFinite then realLayout.write x else "null"

/-- One character of a string: quotes, backslashes and control characters are escaped. -/
def writeChar (c : Char) : List Char :=
  if c = '"' then ['\\', '"']
  else if c = '\\' then ['\\', '\\']
  else if c = '\x08' then ['\\', 'b']
  else if c = '\x0c' then ['\\', 'f']
  else if c = '\n' then ['\\', 'n']
  else if c = '\r' then ['\\', 'r']
  else if c = '\t' then ['\\', 't']
  else if c.toNat < 0x20 then
    let ds := Nat.toDigits 16 c.toNat
    ['\\', 'u'] ++ List.replicate (4 - ds.length) '0' ++ ds
  else [c]

def writeText (s : String) : String :=
  "\"" ++ String.ofList (s.toList.flatMap writeChar) ++ "\""

mutual

/-- The compact text of a value. -/
def write : Json → String
  | .null => "null"
  | .bool true => "true"
  | .bool false => "false"
  | .number n => n.write
  | .text s => writeText s
  | .list xs => "[" ++ writeItems xs ++ "]"
  | .object ms => "\x7b" ++ writeMembers ms ++ "\x7d"

def writeItems : List Json → String
  | [] => ""
  | [x] => write x
  | x :: xs => write x ++ "," ++ writeItems xs

def writeMembers : List (String × Json) → String
  | [] => ""
  | [(k, v)] => writeText k ++ ":" ++ write v
  | (k, v) :: ms => writeText k ++ ":" ++ write v ++ "," ++ writeMembers ms

end

end Historian.Json
