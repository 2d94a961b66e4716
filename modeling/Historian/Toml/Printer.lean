import Historian.Decimal.Shortest
import Historian.Text.Numeral

/-!
Writing the scalars of TOML documents. A text is written in the plainest of four ways that can hold
it: between double quotes, between single quotes as it stands, or either of them over several lines.
Only where none of them holds it as it stands is it escaped.
-/
namespace Historian.Toml

/-- The four ways to write a text. -/
inductive Quoting
  | escaped
  | literal
  | escapedLines
  | literalLines
deriving DecidableEq, Repr

/-- Whether a character can only be written by its code: a control character that is neither a tab
nor a line end. -/
def needsCode (c : Char) : Bool := (c.toNat < 0x20 && c != '\t' && c != '\n') || c.toNat == 0x7F

/-- The length of the longest run of a character, `current` of them having come right before. -/
def longestRun (mark : Char) (current : Nat) : List Char → Nat
  | [] => current
  | c :: cs =>
    if c = mark then longestRun mark (current + 1) cs else max current (longestRun mark 0 cs)

/-- The way to write a text. -/
def Quoting.of (cs : List Char) : Quoting :=
  let coded := cs.any needsCode
  let lines := cs.contains '\n'
  let backslash := cs.contains '\\'
  if !coded && !backslash && !lines && !cs.contains '"' then .escaped
  else if !coded && !lines && !cs.contains '\'' then .literal
  else if !coded && !backslash && longestRun '"' 0 cs ≤ 2 then .escapedLines
  else if !coded && longestRun '\'' 0 cs ≤ 2 then .literalLines
  else if lines then .escapedLines
  else .escaped

/-- The code of a character with four hexadecimal digits. -/
def writeCode (c : Char) : List Char := ['\\', 'u'] ++ Numeral.writeHex c.toNat 4

/-- The escaped form of a text. Over several lines, line ends stay, and so do two double quotes in a
row; `run` counts those right before. -/
def escapeText (lines : Bool) (run : Nat) : List Char → List Char
  | [] => []
  | c :: cs =>
    if c = '"' then
      if lines && run < 2 then '"' :: escapeText lines (run + 1) cs
      else '\\' :: '"' :: escapeText lines 0 cs
    else
      let written :=
        if c = '\x08' then ['\\', 'b']
        else if c = '\t' then ['\\', 't']
        else if c = '\n' then (if lines then ['\n'] else ['\\', 'n'])
        else if c = '\x0c' then ['\\', 'f']
        else if c = '\r' then ['\\', 'r']
        else if c = '\\' then ['\\', '\\']
        else if needsCode c then writeCode c
        else [c]
      written ++ escapeText lines 0 cs

/-- What opens a text over several lines: a line end right after the quotes does not count. -/
def openLines (quotes : String) (cs : List Char) : String :=
  if cs.contains '\n' then quotes ++ "\n" else quotes

def writeText (s : String) : String :=
  let cs := s.toList
  match Quoting.of cs with
  | .escaped => "\"" ++ String.ofList (escapeText false 0 cs) ++ "\""
  | .literal => "'" ++ s ++ "'"
  | .escapedLines =>
    openLines "\"\"\"" cs ++ String.ofList (escapeText true 0 cs) ++ "\"\"\""
  | .literalLines => openLines "'''" cs ++ s ++ "'''"

/-- No exponent, and whole numbers keep `.0`. -/
def realLayout : Decimal.Layout where
  positional _ := true
  keepPoint := true
  infinite := "inf"
  notNumber := "nan"

def writeReal (x : Binary64) : String := realLayout.write x

def writeNat (n : Nat) : String := String.ofList (Numeral.write n)

/-- Lines that give keys their values. -/
def writeLines (entries : List (String × String)) : String :=
  String.join (entries.map fun e => e.1 ++ " = " ++ e.2 ++ "\n")

/-- A table under its header, after an empty line. -/
def writeTable (name : String) (entries : List (String × String)) : String :=
  "\n[" ++ name ++ "]\n" ++ writeLines entries

end Historian.Toml
