import Historian.Json.Printer

/-!
The text of a JSON value over several lines, as people read it: one item or member a line, two
blanks for each level. Without the line ends and the blanks it is the compact text.
-/
namespace Historian.Json

/-- The end of a line and the blanks before the next one. -/
def newLine (level : Nat) : String := "\n" ++ String.ofList (List.replicate (2 * level) ' ')

mutual

/-- The text of a value whose lines are indented so many levels. -/
def writeIndented (level : Nat) : Json → String
  | .list (x :: xs) =>
    "[" ++ newLine (level + 1) ++ writeIndented (level + 1) x ++ writeItemLines (level + 1) xs ++
      newLine level ++ "]"
  | .object ((k, v) :: ms) =>
    "\x7b" ++ newLine (level + 1) ++ writeText k ++ ": " ++ writeIndented (level + 1) v ++
      writeMemberLines (level + 1) ms ++ newLine level ++ "\x7d"
  | v => v.write

/-- The items after the first one. -/
def writeItemLines (level : Nat) : List Json → String
  | [] => ""
  | x :: xs => "," ++ newLine level ++ writeIndented level x ++ writeItemLines level xs

/-- The members after the first one. -/
def writeMemberLines (level : Nat) : List (String × Json) → String
  | [] => ""
  | (k, v) :: ms =>
    "," ++ newLine level ++ writeText k ++ ": " ++ writeIndented level v ++
      writeMemberLines level ms

end

/-- The text of a value over several lines. -/
def writePretty (v : Json) : String := writeIndented 0 v

example : writePretty (.object [("a", .list []), ("b", .list [.int 1, .null])]) =
    "\x7b\n  \"a\": [],\n  \"b\": [\n    1,\n    null\n  ]\n\x7d" := by decide +kernel

end Historian.Json
