/-!
Names and texts as they stand in statements. Names go between backticks and are expected to be
identifiers; texts go between single quotes, their backslashes and quotes doubled, because the
engine reads a backslash as an escape.
-/
namespace Historian.Sql

/-- A name between backticks. -/
def name (s : String) : String := "`" ++ s ++ "`"

/-- A table with its database. -/
def qualified (database table : String) : String := name database ++ "." ++ name table

/-- A character inside a text literal. -/
def literalChar (c : Char) : List Char :=
  if c = '\\' ∨ c = '\'' then [c, c] else [c]

/-- A text between single quotes. -/
def literal (s : String) : String :=
  "'" ++ String.ofList (s.toList.flatMap literalChar) ++ "'"

end Historian.Sql
