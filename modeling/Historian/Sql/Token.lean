import Historian.Text.Case
import Historian.Text.Quoted

/-!
The tokens of a statement. `display?` is how messages name the token that was found, or its absence.
-/
namespace Historian.Sql

inductive Token
  /-- A bare word: a keyword or an unquoted name. -/
  | word (text : String)
  /-- A name between backticks. -/
  | quoted (text : String)
  /-- A text between single quotes. -/
  | text (value : String)
  | number (digits : String)
  /-- A character that stands for itself. -/
  | punct (c : Char)
  /-- Any longer token, as it is printed. -/
  | operator (text : String)
deriving DecidableEq, Repr

namespace Token

/-- The token as messages show it. -/
def display : Token → String
  | .word s => s!"Word({Text.quoted s})"
  | .quoted s => s!"Quoted({Text.quoted s})"
  | .text s => s!"Str({Text.quoted s})"
  | .number s => s!"Number({Text.quoted s})"
  | .punct c => s!"Punct({Text.quotedOne c})"
  | .operator s => s!"Op({Text.quoted s})"

/-- The token that was found, or none at the end of the statement. -/
def display? : Option Token → String
  | none => "None"
  | some t => s!"Some({t.display})"

/-- A printed token: one character stands for itself. -/
def ofPrinted (cs : List Char) : Token :=
  match cs with
  | [c] => .punct c
  | cs => .operator (String.ofList cs)

/-- Whether the token is a keyword; keywords are bare words in any letter case. -/
def isKeyword (keyword : String) : Token → Bool
  | .word s => Text.sameIgnoringCase s keyword
  | _ => false

end Token

end Historian.Sql
