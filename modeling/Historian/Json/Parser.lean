import Historian.Json.Printer
import Historian.Json.Token

/-!
Reading JSON text. The reader goes once over the tokens and keeps the lists and objects that are
still open on a stack; what may come next is its `Mode`. Nesting deeper than `depthLimit` is
refused, and so is a token that is well written and stands for no value.
-/
namespace Historian.Json

namespace Reader

/-- A list or object that is still open, what it holds so far being in reverse. -/
inductive Frame
  | list (items : List Json)
  | object (members : List (String × Json)) (key : String)

/-- What may come next. -/
inductive Mode
  | value
  | firstItem
  | firstKey (members : List (String × Json))
  | key (members : List (String × Json))
  | colon (members : List (String × Json)) (key : String)
  | after
  | done (value : Json)

/-- The reader between two tokens. -/
structure State where
  mode : Mode
  stack : List Frame

/-- Nesting that is still read. -/
def depthLimit : Nat := 127

def start : State := ⟨.value, []⟩

/-- A value has ended: it goes into the innermost open list or object, or is the result. -/
def give (v : Json) : List Frame → State
  | [] => ⟨.done v, []⟩
  | .list items :: rest => ⟨.after, .list (v :: items) :: rest⟩
  | .object members key :: rest => ⟨.after, .object ((key, v) :: members) key :: rest⟩

/-- Whether one more list or object may be opened; without a limit it always may. -/
def mayOpen (limit : Option Nat) (stack : List Frame) : Bool :=
  limit.all (stack.length < ·)

/-- The first token of a value. -/
def beginValue (limit : Option Nat) (stack : List Frame) : Token → Option State
  | .openList => if mayOpen limit stack then some ⟨.firstItem, stack⟩ else none
  | .openObject => if mayOpen limit stack then some ⟨.firstKey [], stack⟩ else none
  | t => t.value?.map (give · stack)

/-- Takes in one token, nesting being limited as given. -/
def step (limit : Option Nat) (s : State) (t : Token) : Option State :=
  match s.mode, t with
  | .value, t => beginValue limit s.stack t
  | .firstItem, .closeList => some (give (.list []) s.stack)
  | .firstItem, t => beginValue limit (.list [] :: s.stack) t
  | .firstKey _, .closeObject => some (give (.object []) s.stack)
  | .firstKey members, t => t.text?.map fun key => ⟨.colon members key, s.stack⟩
  | .key members, t => t.text?.map fun key => ⟨.colon members key, s.stack⟩
  | .colon members key, .colon => some ⟨.value, .object members key :: s.stack⟩
  | .after, t =>
    match s.stack, t with
    | .list items :: rest, .comma => some ⟨.value, .list items :: rest⟩
    | .list items :: rest, .closeList => some (give (.list items.reverse) rest)
    | .object members _ :: rest, .comma => some ⟨.key members, rest⟩
    | .object members _ :: rest, .closeObject => some (give (.object members.reverse) rest)
    | _, _ => none
  | _, _ => none

/-- The value that has been read, if it is complete. -/
def State.value? : State → Option Json
  | ⟨.done v, _⟩ => some v
  | _ => none

/-- Reads tokens as exactly one value. -/
def run (limit : Option Nat) (ts : List Token) : Option Json :=
  ts.foldlM (step limit) start >>= State.value?

end Reader

/-- Reads a text as exactly one value, objects keeping their members as they stand. -/
def readRaw? (s : String) : Option Json :=
  Token.scan s.toList >>= Reader.run (some Reader.depthLimit)

/-- Reads a text as exactly one value. -/
def read? (s : String) : Option Json :=
  (readRaw? s).map normalize

/-- Reads a text as `read?` does, however deep it nests. -/
def readAnyDepth? (s : String) : Option Json :=
  (Token.scan s.toList >>= Reader.run none).map normalize

/-- Where the first list or object begins that is nested too deep to be read. So many are open
already, so many bytes have been passed, and this is within a string or not. -/
def tooDeepFrom : (depth column : Nat) → (quoted : Bool) → List Char → Option Nat
  | _, _, _, [] => none
  | depth, column, true, '\\' :: c :: cs => tooDeepFrom depth (column + 1 + c.utf8Size) true cs
  | depth, column, true, c :: cs => tooDeepFrom depth (column + c.utf8Size) (c != '"') cs
  | depth, column, false, c :: cs =>
    if c = '[' ∨ c = '\x7b' then
      if depth < Reader.depthLimit then tooDeepFrom (depth + 1) (column + 1) false cs
      else some (column + 1)
    else if c = ']' ∨ c = '\x7d' then tooDeepFrom (depth - 1) (column + 1) false cs
    else tooDeepFrom depth (column + c.utf8Size) (c == '"') cs

/-- The column, counted in bytes from one, of the first list or object of a compact text that is
nested too deep to be read. -/
def tooDeep? (s : String) : Option Nat := tooDeepFrom 0 0 false s.toList

end Historian.Json
