import Historian.Json.Value

/-!
Tables of TOML documents while they are read. A table comes into being by its header, by the header
of a table below it, or by a dotted key; each way decides how it may still grow. Every key is given
once.
-/
namespace Historian.Toml

/-- How a table came into being. -/
inductive Origin
  /-- By a header of its own. -/
  | header
  /-- By the header of a table below it. -/
  | implied
  /-- By a dotted key. -/
  | dotted
deriving DecidableEq, Repr

/-- What a key stands for. -/
inductive Node
  | value (v : Json)
  | table (origin : Origin) (entries : List (String × Node))
  | tables (items : List (List (String × Node)))

abbrev Entries := List (String × Node)

/-- The entries with another node for a key. -/
def Entries.put (es : Entries) (key : String) (n : Node) : Entries :=
  match es with
  | [] => [(key, n)]
  | e :: es => if e.1 = key then (key, n) :: es else e :: Entries.put es key n

/-- Changes the table at the end of a path of headers; tables on the way come into being. Of an
array of tables the last one counts. -/
def within (path : List String) (f : Entries → Option Entries) (es : Entries) : Option Entries :=
  match path with
  | [] => f es
  | key :: path =>
    match es.lookup key with
    | none => do return Entries.put es key (.table .implied (← within path f []))
    | some (.table origin inner) => do
      return Entries.put es key (.table origin (← within path f inner))
    | some (.tables items) => do
      let last ← items.getLast?
      return Entries.put es key (.tables (items.dropLast ++ [← within path f last]))
    | some (.value _) => none

/-- Gives a dotted key its value, `origin` being that of the table itself. Only tables that dotted
keys made can grow by dotted keys. -/
def assign (origin : Origin) (below : Bool) (keys : List String) (v : Json) (es : Entries) :
    Option Entries :=
  match keys with
  | [] => none
  | [key] =>
    if below && origin ≠ .dotted then none
    else if (es.lookup key).isSome then none
    else some (Entries.put es key (.value v))
  | key :: keys =>
    match es.lookup key with
    | none => do return Entries.put es key (.table .dotted (← assign .dotted true keys v []))
    | some (.table origin inner) =>
      if origin = .header then none
      else do return Entries.put es key (.table origin (← assign origin true keys v inner))
    | some (.tables items) => do
      let last ← items.getLast?
      return Entries.put es key (.tables (items.dropLast ++ [← assign .header true keys v last]))
    | some (.value _) => none

/-- Begins the table of a header: it must be new, or known by tables below it only. -/
def beginTable (key : String) (es : Entries) : Option Entries :=
  match es.lookup key with
  | none => some (Entries.put es key (.table .header []))
  | some (.table .implied inner) => some (Entries.put es key (.table .header inner))
  | _ => none

/-- Begins one more table of an array. -/
def beginItem (key : String) (es : Entries) : Option Entries :=
  match es.lookup key with
  | none => some (Entries.put es key (.tables [[]]))
  | some (.tables items) => some (Entries.put es key (.tables (items ++ [[]])))
  | _ => none

mutual

/-- The value of a node. -/
def Node.toJson : Node → Json
  | .value v => v
  | .table _ es => .ofMembers (members es)
  | .tables items => .list (itemsToJson items)

def members : List (String × Node) → List (String × Json)
  | [] => []
  | (key, n) :: es => (key, n.toJson) :: members es

def itemsToJson : List (List (String × Node)) → List Json
  | [] => []
  | es :: items => .ofMembers (members es) :: itemsToJson items

end

end Historian.Toml
