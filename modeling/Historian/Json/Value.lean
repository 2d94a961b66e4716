import Historian.Decimal.Binary64

/-!
JSON values. A number is an integer or a binary64 number, and the two are told apart: `1` and `1.0`
are different values. The members of an object are in the order of their names, each name once, as
`ofMembers` makes them.
-/
namespace Historian

/-- A JSON number: an integer that fits 64 bits, signed or unsigned, or a binary64 number. -/
inductive Json.Number
  | int (value : Int)
  | real (value : Binary64)
deriving DecidableEq, Repr, Inhabited

/-- A JSON value. -/
inductive Json
  | null
  | bool (value : Bool)
  | number (value : Json.Number)
  | text (value : String)
  | list (items : List Json)
  | object (members : List (String × Json))
deriving Repr, Inhabited

namespace Json

/-- Numeric equality between numbers of one kind; an integer never equals a binary64 number. -/
def Number.same : Number → Number → Bool
  | .int a, .int b => a == b
  | .real a, .real b => a.same b
  | _, _ => false

/-- The number as a binary64 number, rounded if it has to be. -/
def Number.toReal : Number → Binary64
  | .int a => .ofInt a
  | .real a => a

def int (n : Int) : Json := .number (.int n)

def nat (n : Nat) : Json := .number (.int n)

def real (x : Binary64) : Json := if x.isFinite then .number (.real x) else .null

/-- A value or `null`. -/
def option (f : α → Json) : Option α → Json
  | none => .null
  | some a => f a

mutual

/-- Equality of values, numbers being compared by `Number.same`. -/
def same : Json → Json → Bool
  | .null, .null => true
  | .bool a, .bool b => a == b
  | .number a, .number b => a.same b
  | .text a, .text b => a == b
  | .list a, .list b => sameItems a b
  | .object a, .object b => sameMembers a b
  | _, _ => false

def sameItems : List Json → List Json → Bool
  | [], [] => true
  | a :: as, b :: bs => same a b && sameItems as bs
  | _, _ => false

def sameMembers : List (String × Json) → List (String × Json) → Bool
  | [], [] => true
  | (k, a) :: as, (l, b) :: bs => k == l && same a b && sameMembers as bs
  | _, _ => false

end

/-- Puts a member at its place among members in order, over an earlier one of its name. -/
def insertMember (key : String) (value : Json) : List (String × Json) → List (String × Json)
  | [] => [(key, value)]
  | (k, v) :: rest =>
    if key < k then (key, value) :: (k, v) :: rest
    else if key = k then (key, value) :: rest
    else (k, v) :: insertMember key value rest

/-- The object with the given members; of two with one name the later counts. -/
def ofMembers (members : List (String × Json)) : Json :=
  .object (members.foldl (fun ms m => insertMember m.1 m.2 ms) [])

/-- The member of that name. -/
def member? (key : String) : Json → Option Json
  | .object ms => ms.lookup key
  | _ => none

def text? : Json → Option String
  | .text s => some s
  | _ => none

def int? : Json → Option Int
  | .number (.int n) => some n
  | _ => none

/-- A natural number that fits 64 bits. -/
def nat64? : Json → Option Nat
  | .number (.int n) => if 0 ≤ n ∧ n < wordEnd then some n.toNat else none
  | _ => none

def list? : Json → Option (List Json)
  | .list xs => some xs
  | _ => none

mutual

/-- The value with the members of all its objects in order, each name once, the last one counting.
-/
def normalize : Json → Json
  | .list xs => .list (normalizeItems xs)
  | .object ms => ofMembers (normalizeMembers ms)
  | v => v

def normalizeItems : List Json → List Json
  | [] => []
  | x :: xs => normalize x :: normalizeItems xs

def normalizeMembers : List (String × Json) → List (String × Json)
  | [] => []
  | (k, v) :: ms => (k, normalize v) :: normalizeMembers ms

end

end Json

end Historian
