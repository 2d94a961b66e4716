import Historian.Json.Parser

/-!
Reading an object of which only some members matter. The others have to be well-formed, and that is
all that is asked of them: no value is made, so that numbers of any size, halves of surrogate pairs
and nesting of any depth pass there.
-/
namespace Historian.Json

namespace Token

/-- The number of open brackets after a token; none at a token that ends the value before it. -/
def depthAfter? (depth : Nat) : Token → Option Nat
  | .openList | .openObject => some (depth + 1)
  | .closeList | .closeObject => if depth = 0 then none else some (depth - 1)
  | .comma => if depth = 0 then none else some depth
  | _ => some depth

/-- The tokens of the value at the front, with `depth` brackets already open, and what follows. -/
def splitValue (depth : Nat) : List Token → List Token × List Token
  | [] => ([], [])
  | t :: ts =>
    match depthAfter? depth t with
    | none => ([], t :: ts)
    | some d =>
      let r := splitValue d ts
      (t :: r.1, r.2)

-- Nothing is lost.

theorem splitValue_append (depth : Nat) (ts : List Token) :
    (splitValue depth ts).1 ++ (splitValue depth ts).2 = ts := by
  induction ts generalizing depth with
  | nil => rfl
  | cons t ts ih =>
    rw [splitValue]
    split
    · rfl
    · simp [ih]

theorem splitValue_length (depth : Nat) (ts : List Token) :
    (splitValue depth ts).2.length ≤ ts.length := by
  have := congrArg List.length (splitValue_append depth ts)
  simp only [List.length_append] at this
  omega

/-- The token with its value left out, where it might have none. -/
def withoutValue : Token → Token
  | .number _ => .literal .null
  | .text _ => .text []
  | t => t

/-- Whether the tokens are those of exactly one value, of whatever size and depth. -/
def areWellFormed (ts : List Token) : Bool :=
  (Reader.run none (ts.map withoutValue)).isSome

/-- The value of a member: read if the member is among those asked for, else null. -/
def memberValue? (names : List String) (name : String) (value : List Token) : Option Json :=
  if name ∈ names then Reader.run (some (Reader.depthLimit - 1)) value
  else if areWellFormed value then some .null
  else none

/-- The members of an object after its opening brace; there is at least one. -/
def members? (names : List String) (ts : List Token) : Option (List (String × Json)) :=
  match ts with
  | key :: .colon :: ts =>
    match key.text? with
    | none => none
    | some name =>
      match memberValue? names name (splitValue 0 ts).1 with
      | none => none
      | some v =>
        match h : (splitValue 0 ts).2 with
        | [.closeObject] => some [(name, v)]
        | .comma :: rest =>
          have : rest.length < ts.length := by
            have := splitValue_length 0 ts
            simp only [h, List.length_cons] at this
            omega
          (members? names rest).map ((name, v) :: ·)
        | _ => none
  | _ => none
termination_by ts.length

end Token

/-- Reads a text as exactly one value. Of an object, members with other names than those given are
null, whatever well-formed value they have. -/
def readMembers? (names : List String) (s : String) : Option Json := do
  match ← Token.scan s.toList with
  | [.openObject, .closeObject] => some (.object [])
  | .openObject :: ts => (Token.members? names ts).map .object
  | ts => Reader.run (some Reader.depthLimit) ts

end Historian.Json
