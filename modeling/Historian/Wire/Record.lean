import Historian.Json.Value

/-!
Reading records from JSON values. A record is an object with a member for each field, or a list that
gives the fields in their order. Members that are no fields are ignored. A field is required, has a
default, or is optional: an optional field of an object may be left out or null, one of a list may
not be left out.
-/
namespace Historian.Wire

/-- The values given for the fields of a record. -/
structure Record where
  fields : List (String × Json)
  inOrder : Bool

namespace Record

/-- The record with the given fields that a value writes. -/
def ofJson? (names : List String) : Json → Option Record
  | .object members => some ⟨members.filter fun m => m.1 ∈ names, false⟩
  | .list items => if items.length ≤ names.length then some ⟨names.zip items, true⟩ else none
  | _ => none

def get? (r : Record) (name : String) : Option Json := r.fields.lookup name

/-- A field that must be there. -/
def required (r : Record) (name : String) (read : Json → Option α) : Option α :=
  r.get? name >>= read

/-- A field that may be left out. -/
def withDefault (r : Record) (name : String) (read : Json → Option α) (value : α) : Option α :=
  match r.get? name with
  | none => some value
  | some v => read v

/-- Reads a value that may be null. -/
def nullable (read : Json → Option α) : Json → Option (Option α)
  | .null => some none
  | v => (read v).map some

/-- A field that may be null, or left out of an object. -/
def optional (r : Record) (name : String) (read : Json → Option α) : Option (Option α) :=
  match r.get? name with
  | none => if r.inOrder then none else some none
  | some v => nullable read v

end Record

/-- Any value. -/
def any (v : Json) : Option Json := some v

def bool? : Json → Option Bool
  | .bool b => some b
  | _ => none

/-- A whole number between two bounds. -/
def intBetween (low high : Int) (v : Json) : Option Int :=
  v.int?.filter fun n => low ≤ n && n ≤ high

def int32? : Json → Option Int32 := fun v =>
  (intBetween (-signedHalfEnd) (signedHalfEnd - 1) v).map Int32.ofInt

def int64? : Json → Option Int := intBetween (-signedEnd) (signedEnd - 1)

/-- A number of either kind. -/
def real? : Json → Option Binary64
  | .number n => some n.toReal
  | _ => none

def listOf (read : Json → Option α) : Json → Option (List α)
  | .list items => items.mapM read
  | _ => none

/-- One of a closed list of names: the name itself, or an object with it and null. -/
def named (ofName? : String → Option α) : Json → Option α
  | .text s => ofName? s
  | .object [(s, .null)] => ofName? s
  | _ => none

end Historian.Wire
