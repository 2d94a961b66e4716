import Historian.Text.Case

/-!
Names that reach the engine. An identifier is an ASCII letter or underscore followed by letters,
digits and underscores, up to a length limit. Names outside the grammar are refused, never escaped.
-/
namespace Historian

/-- Why a text is no identifier. -/
inductive IdentifierFault
  | empty
  | badStart
  | badCharacter (c : Char)
  | tooLong (limit : Nat)
deriving DecidableEq, Repr

def IdentifierFault.message : IdentifierFault → String
  | .empty => "must not be empty"
  | .badStart => "must start with a letter or underscore"
  | .badCharacter c => s!"character '{c}' is not allowed"
  | .tooLong limit => s!"longer than {limit} characters"

namespace Identifier

/-- The most characters of a column, database or code. -/
def codeLimit : Nat := 64

/-- The most characters of a table name, which may be put together from several codes. -/
def tableLimit : Nat := 192

def isStart (c : Char) : Bool := c.isAlpha || c == '_'

def isPart (c : Char) : Bool := c.isAlphanum || c == '_'

/-- Refuses a text that is no identifier of at most `limit` characters. The first fault counts, the
length coming last. -/
def check (limit : Nat) (s : String) : Except IdentifierFault Unit :=
  match s.toList with
  | [] => .error .empty
  | c :: cs =>
    if !isStart c then .error .badStart
    else match cs.find? (!isPart ·) with
      | some bad => .error (.badCharacter bad)
      | none => if limit < (c :: cs).length then .error (.tooLong limit) else .ok ()

/-- The columns and tags that every super-table has of its own. -/
def reservedColumns : List String := ["ts", "asset_id", "asset_code"]

def isReserved (s : String) : Bool := reservedColumns.any (Text.sameIgnoringCase s)

/-- The texts that `check` lets pass. -/
def Valid (limit : Nat) (s : String) : Prop :=
  ∃ c cs, s.toList = c :: cs ∧ isStart c ∧ (∀ d ∈ cs, isPart d) ∧ s.toList.length ≤ limit

-- `check` lets pass exactly the identifiers.

theorem valid_iff {limit : Nat} {s : String} {c : Char} {cs : List Char}
    (h : s.toList = c :: cs) :
    Valid limit s ↔ isStart c ∧ (∀ d ∈ cs, isPart d) ∧ (c :: cs).length ≤ limit := by
  simp only [Valid, h, List.cons.injEq]
  exact ⟨fun ⟨_, _, ⟨rfl, rfl⟩, hv⟩ => hv, fun hv => ⟨c, cs, ⟨rfl, rfl⟩, hv⟩⟩

theorem check_eq_ok_iff {limit : Nat} {s : String} : check limit s = .ok () ↔ Valid limit s := by
  rcases h : s.toList with _ | ⟨c, cs⟩
  · simp [check, Valid, h]
  rw [valid_iff h, check, h]
  by_cases hc : isStart c
  case neg => simp [hc]
  rcases hf : cs.find? (!isPart ·) with _ | bad
  · have part : ∀ d ∈ cs, isPart d := by simpa using hf
    by_cases hl : limit < (c :: cs).length
    · simp only [hc, hf, hl]
      simp at hl ⊢
      omega
    · simp only [hc, hf, hl]
      simp
      exact ⟨part, by simpa using hl⟩
  · have not : ¬isPart bad := by simpa using List.find?_some hf
    have mem := List.mem_of_find?_eq_some hf
    simp only [hc, hf]
    simp
    exact fun h => absurd (h bad mem) not

end Identifier

end Historian
