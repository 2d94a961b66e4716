import Historian.Proofs.Json.Members
import Historian.Proofs.Json.Numerals

namespace Historian

namespace Binary64

def oneZero (x : Binary64) : Binary64 :=
  if x.isZero then .zero else x

theorem same_iff {x y : Binary64} (hx : x.isFinite) (hy : y.isFinite) :
    x.same y ↔ x.oneZero = y.oneZero := by
  simp only [same, Json.isNaN_of_isFinite hx, Json.isNaN_of_isFinite hy, Bool.not_false,
    Bool.true_and, beq_iff_eq]
  obtain ⟨nx, mx⟩ := x
  obtain ⟨ny, my⟩ := y
  cases nx <;> cases ny <;> cases mx <;> cases my <;>
    simp [numericKey, oneZero, isZero, zero] <;> omega

end Binary64

namespace Json

def Number.oneZero : Number → Number
  | .real x => .real x.oneZero
  | n => n

mutual

-- The value with every negative zero in it made positive.
def oneZero : Json → Json
  | .number n => .number n.oneZero
  | .list xs => .list (oneZeroItems xs)
  | .object ms => .object (oneZeroMembers ms)
  | v => v

def oneZeroItems : List Json → List Json
  | [] => []
  | x :: xs => oneZero x :: oneZeroItems xs

def oneZeroMembers : List (String × Json) → List (String × Json)
  | [] => []
  | (k, v) :: ms => (k, oneZero v) :: oneZeroMembers ms

end

theorem Number.same_iff {a b : Number} (ha : (number a).Finite) (hb : (number b).Finite) :
    a.same b ↔ a.oneZero = b.oneZero := by
  cases a <;> cases b
  case real.real => simpa [same, oneZero] using Binary64.same_iff ha hb
  all_goals simp [same, oneZero]

mutual

-- Finite values are the same just if at most the signs of zeros tell them apart.
theorem same_iff : (a b : Json) → a.Finite → b.Finite → (a.same b ↔ a.oneZero = b.oneZero)
  | .null, b, _, _ | .bool _, b, _, _ | .text _, b, _, _ => by cases b <;> simp [same, oneZero]
  | .number a, b, ha, hb => by
    cases b
    case number b => simpa [same, oneZero] using Number.same_iff ha hb
    all_goals simp [same, oneZero]
  | .list as, b, ha, hb => by
    cases b
    case list bs => simpa [same, oneZero] using sameItems_iff as bs ha hb
    all_goals simp [same, oneZero]
  | .object as, b, ha, hb => by
    cases b
    case object bs => simpa [same, oneZero] using sameMembers_iff as bs ha hb
    all_goals simp [same, oneZero]

theorem sameItems_iff : (as bs : List Json) → FiniteItems as → FiniteItems bs →
    (sameItems as bs ↔ oneZeroItems as = oneZeroItems bs)
  | [], [], _, _ | [], _ :: _, _, _ | _ :: _, [], _, _ => by simp [sameItems, oneZeroItems]
  | a :: as, b :: bs, ⟨ha, has⟩, ⟨hb, hbs⟩ => by
    simp [sameItems, oneZeroItems, same_iff a b ha hb, sameItems_iff as bs has hbs]

theorem sameMembers_iff : (as bs : List (String × Json)) → FiniteMembers as → FiniteMembers bs →
    (sameMembers as bs ↔ oneZeroMembers as = oneZeroMembers bs)
  | [], [], _, _ | [], _ :: _, _, _ | _ :: _, [], _, _ => by simp [sameMembers, oneZeroMembers]
  | (k, a) :: as, (l, b) :: bs, ⟨ha, has⟩, ⟨hb, hbs⟩ => by
    simp [sameMembers, oneZeroMembers, same_iff a b ha hb, sameMembers_iff as bs has hbs]

end

end Json

end Historian
