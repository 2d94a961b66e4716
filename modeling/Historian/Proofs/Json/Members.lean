import Historian.Json.Value

namespace Historian.Json

theorem lookup_member (k : String) (m : String × Json) (ms : List (String × Json)) :
    (m :: ms).lookup k = if k = m.1 then some m.2 else ms.lookup k := by
  rw [List.lookup_cons]
  by_cases h : k = m.1
  case pos => simp [h]
  case neg => simp [h, beq_eq_false_iff_ne.mpr h]

theorem lookup_insertMember (key k : String) (value : Json) (ms : List (String × Json)) :
    (insertMember key value ms).lookup k = if k = key then some value else ms.lookup k := by
  induction ms with
  | nil => simp [insertMember, lookup_member]
  | cons m ms ih =>
    unfold insertMember
    split
    case isTrue => rw [lookup_member]
    case isFalse =>
      split
      case isTrue hn =>
        rw [lookup_member, lookup_member, ← hn]
        by_cases h : k = key <;> simp [h]
      case isFalse hn =>
        rw [lookup_member, lookup_member, ih]
        by_cases h : k = m.1
        case pos => simp [h, Ne.symm hn]
        case neg => simp [h]

-- Of members with one name the last is found.
theorem member?_ofMembers (k : String) (ms : List (String × Json)) :
    (ofMembers ms).member? k = ms.reverse.lookup k := by
  have fold (acc : List (String × Json)) :
      (ms.foldl (fun ns n => insertMember n.1 n.2 ns) acc).lookup k =
        (ms.reverse.lookup k).or (acc.lookup k) := by
    induction ms generalizing acc with
    | nil => simp
    | cons m ms ih =>
      rw [List.foldl_cons, ih, lookup_insertMember, List.reverse_cons, List.lookup_append,
        lookup_member]
      by_cases h : k = m.1 <;> simp [h]
  simpa [ofMembers, member?] using fold []

theorem mem_of_member? (h : member? k (.object ms) = some v) : (k, v) ∈ ms := by
  obtain ⟨_, _, rfl, -⟩ := List.lookup_eq_some_iff.mp h
  simp

theorem mem_insertMember (h : m ∈ insertMember key value ms) : m = (key, value) ∨ m ∈ ms := by
  induction ms with
  | nil => simpa [insertMember] using h
  | cons n ns ih =>
    simp only [insertMember] at h
    split at h
    case isTrue => simpa using h
    case isFalse =>
      split at h
      case isTrue =>
        rcases List.mem_cons.mp h with h | h
        · exact .inl h
        · exact .inr (.tail _ h)
      case isFalse =>
        rcases List.mem_cons.mp h with h | h
        · exact .inr (h ▸ .head _)
        · exact (ih h).imp_right (.tail _)

theorem mem_ofMembers (h : ofMembers ms = .object ns) (hm : m ∈ ns) : m ∈ ms := by
  have fold (acc : List (String × Json)) :
      m ∈ ms.foldl (fun ns n => insertMember n.1 n.2 ns) acc → m ∈ ms ∨ m ∈ acc := by
    clear h hm
    induction ms generalizing acc with
    | nil => exact .inr
    | cons n ms ih =>
      intro h
      rcases ih _ h with h | h
      · exact .inl (.tail _ h)
      · exact (mem_insertMember h).imp (fun (he : m = n) => he ▸ .head _) id
  cases h
  simpa using fold [] hm

mutual

-- A value without infinities and what is no number; no text spells another.

def Finite : Json → Prop
  | .number (.real x) => x.isFinite
  | .list xs => FiniteItems xs
  | .object ms => FiniteMembers ms
  | _ => True

def FiniteItems : List Json → Prop
  | [] => True
  | x :: xs => Finite x ∧ FiniteItems xs

def FiniteMembers : List (String × Json) → Prop
  | [] => True
  | (_, v) :: ms => Finite v ∧ FiniteMembers ms

end

theorem finite_list {xs : List Json} : (Json.list xs).Finite ↔ ∀ x ∈ xs, x.Finite := by
  suffices h : FiniteItems xs ↔ ∀ x ∈ xs, x.Finite by rwa [Finite]
  induction xs with
  | nil => simp [FiniteItems]
  | cons x xs ih => simp [FiniteItems, ih]

theorem finite_object {ms : List (String × Json)} :
    (Json.object ms).Finite ↔ ∀ m ∈ ms, m.2.Finite := by
  suffices h : FiniteMembers ms ↔ ∀ m ∈ ms, m.2.Finite by rwa [Finite]
  induction ms with
  | nil => simp [FiniteMembers]
  | cons m ms ih => simp [FiniteMembers, ih]

theorem Finite.member {j : Json} (h : j.Finite) (hm : j.member? k = some v) : v.Finite := by
  cases j <;> simp only [member?, reduceCtorEq] at hm
  case object ms => exact finite_object.mp h _ (mem_of_member? hm)

theorem Finite.getD {j : Json} (h : j.Finite) : ((j.member? k).getD .null).Finite := by
  cases hm : j.member? k with
  | none => trivial
  | some v => exact h.member hm

end Historian.Json
