import Historian.Json.Parser
import Historian.Proofs.Json.Numerals

namespace Historian.Json

open Token Reader

mutual

-- The value without its numbers.
def blur : Json → Json
  | .number _ => .null
  | .list xs => .list (blurItems xs)
  | .object ms => .object (blurMembers ms)
  | v => v

def blurItems : List Json → List Json
  | [] => []
  | x :: xs => blur x :: blurItems xs

def blurMembers : List (String × Json) → List (String × Json)
  | [] => []
  | (k, v) :: ms => (k, blur v) :: blurMembers ms

end

-- Tokens that the reader takes for a value, but for its numbers, if it takes them at all.
structure Spells (v : Json) (ts : List Token) : Prop where
  front : ∃ t us, ts = t :: us ∧ t ≠ .closeList
  gives : ∀ {limit stack s}, ts.foldlM (step limit) ⟨.value, stack⟩ = some s →
    ∃ v', blur v' = blur v ∧ s = give v' stack

-- And for the items of a list, or the members of an object, up to the closing bracket.

structure SpellsItems (xs : List Json) (ts : List Token) : Prop where
  front : ∃ t us, ts = t :: us ∧ t ≠ .closeList
  gives : ∀ {limit acc stack s}, ts.foldlM (step limit) ⟨.value, .list acc :: stack⟩ = some s →
    ∃ ys, blurItems ys = blurItems xs ∧ s = ⟨.after, .list (ys.reverse ++ acc) :: stack⟩

structure SpellsMembers (ms : List (String × Json)) (ts : List Token) : Prop where
  front : ∃ ps us, ts = .text ps :: us
  gives : ∀ {limit acc stack s}, ts.foldlM (step limit) ⟨.key acc, stack⟩ = some s →
    ∃ ns key, blurMembers ns = blurMembers ms ∧
      s = ⟨.after, .object (ns.reverse ++ acc) key :: stack⟩

theorem Spells.single {t : Token} (hc : t ≠ .closeList) (h : ∀ {limit stack s},
    beginValue limit stack t = some s → ∃ v', blur v' = blur v ∧ s = give v' stack) :
    Spells v [t] where
  front := ⟨t, [], rfl, hc⟩
  gives hs := h (by simpa [step] using hs)

theorem spells_literal : Spells v [.literal v] :=
  .single nofun fun h => ⟨v, rfl, by simpa [beginValue, value?, eq_comm] using h⟩

theorem spells_text : Spells (.text s) [.text (s.toList.map pieceOf)] :=
  .single nofun fun h => ⟨.text s, rfl, by
    simpa [beginValue, value?, text?_pieceOf, eq_comm] using h⟩

theorem spells_number : Spells (.number x) [.number n] := by
  refine .single nofun fun h => ?_
  obtain ⟨v, hv, rfl⟩ := Option.map_eq_some_iff.mp h
  obtain ⟨y, -, rfl⟩ := Option.map_eq_some_iff.mp hv
  exact ⟨.number y, rfl, rfl⟩

theorem spells_number_null : Spells (.number x) [.literal .null] :=
  .single nofun fun h => ⟨.null, rfl, by simpa [beginValue, value?, eq_comm] using h⟩

-- The steps between values.

theorem step_key : step limit ⟨.key acc, stack⟩ (.text (k.toList.map pieceOf)) =
    some ⟨.colon acc k, stack⟩ := by
  simp [step, text?_pieceOf]

theorem step_colon : step limit ⟨.colon acc k, stack⟩ .colon =
    some ⟨.value, .object acc k :: stack⟩ :=
  rfl

theorem step_nextItem : step limit ⟨.after, .list xs :: stack⟩ .comma =
    some ⟨.value, .list xs :: stack⟩ :=
  rfl

theorem step_nextMember : step limit ⟨.after, .object ms k :: stack⟩ .comma =
    some ⟨.key ms, stack⟩ :=
  rfl

theorem SpellsItems.one (h : Spells x ts) : SpellsItems [x] ts where
  front := h.front
  gives hs := by
    obtain ⟨v, hv, rfl⟩ := h.gives hs
    exact ⟨[v], by simp [blurItems, hv], rfl⟩

theorem SpellsItems.cons (h : Spells x ts) (hs : SpellsItems xs us) :
    SpellsItems (x :: xs) (ts ++ .comma :: us) where
  front := by
    obtain ⟨t, ts, rfl, ht⟩ := h.front
    exact ⟨t, ts ++ .comma :: us, rfl, ht⟩
  gives {limit acc stack s} hr := by
    simp only [List.foldlM_append, List.foldlM_cons, Option.bind_eq_bind,
      Option.bind_eq_some_iff] at hr
    obtain ⟨_, hg, s', hc, hr⟩ := hr
    obtain ⟨v, hv, rfl⟩ := h.gives hg
    obtain rfl := Option.some.inj (step_nextItem.symm.trans hc)
    obtain ⟨ys, hy, rfl⟩ := hs.gives hr
    exact ⟨v :: ys, by simp [blurItems, hv, hy], by simp⟩

theorem SpellsMembers.one (h : Spells x ts) :
    SpellsMembers [(k, x)] (.text (k.toList.map pieceOf) :: .colon :: ts) where
  front := ⟨_, _, rfl⟩
  gives {limit acc stack s} hr := by
    simp only [List.foldlM_cons, step_key, step_colon, Option.bind_eq_bind, Option.bind_some] at hr
    obtain ⟨v, hv, rfl⟩ := h.gives hr
    exact ⟨[(k, v)], k, by simp [blurMembers, hv], rfl⟩

theorem SpellsMembers.cons (h : Spells x ts) (hs : SpellsMembers ms us) :
    SpellsMembers ((k, x) :: ms)
      (.text (k.toList.map pieceOf) :: .colon :: (ts ++ .comma :: us)) where
  front := ⟨_, _, rfl⟩
  gives {limit acc stack s} hr := by
    simp only [List.foldlM_cons, List.foldlM_append, step_key, step_colon, Option.bind_eq_bind,
      Option.bind_some, Option.bind_eq_some_iff] at hr
    obtain ⟨_, hg, s', hc, hr⟩ := hr
    obtain ⟨v, hv, rfl⟩ := h.gives hg
    obtain rfl := Option.some.inj (step_nextMember.symm.trans hc)
    obtain ⟨ns, key, hn, rfl⟩ := hs.gives hr
    exact ⟨(k, v) :: ns, key, by simp [blurMembers, hv, hn], by simp⟩

-- The front of a list or an object is read as if it were in the middle.

theorem step_firstItem {t : Token} (h : t ≠ .closeList) :
    step limit ⟨.firstItem, stack⟩ t = step limit ⟨.value, .list [] :: stack⟩ t := by
  cases t <;> first | rfl | exact absurd rfl h

theorem SpellsItems.first (h : SpellsItems xs ts) :
    ts.foldlM (step limit) ⟨.firstItem, stack⟩ = ts.foldlM (step limit)
    ⟨.value, .list [] :: stack⟩ := by
  obtain ⟨t, us, rfl, ht⟩ := h.front
  simp only [List.foldlM_cons, step_firstItem ht]

theorem SpellsMembers.first (h : SpellsMembers ms ts) :
    ts.foldlM (step limit) ⟨.firstKey [], stack⟩ = ts.foldlM (step limit) ⟨.key [], stack⟩ := by
  obtain ⟨ps, us, rfl⟩ := h.front
  rfl

theorem step_openList (h : step limit ⟨.value, stack⟩ .openList = some s) :
    s = ⟨.firstItem, stack⟩ := by
  simp only [step, beginValue] at h
  split at h <;> cases h
  rfl

theorem step_openObject (h : step limit ⟨.value, stack⟩ .openObject = some s) :
    s = ⟨.firstKey [], stack⟩ := by
  simp only [step, beginValue] at h
  split at h <;> cases h
  rfl

theorem spells_nil : Spells (.list []) [.openList, .closeList] where
  front := ⟨_, _, rfl, nofun⟩
  gives {limit stack s} hr := by
    simp only [List.foldlM_cons, List.foldlM_nil, Option.bind_eq_bind,
      Option.bind_eq_some_iff] at hr
    obtain ⟨_, ho, _, hc, hr⟩ := hr
    obtain rfl := step_openList ho
    cases hc
    cases hr
    exact ⟨.list [], rfl, rfl⟩

theorem spells_list (h : SpellsItems xs ts) :
    Spells (.list xs) (.openList :: (ts ++ [.closeList])) where
  front := ⟨_, _, rfl, nofun⟩
  gives {limit stack s} hr := by
    simp only [List.foldlM_cons, List.foldlM_append, List.foldlM_nil, Option.bind_eq_bind,
      Option.bind_eq_some_iff] at hr
    obtain ⟨_, ho, _, hi, _, hc, hr⟩ := hr
    obtain rfl := step_openList ho
    obtain ⟨ys, hy, rfl⟩ := h.gives (h.first ▸ hi)
    cases hc
    cases hr
    exact ⟨.list ys, by simp [blur, hy], by simp⟩

theorem spells_empty : Spells (.object []) [.openObject, .closeObject] where
  front := ⟨_, _, rfl, nofun⟩
  gives {limit stack s} hr := by
    simp only [List.foldlM_cons, List.foldlM_nil, Option.bind_eq_bind,
      Option.bind_eq_some_iff] at hr
    obtain ⟨_, ho, _, hc, hr⟩ := hr
    obtain rfl := step_openObject ho
    cases hc
    cases hr
    exact ⟨.object [], rfl, rfl⟩

theorem spells_object (h : SpellsMembers ms ts) :
    Spells (.object ms) (.openObject :: (ts ++ [.closeObject])) where
  front := ⟨_, _, rfl, nofun⟩
  gives {limit stack s} hr := by
    simp only [List.foldlM_cons, List.foldlM_append, List.foldlM_nil, Option.bind_eq_bind,
      Option.bind_eq_some_iff] at hr
    obtain ⟨_, ho, _, hm, _, hc, hr⟩ := hr
    obtain rfl := step_openObject ho
    obtain ⟨ns, key, hn, rfl⟩ := h.gives (h.first ▸ hm)
    cases hc
    cases hr
    exact ⟨.object ns, by simp [blur, hn], by simp⟩

-- A value that is written is spelled by the tokens that are read, whatever follows it.

theorem opened_reads (h : ∀ rest, Ends rest → Token.Reads cs ts rest) (o c : Char) (t u : Token)
    (ho : ∀ rest, next o rest = some (some t, rest))
    (hc : ∀ rest, next c rest = some (some u, rest))
    (he : c ∈ [',', ']', '\x7d']) : Token.Reads (o :: (cs ++ [c])) (t :: (ts ++ [u])) rest :=
  (reads_mark ho).append ((h _ (.mark he)).append (reads_mark hc))

theorem empty_reads (o c : Char) (t u : Token) (ho : ∀ rest, next o rest = some (some t, rest))
    (hc : ∀ rest, next c rest = some (some u, rest)) : Token.Reads [o, c] [t, u] rest :=
  Token.Reads.append (reads_mark ho) (reads_mark hc)

theorem separated_reads (h : ∀ rest, Ends rest → Token.Reads cs ts rest)
    (hs : Token.Reads ds us rest) :
    Token.Reads (cs ++ ',' :: ds) (ts ++ .comma :: us) rest :=
  (h _ (.mark (by simp))).append (Token.Reads.append (reads_mark fun _ => rfl) hs)

theorem member_reads (h : Token.Reads cs ts rest) :
    Token.Reads ((writeText k).toList ++ ':' :: cs)
    (.text (k.toList.map pieceOf) :: .colon :: ts) rest :=
  reads_text.append (Token.Reads.append (reads_mark fun _ => rfl) h)

mutual

theorem value_reads : (v : Json) → ∃ ts, Spells v ts ∧ ∀ rest, Ends rest →
    Token.Reads v.write.toList ts rest
  | .null => ⟨_, spells_literal, fun _ _ => reads_null⟩
  | .bool true => ⟨_, spells_literal, fun _ _ => reads_true⟩
  | .bool false => ⟨_, spells_literal, fun _ _ => reads_false⟩
  | .number x => by
    rcases x.write_cases with h | h
    · exact ⟨_, spells_number_null, fun _ _ => by simpa [write, h] using reads_null⟩
    · obtain ⟨n, hn⟩ := h.reads
      exact ⟨_, spells_number, hn⟩
  | .text s => ⟨_, spells_text, fun _ _ => reads_text⟩
  | .list [] => ⟨_, spells_nil, fun _ _ => empty_reads '[' ']' _ _ (fun _ => rfl) (fun _ => rfl)⟩
  | .list (x :: xs) => by
    obtain ⟨ts, hs, hr⟩ := items_reads (x :: xs) nofun
    refine ⟨_, spells_list hs, fun rest _ => ?_⟩
    simpa [write] using opened_reads hr '[' ']' _ _ (fun _ => rfl) (fun _ => rfl) (by simp)
  | .object [] =>
    ⟨_, spells_empty, fun _ _ => empty_reads '\x7b' '\x7d' _ _ (fun _ => rfl) (fun _ => rfl)⟩
  | .object (m :: ms) => by
    obtain ⟨ts, hs, hr⟩ := members_reads (m :: ms) nofun
    refine ⟨_, spells_object hs, fun rest _ => ?_⟩
    simpa [write] using opened_reads hr '\x7b' '\x7d' _ _ (fun _ => rfl) (fun _ => rfl) (by simp)

theorem items_reads : (xs : List Json) → xs ≠ [] → ∃ ts, SpellsItems xs ts ∧
    ∀ rest, Ends rest → Token.Reads (writeItems xs).toList ts rest
  | [], h => absurd rfl h
  | [x], _ => by
    obtain ⟨ts, hs, hr⟩ := value_reads x
    exact ⟨ts, .one hs, hr⟩
  | x :: y :: ys, _ => by
    obtain ⟨ts, hs, hr⟩ := value_reads x
    obtain ⟨us, hys, hyr⟩ := items_reads (y :: ys) nofun
    refine ⟨_, .cons hs hys, fun rest h => ?_⟩
    simpa [writeItems] using separated_reads hr (hyr rest h)

theorem members_reads : (ms : List (String × Json)) → ms ≠ [] → ∃ ts, SpellsMembers ms ts ∧
    ∀ rest, Ends rest → Token.Reads (writeMembers ms).toList ts rest
  | [], h => absurd rfl h
  | [(k, x)], _ => by
    obtain ⟨ts, hs, hr⟩ := value_reads x
    refine ⟨_, .one hs, fun rest h => ?_⟩
    simpa [writeMembers] using member_reads (hr rest h)
  | (k, x) :: n :: ms, _ => by
    obtain ⟨ts, hs, hr⟩ := value_reads x
    obtain ⟨us, hns, hnr⟩ := members_reads (n :: ms) nofun
    refine ⟨_, .cons hs hns, fun rest h => ?_⟩
    simpa [writeMembers] using member_reads (separated_reads hr (hnr rest h))

end

-- Reading what was written gives the value back, but for its numbers, if it gives any.
theorem readRaw_write {v j : Json} (h : readRaw? v.write = some j) : blur j = blur v := by
  obtain ⟨ts, hs, hr⟩ := value_reads v
  obtain ⟨us, hu, hj⟩ := Option.bind_eq_some_iff.mp h
  obtain rfl := (hr [] nofun).scan_ok hu
  obtain ⟨s, hf, hv⟩ := Option.bind_eq_some_iff.mp hj
  obtain ⟨v', he, rfl⟩ := hs.gives hf
  obtain rfl := Option.some.inj hv
  exact he

end Historian.Json
