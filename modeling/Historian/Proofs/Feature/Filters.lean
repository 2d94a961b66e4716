import Historian.Proofs.Basic
import Historian.Proofs.Duration
import Historian.Proofs.Feature.Order
import Historian.Proofs.Json.Members

namespace Historian

namespace FilterOp

-- The ways to write an operator.
def spellings : FilterOp → List String
  | .eq => ["=", "=="]
  | .ne => ["!=", "<>"]
  | op => [op.symbol]

def Spells (s : String) (op : FilterOp) : Prop :=
  ∃ t ∈ op.spellings, Text.Framed t.toList s

theorem trim_eq_iff {t : String} (solid : ∀ c ∈ t.toList, ¬Text.isBlank c) :
    Text.trim s = t ↔ Text.Framed t.toList s := by
  rw [Text.trim, ← String.toList_inj, String.toList_ofList]
  exact ⟨fun h => h ▸ Text.framed_trimBlanks s, fun h => Text.trimBlanks_of_framed h solid⟩

theorem ofSymbol?_eq_some : ofSymbol? t = some op ↔ t = op.symbol := by
  constructor
  · intro h
    exact (by simpa using List.find?_some h : op.symbol = t).symm
  · rintro rfl
    cases op <;> decide

theorem solid_spelling {op : FilterOp} (h : t ∈ op.spellings) :
    ∀ c ∈ t.toList, ¬Text.isBlank c := by
  have all : op.spellings.all fun t => t.toList.all fun c => !Text.isBlank c := by
    cases op <;> decide
  simpa using List.all_eq_true.mp all t h

theorem spells_iff : Spells s op ↔ Text.trim s ∈ op.spellings := by
  constructor
  · rintro ⟨t, ht, hs⟩
    exact (trim_eq_iff (solid_spelling ht)).mpr hs ▸ ht
  · intro h
    exact ⟨_, h, (trim_eq_iff (solid_spelling h)).mp rfl⟩

theorem read_eq_ok : read s = .ok op ↔ Spells s op := by
  rw [spells_iff, read]
  generalize Text.trim s = t
  split
  case h_1 => cases op <;> simp [spellings, symbol]
  case h_2 => cases op <;> simp [spellings, symbol]
  case h_3 h₁ h₂ =>
    have plain : t ∈ op.spellings ↔ ofSymbol? t = some op := by
      rw [ofSymbol?_eq_some]
      cases op <;> simp_all [spellings, symbol]
    rw [plain]
    cases ofSymbol? t <;> simp

end FilterOp

theorem FilterValue.same_self {v : FilterValue} (h : v.toJson.Finite) : v.same v := by
  cases v with
  | bool b => exact beq_self_eq_true b
  | number n =>
    cases n with
    | int n => exact beq_self_eq_true n
    | real x => simp [same, Json.Number.same, Binary64.same, Json.isNaN_of_isFinite h]
  | text s => exact beq_self_eq_true s

namespace Filter

-- What a clause says, its operator being an equality if it has none.
structure Clause (item : Json) (f : Filter) : Prop where
  field : item.member? "field" = some (.text f.field)
  op : item.member? "op" = none ∧ f.op = .eq ∨
    ∃ s, item.member? "op" = some (.text s) ∧ FilterOp.Spells s f.op
  value : item.member? "value" = some f.value.toJson

-- The filters that a value asks for: its clauses, or equalities of fields and values.
inductive Asked : Json → Filter → Prop
  | member : (k, v.toJson) ∈ ms → Asked (.object ms) ⟨k, .eq, v⟩
  | clause : item ∈ items → Clause item f → Asked (.list items) f

theorem readValue_eq_ok : readValue j = .ok v ↔ j = v.toJson := by
  cases j <;> cases v <;> simp [readValue, FilterValue.ofJson?, FilterValue.toJson]

-- A clause has no other members than what it says.
def Closed (item : Json) : Prop :=
  ∃ ms, item = .object ms ∧ ∀ m ∈ ms, m.1 ∈ ["field", "op", "value"]

theorem closed_object : Closed (.object ms) ↔
    ms.find? (fun m => m.1 ∉ ["field", "op", "value"]) = none := by
  rw [List.find?_eq_none]
  simp [Closed, or_iff_not_imp_left]

-- How the value of a clause is read, and the clause with it.
theorem valued_eq_ok {k : String} {o : FilterOp} {j : Option Json} {fault : Invalid} :
    (match j with
      | some v => do return ⟨k, o, ← readValue v⟩
      | _ => throw fault : Except Invalid Filter) = .ok f ↔
    f.field = k ∧ f.op = o ∧ j = some f.value.toJson := by
  cases j with
  | none => simp
  | some v =>
    simp only [bind_eq_ok, readValue_eq_ok, pure_eq_ok, Option.some.injEq]
    constructor
    · rintro ⟨_, rfl, rfl⟩
      exact ⟨rfl, rfl, rfl⟩
    · rintro ⟨rfl, rfl, rfl⟩
      exact ⟨_, rfl, rfl⟩

theorem ofClause_eq_ok : ofClause item = .ok f ↔ Closed item ∧ Clause item f := by
  constructor
  · intro h
    cases item <;> try cases h
    case object ms =>
      cases hk : ms.find? fun m => m.1 ∉ ["field", "op", "value"] with
      | some unknown =>
        simp only [ofClause, hk] at h
        cases h
      | none =>
        refine ⟨closed_object.mpr hk, ?_⟩
        simp only [ofClause, hk] at h
        split at h
        case h_2 => cases h
        case h_1 field hf =>
          split at h
          case h_1 ho =>
            obtain ⟨rfl, he, hv⟩ := valued_eq_ok.mp h
            exact ⟨hf, .inl ⟨ho, he⟩, hv⟩
          case h_2 s ho =>
            obtain ⟨op, hs, h⟩ := bind_eq_ok.mp h
            obtain ⟨rfl, rfl, hv⟩ := valued_eq_ok.mp h
            exact ⟨hf, .inr ⟨s, ho, FilterOp.read_eq_ok.mp hs⟩, hv⟩
          case h_3 => cases h
  · rintro ⟨⟨ms, rfl, known⟩, hf, ho, hv⟩
    have hk := closed_object.mp ⟨ms, rfl, known⟩
    rcases ho with ⟨ho, he⟩ | ⟨s, ho, hs⟩
    · simp only [ofClause, hk, hf, ho]
      exact valued_eq_ok.mpr ⟨rfl, he, hv⟩
    · simp only [ofClause, hk, hf, ho]
      exact bind_eq_ok.mpr ⟨f.op, FilterOp.read_eq_ok.mpr hs, valued_eq_ok.mpr ⟨rfl, rfl, hv⟩⟩

theorem asked_iff (h : listOfJson j = .ok fs) : f ∈ fs ↔ Asked j f := by
  unfold listOfJson at h
  split at h
  case h_1 =>
    cases h
    exact ⟨nofun, nofun⟩
  case h_2 ms =>
    rw [mem_of_mapM_eq_ok h]
    constructor
    · rintro ⟨⟨k, j⟩, hm, hf⟩
      obtain ⟨v, hv, hf⟩ := bind_eq_ok.mp hf
      cases readValue_eq_ok.mp hv
      cases hf
      exact .member hm
    · rintro ⟨hm⟩
      exact ⟨_, hm, bind_eq_ok.mpr ⟨_, readValue_eq_ok.mpr rfl, rfl⟩⟩
  case h_3 items =>
    have said {item} (hi : item ∈ items) : Closed item :=
      have ⟨_, hf⟩ := exists_of_mapM_eq_ok h hi
      (ofClause_eq_ok.mp hf).1
    rw [mem_of_mapM_eq_ok h]
    constructor
    · rintro ⟨item, hi, hf⟩
      exact .clause hi (ofClause_eq_ok.mp hf).2
    · rintro (_ | ⟨hi, hf⟩)
      exact ⟨_, hi, ofClause_eq_ok.mpr ⟨said hi, hf⟩⟩
  case h_4 => cases h

theorem ofClause_toJson (f : Filter) : ofClause f.toJson = .ok f := by
  have found := Json.member?_ofMembers
  refine ofClause_eq_ok.mpr ⟨⟨_, rfl, fun m hm => ?_⟩, ?_, .inr ⟨f.op.symbol, ?_, ?_⟩, ?_⟩
  · have hm := Json.mem_ofMembers rfl hm
    simp only [List.mem_cons, List.not_mem_nil, or_false] at hm
    rcases hm with rfl | rfl | rfl <;> simp
  · simp [toJson, found, Json.lookup_member]
  · simp [toJson, found, Json.lookup_member]
  · refine ⟨_, ?_, Text.framed_self _⟩
    cases f.op <;> decide
  · simp [toJson, found]

theorem readAll_eq_ok : readAll j = .ok fs ↔ ∃ gs, listOfJson j = .ok gs ∧
    (∀ f ∈ gs, requireIdentifier "filter field" f.field = .ok ()) ∧ canonical gs = fs := by
  simp only [readAll, bind_eq_ok, pure_eq_ok]
  constructor
  · rintro ⟨gs, hg, _, hi, rfl⟩
    exact ⟨gs, hg, forM_eq_ok.mp hi, rfl⟩
  · rintro ⟨gs, hg, hi, rfl⟩
    exact ⟨gs, hg, (), forM_eq_ok.mpr hi, rfl⟩

theorem readAll_null : readAll .null = .ok [] :=
  readAll_eq_ok.mpr ⟨[], rfl, List.forall_mem_nil _, settle_nil⟩

theorem canonical_singleton (f : Filter) : canonical [f] = [f] := by
  refine (settle_of_inOrder (List.pairwise_singleton _ _)).trans ?_
  simp [eraseRepsBy_eq_destutter]

-- The canonical list is read as what it is.
theorem readAll_toJson (h : readAll j = .ok fs) : readAll (.list (fs.map toJson)) = .ok fs := by
  obtain ⟨gs, -, hi, rfl⟩ := readAll_eq_ok.mp h
  have listed : listOfJson (.list ((canonical gs).map toJson)) = .ok (canonical gs) :=
    mapM_map_eq_ok fun f _ => ofClause_toJson f
  refine readAll_eq_ok.mpr ⟨canonical gs, listed, fun f hf => ?_, settle_settle⟩
  exact hi f (mem_of_mem_settle hf)

theorem same_self {f : Filter} (h : f.value.toJson.Finite) : f.same f := by
  simp [same, FilterValue.same_self h]

theorem Asked.finite (h : Asked j f) (hj : j.Finite) : f.value.toJson.Finite := by
  cases h with
  | member hm => exact Json.finite_object.mp hj _ hm
  | clause hi hc => exact (Json.finite_list.mp hj _ hi).member hc.value

-- What filters are asked for decides which are read.
theorem readAll_congr (ha : readAll a = .ok fs) (hb : readAll b = .ok gs) (finite : a.Finite)
    (h : ∀ f, Asked a f ↔ Asked b f) : fs = gs := by
  obtain ⟨fs, hfs, -, rfl⟩ := readAll_eq_ok.mp ha
  obtain ⟨gs, hgs, -, rfl⟩ := readAll_eq_ok.mp hb
  refine settle_congr (fun f hf => same_self (((asked_iff hfs).mp hf).finite finite)) fun f => ?_
  rw [asked_iff hfs, asked_iff hgs, h]

end Filter

end Historian
