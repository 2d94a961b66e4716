import Historian.Json.Parser
import Historian.Proofs.Json.Members
import Historian.Proofs.Json.Scanning

namespace Historian.Json

open Reader

theorem Scaled.toReal?_finite {s : Scaled} (h : s.toReal? negative = some x) : x.isFinite := by
  unfold toReal? at h
  dsimp only at h
  generalize (if s.significand = 0 then _ else _ : Option Binary64) = sized at h
  cases sized with
  | none => cases h
  | some y =>
    dsimp only at h
    split at h
    case isTrue hy =>
      cases h
      exact hy
    case isFalse => cases h

theorem NumberText.value?_finite {t : NumberText} (h : t.value? = some n) :
    (Json.number n).Finite := by
  have real {s : Scaled} (hs : (s.toReal? t.negative).map .real = some n) :
      (Json.number n).Finite := by
    obtain ⟨x, hx, rfl⟩ := Option.map_eq_some_iff.mp hs
    exact Scaled.toReal?_finite hx
  unfold value? at h
  dsimp only at h
  split at h
  case h_1 =>
    split at h
    case h_1 =>
      cases h
      trivial
    case h_2 => exact real h
  case h_2 => exact real h

namespace Token

-- A token that stands for a finite value if it stands for one.
def Finite (t : Token) : Prop :=
  ∀ v, t.value? = some v → v.Finite

theorem next_finite (h : next c rest = some (some t, cs)) : t.Finite := by
  have number {negative : Bool} {ds : List Char} (h : (number? negative ds).map
      (fun r => (some (Token.number r.1), r.2)) = some (some t, cs)) : t.Finite := by
    obtain ⟨r, -, hr⟩ := Option.map_eq_some_iff.mp h
    cases hr
    intro v hv
    obtain ⟨n, hn, rfl⟩ := Option.map_eq_some_iff.mp hv
    exact NumberText.value?_finite hn
  have text {ps : List Piece} : (Token.text ps).Finite := by
    intro v hv
    obtain ⟨_, -, rfl⟩ := Option.map_eq_some_iff.mp hv
    trivial
  have word {v : Json} (hv : v.Finite) : (Token.literal v).Finite := by
    rintro _ ⟨⟩
    exact hv
  unfold next at h
  dsimp only at h
  split at h
  case isTrue => cases h
  case isFalse =>
    split at h
    case h_7 =>
      obtain ⟨r, -, hr⟩ := Option.map_eq_some_iff.mp h
      cases hr
      exact text
    case h_8 => exact number h
    case h_9 =>
      split at h <;> cases h
      exact word trivial
    case h_10 =>
      split at h <;> cases h
      exact word trivial
    case h_11 =>
      split at h <;> cases h
      exact word trivial
    case h_12 =>
      split at h
      case isTrue => exact number h
      case isFalse => cases h
    all_goals
      cases h
      exact nofun

theorem scan_finite (h : scan cs = some ts) : ∀ t ∈ ts, t.Finite := by
  induction cs using scan.induct generalizing ts with
  | case1 =>
    cases scan_nil.symm.trans h
    nofun
  | case2 c rest hn =>
    obtain ⟨_, _, _, hn', -⟩ := scan_cons_ok h
    cases hn.symm.trans hn'
  | case3 c rest t rest' hn _ ih =>
    obtain ⟨_, _, us, hn', hu, rfl⟩ := scan_cons_ok h
    cases hn.symm.trans hn'
    intro u hm
    rcases List.mem_append.mp hm with hm | hm
    · cases Option.mem_toList.mp hm
      exact next_finite hn
    · exact ih hu u hm

end Token

namespace Reader

-- Everything that the reader holds between two tokens is finite.

def Frame.Finite : Frame → Prop
  | .list items => ∀ v ∈ items, v.Finite
  | .object ms _ => ∀ m ∈ ms, m.2.Finite

def Mode.Finite : Mode → Prop
  | .firstKey ms | .key ms | .colon ms _ => ∀ m ∈ ms, m.2.Finite
  | .done v => v.Finite
  | _ => True

structure State.Finite (s : State) : Prop where
  mode : s.mode.Finite
  stack : ∀ f ∈ s.stack, f.Finite

variable {limit : Option Nat} {stack : List Frame} {s s' : State} {t : Token} {ts : List Token}

theorem give_finite (hv : v.Finite) (hs : ∀ f ∈ stack, f.Finite) : (give v stack).Finite := by
  cases stack with
  | nil => exact ⟨hv, nofun⟩
  | cons f rest =>
    obtain ⟨hf, hr⟩ := List.forall_mem_cons.mp hs
    cases f with
    | list items =>
      exact ⟨trivial, List.forall_mem_cons.mpr ⟨List.forall_mem_cons.mpr ⟨hv, hf⟩, hr⟩⟩
    | object ms key =>
      exact ⟨trivial, List.forall_mem_cons.mpr ⟨List.forall_mem_cons.mpr ⟨hv, hf⟩, hr⟩⟩

theorem beginValue_finite (ht : t.Finite) (hs : ∀ f ∈ stack, f.Finite)
    (h : beginValue limit stack t = some s) : s.Finite := by
  unfold beginValue at h
  split at h
  case h_1 =>
    split at h <;> cases h
    exact ⟨trivial, hs⟩
  case h_2 =>
    split at h <;> cases h
    exact ⟨nofun, hs⟩
  case h_3 =>
    obtain ⟨v, hv, rfl⟩ := Option.map_eq_some_iff.mp h
    exact give_finite (ht v hv) hs

theorem step_finite (ht : t.Finite) (hs : s.Finite) (h : step limit s t = some s') : s'.Finite := by
  obtain ⟨mode, stack⟩ := s
  obtain ⟨hm, hs⟩ := hs
  dsimp only at hm hs
  simp only [step] at h
  split at h
  case h_1 => exact beginValue_finite ht hs h
  case h_2 =>
    cases h
    exact give_finite (finite_list.mpr nofun) hs
  case h_3 =>
    have opened : (Frame.list []).Finite := nofun
    exact beginValue_finite ht (List.forall_mem_cons.mpr ⟨opened, hs⟩) h
  case h_4 =>
    cases h
    exact give_finite (finite_object.mpr nofun) hs
  case h_5 | h_6 =>
    obtain ⟨_, -, rfl⟩ := Option.map_eq_some_iff.mp h
    exact ⟨hm, hs⟩
  case h_7 =>
    cases h
    exact ⟨trivial, List.forall_mem_cons.mpr ⟨hm, hs⟩⟩
  case h_8 =>
    split at h <;> cases h
    all_goals obtain ⟨hf, hr⟩ := List.forall_mem_cons.mp hs
    case h_1 => exact ⟨trivial, hs⟩
    case h_2 => exact give_finite (finite_list.mpr fun v hv => hf v (List.mem_reverse.mp hv)) hr
    case h_3 => exact ⟨hf, hr⟩
    case h_4 => exact give_finite (finite_object.mpr fun m hm => hf m (List.mem_reverse.mp hm)) hr
  case h_9 => cases h

theorem run_finite (ht : ∀ t ∈ ts, t.Finite) (hs : s.Finite)
    (h : ts.foldlM (step limit) s = some s') : s'.Finite := by
  induction ts generalizing s with
  | nil =>
    cases h
    exact hs
  | cons t ts ih =>
    obtain ⟨s₁, hstep, h⟩ := Option.bind_eq_some_iff.mp h
    obtain ⟨ht, hts⟩ := List.forall_mem_cons.mp ht
    exact ih hts (step_finite ht hs hstep) h

end Reader

theorem ofMembers_finite (h : ∀ m ∈ ms, m.2.Finite) : (ofMembers ms).Finite :=
  finite_object.mpr fun m hm => h m (mem_ofMembers rfl hm)

mutual

theorem normalize_finite : (j : Json) → j.Finite → j.normalize.Finite
  | .null, _ | .bool _, _ | .text _, _ => trivial
  | .number _, h => h
  | .list xs, h => finite_list.mpr (normalizeItems_finite xs (finite_list.mp h))
  | .object ms, h => ofMembers_finite (normalizeMembers_finite ms (finite_object.mp h))

theorem normalizeItems_finite : (xs : List Json) → (∀ x ∈ xs, x.Finite) →
    ∀ x ∈ normalizeItems xs, x.Finite
  | [], _ => nofun
  | x :: xs, h =>
    have ⟨hx, hxs⟩ := List.forall_mem_cons.mp h
    List.forall_mem_cons.mpr ⟨normalize_finite x hx, normalizeItems_finite xs hxs⟩

theorem normalizeMembers_finite : (ms : List (String × Json)) → (∀ m ∈ ms, m.2.Finite) →
    ∀ m ∈ normalizeMembers ms, m.2.Finite
  | [], _ => nofun
  | (_, v) :: ms, h =>
    have ⟨hv, hms⟩ := List.forall_mem_cons.mp h
    List.forall_mem_cons.mpr ⟨normalize_finite v hv, normalizeMembers_finite ms hms⟩

end

-- A text spells nothing but finite numbers.
theorem finite_of_read? (h : read? s = some j) : j.Finite := by
  obtain ⟨raw, hr, rfl⟩ := Option.map_eq_some_iff.mp h
  obtain ⟨ts, hts, hrun⟩ := Option.bind_eq_some_iff.mp hr
  obtain ⟨s, hs, hv⟩ := Option.bind_eq_some_iff.mp hrun
  refine normalize_finite raw ?_
  have begun : Reader.start.Finite := ⟨trivial, nofun⟩
  have finite := Reader.run_finite (Token.scan_finite hts) begun hs
  obtain ⟨mode, stack⟩ := s
  cases mode <;> cases hv
  exact finite.mode

end Historian.Json
