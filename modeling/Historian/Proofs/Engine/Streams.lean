import Historian.Proofs.Basic
import Historian.Engine.Tables

namespace Historian.Engine.Tables

variable {t t' : Tables} {n : String} {after : Option Stream}

-- The streams of the one are those of the other, except under one name.
structure Puts (t : Tables) (n : String) (after : Option Stream) (t' : Tables) : Prop where
  here : t'.streams[n]? = after
  elsewhere : ∀ m, m ≠ n → t'.streams[m]? = t.streams[m]?

theorem Puts.cases (h : t.Puts n after t') (hm : t'.streams[m]? = some s) :
    m = n ∧ after = some s ∨ m ≠ n ∧ t.streams[m]? = some s := by
  by_cases he : m = n
  case pos => exact .inl ⟨he, h.here.symm.trans (he ▸ hm)⟩
  case neg => exact .inr ⟨he, (h.elsewhere m he).symm.trans hm⟩

theorem puts_same (h : t.streams[n]? = after) : t.Puts n after t :=
  ⟨h, fun _ _ => rfl⟩

theorem puts_insert (h : t'.streams = t.streams.insert n s) : t.Puts n (some s) t' := by
  constructor
  · simp [h]
  · intro m hm
    simp [h, Std.ExtTreeMap.getElem?_insert, hm.symm]

theorem puts_erase (h : t'.streams = t.streams.erase n) : t.Puts n none t' := by
  constructor
  · simp [h]
  · intro m hm
    simp [h, Std.ExtTreeMap.getElem?_erase, hm.symm]

-- The statements on streams, each with what it leaves.

-- A stream that is there is left alone.
theorem createStream_ok {target source : TableName}
    (h : t.createStream sql true n target source = .ok t') :
    (∃ s, t.streams[n]? = some s ∧ t.Puts n (some s) t') ∨
      t.streams[n]? = none ∧ t.Puts n (some ⟨sql, target, source, false⟩) t' := by
  simp only [createStream, bind_eq_ok] at h
  obtain ⟨-, -, h⟩ := h
  split at h
  case isTrue => cases h
  case isFalse =>
    split at h <;> cases h
    case isTrue.refl hs =>
      have found := Std.ExtTreeMap.getElem?_eq_some_getElem (Std.ExtTreeMap.contains_iff_mem.mp hs)
      exact .inl ⟨_, found, puts_same found⟩
    case isFalse.refl hs => exact .inr ⟨by simpa using hs, puts_insert rfl⟩

theorem setPaused_ok (h : t.setPaused false n paused = .ok t') :
    ∃ s, t.streams[n]? = some s ∧ t.Puts n (some { s with paused }) t' := by
  unfold setPaused at h
  split at h <;> cases h
  exact ⟨_, ‹_›, puts_insert rfl⟩

theorem dropStream_ok (h : t.dropStream true n = .ok t') : t.Puts n none t' := by
  unfold dropStream at h
  split at h <;> cases h
  case isTrue => exact puts_erase rfl
  case isFalse hn => exact puts_same (by simpa using hn)

end Historian.Engine.Tables
