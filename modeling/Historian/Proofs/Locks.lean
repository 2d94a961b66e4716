import Historian.Locks

namespace Historian.KeyedLocks

section

variable {κ ρ : Type} [DecidableEq κ] {l : KeyedLocks κ ρ} {r q : LockRequest κ ρ}
  {rs seen : List (LockRequest κ ρ)}

theorem sameLine_iff : sameLine r q ↔ r.key = q.key ∧ r.epoch = q.epoch := by
  simp [sameLine]

@[simp] theorem sameLine_refl (r : LockRequest κ ρ) : sameLine r r := by
  simp [sameLine]

theorem sameLine_symm (h : sameLine r q) : sameLine q r := by
  have ⟨hk, he⟩ := sameLine_iff.mp h
  exact sameLine_iff.mpr ⟨hk.symm, he.symm⟩

theorem sameLine_congr (h : sameLine r q) : sameLine r = sameLine q := by
  have ⟨hk, he⟩ := sameLine_iff.mp h
  funext x
  simp [sameLine, hk, he]

-- The first request of its line.
def Leads (rs : List (LockRequest κ ρ)) (r : LockRequest κ ρ) : Prop :=
  rs.find? (sameLine r) = some r

theorem mem_split_cons : r ∈ (split seen (q :: rs)).1 ↔
    (r = q ∧ ∀ a ∈ seen, ¬sameLine q a) ∨ r ∈ (split (seen ++ [q]) rs).1 := by
  simp only [split]
  split
  case isTrue hs =>
    obtain ⟨a, ha, hs⟩ := List.any_eq_true.mp hs
    exact ⟨.inr, fun h => h.resolve_left fun ⟨_, hn⟩ => hn a ha hs⟩
  case isFalse hs =>
    have first : ∀ a ∈ seen, ¬sameLine q a := by simpa using hs
    simp only [List.mem_cons]
    exact or_congr_left ⟨fun h => ⟨h, first⟩, fun h => h.1⟩

theorem mem_split : r ∈ (split seen rs).1 ↔ (∀ q ∈ seen, ¬sameLine r q) ∧ Leads rs r := by
  induction rs generalizing seen with
  | nil => simp [split, Leads]
  | cons q rs ih =>
    rw [mem_split_cons, ih]
    by_cases hs : sameLine r q
    · have leads : Leads (q :: rs) r ↔ r = q := by simp [Leads, hs, eq_comm]
      have behind : ¬∀ a ∈ seen ++ [q], ¬sameLine r a := by simp [hs]
      rw [leads]
      constructor
      · rintro (⟨rfl, hf⟩ | h)
        · exact ⟨hf, rfl⟩
        · exact absurd h.1 behind
      · rintro ⟨hf, rfl⟩
        exact .inl ⟨rfl, hf⟩
    · have other : r ≠ q := fun h => hs (h ▸ sameLine_refl r)
      have leads : Leads (q :: rs) r ↔ Leads rs r := by simp [Leads, hs]
      simp [leads, other, hs, or_imp, forall_and]

theorem mem_holding : r ∈ l.holding ↔ Leads l.requests r := by
  simp [holding, mem_split]

theorem split_perm : ((split seen rs).1 ++ (split seen rs).2).Perm rs := by
  induction rs generalizing seen with
  | nil => exact .nil
  | cons r rs ih =>
    simp only [split]
    split
    case isTrue => exact List.perm_middle.trans (ih.cons r)
    case isFalse => exact ih.cons r

-- Whoever stands in a line either holds its lock or waits.
theorem standing_perm (l : KeyedLocks κ ρ) : (l.holding ++ l.waiting).Perm l.requests :=
  split_perm

theorem not_leads_of_waiting (h : l.requests.Nodup) (hr : r ∈ l.waiting) :
    r ∈ l.requests ∧ ¬Leads l.requests r := by
  have disjoint := (List.nodup_append.mp (l.standing_perm.nodup_iff.mpr h)).2.2
  refine ⟨l.standing_perm.subset (List.mem_append_right _ hr), fun leads => ?_⟩
  exact disjoint r (mem_holding.mpr leads) r hr rfl

theorem holds_iff [DecidableEq ρ] {owner : ρ} :
    l.holds owner ↔ ∃ r, Leads l.requests r ∧ r.owner = owner := by
  simp [holds, mem_holding]

namespace Leads

theorem mem (h : Leads rs r) : r ∈ rs :=
  List.mem_of_find?_eq_some h

-- A lock has one holder.
theorem eq (hr : Leads rs r) (hq : Leads rs q) (hs : sameLine r q) : r = q :=
  Option.some.inj (hr.symm.trans ((congrArg rs.find? (sameLine_congr hs)).trans hq))

-- Whoever stands in a line stands behind its first.
theorem of_mem (h : r ∈ rs) : ∃ q, Leads rs q ∧ rs.find? (sameLine r) = some q ∧ sameLine r q := by
  obtain ⟨q, first⟩ := Option.isSome_iff_exists.mp
    (List.find?_isSome.mpr ⟨r, h, sameLine_refl r⟩)
  have hs := List.find?_some first
  exact ⟨q, (congrArg rs.find? (sameLine_congr hs)).symm.trans first, first, hs⟩

theorem append (h : Leads rs r) (qs : List (LockRequest κ ρ)) : Leads (rs ++ qs) r := by
  rw [Leads] at *
  simp [h]

theorem cons (h : Leads rs r) (hs : ¬sameLine r q) : Leads (q :: rs) r := by
  simpa [Leads, hs] using h

theorem filter {p : LockRequest κ ρ → Bool} (h : Leads rs r) (hp : p r) :
    Leads (rs.filter p) r := by
  obtain ⟨hs, before, after, rfl, hb⟩ := List.find?_eq_some_iff_append.mp h
  refine List.find?_eq_some_iff_append.mpr
    ⟨hs, before.filter p, after.filter p, by simp [hp], fun q hq => ?_⟩
  exact hb q (List.mem_filter.mp hq).1

end Leads

end

section

variable {κ ρ : Type} [DecidableEq κ] {l : KeyedLocks κ ρ} {key : κ} {epoch : Nat}

-- What a request for a lock does one after another: the line of the key is looked up, made if there
-- is none even now, and then joined.

def opened (l : KeyedLocks κ ρ) (key : κ) : KeyedLocks κ ρ :=
  match l.epochs.lookup key with
  | some _ => l
  | none =>
    { l with epochs := l.epochs ++ [(key, l.nextEpoch)], nextEpoch := l.nextEpoch + 1 }

def joined (l : KeyedLocks κ ρ) (owner : ρ) (key : κ) (epoch : Nat) : KeyedLocks κ ρ :=
  { l with requests := l.requests ++ [⟨owner, key, epoch⟩] }

theorem opened_of_known (h : l.epochs.lookup key = some epoch) : l.opened key = l := by
  simp only [opened, h]

@[simp] theorem opened_requests (l : KeyedLocks κ ρ) (key : κ) :
    (l.opened key).requests = l.requests := by
  unfold opened
  split <;> rfl

theorem opened_known (l : KeyedLocks κ ρ) (key : κ) :
    ∃ epoch, (l.opened key).epochs.lookup key = some epoch := by
  unfold opened
  split
  · exact ⟨_, ‹_›⟩
  · exact ⟨l.nextEpoch, by simp [List.lookup_append, ‹l.epochs.lookup key = none›]⟩

-- A line that is known stays the same, whoever makes lines.
theorem lookup_opened (h : l.epochs.lookup key = some epoch) (other : κ) :
    (l.opened other).epochs.lookup key = some epoch := by
  unfold opened
  split
  · exact h
  · simp [List.lookup_append, h]

theorem lookup_forget (l : KeyedLocks κ ρ) {k : κ} (h : k ≠ key) :
    (l.forget key).epochs.lookup k = l.epochs.lookup k := by
  simp only [forget]
  induction l.epochs with
  | nil => rfl
  | cons e es ih =>
    obtain ⟨k', e⟩ := e
    simp only [List.filter_cons, List.lookup_cons]
    split
    case isTrue => rw [List.lookup_cons, ih]
    case isFalse hk =>
      have other : (k == k') = false := by simp_all
      rw [ih, other]

theorem request_eq {owner : ρ} (h : (l.opened key).epochs.lookup key = some epoch) :
    l.request owner key = (l.opened key).joined owner key epoch := by
  unfold opened at h ⊢
  split at h
  case h_1 known =>
    obtain rfl := Option.some.inj (known.symm.trans h)
    simp only [request, known, joined]
  case h_2 unknown =>
    have fresh : epoch = l.nextEpoch := by
      simpa [List.lookup_append, unknown, eq_comm] using h
    simp only [request, unknown, joined, fresh]

end

section

variable {κ : Type} [DecidableEq κ] {l : KeyedLocks κ Nat} {r q : LockRequest κ Nat}
  {Gone Gone' : κ → Prop}

-- Requests by tickets that count up. Only a key that is gone, so that nothing is protected by it
-- any more, can be forgotten while a request for it is left.
structure Lines (Gone : κ → Prop) (l : KeyedLocks κ Nat) (next : Nat) : Prop where
  owners : (l.requests.map (·.owner)).Nodup
  tickets : ∀ r ∈ l.requests, r.owner < next
  current : ∀ r ∈ l.requests, Gone r.key ∨ l.epochs.lookup r.key = some r.epoch

-- Lets a request come first in its line.
def promote (l : KeyedLocks κ Nat) (r : LockRequest κ Nat) : KeyedLocks κ Nat :=
  { l with requests := r :: (l.leave r.owner).requests }

theorem request_requests (l : KeyedLocks κ Nat) (ticket : Nat) (key : κ) :
    ∃ epoch, (l.request ticket key).requests = l.requests ++ [⟨ticket, key, epoch⟩] := by
  unfold request
  split <;> exact ⟨_, rfl⟩

namespace Lines

theorem empty (next : Nat) : Lines Gone ({} : KeyedLocks κ Nat) next :=
  ⟨.nil, nofun, nofun⟩

theorem mono (h : Lines Gone l next) (hg : ∀ key, Gone key → Gone' key) : Lines Gone' l next :=
  { h with current := fun r hr => (h.current r hr).imp_left (hg _) }

-- Two that hold the lock of one key do so after it was gone.
theorem sole (h : Lines Gone l next) (hr : Leads l.requests r) (hq : Leads l.requests q)
    (hk : r.key = q.key) : Gone r.key ∨ r = q := by
  rcases h.current r hr.mem with hg | he
  · exact .inl hg
  rcases h.current q hq.mem with hg | he'
  · exact .inl (hk ▸ hg)
  refine .inr (hr.eq hq (sameLine_iff.mpr ⟨hk, ?_⟩))
  exact Option.some.inj (he.symm.trans (hk ▸ he'))

theorem request (h : Lines Gone l next) (key : κ) :
    Lines Gone (l.request next key) (next + 1) := by
  obtain ⟨epoch, he⟩ := l.request_requests next key
  have tickets : ∀ r ∈ (l.request next key).requests, r.owner < next + 1 := by
    simp only [he, List.mem_append, List.mem_singleton]
    rintro r (hr | rfl)
    · exact Nat.lt_succ_of_lt (h.tickets r hr)
    · exact Nat.lt_succ_self next
  have owners : ((l.request next key).requests.map (·.owner)).Nodup := by
    simp only [he, List.map_append, List.map_cons, List.map_nil, List.nodup_append]
    refine ⟨h.owners, by simp, ?_⟩
    simp only [List.mem_map, List.mem_singleton]
    rintro _ ⟨r, hr, rfl⟩ _ rfl
    exact Nat.ne_of_lt (h.tickets r hr)
  refine ⟨owners, tickets, ?_⟩
  unfold KeyedLocks.request
  split
  case h_1 epoch hk =>
    simp only [List.mem_append, List.mem_singleton]
    rintro r (hr | rfl)
    · exact h.current r hr
    · exact .inr hk
  case h_2 hk =>
    simp only [List.mem_append, List.mem_singleton, List.lookup_append]
    rintro r (hr | rfl)
    · exact (h.current r hr).imp_right fun he => by simp [he]
    · exact .inr (by simp [hk])

theorem leave (h : Lines Gone l next) (ticket : Nat) : Lines Gone (l.leave ticket) next where
  owners := (List.filter_sublist.map _).nodup h.owners
  tickets r hr := h.tickets r (List.mem_filter.mp hr).1
  current r hr := h.current r (List.mem_filter.mp hr).1

theorem forget (h : Lines Gone l next) (hg : Gone key) : Lines Gone (l.forget key) next where
  owners := h.owners
  tickets := h.tickets
  current r hr := by
    by_cases hk : r.key = key
    · exact .inl (hk ▸ hg)
    · exact (h.current r hr).imp_right (l.lookup_forget hk).trans

theorem promote (h : Lines Gone l next) (hr : r ∈ l.requests) : Lines Gone (l.promote r) next := by
  have mem : ∀ q ∈ (l.promote r).requests, q ∈ l.requests :=
    List.forall_mem_cons.mpr ⟨hr, fun q hq => (List.mem_filter.mp hq).1⟩
  refine ⟨?_, fun q hq => h.tickets q (mem q hq), fun q hq => h.current q (mem q hq)⟩
  refine List.nodup_cons.mpr ⟨?_, (h.leave r.owner).owners⟩
  simp [KeyedLocks.leave]

end Lines

end

end Historian.KeyedLocks
