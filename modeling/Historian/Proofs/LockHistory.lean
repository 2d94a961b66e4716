import Mathlib.Data.Set.Card
import Historian.Proofs.Locks

namespace Historian

-- What happens to locks. A request has found the line of its key, and then it has entered it; its
-- owner has left, which gives the lock back or gives up waiting for it; a key was forgotten.
inductive LockEvent (κ ρ : Type)
  | found (owner : ρ) (key : κ)
  | entered (owner : ρ) (key : κ)
  | left (owner : ρ)
  | forgot (key : κ)

namespace LockEvent

variable {κ ρ : Type} {es : List (LockEvent κ ρ)} {e : LockEvent κ ρ} {key : κ} {a b owner : ρ}

-- What can be said of a history, the latest event first.

-- The key was forgotten since somebody asked for its lock.
def Past (es : List (LockEvent κ ρ)) (key : κ) (owner : ρ) : Prop :=
  [forgot key, found owner key].Sublist es

-- The key was forgotten after one of two had asked for its lock, and before the other did.
def Parted (es : List (LockEvent κ ρ)) (key : κ) (a b : ρ) : Prop :=
  [found b key, forgot key, found a key].Sublist es ∨
    [found a key, forgot key, found b key].Sublist es

-- The first of two entered a line before the second did.
def Ahead (es : List (LockEvent κ ρ)) (key : κ) (a b : ρ) : Prop :=
  [entered b key, entered a key].Sublist es

-- Somebody has left a line.
def Gone (es : List (LockEvent κ ρ)) (key : κ) (owner : ρ) : Prop :=
  [left owner, entered owner key].Sublist es

theorem past_cons : Past (e :: es) key owner ↔
    Past es key owner ∨ e = forgot key ∧ found owner key ∈ es := by
  simp only [Past, List.cons_sublist_cons', List.singleton_sublist, eq_comm]

theorem parted_cons : Parted (e :: es) key a b ↔
    Parted es key a b ∨ e = found b key ∧ Past es key a ∨ e = found a key ∧ Past es key b := by
  simp only [Parted, Past, List.cons_sublist_cons' (b := e), eq_comm (b := e)]
  tauto

theorem ahead_cons : Ahead (e :: es) key a b ↔
    Ahead es key a b ∨ e = entered b key ∧ entered a key ∈ es := by
  simp only [Ahead, List.cons_sublist_cons', List.singleton_sublist, eq_comm]

theorem gone_cons : Gone (e :: es) key owner ↔
    Gone es key owner ∨ e = left owner ∧ entered owner key ∈ es := by
  simp only [Gone, List.cons_sublist_cons', List.singleton_sublist, eq_comm]

theorem Parted.symm (h : Parted es key a b) : Parted es key b a :=
  Or.symm h

theorem Past.found (h : Past es key owner) : found owner key ∈ es :=
  List.Sublist.subset h (by simp)

theorem Ahead.entered (h : Ahead es key a b) : entered a key ∈ es :=
  List.Sublist.subset h (by simp)

theorem Gone.entered (h : Gone es key owner) : entered owner key ∈ es :=
  List.Sublist.subset h (by simp)

theorem Parted.found (h : Parted es key a b) : LockEvent.found b key ∈ es := by
  rcases h with h | h <;> exact List.Sublist.subset h (by simp)

-- Of two that are each ahead of the other, one was there twice.
theorem Ahead.twice (h : Ahead es key a b) (h' : Ahead es key b a) :
    Ahead es key a a ∨ Ahead es key b b := by
  induction es with
  | nil => simp [Ahead] at h
  | cons e es ih =>
    simp only [ahead_cons] at h h' ⊢
    rcases h with h | ⟨rfl, -⟩ <;> rcases h' with h' | ⟨he, hb⟩
    · exact (ih h h').imp .inl .inl
    · exact .inl (.inr ⟨he, h.entered⟩)
    · exact .inr (.inr ⟨rfl, h'.entered⟩)
    · exact .inr (.inr ⟨rfl, hb⟩)

end LockEvent

namespace KeyedLocks

open LockEvent

-- What has happened to locks, the latest event first, what they have become by that, and the
-- requests that have found their line and have not entered it yet. Everybody asks once for one key.
inductive History {κ ρ : Type} [DecidableEq κ] [DecidableEq ρ] :
    List (LockEvent κ ρ) → KeyedLocks κ ρ → List (LockRequest κ ρ) → Prop
  | start : History [] {} []
  | find (h : History es l rs) (new : ∀ k, .found owner k ∉ es)
    (known : (l.opened key).epochs.lookup key = some epoch) :
    History (.found owner key :: es) (l.opened key) (⟨owner, key, epoch⟩ :: rs)
  | enter (h : History es l rs) (hr : r ∈ rs) :
    History (.entered r.owner r.key :: es) (l.joined r.owner r.key r.epoch)
      (rs.filter (·.owner ≠ r.owner))
  | leave (h : History es l rs) (owner : ρ) :
    History (.left owner :: es) (l.leave owner) (rs.filter (·.owner ≠ owner))
  | forget (h : History es l rs) (key : κ) : History (.forgot key :: es) (l.forget key) rs

variable {κ ρ : Type} {l : KeyedLocks κ ρ} {es : List (LockEvent κ ρ)}
  {rs rs' : List (LockRequest κ ρ)} {epochs : List (κ × Nat)} {key : κ} {owner : ρ}
  {next epoch : Nat}

-- Who stands in the lines, told from what happened: whoever entered one and has not left, in the
-- order of their arrival.
structure Arrived (es : List (LockEvent κ ρ)) (l : KeyedLocks κ ρ) (rs : List (LockRequest κ ρ)) :
    Prop where
  asked : ∀ a k, entered a k ∈ es → found a k ∈ es
  outside : ∀ r ∈ rs, ∀ k, entered r.owner k ∉ es
  once : ∀ a k, ¬Ahead es k a a
  stands : ∀ a k, (∃ r ∈ l.requests, r.owner = a ∧ r.key = k) ↔ entered a k ∈ es ∧ ¬Gone es k a
  order : l.requests.Pairwise fun r q => r.key = q.key → Ahead es r.key r.owner q.owner

namespace Arrived

variable {r q : LockRequest κ ρ} {l' : KeyedLocks κ ρ}

theorem mem_entered (h : Arrived es l rs) (hr : r ∈ l.requests) : entered r.owner r.key ∈ es :=
  ((h.stands r.owner r.key).mp ⟨r, hr, rfl, rfl⟩).1

-- An event by which nobody enters a line or leaves one.
theorem skip (h : Arrived es l rs) {e : LockEvent κ ρ} (hj : ∀ a k, e ≠ .entered a k)
    (hl : ∀ a, e ≠ .left a) (requests : l'.requests = l.requests) :
    Arrived (e :: es) l' rs where
  asked a k ha := .tail _ (h.asked a k (by simpa [(hj a k).symm] using ha))
  outside r hr k := by simpa [(hj r.owner k).symm] using h.outside r hr k
  once a k := by simpa [ahead_cons, hj] using h.once a k
  stands a k := by simpa [gone_cons, hl, (hj a k).symm, requests] using h.stands a k
  order := by simpa [ahead_cons, hj, requests] using h.order

theorem joins (h : Arrived es l rs) (hr : r ∈ rs) (asked : found r.owner r.key ∈ es)
    (hs : ∀ q ∈ rs', q ∈ rs ∧ q.owner ≠ r.owner) :
    Arrived (.entered r.owner r.key :: es) (l.joined r.owner r.key r.epoch) rs' where
  asked a k ha := by
    rcases List.mem_cons.mp ha with he | ha
    · obtain ⟨rfl, rfl⟩ := entered.inj he
      exact .tail _ asked
    · exact .tail _ (h.asked a k ha)
  outside q hq k := by simpa [(hs q hq).2] using h.outside q (hs q hq).1 k
  once a k := by
    rw [ahead_cons]
    rintro (ahead | ⟨he, hm⟩)
    · exact h.once a k ahead
    · exact h.outside r hr k ((entered.inj he).1 ▸ hm)
  stands a k := by
    have staying : ¬Gone es r.key r.owner := fun gone => h.outside r hr r.key gone.entered
    constructor
    · rintro ⟨q, hq, rfl, rfl⟩
      rcases List.mem_append.mp hq with hq | hq
      · obtain ⟨hm, hn⟩ := (h.stands q.owner q.key).mp ⟨q, hq, rfl, rfl⟩
        exact ⟨.tail _ hm, by simpa [gone_cons] using hn⟩
      · obtain rfl := List.mem_singleton.mp hq
        exact ⟨.head _, by simpa [gone_cons] using staying⟩
    · rintro ⟨hm, hn⟩
      have hn : ¬Gone es k a := fun gone => hn (gone_cons.mpr (.inl gone))
      rcases List.mem_cons.mp hm with he | hm
      · obtain ⟨rfl, rfl⟩ := entered.inj he
        exact ⟨r, List.mem_append_right _ (List.mem_singleton_self r), rfl, rfl⟩
      · obtain ⟨q, hq, rfl, rfl⟩ := (h.stands a k).mpr ⟨hm, hn⟩
        exact ⟨q, List.mem_append_left _ hq, rfl, rfl⟩
  order := by
    refine List.pairwise_append.mpr ⟨?_, List.pairwise_singleton _ _, fun q hq _ he hk => ?_⟩
    · exact h.order.imp fun ahead hk => ahead_cons.mpr (.inl (ahead hk))
    · obtain rfl := List.mem_singleton.mp he
      exact ahead_cons.mpr (.inr ⟨by rw [hk], h.mem_entered hq⟩)

theorem leaves [DecidableEq ρ] (h : Arrived es l rs) (owner : ρ) (hs : rs' ⊆ rs) :
    Arrived (.left owner :: es) (l.leave owner) rs' where
  asked a k ha := .tail _ (h.asked a k (by simpa using ha))
  outside r hr k := by simpa using h.outside r (hs hr) k
  once a k := by simpa [ahead_cons] using h.once a k
  stands a k := by
    have standing := h.stands a k
    simp only [leave, List.mem_filter, decide_eq_true_eq, gone_cons, left.injEq]
    constructor
    · rintro ⟨r, ⟨hr, stays⟩, rfl, rfl⟩
      obtain ⟨hm, hn⟩ := standing.mp ⟨r, hr, rfl, rfl⟩
      exact ⟨.tail _ hm, by simpa [hn] using fun he => absurd he.symm stays⟩
    · rintro ⟨hm, hn⟩
      have hm : entered a k ∈ es := by simpa using hm
      obtain ⟨r, hr, rfl, rfl⟩ := standing.mpr ⟨hm, fun gone => hn (.inl gone)⟩
      exact ⟨r, ⟨hr, fun he => hn (.inr ⟨he.symm, hm⟩)⟩, rfl, rfl⟩
  order := (h.order.filter _).imp fun ahead hk => ahead_cons.mpr (.inl (ahead hk))

end Arrived

variable [DecidableEq κ]

-- What is new about the lines when one is opened.

theorem lookup_opened_eq (k : κ) : (l.opened key).epochs.lookup k =
    (l.epochs.lookup k).or (if k = key then some l.nextEpoch else none) := by
  unfold opened
  split
  case h_1 known =>
    by_cases hk : k = key
    · subst hk
      simp [known]
    · simp [hk]
  case h_2 =>
    rw [List.lookup_append]
    by_cases hk : k = key
    · simp [hk]
    · simp [hk, List.lookup_cons, beq_false_of_ne hk]

theorem lookup_opened_iff (h : epoch < l.nextEpoch) (k key : κ) :
    (l.opened key).epochs.lookup k = some epoch ↔ l.epochs.lookup k = some epoch := by
  rw [lookup_opened_eq]
  cases hk : l.epochs.lookup k with
  | some e => simp
  | none => simpa using fun _ => Nat.ne_of_gt h

theorem isSome_lookup_opened {k : κ} :
    ((l.opened key).epochs.lookup k).isSome ↔ (l.epochs.lookup k).isSome ∨ k = key := by
  rw [lookup_opened_eq]
  by_cases hk : k = key <;> simp [hk]

theorem nextEpoch_le_opened : l.nextEpoch ≤ (l.opened key).nextEpoch := by
  unfold opened
  split <;> simp

theorem lt_nextEpoch_opened (h : ∀ e ∈ l.epochs, e.2 < l.nextEpoch) (key : κ) :
    ∀ e ∈ (l.opened key).epochs, e.2 < (l.opened key).nextEpoch := by
  unfold opened
  split
  case h_1 => exact h
  case h_2 =>
    simp only [List.mem_append, List.mem_singleton]
    rintro e (he | rfl)
    · exact Nat.lt_succ_of_lt (h e he)
    · exact Nat.lt_succ_self _

theorem nodup_opened (h : (l.epochs.map (·.1)).Nodup) :
    ((l.opened key).epochs.map (·.1)).Nodup := by
  unfold opened
  split
  case h_1 => exact h
  case h_2 hk =>
    have absent : key ∉ l.epochs.map (·.1) := by
      intro hm
      obtain ⟨e, he, rfl⟩ := List.mem_map.mp hm
      simpa using List.lookup_eq_none_iff.mp hk e he
    rw [List.map_append, List.nodup_append_comm]
    exact List.nodup_cons.mpr ⟨absent, h⟩

theorem lookup_forget_self (l : KeyedLocks κ ρ) (key : κ) :
    (l.forget key).epochs.lookup key = none := by
  refine List.lookup_eq_none_iff.mpr fun e he => bne_iff_ne.mpr (Ne.symm ?_)
  simpa using (List.mem_filter.mp he).2

-- The line that a request has found, told from what happened: it is the present one of its key as
-- long as the key is not forgotten, and two requests are in one line if they are not parted.
structure Lined (es : List (LockEvent κ ρ)) (epochs : List (κ × Nat)) (next : Nat)
    (rs : List (LockRequest κ ρ)) : Prop where
  asked : ∀ r ∈ rs, found r.owner r.key ∈ es
  made : ∀ r ∈ rs, r.epoch < next
  bound : ∀ e ∈ epochs, e.2 < next
  keys : (epochs.map (·.1)).Nodup
  known : ∀ k, (epochs.lookup k).isSome ↔ ∃ a, found a k ∈ es ∧ ¬Past es k a
  current : ∀ r ∈ rs, epochs.lookup r.key = some r.epoch ↔ ¬Past es r.key r.owner
  lines : ∀ r ∈ rs, ∀ q ∈ rs, r.key = q.key →
    (r.epoch = q.epoch ↔ ¬Parted es r.key r.owner q.owner)

namespace Lined

theorem mono (h : Lined es epochs next rs) (hs : rs' ⊆ rs) : Lined es epochs next rs' :=
  { h with
    asked := fun r hr => h.asked r (hs hr)
    made := fun r hr => h.made r (hs hr)
    current := fun r hr => h.current r (hs hr)
    lines := fun r hr q hq => h.lines r (hs hr) q (hs hq) }

-- An event that is no request and forgets nothing.
theorem skip (h : Lined es epochs next rs) {e : LockEvent κ ρ} (hf : ∀ a k, e ≠ .found a k)
    (hn : ∀ k, e ≠ .forgot k) : Lined (e :: es) epochs next rs where
  asked r hr := .tail _ (h.asked r hr)
  made := h.made
  bound := h.bound
  keys := h.keys
  known k := by simpa [past_cons, hn, (hf _ _).symm] using h.known k
  current r hr := by simpa [past_cons, hn] using h.current r hr
  lines r hr q hq hk := by simpa [parted_cons, hf] using h.lines r hr q hq hk

theorem find (h : Lined es l.epochs l.nextEpoch rs) (new : ∀ k, found owner k ∉ es)
    (known : (l.opened key).epochs.lookup key = some epoch) :
    Lined (found owner key :: es) (l.opened key).epochs (l.opened key).nextEpoch
      (⟨owner, key, epoch⟩ :: rs) := by
  have bound := lt_nextEpoch_opened h.bound key
  have fresh : ¬Past es key owner := fun past => new key past.found
  have other : ∀ r ∈ rs, r.owner ≠ owner := by
    rintro r hr rfl
    exact new r.key (h.asked r hr)
  have lined : ∀ r ∈ rs, r.key = key → (r.epoch = epoch ↔ ¬Past es key r.owner) := by
    rintro r hr rfl
    rw [← h.current r hr, ← lookup_opened_iff (h.made r hr) _ r.key, known, Option.some_inj,
      eq_comm]
  have alone : ∀ a, Parted (found owner key :: es) key a owner ↔ Past es key a := by
    intro a
    have apart : ¬Parted es key a owner := fun parted => new key parted.found
    simp [parted_cons, apart, fresh]
  refine { bound, keys := nodup_opened h.keys, asked := ?asked, made := ?made, known := ?known,
           current := ?current, lines := ?lines }
  case asked => exact List.forall_mem_cons.mpr ⟨.head _, fun r hr => .tail _ (h.asked r hr)⟩
  case made =>
    obtain ⟨before, after, split, -⟩ := List.lookup_eq_some_iff.mp known
    refine List.forall_mem_cons.mpr ⟨bound (key, epoch) (by simp [split]), fun r hr => ?_⟩
    exact Nat.lt_of_lt_of_le (h.made r hr) nextEpoch_le_opened
  case known =>
    intro k
    rw [isSome_lookup_opened, h.known]
    constructor
    · rintro (⟨a, ha, hp⟩ | rfl)
      · exact ⟨a, .tail _ ha, by simpa [past_cons] using hp⟩
      · exact ⟨owner, .head _, by simpa [past_cons] using fresh⟩
    · rintro ⟨a, ha, hp⟩
      rcases List.mem_cons.mp ha with he | ha
      · exact .inr (found.inj he).2
      · exact .inl ⟨a, ha, fun past => hp (past_cons.mpr (.inl past))⟩
  case current =>
    refine List.forall_mem_cons.mpr ⟨?_, fun r hr => ?_⟩
    · simpa [past_cons, known] using fresh
    · rw [lookup_opened_iff (h.made r hr), h.current r hr]
      simp [past_cons]
  case lines =>
    refine List.forall_mem_cons.mpr ⟨List.forall_mem_cons.mpr ⟨fun _ => ?_, fun q hq hk => ?_⟩,
      fun r hr => List.forall_mem_cons.mpr ⟨fun hk => ?_, fun q hq hk => ?_⟩⟩
    · simpa [alone] using fresh
    · rw [eq_comm, lined q hq hk.symm, ← alone]
      exact not_congr ⟨.symm, .symm⟩
    · subst hk
      rw [lined r hr rfl, alone]
    · simpa [parted_cons, (other r hr).symm, (other q hq).symm] using h.lines r hr q hq hk

theorem forget (h : Lined es l.epochs l.nextEpoch rs) (key : κ) :
    Lined (.forgot key :: es) (l.forget key).epochs (l.forget key).nextEpoch rs where
  asked r hr := .tail _ (h.asked r hr)
  made := h.made
  bound e he := h.bound e (List.mem_filter.mp he).1
  keys := (List.filter_sublist.map _).nodup h.keys
  known k := by
    by_cases hk : k = key
    · subst hk
      simp +contextual [lookup_forget_self, past_cons]
    · simpa [l.lookup_forget hk, past_cons, Ne.symm hk] using h.known k
  current r hr := by
    by_cases hk : r.key = key
    · subst hk
      simp [lookup_forget_self, past_cons, h.asked r hr]
    · simpa [l.lookup_forget hk, past_cons, Ne.symm hk] using h.current r hr
  lines r hr q hq hk := by simpa [parted_cons] using h.lines r hr q hq hk

end Lined

theorem Arrived.find (h : Arrived es l rs) (new : ∀ k, found owner k ∉ es) (key : κ) (epoch : Nat) :
    Arrived (.found owner key :: es) (l.opened key) (⟨owner, key, epoch⟩ :: rs) := by
  have skipped : Arrived (.found owner key :: es) (l.opened key) rs :=
    h.skip nofun nofun (l.opened_requests key)
  refine { skipped with outside := List.forall_mem_cons.mpr ⟨fun k hm => ?_, skipped.outside⟩ }
  exact new k (h.asked owner k (by simpa using hm))

variable [DecidableEq ρ]

namespace History

theorem lined (h : History es l rs) : Lined es l.epochs l.nextEpoch (rs ++ l.requests) := by
  induction h with
  | start => constructor <;> simp
  | find _ new known ih =>
    have found := ih.find new known
    rwa [← List.cons_append, ← opened_requests] at found
  | @enter es l rs r _ hr ih =>
    have skipped : Lined (.entered r.owner r.key :: es) l.epochs l.nextEpoch (rs ++ l.requests) :=
      ih.skip (by simp) (by simp)
    refine skipped.mono fun q hq => ?_
    simp only [KeyedLocks.joined, List.mem_append, List.mem_filter, List.mem_singleton] at hq
    rcases hq with ⟨hq, -⟩ | hq | rfl
    · exact List.mem_append_left _ hq
    · exact List.mem_append_right _ hq
    · exact List.mem_append_left _ hr
  | @leave es l rs _ owner ih =>
    have skipped : Lined (.left owner :: es) l.epochs l.nextEpoch (rs ++ l.requests) :=
      ih.skip (by simp) (by simp)
    exact skipped.mono (List.filter_sublist.append List.filter_sublist).subset
  | forget _ key ih => exact ih.forget key

theorem arrived (h : History es l rs) : Arrived es l rs := by
  induction h with
  | start => exact ⟨nofun, nofun, nofun, by simp, .nil⟩
  | find _ new _ ih => exact ih.find new _ _
  | enter h hr ih =>
    refine ih.joins hr (h.lined.asked _ (List.mem_append_left _ hr)) fun q hq => ?_
    simpa using hq
  | leave _ owner ih => exact ih.leaves owner List.filter_sublist.subset
  | forget _ key ih => exact ih.skip nofun nofun rfl

variable {r q : LockRequest κ ρ} {a : ρ}

-- A request at one stroke finds its line and enters it.
theorem request (h : History es l rs) (new : ∀ k, .found owner k ∉ es) (key : κ) :
    History (.entered owner key :: .found owner key :: es) (l.request owner key) rs := by
  obtain ⟨epoch, known⟩ := l.opened_known key
  have entered := (h.find new known).enter (.head _)
  have others : ∀ r ∈ rs, r.owner ≠ owner := by
    rintro r hr rfl
    exact new r.key (h.lined.asked r (List.mem_append_left _ hr))
  have rest : (⟨owner, key, epoch⟩ :: rs).filter (·.owner ≠ owner) = rs := by
    rw [List.filter_cons_of_neg (by simp), List.filter_eq_self.mpr (by simpa using others)]
  rw [request_eq known]
  rwa [rest] at entered

theorem lined_standing (h : History es l rs) (hr : r ∈ l.requests) (hq : q ∈ l.requests) :
    sameLine r q ↔ r.key = q.key ∧ ¬Parted es r.key r.owner q.owner := by
  rw [sameLine_iff]
  refine and_congr_right fun hk => ?_
  exact h.lined.lines r (List.mem_append_right _ hr) q (List.mem_append_right _ hq) hk

theorem ahead_asymm (h : History es l rs) {b : ρ} (hab : Ahead es key a b) : ¬Ahead es key b a :=
  fun hba => (hab.twice hba).elim (h.arrived.once a key) (h.arrived.once b key)

theorem nodup (h : History es l rs) : l.requests.Nodup := by
  refine h.arrived.order.imp fun {r q} ahead => ?_
  rintro rfl
  exact h.arrived.once r.owner r.key (ahead rfl)

-- Whoever holds a lock came first of those who stand in its line.
theorem ahead_of_leads (h : History es l rs) (leads : Leads l.requests r) (hq : q ∈ l.requests)
    (hs : sameLine r q) : q = r ∨ Ahead es r.key r.owner q.owner := by
  obtain ⟨-, before, after, split, earlier⟩ := List.find?_eq_some_iff_append.mp leads
  have order := h.arrived.order
  rw [split] at hq order
  rcases List.mem_append.mp hq with hq | hq
  · exact absurd hs (by simpa using earlier q hq)
  rcases List.mem_cons.mp hq with rfl | hq
  · exact .inl rfl
  · refine .inr ?_
    exact List.rel_of_pairwise_cons (List.pairwise_append.mp order).2.1 hq (sameLine_iff.mp hs).1

theorem parted_of_holding (h : History es l rs) (hr : r ∈ l.holding) (hq : q ∈ l.holding)
    (hk : r.key = q.key) (ho : r.owner ≠ q.owner) : Parted es r.key r.owner q.owner := by
  rw [mem_holding] at hr hq
  by_contra together
  have same := (h.lined_standing hr.mem hq.mem).mpr ⟨hk, together⟩
  exact ho (congrArg _ (hr.eq hq same))

theorem gone_of_ahead (h : History es l rs) (hr : r ∈ l.holding) (ahead : Ahead es r.key a r.owner)
    (together : ¬Parted es r.key a r.owner) : Gone es r.key a := by
  by_contra stays
  rw [mem_holding] at hr
  obtain ⟨q, hq, rfl, hk⟩ := (h.arrived.stands a r.key).mpr ⟨ahead.entered, stays⟩
  have same := (h.lined_standing hr.mem hq).mpr ⟨hk.symm, fun parted => together parted.symm⟩
  rcases h.ahead_of_leads hr hq same with rfl | behind
  · exact h.arrived.once q.owner q.key ahead
  · exact h.ahead_asymm ahead behind

theorem ahead_of_waiting (h : History es l rs) (hr : r ∈ l.waiting) : ∃ q ∈ l.holding,
    q.key = r.key ∧ ¬Parted es r.key q.owner r.owner ∧ Ahead es r.key q.owner r.owner := by
  obtain ⟨hm, waits⟩ := not_leads_of_waiting h.nodup hr
  obtain ⟨q, leads, -, same⟩ := Leads.of_mem hm
  obtain ⟨hk, together⟩ := (h.lined_standing leads.mem hm).mp (sameLine_symm same)
  refine ⟨q, mem_holding.mpr leads, hk, hk ▸ together, ?_⟩
  rcases h.ahead_of_leads leads hm (sameLine_symm same) with rfl | ahead
  · exact absurd leads waits
  · exact hk ▸ ahead

theorem size_eq (h : History es l rs) :
    l.size = {k | ∃ a, .found a k ∈ es ∧ ¬Past es k a}.ncard := by
  have keys : {k | ∃ a, .found a k ∈ es ∧ ¬Past es k a} = ↑(l.epochs.map (·.1)).toFinset := by
    ext k
    rw [Set.mem_ofPred_eq, ← h.lined.known, List.lookup_isSome_iff, Finset.mem_coe,
      List.mem_toFinset, List.mem_map]
    exact exists_congr fun e => and_congr_right fun _ => beq_iff_eq.trans eq_comm
  rw [keys, Set.ncard_coe_finset, List.toFinset_card_of_nodup h.lined.keys, List.length_map, size]

-- Who holds a lock and who waits, told from what happened. Only a removal between their requests
-- lets two hold the lock of one key. All that came before a holder in its line have left, whoever
-- waits does so behind a holder, and the keys known are those asked for since they were last
-- forgotten.
theorem served (h : History es l rs) :
    (∀ r ∈ l.holding, ∀ q ∈ l.holding, r.key = q.key → r.owner ≠ q.owner →
      Parted es r.key r.owner q.owner) ∧
    (∀ r ∈ l.holding, ∀ a, Ahead es r.key a r.owner → ¬Parted es r.key a r.owner →
      Gone es r.key a) ∧
    (∀ r ∈ l.waiting, ∃ q ∈ l.holding,
      q.key = r.key ∧ ¬Parted es r.key q.owner r.owner ∧ Ahead es r.key q.owner r.owner) ∧
    (∀ a k, (∃ r ∈ l.holding ++ l.waiting, r.owner = a ∧ r.key = k) ↔
      .entered a k ∈ es ∧ ¬Gone es k a) ∧
    l.size = {k | ∃ a, .found a k ∈ es ∧ ¬Past es k a}.ncard := by
  refine ⟨fun r hr q hq => h.parted_of_holding hr hq, fun r hr a => h.gone_of_ahead hr,
    fun r => h.ahead_of_waiting, fun a k => ?_, h.size_eq⟩
  simp only [l.standing_perm.mem_iff]
  exact h.arrived.stands a k

-- The second finds its line before the key is forgotten, and enters it when the third has the lock
-- of the new one: it waits for the first.

def crowd : KeyedLocks String Nat where
  requests := [⟨1, "motor", 0⟩, ⟨3, "motor", 1⟩, ⟨2, "motor", 0⟩]
  epochs := [("motor", 1)]
  nextEpoch := 2

def crowding : List (LockEvent String Nat) :=
  [.entered 2 "motor", .entered 3 "motor", .found 3 "motor", .forgot "motor", .found 2 "motor",
    .entered 1 "motor", .found 1 "motor"]

theorem served_crowd : History crowding crowd [] ∧
    crowd.holding = [⟨1, "motor", 0⟩, ⟨3, "motor", 1⟩] ∧ Parted crowding "motor" 1 3 ∧
    crowd.waiting = [⟨2, "motor", 0⟩] ∧ Ahead crowding "motor" 1 2 ∧
    {k | ∃ a, .found a k ∈ crowding ∧ ¬Past crowding k a}.ncard = 1 := by
  have first : History [.entered 1 "motor", .found 1 "motor"]
      ⟨[⟨1, "motor", 0⟩], [("motor", 0)], 1⟩ ([] : List (LockRequest String Nat)) :=
    start.request (by simp) "motor"
  have second : History [.forgot "motor", .found 2 "motor", .entered 1 "motor", .found 1 "motor"]
      ⟨[⟨1, "motor", 0⟩], [], 1⟩ [⟨2, "motor", 0⟩] :=
    (first.find (by simp) rfl).forget "motor"
  have history : History crowding crowd [] := (second.request (by simp) "motor").enter (.head _)
  have holding : crowd.holding = [⟨1, "motor", 0⟩, ⟨3, "motor", 1⟩] := by decide
  have waiting : crowd.waiting = [⟨2, "motor", 0⟩] := by decide
  obtain ⟨parted, -, behind, -, size⟩ := served history
  refine ⟨history, holding, ?_, waiting, ?_, size.symm⟩
  · exact parted ⟨1, "motor", 0⟩ (by simp [holding]) ⟨3, "motor", 1⟩ (by simp [holding]) rfl
      (by decide)
  · obtain ⟨q, hq, -, together, ahead⟩ := behind ⟨2, "motor", 0⟩ (by simp [waiting])
    have third : Parted crowding "motor" 3 2 := .inr (by simp [crowding])
    rw [holding] at hq
    rcases List.mem_cons.mp hq with rfl | hq
    · exact ahead
    · obtain rfl := List.mem_singleton.mp hq
      exact absurd third together

end History

end KeyedLocks

end Historian
