import Historian.Proofs.Program.Race

namespace Historian

open KeyedLocks

-- If all stand in one line, the first of all is the first of its line.
theorem KeyedLocks.leads_line {rs : List (LockRequest LockKey Nat)} {r : LockRequest LockKey Nat}
    (h : ∀ q ∈ rs, ∀ r ∈ rs, sameLine q r) : Leads rs r ↔ rs.head? = some r := by
  cases rs with
  | nil => exact .rfl
  | cons q rest =>
    constructor
    · intro leads
      have same : sameLine r q := h r leads.mem q List.mem_cons_self
      exact (List.find?_cons_of_pos same).symm.trans leads
    · intro head
      obtain rfl : q = r := Option.some.inj head
      exact List.find?_cons_of_pos (sameLine_refl q)

-- The end of a program that holds a lock.
def Program.leaving (p : Program α) (ticket : Nat) : Program α :=
  p.bind fun a => .ask (.release ticket) fun _ => .done a

namespace Race

-- What is not to be seen of a race for one lock: the callers that have asked for the lock, with
-- their tickets; whether the first of them has it; the calls that are over, with their results; and
-- the world in which the call that has the lock began, or the next one will.
structure Ghost (ε α : Type) where
  queue : List (Nat × Nat)
  inside : Bool
  log : List (Nat × α)
  before : World ε

def Ghost.Has (s : Ghost ε α) (i ticket : Nat) : Prop :=
  s.inside ∧ s.queue.head? = some (i, ticket)

section

variable {ε α : Type} [Engine.Endpoint ε]

-- Runs of some of the programs one after another.
inductive Chain (ps : List (Program α)) (w : World ε) : List (Nat × α) → World ε → Prop
  | nil : Chain ps w [] w
  | snoc (h : Chain ps w log w₁) (hp : ps[i]? = some p) (hn : ∀ a, (i, a) ∉ log)
    (hr : p.Runs w₁ a w₂) : Chain ps w (log ++ [(i, a)]) w₂

-- Where a caller can be on its way.
inductive Stage (key : LockKey) (w : World ε) (s : Ghost ε α) (i : Nat) (p : Program α) :
    Caller α → Prop
  | outside (hq : ∀ t, (i, t) ∉ s.queue) (hl : ∀ a, (i, a) ∉ s.log) :
    Stage key w s i p (.thread (.running (.ask (.acquire key) p.leaving)))
  | missing (hq : ∀ t, (i, t) ∉ s.queue) (hl : ∀ a, (i, a) ∉ s.log) :
    Stage key w s i p (.missing key p.leaving)
  | found (hq : ∀ t, (i, t) ∉ s.queue) (hl : ∀ a, (i, a) ∉ s.log)
    (he : w.locks.epochs.lookup key = some epoch) : Stage key w s i p (.found key epoch p.leaving)
  | queued (hq : ∀ t, (i, t) ∈ s.queue ↔ t = ticket) (hl : ∀ a, (i, a) ∉ s.log)
    (hn : ¬s.Has i ticket) : Stage key w s i p (.thread (.waiting ticket p.leaving))
  | inside {rest : Program α} (hq : ∀ t, (i, t) ∈ s.queue ↔ t = ticket) (hl : ∀ a, (i, a) ∉ s.log)
    (hh : s.Has i ticket) (ha : rest.Asks Request.Lockless)
    (hr : ∀ a w', rest.Runs w a w' → p.Runs s.before a w') :
    Stage key w s i p (.thread (.running (rest.leaving ticket)))
  | left (hq : ∀ t, (i, t) ∉ s.queue) (hl : ∀ b, (i, b) ∈ s.log ↔ b = a) :
    Stage key w s i p (.thread (.running (.done a)))

-- What others do.
structure Spares (key : LockKey) (i : Nat) (w w' : World ε) (s s' : Ghost ε α) : Prop where
  queue : ∀ t, (i, t) ∈ s'.queue ↔ (i, t) ∈ s.queue
  log : ∀ a, (i, a) ∈ s'.log ↔ (i, a) ∈ s.log
  has : ∀ t, s'.Has i t ↔ s.Has i t
  still : ∀ t, s.Has i t → s'.before = s.before ∧ w.Like w'
  lines : ∀ e, w.locks.epochs.lookup key = some e → w'.locks.epochs.lookup key = some e

theorem Stage.spared {key : LockKey} {w w' : World ε} {s s' : Ghost ε α} {p : Program α}
    {c : Caller α} (h : Stage key w s i p c) (hs : Spares key i w w' s s') :
    Stage key w' s' i p c := by
  cases h with
  | outside hq hl =>
    simp only [← hs.queue, ← hs.log] at hq hl
    exact .outside hq hl
  | missing hq hl =>
    simp only [← hs.queue, ← hs.log] at hq hl
    exact .missing hq hl
  | found hq hl he =>
    simp only [← hs.queue, ← hs.log] at hq hl
    exact .found hq hl (hs.lines _ he)
  | queued hq hl hn =>
    simp only [← hs.queue, ← hs.log, ← hs.has] at hq hl hn
    exact .queued hq hl hn
  | inside hq hl hh ha hr =>
    obtain ⟨before, like⟩ := hs.still _ hh
    simp only [← hs.queue, ← hs.log, ← hs.has] at hq hl hh
    exact .inside hq hl hh ha fun a w'' h => before ▸ hr a w'' (h.from like)
  | left hq hl =>
    simp only [← hs.queue, ← hs.log] at hq hl
    exact .left hq hl

-- Whoever can not go on has ended or waits for the lock.
theorem Stage.stuck {key : LockKey} {w : World ε} {s : Ghost ε α} {p : Program α} {c : Caller α}
    (h : Stage key w s i p c) (hs : ∀ c' w', ¬c.Moves w c' w') :
    ((∃ a, c = .thread (.running (.done a))) ∧ ∀ t, (i, t) ∉ s.queue) ∨
      ∃ ticket, (∀ t, (i, t) ∈ s.queue ↔ t = ticket) ∧ ¬w.locks.holds ticket := by
  cases h with
  | outside =>
    cases he : w.locks.epochs.lookup key with
    | none => exact absurd (.miss he) (hs _ _)
    | some => exact absurd (.look he) (hs _ _)
  | missing =>
    obtain ⟨e, he⟩ := w.locks.opened_known key
    exact absurd (.make he) (hs _ _)
  | found => exact absurd .join (hs _ _)
  | queued hq => exact .inr ⟨_, hq, fun hh => hs _ _ (.grant hh)⟩
  | @inside _ rest _ _ _ ha =>
    cases rest with
    | done => exact absurd (.answer nofun) (hs _ _)
    | ask => exact absurd (.answer ha.1.ne_acquire) (hs _ _)
  | left hq => exact .inl ⟨⟨_, rfl⟩, hq⟩

-- A race for one lock, as a run of the calls that are over one after another, and of the one that
-- has the lock up to where it is.
structure Serial (key : LockKey) (ps : List (Program α)) (w₀ : World ε) (R : Race ε α)
    (s : Ghost ε α) : Prop where
  length : R.callers.length = ps.length
  stages : ∀ i p c, ps[i]? = some p → R.callers[i]? = some c → Stage key R.world s i p c
  requests : ∃ epoch, R.world.locks.requests = s.queue.map (fun q => ⟨q.2, key, epoch⟩) ∧
    (s.queue ≠ [] → R.world.locks.epochs.lookup key = some epoch)
  tickets : ∀ q ∈ s.queue, q.2 < R.world.nextTicket
  distinct : (s.queue.map (·.2)).Nodup
  members : ∀ q ∈ s.queue, q.1 < ps.length
  entered : s.inside → s.queue ≠ []
  chain : Chain ps w₀ s.log s.before
  idle : ¬s.inside → s.before.Like R.world

end

variable {ε α : Type} [Engine.Endpoint ε] {key : LockKey} {ps : List (Program α)} {p : Program α}
  {w w₀ : World ε} {R R' : Race ε α} {s s' : Ghost ε α} {c c' : Caller α}

namespace Serial

theorem start (hw : w.locks.requests = []) :
    Serial key ps w (together w (ps.map (.holding key))) ⟨[], false, [], w⟩ where
  length := by simp [together]
  stages i p c hp hc := by
    obtain rfl : c = .thread (.running (.holding key p)) := by
      simpa [together, hp, eq_comm] using hc
    exact .outside nofun nofun
  requests := ⟨0, by simp [together, hw]⟩
  tickets := nofun
  distinct := .nil
  members := nofun
  entered := nofun
  chain := .nil
  idle _ := .refl w

theorem moved (h : Serial key ps w₀ R s) (mine : ∀ p, ps[i]? = some p → Stage key w s' i p c')
    (others : ∀ j, j ≠ i → Spares key j R.world w s s') :
    ∀ j p d, ps[j]? = some p → (R.callers.set i c')[j]? = some d → Stage key w s' j p d := by
  intro j p d hp hd
  rcases Pool.getElem?_set_cases hd with ⟨rfl, rfl⟩ | ⟨hj, hd⟩
  · exact mine p hp
  · exact (h.stages j p d hp hd).spared (others j hj)

-- The lock is with the first of the line.
theorem holds_iff (h : Serial key ps w₀ R s) {ticket : Nat} :
    R.world.locks.holds ticket ↔ ∃ i, s.queue.head? = some (i, ticket) := by
  obtain ⟨epoch, he, -⟩ := h.requests
  have line : ∀ q ∈ R.world.locks.requests, ∀ r ∈ R.world.locks.requests, sameLine q r := by
    simp only [he, List.mem_map]
    rintro _ ⟨q, -, rfl⟩ _ ⟨r, -, rfl⟩
    exact sameLine_iff.mpr ⟨rfl, rfl⟩
  simp only [KeyedLocks.holds_iff, leads_line line]
  simp only [he, List.head?_map, Option.map_eq_some_iff]
  constructor
  · rintro ⟨_, ⟨⟨i, t⟩, head, rfl⟩, rfl⟩
    exact ⟨i, head⟩
  · rintro ⟨i, head⟩
    exact ⟨_, ⟨_, head, rfl⟩, rfl⟩

-- A step of a caller outside the line, or of the one that has the lock.
theorem stay (h : Serial key ps w₀ R s) (hi : ∀ p, ps[i]? = some p → Stage key w s i p c')
    (hr : w.locks.requests = R.world.locks.requests) (ht : w.nextTicket = R.world.nextTicket)
    (he : ∀ e, R.world.locks.epochs.lookup key = some e → w.locks.epochs.lookup key = some e)
    (hl : R.world.Like w ∨ ∃ t, s.Has i t) :
    Serial key ps w₀ ⟨w, R.callers.set i c'⟩ s where
  length := by simp [h.length]
  stages := by
    refine h.moved hi fun j hj => ⟨fun _ => .rfl, fun _ => .rfl, fun _ => .rfl, ?_, he⟩
    intro t hh
    refine ⟨rfl, hl.resolve_right fun ⟨u, hu⟩ => hj ?_⟩
    exact (Prod.mk.inj (Option.some.inj (hh.2.symm.trans hu.2))).1
  requests := by
    obtain ⟨epoch, requests, known⟩ := h.requests
    exact ⟨epoch, hr.trans requests, fun hq => he _ (known hq)⟩
  tickets := ht ▸ h.tickets
  distinct := h.distinct
  members := h.members
  entered := h.entered
  chain := h.chain
  idle hn := (h.idle hn).trans (hl.resolve_right fun ⟨_, hu⟩ => hn hu.1)

theorem join (h : Serial key ps w₀ R s) (hi : i < ps.length) (hq : ∀ t, (i, t) ∉ s.queue)
    (hl : ∀ a, (i, a) ∉ s.log) (he : R.world.locks.epochs.lookup key = some epoch) :
    Serial key ps w₀
      ⟨{ R.world with
          locks := R.world.locks.joined R.world.nextTicket key epoch
          nextTicket := R.world.nextTicket + 1 },
        R.callers.set i (.thread (.waiting R.world.nextTicket ps[i].leaving))⟩
      { s with queue := s.queue ++ [(i, R.world.nextTicket)] } where
  length := by simp [h.length]
  stages := by
    have fresh : (i, R.world.nextTicket) ∉ s.queue := hq _
    refine h.moved (fun p hp => ?_) fun j hj => ?_
    · obtain rfl : ps[i] = p := by simpa [hi] using hp
      refine .queued (by simp [hq]) hl fun hh => ?_
      have head := hh.2
      rw [List.head?_append_of_ne_nil _ (h.entered hh.1)] at head
      exact hq _ (List.mem_of_head? head)
    · refine ⟨by simp [hj], fun _ => .rfl, fun t => ?_, fun _ _ => ⟨rfl, rfl, rfl, rfl⟩,
        fun _ => id⟩
      refine and_congr_right fun inside => ?_
      rw [List.head?_append_of_ne_nil _ (h.entered inside)]
  requests := by
    obtain ⟨e, requests, known⟩ := h.requests
    refine ⟨epoch, ?_, fun _ => he⟩
    cases hs : s.queue with
    | nil => simp [joined, requests, hs]
    | cons q rest =>
      obtain rfl : e = epoch := Option.some.inj ((known (by simp [hs])).symm.trans he)
      simp [joined, requests, hs]
  tickets := by
    simp only [List.mem_append, List.mem_singleton]
    rintro q (hq | rfl)
    · exact Nat.lt_succ_of_lt (h.tickets q hq)
    · exact Nat.lt_succ_self _
  distinct := by
    simp only [List.map_append, List.map_cons, List.map_nil, List.nodup_append]
    refine ⟨h.distinct, by simp, ?_⟩
    simp only [List.mem_map, List.mem_singleton]
    rintro _ ⟨q, hq, rfl⟩ _ rfl
    exact Nat.ne_of_lt (h.tickets q hq)
  members := by
    simp only [List.mem_append, List.mem_singleton]
    rintro q (hq | rfl)
    · exact h.members q hq
    · exact hi
  entered _ := by simp
  chain := h.chain
  idle hn := (h.idle hn).trans ⟨rfl, rfl, rfl⟩

theorem enter (h : Serial key ps w₀ R s) (hi : i < ps.length)
    (hq : ∀ t, (i, t) ∈ s.queue ↔ t = ticket) (hl : ∀ a, (i, a) ∉ s.log)
    (ha : ps[i].Asks Request.Lockless) (hh : s.queue.head? = some (i, ticket)) (hn : ¬s.inside) :
    Serial key ps w₀
      ⟨R.world, R.callers.set i (.thread (.running (ps[i].leaving ticket)))⟩
      { s with inside := true } where
  length := by simp [h.length]
  stages := by
    refine h.moved (fun p hp => ?_) fun j hj => ?_
    · obtain rfl : ps[i] = p := by simpa [hi] using hp
      exact .inside hq hl ⟨rfl, hh⟩ ha fun a w' hr => hr.from (h.idle hn)
    · have other (t : Nat) : s.queue.head? ≠ some (j, t) := by simp [hh, hj.symm]
      exact ⟨fun _ => .rfl, fun _ => .rfl, fun t => by simp [Ghost.Has, other],
        fun t hh => absurd hh.2 (other t), fun _ => id⟩
  requests := h.requests
  tickets := h.tickets
  distinct := h.distinct
  members := h.members
  entered _ he := by
    rw [he] at hh
    cases hh
  chain := h.chain
  idle := nofun

theorem leave (h : Serial key ps w₀ R s) (hi : i < ps.length)
    (hq : ∀ t, (i, t) ∈ s.queue ↔ t = ticket) (hl : ∀ a, (i, a) ∉ s.log) (hh : s.Has i ticket)
    (hr : ps[i].Runs s.before a R.world) :
    Serial key ps w₀
      ⟨{ R.world with locks := R.world.locks.leave ticket },
        R.callers.set i (.thread (.running (.done a)))⟩
      ⟨s.queue.tail, false, s.log ++ [(i, a)],
        { R.world with locks := R.world.locks.leave ticket }⟩ := by
  obtain ⟨rest, queue⟩ := List.head?_eq_some_iff.mp hh.2
  have distinct := h.distinct
  rw [queue, List.map_cons, List.nodup_cons] at distinct
  have later {q : Nat × Nat} (hq' : q ∈ rest) : q.2 ≠ ticket := fun he =>
    distinct.1 (List.mem_map.mpr ⟨q, hq', he⟩)
  have sub {q : Nat × Nat} (hq' : q ∈ rest) : q ∈ s.queue := queue ▸ List.mem_cons_of_mem _ hq'
  simp only [queue, List.tail_cons]
  refine ⟨by simp [h.length], ?_, ?_, fun q hq' => h.tickets q (sub hq'), distinct.2,
    fun q hq' => h.members q (sub hq'), nofun, ?_, fun _ => .refl _⟩
  · refine h.moved (fun p _ => .left (fun t ht => ?_) fun b => by simp [hl]) fun j hj => ?_
    · exact later ht ((hq t).mp (sub ht))
    · have other (t : Nat) : ¬s.Has j t := fun hs =>
        hj (Prod.mk.inj (Option.some.inj (hs.2.symm.trans hh.2))).1
      exact ⟨by simp [queue, hj], by simp [hj], fun t => iff_of_false nofun (other t),
        fun t hs => absurd hs (other t), fun _ => id⟩
  · obtain ⟨epoch, requests, known⟩ := h.requests
    refine ⟨epoch, ?_, fun _ => known (by simp [queue])⟩
    simp only [KeyedLocks.leave, requests, queue, List.map_cons, List.filter_cons_of_neg,
      ne_eq, not_true_eq_false, decide_false, Bool.false_eq_true, not_false_eq_true]
    refine List.filter_eq_self.mpr fun r hr => ?_
    obtain ⟨q, hq', rfl⟩ := List.mem_map.mp hr
    simpa using later hq'
  · exact h.chain.snoc (List.getElem?_eq_getElem hi) hl (hr.until ⟨rfl, rfl, rfl⟩)

theorem move (hp : ∀ p ∈ ps, p.Asks Request.Lockless) (h : Serial key ps w₀ R s)
    (hm : R.Move R') : ∃ s', Serial key ps w₀ R' s' := by
  obtain @⟨c, c', w, i, hi, hm⟩ := hm
  have hl : i < ps.length := h.length ▸ (List.getElem?_eq_some_iff.mp hi).1
  have at' (p : Program α) (hp : ps[i]? = some p) : p = ps[i] := by simpa [hl, eq_comm] using hp
  cases h.stages i ps[i] c (List.getElem?_eq_getElem hl) hi with
  | outside hq hlog =>
    cases hm with
    | look he =>
      exact ⟨s, h.stay (fun p hp => at' p hp ▸ .found hq hlog he) rfl rfl (fun _ => id)
        (.inl (.refl _))⟩
    | miss =>
      exact ⟨s, h.stay (fun p hp => at' p hp ▸ .missing hq hlog) rfl rfl (fun _ => id)
        (.inl (.refl _))⟩
    | answer hr => exact absurd rfl (hr key)
  | missing hq hlog =>
    cases hm with
    | make he =>
      exact ⟨s, h.stay (fun p hp => at' p hp ▸ .found hq hlog he) (opened_requests ..) rfl
        (fun _ he => lookup_opened he key) (.inl ⟨rfl, rfl, rfl⟩)⟩
  | found hq hlog he =>
    cases hm with
    | join => exact ⟨_, h.join hl hq hlog he⟩
  | queued hq hlog hn =>
    cases hm with
    | grant hh =>
      obtain ⟨j, head⟩ := h.holds_iff.mp hh
      obtain ⟨rfl, -⟩ := Prod.mk.inj <| List.inj_on_of_nodup_map h.distinct
        (List.mem_of_head? head) ((hq _).mpr rfl) rfl
      exact ⟨_, h.enter hl hq hlog (hp _ (List.getElem_mem hl)) head
        fun inside => hn ⟨inside, head⟩⟩
  | @inside ticket rest hq hlog hh ha hr =>
    cases rest with
    | done a =>
      cases hm with
      | answer => exact ⟨_, h.leave hl hq hlog hh (hr a _ (.done (.refl _)))⟩
    | ask r next =>
      cases hm with
      | look | miss => exact ha.1.elim
      | answer =>
        obtain ⟨locks, tickets⟩ := R.world.answer_locks ha.1
        refine ⟨s, h.stay (fun p hp => at' p hp ▸ ?_) (congrArg _ locks) tickets
          (fun _ known => locks.symm ▸ known) (.inr ⟨_, hh⟩)⟩
        exact .inside hq hlog hh (ha.2 _) fun b w'' hb => hr b w'' (.ask (.refl _) hb)
  | left hq hlog => cases hm

-- Nobody in the line has the lock while all who stand in it wait.
theorem not_inside (h : Serial key ps w₀ R s)
    (hw : ∀ q ∈ s.queue, R.Waits q.2) : ¬s.inside := by
  intro inside
  obtain ⟨⟨i, t⟩, rest, queue⟩ := List.exists_cons_of_ne_nil (h.entered inside)
  have head : s.queue.head? = some (i, t) := by rw [queue, List.head?_cons]
  obtain ⟨next, waits⟩ := hw _ (List.mem_of_head? head)
  obtain ⟨j, hj⟩ := List.mem_iff_getElem?.mp waits
  have hl : j < ps.length := h.length ▸ (List.getElem?_eq_some_iff.mp hj).1
  cases h.stages j ps[j] _ (List.getElem?_eq_getElem hl) hj with
  | queued hq _ hn =>
    obtain ⟨rfl, -⟩ := Prod.mk.inj <| List.inj_on_of_nodup_map h.distinct
      (List.mem_of_head? head) ((hq _).mpr rfl) rfl
    exact hn ⟨inside, head⟩

theorem overtake (h : Serial key ps w₀ R s) (hr : r ∈ R.world.locks.requests)
    (hw : ∀ q ∈ R.world.locks.requests, sameLine r q → R.Waits q.owner) :
    ∃ s', Serial key ps w₀
      { R with world := { R.world with locks := R.world.locks.promote r } } s' := by
  obtain ⟨epoch, requests, known⟩ := h.requests
  have idle : ¬s.inside := by
    refine h.not_inside fun q hq => hw ⟨q.2, key, epoch⟩ ?_ ?_
    · rw [requests]
      exact List.mem_map_of_mem hq
    · rw [requests] at hr
      obtain ⟨q', -, rfl⟩ := List.mem_map.mp hr
      exact sameLine_iff.mpr ⟨rfl, rfl⟩
  rw [requests] at hr
  obtain ⟨first, hf, rfl⟩ := List.mem_map.mp hr
  have mem (q : Nat × Nat) : q ∈ first :: s.queue.filter (·.2 ≠ first.2) ↔ q ∈ s.queue := by
    simp only [List.mem_cons, List.mem_filter, decide_eq_true_eq]
    constructor
    · rintro (rfl | ⟨hq, -⟩)
      · exact hf
      · exact hq
    · intro hq
      by_cases same : q.2 = first.2
      · exact .inl (List.inj_on_of_nodup_map h.distinct hq hf same)
      · exact .inr ⟨hq, same⟩
  refine ⟨{ s with queue := first :: s.queue.filter (·.2 ≠ first.2) }, h.length,
    fun j p c hp hc => (h.stages j p c hp hc).spared ?_, ⟨epoch, ?_, ?_⟩, ?_, ?_, ?_, ?_, h.chain,
    fun hn => (h.idle hn).trans ⟨rfl, rfl, rfl⟩⟩
  · exact ⟨fun _ => mem _, fun _ => .rfl,
      fun t => iff_of_false (fun hs => idle hs.1) fun hs => idle hs.1,
      fun t hs => absurd hs.1 idle, fun _ => id⟩
  · simp [promote, KeyedLocks.leave, requests, List.filter_map, Function.comp_def]
  · exact fun _ => known (List.ne_nil_of_mem hf)
  · exact fun q hq => h.tickets q ((mem q).mp hq)
  · refine List.nodup_cons.mpr ⟨?_, (List.filter_sublist.map _).nodup h.distinct⟩
    simp
  · exact fun q hq => h.members q ((mem q).mp hq)
  · exact fun inside => absurd inside idle

theorem later (h : Serial key ps w₀ R s) (clock : Int) :
    Serial key ps w₀ { R with world := { R.world with clock } } s where
  length := h.length
  stages j p c hp hc := (h.stages j p c hp hc).spared
    ⟨fun _ => .rfl, fun _ => .rfl, fun _ => .rfl, fun _ _ => ⟨rfl, rfl, rfl, rfl⟩, fun _ => id⟩
  requests := h.requests
  tickets := h.tickets
  distinct := h.distinct
  members := h.members
  entered := h.entered
  chain := h.chain
  idle hn := (h.idle hn).trans ⟨rfl, rfl, rfl⟩

theorem reaches (hp : ∀ p ∈ ps, p.Asks Request.Lockless) (h : Serial key ps w₀ R s)
    (hr : R.Reaches R') : ∃ s', Serial key ps w₀ R' s' := by
  induction hr with
  | refl => exact ⟨s, h⟩
  | move _ hm ih =>
    obtain ⟨s', h'⟩ := ih
    exact h'.move hp hm
  | overtaken _ hr hw ih =>
    obtain ⟨s', h'⟩ := ih
    exact h'.overtake hr hw
  | later _ clock ih =>
    obtain ⟨s', h'⟩ := ih
    exact ⟨s', h'.later clock⟩

-- Somebody can go on until all have ended.
theorem ended_or_move (h : Serial key ps w₀ R s) : R.Ended ∨ ∃ R', R.Move R' := by
  rw [or_iff_not_imp_right]
  intro stuck
  have stands (i : Nat) (c : Caller α) (hi : R.callers[i]? = some c) := by
    have hl : i < ps.length := h.length ▸ (List.getElem?_eq_some_iff.mp hi).1
    exact (h.stages i ps[i] c (List.getElem?_eq_getElem hl) hi).stuck
      fun c' w' hm => stuck ⟨_, .mk i hi hm⟩
  have nobody : s.queue = [] := by
    refine List.eq_nil_iff_forall_not_mem.mpr fun q hq => ?_
    obtain ⟨⟨i, t⟩, rest, queue⟩ := List.exists_cons_of_ne_nil (List.ne_nil_of_mem hq)
    have head : s.queue.head? = some (i, t) := by rw [queue, List.head?_cons]
    have hi : i < R.callers.length := h.length ▸ h.members _ (List.mem_of_head? head)
    rcases stands i _ (List.getElem?_eq_getElem hi) with ⟨-, out⟩ | ⟨ticket, mine, kept⟩
    · exact out t (List.mem_of_head? head)
    · obtain rfl := (mine t).mp (List.mem_of_head? head)
      exact kept (h.holds_iff.mpr ⟨i, head⟩)
  intro x hx
  obtain ⟨c, hc, rfl⟩ := List.mem_map.mp hx
  obtain ⟨i, hi⟩ := List.mem_iff_getElem?.mp hc
  rcases stands i c hi with ⟨⟨a, rfl⟩, -⟩ | ⟨ticket, mine, -⟩
  · rfl
  · exact absurd ((mine ticket).mpr rfl) (by simp [nobody])

-- In the end all the calls have run one after another.
theorem ended (h : Serial key ps w₀ R s) (he : R.Ended) :
    s.before.Like R.world ∧
      ∀ i < ps.length, ∃ a, R.results[i]? = some (some a) ∧ ∀ b, (i, b) ∈ s.log ↔ b = a := by
  have results (i : Nat) (hi : i < ps.length) : ∃ a, R.results[i]? = some (some a) ∧
      (∀ t, (i, t) ∉ s.queue) ∧ ∀ b, (i, b) ∈ s.log ↔ b = a := by
    have hc : i < R.callers.length := h.length ▸ hi
    have stage := h.stages i ps[i] _ (List.getElem?_eq_getElem hi) (List.getElem?_eq_getElem hc)
    have finished : R.callers[i].result?.isSome := he _ (List.mem_map_of_mem (List.getElem_mem hc))
    generalize hd : R.callers[i] = c at stage finished
    cases stage with
    | outside | missing | found | queued => cases finished
    | @inside _ rest => cases rest <;> cases finished
    | @left a hq hl =>
      have result : R.results[i]? = some (some a) := by
        simp [Race.results, hc, hd, Caller.result?, Thread.result?]
      exact ⟨a, result, hq, hl⟩
  refine ⟨h.idle fun inside => ?_, fun i hi => ?_⟩
  · obtain ⟨⟨i, t⟩, rest, queue⟩ := List.exists_cons_of_ne_nil (h.entered inside)
    have first : (i, t) ∈ s.queue := by simp [queue]
    obtain ⟨_, -, out, -⟩ := results i (h.members _ first)
    exact out t first
  · obtain ⟨a, result, -, logged⟩ := results i hi
    exact ⟨a, result, logged⟩

end Serial

-- Programs that do all their work under one lock come to an end, and then they have run one after
-- another.
theorem serializes {Q : Race ε α → Prop} (hp : ∀ p ∈ ps, p.Asks Request.Lockless)
    (hw : w.locks.requests = []) (hr : (together w (ps.map (.holding key))).Reaches R)
    (hq : ∀ R log w', Chain ps w log w' → w'.Like R.world → R.results.length = ps.length →
      (∀ i < ps.length, ∃ a, R.results[i]? = some (some a) ∧ ∀ b, (i, b) ∈ log ↔ b = a) → Q R) :
    R.Ends Q := by
  refine ends_of_invariant (I := fun R => ∃ s, Serial key ps w R s) ?_ ?_ ?_
    ((Serial.start hw).reaches hp hr)
  · rintro R R' ⟨s, h⟩ hm
    exact h.move hp hm
  · rintro R ⟨s, h⟩
    exact h.ended_or_move
  · rintro R ⟨s, h⟩ he
    obtain ⟨like, results⟩ := h.ended he
    exact hq R s.log s.before h.chain like (by simp [Race.results, h.length]) results

end Race

end Historian
