import Mathlib.Data.List.Nodup
import Mathlib.Logic.Function.Basic
import Historian.Proofs.Catalog.Operations
import Historian.Proofs.Locks
import Historian.Proofs.Program.Discipline
import Historian.World

namespace Historian

open KeyedLocks Discipline

variable {ε α : Type} {d : Discipline}

-- What a request does, as far as a discipline and the locks see it.

theorem World.perform_locks (w : World ε) (op : CatalogOp) :
    (w.perform op).2.locks = w.locks ∧ (w.perform op).2.nextTicket = w.nextTicket := by
  unfold World.perform
  split <;> exact ⟨rfl, rfl⟩

-- A request for the lock of a key stands in line.
def Queued (l : KeyedLocks LockKey Nat) (g : Nat × LockKey) : Prop :=
  ∃ r ∈ l.requests, r.owner = g.1 ∧ r.key = g.2

-- It is the first in its line.
def Granted (l : KeyedLocks LockKey Nat) (g : Nat × LockKey) : Prop :=
  ∃ r, Leads l.requests r ∧ r.owner = g.1 ∧ r.key = g.2

variable {g : Nat × LockKey} {w : World ε}

section

variable [Engine.Endpoint ε]

theorem World.answer_answers (w : World ε) (r : Request) :
    r.Answers w.catalog (w.answer r).1 (w.answer r).2.catalog := by
  cases r with
  | catalog op =>
    simp only [World.answer, World.perform]
    split
    case h_1 => exact .inl ⟨_, rfl, rfl⟩
    case h_2 => exact Request.carryOut_answers op w.catalog
  | _ => rfl

-- How a request changes the lines.
inductive World.Asks (w : World ε) : Request → List (LockRequest LockKey Nat) → Prop
  | acquired (key : LockKey) (epoch : Nat) :
    Asks w (.acquire key) (w.locks.requests ++ [⟨w.nextTicket, key, epoch⟩])
  | released (ticket : Nat) :
    Asks w (.release ticket) (w.locks.requests.filter (·.owner ≠ ticket))
  | other : Asks w r w.locks.requests

theorem World.asks (w : World ε) (r : Request) : w.Asks r (w.answer r).2.locks.requests := by
  cases r with
  | acquire key =>
    obtain ⟨epoch, he⟩ := w.locks.request_requests w.nextTicket key
    exact he ▸ .acquired key epoch
  | release ticket => exact .released ticket
  | catalog op =>
    show w.Asks _ (w.perform op).2.locks.requests
    rw [(w.perform_locks op).1]
    exact .other
  | _ => exact .other

theorem KeyedLocks.Lines.answer (r : Request) (h : Lines (d.Gone w.catalog) w.locks w.nextTicket)
    (ha : d.Allows K w.catalog r) (hs : d.Steady free w.catalog (w.answer r).2.catalog) :
    Lines (d.Gone (w.answer r).2.catalog) (w.answer r).2.locks (w.answer r).2.nextTicket := by
  refine Lines.mono ?_ fun _ => d.gone hs
  cases r with
  | acquire key => exact h.request key
  | release ticket => exact h.leave ticket
  | forget key => exact h.forget ha
  | catalog op =>
    simp only [World.answer]
    rw [(w.perform_locks op).1, (w.perform_locks op).2]
    exact h
  | _ => exact h

-- Requests that are not given back stay.

theorem Queued.answer {r : Request} (h : Queued w.locks g) (hr : r ≠ .release g.1) :
    Queued (w.answer r).2.locks g := by
  obtain ⟨q, hq, ho, hk⟩ := h
  refine ⟨q, ?_, ho, hk⟩
  generalize hrs : (w.answer r).2.locks.requests = rs
  cases hrs ▸ w.asks r with
  | acquired => exact List.mem_append_left _ hq
  | released ticket =>
    exact List.mem_filter.mpr ⟨hq, decide_eq_true fun he => hr (by rw [← ho, he])⟩
  | other => exact hq

theorem Granted.answer {r : Request} (h : Granted w.locks g) (hr : r ≠ .release g.1) :
    Granted (w.answer r).2.locks g := by
  obtain ⟨q, hq, ho, hk⟩ := h
  refine ⟨q, ?_, ho, hk⟩
  generalize hrs : (w.answer r).2.locks.requests = rs
  cases hrs ▸ w.asks r with
  | acquired => exact hq.append _
  | released ticket => exact hq.filter (decide_eq_true fun he => hr (by rw [← ho, he]))
  | other => exact hq

end

namespace Thread

-- What a thread has and what it only waits for, of the locks that it asked for.
def holds (t : Thread α) (K : Held) : Held :=
  match t with
  | .running _ => K
  | .waiting _ _ => K.tail

-- A thread that keeps to a discipline until its end.
def Keeps (t : Thread α) (d : Discipline) (K : Held) (c : Catalog) : Prop :=
  match t with
  | .running p => d.Keeps (fun _ _ _ => True) p K c
  | .waiting ticket next => (∃ key, K.head? = some (ticket, key)) ∧
    ∀ c₁, d.Meanwhile K.tail c c₁ → d.Keeps (fun _ _ _ => True) (next ticket) K c₁

theorem Keeps.stable {t : Thread α} (h : t.Keeps d K c) (hm : d.Meanwhile (t.holds K) c c') :
    t.Keeps d K c' := by
  cases t with
  | running p => exact Discipline.Keeps.stable h hm
  | waiting ticket next => exact ⟨h.1, fun c₁ h₁ => h.2 c₁ (hm.trans h₁)⟩

theorem holds_subset (t : Thread α) (K : Held) : t.holds K ⊆ K := by
  cases t with
  | running p => exact List.Subset.refl _
  | waiting ticket next => exact List.tail_sublist K |>.subset

end Thread

namespace Pool

variable {p p' : Pool ε α} {K : Nat → Held} {t t' : Thread α}

-- Threads that keep to a discipline, with the locks that each has asked for and not given back.
structure Orderly (d : Discipline) (K : Nat → Held) (p : Pool ε α) : Prop where
  inv : d.Inv p.world.catalog
  lines : Lines (d.Gone p.world.catalog) p.world.locks p.world.nextTicket
  keeps : ∀ i (t : Thread α), p.threads[i]? = some t → t.Keeps d (K i) p.world.catalog
  own : ∀ i, ((K i).map (·.1)).Nodup
  apart : ∀ i j, ∀ g ∈ K i, ∀ g' ∈ K j, g.1 = g'.1 → i = j
  queued : ∀ i, ∀ g ∈ K i, Queued p.world.locks g
  granted : ∀ i (t : Thread α), p.threads[i]? = some t →
    ∀ g ∈ t.holds (K i), Granted p.world.locks g

-- At most one thread has the lock of a key that protects anything.
theorem Orderly.exclusive (h : p.Orderly d K) (hi : p.threads[i]? = some t)
    (hj : p.threads[j]? = some t') (hn : i ≠ j) (hk : (t.holds (K i)).Has key)
    (hk' : (t'.holds (K j)).Has key) : d.Gone p.world.catalog key := by
  obtain ⟨ticket, hg⟩ := hk
  obtain ⟨ticket', hg'⟩ := hk'
  obtain ⟨r, hr, ho, rfl⟩ := h.granted i t hi _ hg
  obtain ⟨r', hr', ho', hk⟩ := h.granted j t' hj _ hg'
  refine (h.lines.sole hr hr' hk.symm).resolve_right fun he => hn ?_
  refine h.apart i j _ (t.holds_subset _ hg) _ (t'.holds_subset _ hg') ?_
  exact ho.symm.trans (he ▸ ho')

-- What one thread does, the others take as something that may happen meanwhile.
theorem Orderly.meanwhile (h : p.Orderly d K) (hi : p.threads[i]? = some t)
    (hj : p.threads[j]? = some t') (hn : i ≠ j)
    (hd : d.Does (t.holds (K i)) p.world.catalog c) :
    d.Meanwhile (t'.holds (K j)) p.world.catalog c where
  steady := by
    refine d.widen h.inv hd.steady fun key hk => ?_
    by_cases hk' : (t'.holds (K j)).Has key
    · exact .inl (h.exclusive hi hj hn hk hk')
    · exact .inr hk'
  inv := hd.inv

theorem getElem?_set_cases {xs : List β} (h : (xs.set i x)[j]? = some y) :
    (j = i ∧ y = x) ∨ (j ≠ i ∧ xs[j]? = some y) := by
  rw [List.getElem?_set] at h
  split at h
  case isTrue he =>
    split at h <;> cases h
    exact .inl ⟨he.symm, rfl⟩
  case isFalse hn => exact .inr ⟨Ne.symm hn, h⟩

theorem update_cases (K : Nat → Held) (K' : Held) (i j : Nat) :
    (j = i ∧ Function.update K i K' j = K') ∨ (j ≠ i ∧ Function.update K i K' j = K j) := by
  by_cases hj : j = i
  · subst hj
    exact .inl ⟨rfl, Function.update_self ..⟩
  · exact .inr ⟨hj, Function.update_of_ne hj ..⟩

-- A step of one thread. The locks that it asked for change from `K i` to `K'`.
theorem Orderly.turn {w : World ε} {K' : Held} (h : p.Orderly d K) (hi : p.threads[i]? = some t)
    (hd : d.Does (t.holds (K i)) p.world.catalog w.catalog)
    (hl : Lines (d.Gone w.catalog) w.locks w.nextTicket) (hk : t'.Keeps d K' w.catalog)
    (own : (K'.map (·.1)).Nodup)
    (fresh : ∀ g ∈ K', g ∈ K i ∨ ∀ j, ∀ g' ∈ K j, g'.1 ≠ g.1)
    (queued : ∀ g ∈ K', Queued w.locks g) (granted : ∀ g ∈ t'.holds K', Granted w.locks g)
    (spares : ∀ g, (∀ g' ∈ K i, g'.1 ≠ g.1) → (Queued p.world.locks g → Queued w.locks g) ∧
      (Granted p.world.locks g → Granted w.locks g)) :
    Orderly d (Function.update K i K') { world := w, threads := p.threads.set i t' } := by
  have locks := update_cases K K' i
  have elsewhere {j : Nat} {g : Nat × LockKey} (hj : j ≠ i) (hg : g ∈ K j) :=
    spares g fun g' hg' he => hj (h.apart i j g' hg' g hg he).symm
  refine ⟨hd.inv, hl, fun j u hu => ?_, fun j => ?_, fun j k g hg g' hg' he => ?_,
    fun j g hg => ?_, fun j u hu g hg => ?_⟩
  · rcases getElem?_set_cases hu with ⟨rfl, rfl⟩ | ⟨hj, hu⟩
    · rw [Function.update_self]
      exact hk
    · rw [Function.update_of_ne hj]
      exact (h.keeps j u hu).stable (h.meanwhile hi hu (Ne.symm hj) hd)
  · rcases locks j with ⟨rfl, e⟩ | ⟨-, e⟩
    · exact e.symm ▸ own
    · exact e.symm ▸ h.own j
  · rcases locks j with ⟨rfl, e⟩ | ⟨hj, e⟩ <;> rcases locks k with ⟨rfl, e'⟩ | ⟨hk, e'⟩
    all_goals simp only [e] at hg; simp only [e'] at hg'
    · rfl
    · exact (fresh g hg).elim (h.apart j k g · g' hg' he) fun hf => absurd he.symm (hf k g' hg')
    · exact (fresh g' hg').elim (h.apart j k g hg g' · he) fun hf => absurd he (hf j g hg)
    · exact h.apart j k g hg g' hg' he
  · rcases locks j with ⟨rfl, e⟩ | ⟨hj, e⟩ <;> rw [e] at hg
    · exact queued g hg
    · exact (elsewhere hj hg).1 (h.queued j g hg)
  · rcases getElem?_set_cases hu with ⟨rfl, rfl⟩ | ⟨hj, hu⟩
    · rw [Function.update_self] at hg
      exact granted g hg
    · rw [Function.update_of_ne hj] at hg
      exact (elsewhere hj (u.holds_subset _ hg)).2 (h.granted j u hu g hg)

theorem Orderly.ticket_lt (h : p.Orderly d K) (hg : g ∈ K i) : g.1 < p.world.nextTicket := by
  obtain ⟨r, hr, ho, -⟩ := h.queued i g hg
  exact ho ▸ h.lines.tickets r hr

theorem Orderly.grant (h : p.Orderly d K) (ht : p.threads[i]? = some (.waiting ticket next))
    (hh : p.world.locks.holds ticket) :
    Orderly d (Function.update K i (K i))
      { world := p.world, threads := p.threads.set i (.running (next ticket)) } := by
  obtain ⟨⟨key, hk⟩, hn⟩ := h.keeps i _ ht
  have mine : K i = (ticket, key) :: (K i).tail := by
    obtain ⟨rest, he⟩ := List.head?_eq_some_iff.mp hk
    rw [he, List.tail_cons]
  have granted : Granted p.world.locks (ticket, key) := by
    obtain ⟨r, hr, ho, hk⟩ := h.queued i (ticket, key) (mine ▸ List.mem_cons_self)
    obtain ⟨r', hr', ho'⟩ := holds_iff.mp hh
    obtain rfl := List.inj_on_of_nodup_map h.lines.owners hr'.mem hr (ho'.trans ho.symm)
    exact ⟨r', hr', ho, hk⟩
  refine h.turn ht (.refl h.inv) h.lines (hn _ (.refl h.inv)) (h.own i) (fun _ => .inl)
    (h.queued i) (fun g hg => ?_) fun _ _ => ⟨id, id⟩
  rcases List.mem_cons.mp (mine ▸ hg) with rfl | hg
  · exact granted
  · exact h.granted i _ ht g hg

-- Whoever waits for a lock that nobody has may come first.

def Waits (p : Pool ε α) (ticket : Nat) : Prop := ∃ next, .waiting ticket next ∈ p.threads

theorem Orderly.not_waits (h : p.Orderly d K) (hi : p.threads[i]? = some t)
    (hg : g ∈ t.holds (K i)) : ¬p.Waits g.1 := by
  rintro ⟨next, hw⟩
  obtain ⟨j, hj⟩ := List.mem_iff_getElem?.mp hw
  obtain ⟨⟨key, hk⟩, -⟩ := h.keeps j _ hj
  have same := h.apart i j g (t.holds_subset _ hg) _ (List.mem_of_head? hk) rfl
  subst same
  obtain rfl := Option.some.inj (hi.symm.trans hj)
  obtain ⟨rest, hr⟩ := List.head?_eq_some_iff.mp hk
  have own := h.own i
  rw [Thread.holds, hr] at hg
  rw [hr] at own
  exact (List.nodup_cons.mp own).1 (List.mem_map.mpr ⟨g, hg, rfl⟩)

theorem Orderly.overtake (h : p.Orderly d K) (hr : r ∈ p.world.locks.requests)
    (hw : ∀ q ∈ p.world.locks.requests, sameLine r q → p.Waits q.owner) :
    Orderly d K { p with world := { p.world with locks := p.world.locks.promote r } } := by
  have same {q : LockRequest LockKey Nat} (hq : q ∈ p.world.locks.requests)
      (ho : q.owner = r.owner) : q = r :=
    List.inj_on_of_nodup_map h.lines.owners hq hr ho
  refine ⟨h.inv, h.lines.promote hr, h.keeps, h.own, h.apart, fun i g hg => ?_,
    fun i t ht g hg => ?_⟩
  · obtain ⟨q, hq, ho⟩ := h.queued i g hg
    refine ⟨q, ?_, ho⟩
    by_cases hq' : q.owner = r.owner
    · exact same hq hq' ▸ List.mem_cons_self
    · exact List.mem_cons_of_mem _ (List.mem_filter.mpr ⟨hq, decide_eq_true hq'⟩)
  · obtain ⟨q, hq, ho, hk⟩ := h.granted i t ht g hg
    have line : ¬sameLine r q := fun hs => h.not_waits ht hg (ho ▸ hw q hq.mem hs)
    have other : q.owner ≠ r.owner := fun he => line (same hq.mem he ▸ sameLine_refl r)
    refine ⟨q, (hq.filter (decide_eq_true other)).cons fun hs => line ?_, ho, hk⟩
    have ⟨hk, he⟩ := sameLine_iff.mp hs
    exact sameLine_iff.mpr ⟨hk.symm, he.symm⟩

theorem Orderly.start {w : World ε} {ps : List (Program α)} (hi : d.Inv w.catalog)
    (hl : w.locks = {}) (hk : ∀ q ∈ ps, d.Keeps (fun _ _ _ => True) q [] w.catalog) :
    Orderly d (fun _ => []) { world := w, threads := ps.map .running } where
  inv := hi
  lines := hl ▸ .empty _
  keeps i t ht := by
    obtain ⟨q, hq, rfl⟩ := List.mem_map.mp (List.mem_of_getElem? ht)
    exact hk q hq
  own _ := .nil
  apart := nofun
  queued := nofun
  granted i t _ g hg := nomatch t.holds_subset _ hg

end Pool

variable [Engine.Endpoint ε]

namespace Thread

-- All that a step of a thread can be.
inductive Stepped (w : World ε) : Thread α → Thread α → World ε → Prop
  | queued (key : LockKey) (next : Nat → Program α) :
    Stepped w (.running (.ask (.acquire key) next)) (.waiting w.nextTicket next)
      (w.answer (.acquire key)).2
  | answered (r : Request) (next : r.Answer → Program α) (hr : ∀ key, r ≠ .acquire key) :
    Stepped w (.running (.ask r next)) (.running (next (w.answer r).1)) (w.answer r).2
  | granted (ticket : Nat) (next : Nat → Program α) (hh : w.locks.holds ticket) :
    Stepped w (.waiting ticket next) (.running (next ticket)) w

theorem step_stepped {t t' : Thread α} {w' : World ε} (h : t.step w = some (t', w')) :
    Stepped w t t' w' := by
  unfold step at h
  split at h
  case h_1 => cases h
  case h_2 key next =>
    cases h
    exact .queued key next
  case h_3 r next hr =>
    cases h
    refine .answered r next fun key he => ?_
    subst he
    exact hr key next rfl .rfl
  case h_4 ticket next =>
    split at h <;> cases h
    exact .granted ticket next ‹_›

end Thread

namespace Pool

variable {p p' p'' : Pool ε α} {K : Nat → Held}

theorem Orderly.ask (h : p.Orderly d K)
    (ht : p.threads[i]? = some (.running (.ask (.acquire key) next))) :
    Orderly d (Function.update K i ((p.world.nextTicket, key) :: K i))
      { world := (p.world.answer (.acquire key)).2
        threads := p.threads.set i (.waiting p.world.nextTicket next) } := by
  have keeps c₁ (hm : d.Meanwhile (K i) p.world.catalog c₁) :=
    ((h.keeps i _ ht c₁ hm).2 p.world.nextTicket c₁ rfl).2
  have before {j : Nat} {g : Nat × LockKey} (hg : g ∈ K j) : g.1 ≠ p.world.nextTicket :=
    Nat.ne_of_lt (h.ticket_lt hg)
  have queued : Queued (p.world.answer (.acquire key)).2.locks (p.world.nextTicket, key) := by
    obtain ⟨epoch, he⟩ := p.world.locks.request_requests p.world.nextTicket key
    exact ⟨⟨p.world.nextTicket, key, epoch⟩, by simp [World.answer, he], rfl, rfl⟩
  refine h.turn ht (.refl h.inv) (h.lines.request key) ⟨⟨key, rfl⟩, keeps⟩ ?_ ?_ ?_ ?_
    fun g _ => ⟨fun hq => hq.answer nofun, fun hg => hg.answer nofun⟩
  · refine List.nodup_cons.mpr ⟨fun hm => ?_, h.own i⟩
    obtain ⟨g, hg, he⟩ := List.mem_map.mp hm
    exact before hg he
  · rintro g hg
    rcases List.mem_cons.mp hg with rfl | hg
    · exact .inr fun j g' hg' => before hg'
    · exact .inl hg
  · exact List.forall_mem_cons.mpr ⟨queued, fun g hg => (h.queued i g hg).answer nofun⟩
  · exact fun g hg => (h.granted i _ ht g hg).answer nofun

theorem Orderly.answer {next : r.Answer → Program α} (h : p.Orderly d K)
    (ht : p.threads[i]? = some (.running (.ask r next))) (hr : ∀ key, r ≠ .acquire key) :
    Orderly d (Function.update K i (r.heldAfter (K i) (p.world.answer r).1))
      { world := (p.world.answer r).2
        threads := p.threads.set i (.running (next (p.world.answer r).1)) } := by
  obtain ⟨ha, hn⟩ := h.keeps i _ ht _ (.refl h.inv)
  obtain ⟨hd, hk⟩ := hn _ _ (p.world.answer_answers r)
  obtain ⟨left, kept⟩ := ha.left hr (h.own i) (p.world.answer r).1
  refine h.turn ht hd (h.lines.answer r ha hd.steady) hk ((left.map _).nodup (h.own i)) ?_ ?_ ?_ ?_
  · exact fun g hg => .inl (left.subset hg)
  · exact fun g hg => (h.queued i g (left.subset hg)).answer (kept g hg)
  · exact fun g hg => (h.granted i _ ht g (left.subset hg)).answer (kept g hg)
  · intro g hg
    have other := ha.ne_release hg
    exact ⟨fun hq => hq.answer other, fun hg => hg.answer other⟩

theorem Orderly.step (h : p.Orderly d K) (hs : p.step i = some p') : ∃ K', p'.Orderly d K' := by
  obtain ⟨t, ht, ⟨t', w'⟩, hw, rfl⟩ : ∃ t, p.threads[i]? = some t ∧ ∃ r, t.step p.world = some r ∧
      p' = { world := r.2, threads := p.threads.set i r.1 } := by
    simp only [Pool.step, bind, Option.bind_eq_some_iff] at hs
    obtain ⟨t, ht, r, hr, he⟩ := hs
    exact ⟨t, ht, r, hr, (Option.some.inj he).symm⟩
  cases Thread.step_stepped hw with
  | queued key next => exact ⟨_, h.ask ht⟩
  | answered r next hr => exact ⟨_, h.answer ht hr⟩
  | granted ticket next hh => exact ⟨_, h.grant ht hh⟩

-- Runs in which a lock that nobody has goes to any of those who wait for it, not only to the first,
-- and in which the engine, the clock and the errors that the catalog meets change at any time.
inductive Reaches (p : Pool ε α) : Pool ε α → Prop
  | refl : Reaches p p
  | step {p' p'' : Pool ε α} (h : Reaches p p') (i : Nat) (hs : p'.step i = some p'') :
    Reaches p p''
  | overtaken {p' : Pool ε α} (h : Reaches p p') (hr : r ∈ p'.world.locks.requests)
    (hw : ∀ q ∈ p'.world.locks.requests, sameLine r q → p'.Waits q.owner) :
    Reaches p { p' with world := { p'.world with locks := p'.world.locks.promote r } }
  | elsewhere {p' : Pool ε α} (h : Reaches p p') (engine : ε)
    (catalogFaults : List (String × CatalogError)) (clock : Int) :
    Reaches p { p' with world := { p'.world with engine, catalogFaults, clock } }

theorem Reaches.steps (h : p.Reaches p') (hs : p'.Steps p'') : p.Reaches p'' := by
  induction hs with
  | refl => exact h
  | tail _ hs ih =>
    obtain ⟨i, hs⟩ := hs
    exact ih.step i hs

theorem Reaches.orderly (h : p.Reaches p') (ho : p.Orderly d K) : ∃ K', p'.Orderly d K' := by
  induction h with
  | refl => exact ⟨K, ho⟩
  | step _ i hs ih =>
    obtain ⟨K', ho⟩ := ih
    exact ho.step hs
  | overtaken _ hr hw ih =>
    obtain ⟨K', ho⟩ := ih
    exact ⟨K', ho.overtake hr hw⟩
  | elsewhere _ _ _ _ ih =>
    obtain ⟨K', ho⟩ := ih
    exact ⟨K', ⟨ho.inv, ho.lines, ho.keeps, ho.own, ho.apart, ho.queued, ho.granted⟩⟩

-- The threads take steps by turns; who cannot is passed over.
def play (p : Pool ε α) (turns : List Nat) : Pool ε α :=
  turns.foldl (fun p i => (p.step i).getD p) p

theorem Steps.play (h : p.Steps p') (turns : List Nat) : p.Steps (p'.play turns) := by
  induction turns generalizing p' with
  | nil => exact h
  | cons i turns ih =>
    show p.Steps (((p'.step i).getD p').play turns)
    cases hs : p'.step i with
    | none => exact ih h
    | some p'' => exact ih (h.tail ⟨i, hs⟩)

theorem Reaches.play (h : p.Reaches p') (turns : List Nat) : p.Reaches (p'.play turns) :=
  h.steps (Steps.play .refl turns)

end Pool

end Historian
