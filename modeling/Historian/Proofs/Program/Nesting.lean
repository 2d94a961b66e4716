import Historian.Proofs.Program.Race

namespace Historian

open KeyedLocks

-- Which locks are asked for by whoever has others, as long as the catalog is in order. A lock that
-- is asked for under another one has none under it.
structure Nesting where
  Inv : Catalog → Prop
  Under : LockKey → LockKey → Prop
  kept {c c' : Catalog} {r : Request} {a : r.Answer} : Inv c → r.Answers c a c' → Inv c'
  flat {outer key inner : LockKey} : Under outer key → ¬Under key inner

-- Requests that neither take a lock nor give one back.
def Request.SparesLocks : Request → Prop
  | .acquire _ | .release _ => False
  | _ => True

namespace Nesting

variable {d : Nesting} {K : Held}

def Allows (d : Nesting) (K : Held) : Request → Prop
  | .acquire key => ∀ g ∈ K, d.Under g.2 key
  | .release ticket => ∃ key, K.head? = some (ticket, key)
  | _ => True

-- A program that takes its locks as it may and gives them back in the reverse order, whatever it is
-- answered; `Q` says what it ends with.
def Nests (d : Nesting) (Q : Held → α → Prop) : Program α → Held → Prop
  | .done a, K => Q K a
  | .ask r next, K => d.Allows K r ∧
      ∀ c a c', d.Inv c → r.Answers c a c' → d.Nests Q (next a) (r.heldAfter K a)

namespace Nests

variable {p : Program α} {Q Q' : Held → α → Prop}

theorem mono (h : d.Nests Q p K) (hq : ∀ K a, Q K a → Q' K a) : d.Nests Q' p K := by
  induction p generalizing K with
  | done a => exact hq _ _ h
  | ask r next ih => exact ⟨h.1, fun c a c' hc ha => ih a (h.2 c a c' hc ha)⟩

theorem bind {f : α → Program β} {R : Held → β → Prop}
    (h : d.Nests (fun K a => d.Nests R (f a) K) p K) : d.Nests R (p >>= f) K := by
  induction p generalizing K with
  | done a => exact h
  | ask r next ih => exact ⟨h.1, fun c a c' hc ha => ih a (h.2 c a c' hc ha)⟩

theorem step {f : α → Program β} {R : Held → β → Prop} (h : d.Nests Q p K)
    (hf : ∀ K a, Q K a → d.Nests R (f a) K) : d.Nests R (p >>= f) K :=
  bind (h.mono hf)

theorem of_asks (h : p.Asks Request.SparesLocks) : d.Nests (fun K' _ => K' = K) p K := by
  induction p with
  | done a => rfl
  | ask r next ih =>
    obtain ⟨spares, rest⟩ := h
    cases r with
    | acquire | release => exact spares.elim
    | _ => exact ⟨trivial, fun _ a _ _ _ => ih a (rest a)⟩

-- Calls that are tried again: an answer that comes back is the answer of an attempt.
theorem retry [Transient τ] {attempt : Program (Option (Except τ α))} {policy : RetryPolicy}
    {Q : α → Prop}
    (ha : d.Nests (fun K' o => K' = K ∧ ∀ x, o = some (.ok x) → Q x) attempt K) :
    d.Nests (fun K' r => K' = K ∧ ∀ x, r = .ok x → Q x) (policy.retry name attempt Program.wait)
      K := by
  have answered {o : Option (Except τ α)} {late : τ} {x : α} (h : o.getD (.error late) = .ok x) :
      o = some (.ok x) := by
    cases o <;> cases h
    rfl
  unfold RetryPolicy.retry
  generalize policy.attempts - 1 = left
  generalize 0 = made
  induction left generalizing made with
  | zero =>
    unfold RetryPolicy.retryFrom
    refine ha.step fun K' o attempted => ?_
    obtain ⟨hK, hq⟩ := attempted
    split
    case h_1 hx => exact ⟨hK, fun _ he => hq _ (Except.ok.inj he ▸ answered hx)⟩
    case h_2 => split <;> exact ⟨hK, nofun⟩
  | succ left ih =>
    unfold RetryPolicy.retryFrom
    refine ha.step fun K' o attempted => ?_
    obtain ⟨rfl, hq⟩ := attempted
    split
    case h_1 hx => exact ⟨rfl, fun _ he => hq _ (Except.ok.inj he ▸ answered hx)⟩
    case h_2 =>
      split
      · exact ⟨rfl, nofun⟩
      · exact bind ⟨trivial, fun _ _ _ _ _ => ih _⟩

end Nests

-- An action that can fail and that gives back all locks that it takes; `Q` says what it ends with
-- when it succeeds.
def Fits (d : Nesting) (K : Held) (a : ExceptT σ Program α) (Q : α → Prop) : Prop :=
  d.Nests (fun K' r => K' = K ∧ ∀ x, r = .ok x → Q x) a.run K

namespace Fits

variable {a : ExceptT σ Program α} {Q Q' : α → Prop} {policy : RetryPolicy}

theorem step {f : α → ExceptT σ Program β} {R : β → Prop} (h : d.Fits K a Q)
    (hf : ∀ x, Q x → d.Fits K (f x) R) : d.Fits K (a >>= f) R := by
  unfold Fits
  rw [ExceptT.run_bind]
  refine Nests.step h fun K' r ⟨hK, hq⟩ => ?_
  subst hK
  cases r with
  | ok x => exact hf x (hq x rfl)
  | error e => exact ⟨rfl, nofun⟩

theorem of_asks (h : a.run.Asks Request.SparesLocks) : d.Fits K a fun _ => True :=
  (Nests.of_asks h).mono fun _ _ hK => ⟨hK, fun _ _ => trivial⟩

theorem catalog {op : CatalogOp} {g : RetryFailure CatalogError → σ} {Q : op.Answer → Prop}
    (hq : ∀ c x c', d.Inv c → op.perform c = .ok (x, c') → Q x) :
    d.Fits K (ExceptT.mk do return (← Program.retryCatalog policy op).mapError g) Q := by
  refine Nests.step (Nests.retry (Q := Q) ?_) fun K' r ⟨hK, hx⟩ =>
    ⟨hK, fun x he => hx x (mapError_eq_ok.mp he)⟩
  refine Nests.bind (p := Program.catalog op) ⟨trivial, fun c a c' hc ha => ⟨rfl, fun x he => ?_⟩⟩
  obtain rfl := Option.some.inj he
  rcases ha with ⟨e, he, -⟩ | ⟨y, ho, he | ⟨e, -, he⟩⟩
  · cases he
  · cases he
    exact hq c x c' hc ho
  · cases he

theorem holding {key : LockKey} (under : ∀ g ∈ K, d.Under g.2 key)
    (h : ∀ ticket, d.Fits ((ticket, key) :: K) a Q) :
    d.Fits K (ExceptT.mk (Program.holding key a.run)) Q := by
  refine Nests.bind (p := Program.acquire key) ⟨under, fun _ ticket _ _ _ => ?_⟩
  refine Nests.step (h ticket) fun K' r ⟨hK, hq⟩ => ?_
  subst hK
  exact Nests.bind (p := Program.release ticket) ⟨⟨key, rfl⟩, fun _ _ _ _ _ => ⟨rfl, hq⟩⟩

end Fits

end Nesting

-- A caller that keeps to a nesting and has no lock in the end.
inductive Caller.Nests (d : Nesting) : Caller α → Held → Prop
  | running (h : d.Nests (fun K _ => K = []) p K) : Nests d (.thread (.running p)) K
  | missing (under : ∀ g ∈ K, d.Under g.2 key)
    (h : ∀ ticket, d.Nests (fun K _ => K = []) (next ticket) ((ticket, key) :: K)) :
    Nests d (.missing key next) K
  | found (under : ∀ g ∈ K, d.Under g.2 key)
    (h : ∀ ticket, d.Nests (fun K _ => K = []) (next ticket) ((ticket, key) :: K)) :
    Nests d (.found key epoch next) K
  | waiting (under : ∀ g ∈ K, d.Under g.2 key)
    (h : d.Nests (fun K _ => K = []) (next ticket) ((ticket, key) :: K)) :
    Nests d (.thread (.waiting ticket next)) ((ticket, key) :: K)

namespace Race

variable {ε α : Type}

-- Who asked for the tickets, when the caller in that place has taken a step.
def asked (asker : Nat → Nat) (w : World ε) (i : Nat) : Nat → Nat :=
  fun ticket => if ticket < w.nextTicket then asker ticket else i

-- What can come of a race, and who asked for the tickets given. The catalog is also worked on by
-- others, and the engine, the clock and the errors that the catalog meets change at any time.
inductive Comes [Engine.Endpoint ε] (R : Race ε α) : (Nat → Nat) → Race ε α → Prop
  | start : Comes R asker R
  | move {R' : Race ε α} {w : World ε} (h : Comes R asker R') (hi : R'.callers[i]? = some c)
    (hm : c.Moves R'.world c' w) :
    Comes R (asked asker R'.world i) { world := w, callers := R'.callers.set i c' }
  | elsewhere {R' : Race ε α} (h : Comes R asker R') (op : CatalogOp) (engine : ε)
    (catalogFaults : List (String × CatalogError)) (clock : Int) :
    Comes R asker { R' with
      world := { R'.world with
        catalog := (op.carryOut R'.world.catalog).2, engine, catalogFaults, clock } }

theorem Moves.comes [Engine.Endpoint ε] {R R' : Race ε α} (h : R.Moves R') :
    ∃ asker, R.Comes asker R' := by
  induction h with
  | refl => exact ⟨fun _ => 0, .start⟩
  | tail _ hm ih =>
    obtain ⟨asker, comes⟩ := ih
    obtain ⟨i, hi, hm⟩ := hm
    exact ⟨_, comes.move hi hm⟩

-- Whether a caller waits for a lock that somebody else has.
def kept (R : Race ε α) (i : Nat) : Bool :=
  match R.callers[i]? with
  | some (.thread (.waiting ticket _)) => !R.world.locks.holds ticket
  | _ => false

theorem kept_iff {R : Race ε α} : R.kept i ↔ ∃ ticket next,
    R.callers[i]? = some (.thread (.waiting ticket next)) ∧ ¬R.world.locks.holds ticket := by
  unfold kept
  split
  case h_1 ticket next hi => simp [hi]
  case h_2 other => simpa using fun ticket next hi => absurd hi (other ticket next)

-- The caller that has the lock for which a caller waits.
def holder? (R : Race ε α) (asker : Nat → Nat) (i : Nat) : Option Nat :=
  match R.callers[i]? with
  | some (.thread (.waiting ticket _)) => do
    let r ← R.world.locks.requests.find? (·.owner = ticket)
    let q ← R.world.locks.requests.find? (sameLine r)
    if q.owner = ticket then none else some (asker q.owner)
  | _ => none

-- A caller can take its next step at once.
def Goes [Engine.Endpoint ε] (R : Race ε α) (i : Nat) : Prop :=
  ∃ c c' w, R.callers[i]? = some c ∧ c.Moves R.world c' w

-- Callers that keep to a nesting, with the locks that each has asked for and not given back.
structure Nested (d : Nesting) (K : Nat → Held) (asker : Nat → Nat) (R : Race ε α) : Prop where
  inv : d.Inv R.world.catalog
  nests : ∀ i (c : Caller α), R.callers[i]? = some c → c.Nests d (K i)
  absent : ∀ i, R.callers[i]? = none → K i = []
  own : ∀ i, ((K i).map (·.1)).Nodup
  mine : ∀ i, ∀ g ∈ K i, asker g.1 = i
  tickets : ∀ r ∈ R.world.locks.requests, r.owner < R.world.nextTicket
  queued : ∀ i, ∀ g ∈ K i, Queued R.world.locks g
  owned : ∀ r ∈ R.world.locks.requests, (r.owner, r.key) ∈ K (asker r.owner)

variable {d : Nesting} {R R' : Race ε α} {K : Nat → Held} {asker : Nat → Nat} {c c' : Caller α}
  {w : World ε} {g : Nat × LockKey} {i j : Nat}

theorem asked_old (h : ticket < w.nextTicket) : asked asker w i ticket = asker ticket :=
  if_pos h

theorem asked_new (h : w.nextTicket ≤ ticket) : asked asker w i ticket = i :=
  if_neg (Nat.not_lt.mpr h)

-- A caller that has not ended goes on, or it waits.
theorem goes_or_waits [Engine.Endpoint ε] (hi : R.callers[i]? = some c) (hr : c.result? = none) :
    R.Goes i ∨ R.kept i := by
  have goes {c' : Caller α} {w : World ε} (hm : c.Moves R.world c' w) : R.Goes i :=
    ⟨c, c', w, hi, hm⟩
  cases c with
  | missing key next =>
    obtain ⟨epoch, known⟩ := R.world.locks.opened_known key
    exact .inl (goes (.make known))
  | found key epoch next => exact .inl (goes .join)
  | thread t =>
    cases t with
    | waiting ticket next =>
      by_cases granted : R.world.locks.holds ticket
      · exact .inl (goes (.grant granted))
      · exact .inr (kept_iff.mpr ⟨ticket, next, hi, granted⟩)
    | running p =>
      cases p with
      | done a => cases hr
      | ask r next =>
        by_cases asks : ∃ key, r = .acquire key
        · obtain ⟨key, rfl⟩ := asks
          cases known : R.world.locks.epochs.lookup key with
          | none => exact .inl (goes (.miss known))
          | some epoch => exact .inl (goes (.look known))
        · exact .inl (goes (.answer fun key he => asks ⟨key, he⟩))

namespace Nested

theorem ticket_lt (h : R.Nested d K asker) (hg : g ∈ K i) : g.1 < R.world.nextTicket := by
  obtain ⟨r, hr, ho, -⟩ := h.queued i g hg
  exact ho ▸ h.tickets r hr

theorem start {ps : List (Program α)} (hi : d.Inv w.catalog) (hl : w.locks = {})
    (hp : ∀ p ∈ ps, d.Nests (fun K _ => K = []) p []) :
    Nested d (fun _ => []) asker (together w ps) where
  inv := hi
  nests i c hc := by
    obtain ⟨p, hp', rfl⟩ := List.mem_map.mp (List.mem_of_getElem? hc)
    exact .running (hp p hp')
  absent _ _ := rfl
  own _ := .nil
  mine := nofun
  tickets := by simp [together, hl]
  queued := nofun
  owned := by simp [together, hl]

-- A step of one caller. The locks that it asked for change from `K i` to `K'`.
theorem turn {K' : Held} (h : R.Nested d K asker) (hi : R.callers[i]? = some c)
    (inv : d.Inv w.catalog) (nests : c'.Nests d K') (own : (K'.map (·.1)).Nodup)
    (fresh : ∀ g ∈ K', g ∈ K i ∨ R.world.nextTicket ≤ g.1)
    (tickets : ∀ r ∈ w.locks.requests, r.owner < w.nextTicket)
    (queued : ∀ g ∈ K', Queued w.locks g)
    (spares : ∀ g, (∀ g' ∈ K i, g'.1 ≠ g.1) → Queued R.world.locks g → Queued w.locks g)
    (owned : ∀ r ∈ w.locks.requests, (r.owner, r.key) ∈ K' ∨
      r ∈ R.world.locks.requests ∧ (r.owner, r.key) ∉ K i) :
    Nested d (Function.update K i K') (asked asker R.world i)
      { world := w, callers := R.callers.set i c' } := by
  have mine : ∀ g ∈ K', asked asker R.world i g.1 = i := by
    intro g hg
    rcases fresh g hg with old | new
    · exact (asked_old (h.ticket_lt old)).trans (h.mine i g old)
    · exact asked_new new
  have theirs {j : Nat} {g : Nat × LockKey} (hg : g ∈ K j) : asked asker R.world i g.1 = j :=
    (asked_old (h.ticket_lt hg)).trans (h.mine j g hg)
  have locks := Pool.update_cases K K' i
  refine { inv, tickets, nests := ?nests, absent := ?absent, own := ?own, mine := ?mine,
           queued := ?queued, owned := ?owned }
  case nests =>
    intro j u hu
    rcases Pool.getElem?_set_cases hu with ⟨rfl, rfl⟩ | ⟨hj, hu⟩
    · rwa [Function.update_self]
    · rw [Function.update_of_ne hj]
      exact h.nests j u hu
  case absent =>
    intro j hj
    have outside : R.callers[j]? = none := by simpa using hj
    have other : j ≠ i := by
      rintro rfl
      exact nomatch outside.symm.trans hi
    rw [Function.update_of_ne other]
    exact h.absent j outside
  case own =>
    intro j
    rcases locks j with ⟨rfl, e⟩ | ⟨-, e⟩
    · exact e.symm ▸ own
    · exact e.symm ▸ h.own j
  case mine =>
    intro j g hg
    rcases locks j with ⟨rfl, e⟩ | ⟨-, e⟩ <;> rw [e] at hg
    · exact mine g hg
    · exact theirs hg
  case queued =>
    intro j g hg
    rcases locks j with ⟨rfl, e⟩ | ⟨hj, e⟩ <;> rw [e] at hg
    · exact queued g hg
    · refine spares g (fun g' hg' he => hj ?_) (h.queued j g hg)
      exact (h.mine j g hg).symm.trans (he ▸ h.mine i g' hg')
  case owned =>
    intro r hr
    rcases owned r hr with new | ⟨old, other⟩
    · rw [mine _ new, Function.update_self]
      exact new
    · have there := h.owned r old
      rw [theirs there, Function.update_of_ne]
      · exact there
      · intro he
        exact other (he ▸ there)

-- A step that is neither joining a line nor leaving it.
theorem stay (h : R.Nested d K asker) (hi : R.callers[i]? = some c) (inv : d.Inv w.catalog)
    (nests : c'.Nests d (K i)) (requests : w.locks.requests = R.world.locks.requests)
    (next : w.nextTicket = R.world.nextTicket) :
    Nested d (Function.update K i (K i)) (asked asker R.world i)
      { world := w, callers := R.callers.set i c' } := by
  have queued {g : Nat × LockKey} (hg : Queued R.world.locks g) : Queued w.locks g := by
    rwa [Queued, requests]
  refine h.turn hi inv nests (h.own i) (fun g hg => .inl hg) (by rw [requests, next]; exact h.tickets)
    (fun g hg => queued (h.queued i g hg)) (fun g _ => queued) fun r hr => ?_
  by_cases hg : (r.owner, r.key) ∈ K i
  · exact .inl hg
  · exact .inr ⟨requests ▸ hr, hg⟩

theorem join (h : R.Nested d K asker) (hi : R.callers[i]? = some (.found key epoch next)) :
    Nested d (Function.update K i ((R.world.nextTicket, key) :: K i)) (asked asker R.world i)
      { world := { R.world with
          locks := R.world.locks.joined R.world.nextTicket key epoch
          nextTicket := R.world.nextTicket + 1 }
        callers := R.callers.set i (.thread (.waiting R.world.nextTicket next)) } := by
  have later {g : Nat × LockKey} (hg : Queued R.world.locks g) :
      Queued (R.world.locks.joined R.world.nextTicket key epoch) g := by
    obtain ⟨r, hr, same⟩ := hg
    exact ⟨r, List.mem_append_left _ hr, same⟩
  have nests : Caller.Nests d (.thread (.waiting R.world.nextTicket next))
      ((R.world.nextTicket, key) :: K i) := by
    cases h.nests i _ hi with
    | found under rest => exact .waiting under (rest _)
  refine h.turn hi h.inv nests ?_ ?_ ?_ ?_ (fun g _ => later) ?_
  · refine List.nodup_cons.mpr ⟨fun hm => ?_, h.own i⟩
    obtain ⟨g, hg, he⟩ := List.mem_map.mp hm
    exact Nat.ne_of_lt (h.ticket_lt hg) he
  · rintro g hg
    rcases List.mem_cons.mp hg with rfl | hg
    · exact .inr (Nat.le_refl _)
    · exact .inl hg
  · simp only [joined, List.mem_append, List.mem_singleton]
    rintro r (hr | rfl)
    · exact Nat.lt_succ_of_lt (h.tickets r hr)
    · exact Nat.lt_succ_self _
  · refine List.forall_mem_cons.mpr ⟨?_, fun g hg => later (h.queued i g hg)⟩
    exact ⟨_, List.mem_append_right _ (List.mem_singleton_self _), rfl, rfl⟩
  · simp only [joined, List.mem_append, List.mem_singleton]
    rintro r (hr | rfl)
    · by_cases hg : (r.owner, r.key) ∈ K i
      · exact .inl (List.mem_cons_of_mem _ hg)
      · exact .inr ⟨hr, hg⟩
    · exact .inl List.mem_cons_self

theorem leave {K' : Held} (h : R.Nested d K asker)
    (hi : R.callers[i]? = some c) (hK : K i = (ticket, key) :: K') (nests : c'.Nests d K') :
    Nested d (Function.update K i K') (asked asker R.world i)
      { world := { R.world with locks := R.world.locks.leave ticket }
        callers := R.callers.set i c' } := by
  have own := hK ▸ h.own i
  have left {g : Nat × LockKey} (hn : g.1 ≠ ticket) (hg : Queued R.world.locks g) :
      Queued (R.world.locks.leave ticket) g := by
    obtain ⟨r, hr, ho, hk⟩ := hg
    exact ⟨r, List.mem_filter.mpr ⟨hr, decide_eq_true (ho ▸ hn)⟩, ho, hk⟩
  have mem {r : LockRequest LockKey Nat} (hr : r ∈ (R.world.locks.leave ticket).requests) :
      r ∈ R.world.locks.requests ∧ r.owner ≠ ticket := by
    simpa [KeyedLocks.leave] using hr
  refine h.turn hi h.inv nests (List.nodup_cons.mp own).2 ?_ ?_ ?_ ?_ fun r hr => ?_
  · exact fun g hg => .inl (hK ▸ List.mem_cons_of_mem _ hg)
  · exact fun r hr => h.tickets r (mem hr).1
  · intro g hg
    refine left ?_ (h.queued i g (hK ▸ List.mem_cons_of_mem _ hg))
    rintro rfl
    exact (List.nodup_cons.mp own).1 (List.mem_map.mpr ⟨g, hg, rfl⟩)
  · intro g hn
    exact left fun he => hn (ticket, key) (hK ▸ List.mem_cons_self) he.symm
  · obtain ⟨there, other⟩ := mem hr
    by_cases hg : (r.owner, r.key) ∈ K i
    · refine .inl ((List.mem_cons.mp (hK ▸ hg)).resolve_left fun he => other ?_)
      exact congrArg Prod.fst he
    · exact .inr ⟨there, hg⟩

-- What others do with the catalog, and what changes besides, concerns no lock.
theorem elsewhere (h : R.Nested d K asker) (op : CatalogOp) (engine : ε)
    (catalogFaults : List (String × CatalogError)) (clock : Int) :
    Nested d K asker { R with
      world := { R.world with
        catalog := (op.carryOut R.world.catalog).2, engine, catalogFaults, clock } } where
  inv := d.kept h.inv (Request.carryOut_answers op R.world.catalog)
  nests := h.nests
  absent := h.absent
  own := h.own
  mine := h.mine
  tickets := h.tickets
  queued := h.queued
  owned := h.owned

-- A caller that has asked for a lock has not ended.
theorem unfinished (h : R.Nested d K asker) (hg : g ∈ K i) :
    ∃ c, R.callers[i]? = some c ∧ c.result? = none := by
  obtain ⟨c, hi⟩ : ∃ c, R.callers[i]? = some c := by
    refine Option.ne_none_iff_exists'.mp fun none => ?_
    exact absurd hg (h.absent i none ▸ List.not_mem_nil)
  refine ⟨c, hi, ?_⟩
  have nests := h.nests i c hi
  generalize K i = held at hg nests
  cases nests with
  | running ends =>
    rename_i p
    cases p with
    | done a =>
      obtain rfl : held = [] := ends
      exact absurd hg List.not_mem_nil
    | ask => rfl
  | _ => rfl

-- Whoever waits for a lock waits for a caller that has it, and asks for it under all its others.
theorem holder (h : R.Nested d K asker) (hw : R.kept i) :
    ∃ j g, R.holder? asker i = some j ∧ g ∈ K j ∧ R.world.locks.holds g.1 ∧
      ∀ g' ∈ K i, R.world.locks.holds g'.1 → d.Under g'.2 g.2 := by
  obtain ⟨ticket, next, hi, waits⟩ := kept_iff.mp hw
  obtain ⟨key, K', hK, under⟩ : ∃ key K', K i = (ticket, key) :: K' ∧
      ∀ g ∈ K', d.Under g.2 key := by
    have nests := h.nests i _ hi
    generalize K i = held at nests
    cases nests with
    | waiting under _ => exact ⟨_, _, rfl, under⟩
  have first : (ticket, key) ∈ K i := hK ▸ List.mem_cons_self
  obtain ⟨r, found⟩ : ∃ r, R.world.locks.requests.find? (·.owner = ticket) = some r := by
    obtain ⟨r, hr, ho, -⟩ := h.queued i _ first
    exact Option.isSome_iff_exists.mp (List.find?_isSome.mpr ⟨r, hr, decide_eq_true ho⟩)
  have hr := List.mem_of_find?_eq_some found
  have ho : r.owner = ticket := by simpa using List.find?_some found
  have hk : r.key = key := by
    have there := h.owned r hr
    rw [ho, h.mine i _ first] at there
    exact congrArg Prod.snd (List.inj_on_of_nodup_map (h.own i) there first rfl)
  obtain ⟨q, leads, led, same⟩ := Leads.of_mem hr
  have granted : R.world.locks.holds q.owner := holds_iff.mpr ⟨q, leads, rfl⟩
  have other : q.owner ≠ ticket := fun he => waits (he ▸ granted)
  refine ⟨asker q.owner, (q.owner, q.key), ?_, h.owned q leads.mem, granted, fun g hg held => ?_⟩
  · simp [holder?, hi, found, led, other]
  · rcases List.mem_cons.mp (hK ▸ hg) with rfl | hg
    · exact absurd held waits
    · rw [← (sameLine_iff.mp same).1, hk]
      exact under g hg

variable [Engine.Endpoint ε]

theorem answer {r : Request} {next : r.Answer → Program α} (h : R.Nested d K asker)
    (hi : R.callers[i]? = some (.thread (.running (.ask r next)))) (hr : ∀ key, r ≠ .acquire key) :
    ∃ K', Nested d K' (asked asker R.world i)
      { world := (R.world.answer r).2
        callers := R.callers.set i (.thread (.running (next (R.world.answer r).1))) } := by
  have answers := R.world.answer_answers r
  have inv := d.kept h.inv answers
  obtain ⟨allowed, rest⟩ : d.Nests (fun K _ => K = []) (.ask r next) (K i) := by
    cases h.nests i _ hi with
    | running nests => exact nests
  have nests := Caller.Nests.running (rest _ _ _ h.inv answers)
  cases r with
  | acquire key => exact absurd rfl (hr key)
  | release ticket =>
    obtain ⟨key, first⟩ := allowed
    obtain ⟨K', hK⟩ := List.head?_eq_some_iff.mp first
    rw [hK] at nests
    exact ⟨_, h.leave hi hK nests⟩
  | catalog op =>
    obtain ⟨locks, next⟩ := R.world.perform_locks op
    exact ⟨_, h.stay hi inv nests (congrArg KeyedLocks.requests locks) next⟩
  | _ => exact ⟨_, h.stay hi inv nests rfl rfl⟩

theorem move (h : R.Nested d K asker) (hi : R.callers[i]? = some c)
    (hm : c.Moves R.world c' w) :
    ∃ K', Nested d K' (asked asker R.world i) { world := w, callers := R.callers.set i c' } := by
  have nests := h.nests i c hi
  cases hm with
  | @look key epoch next known =>
    cases nests with
    | running nests =>
      have rest ticket := nests.2 _ ticket _ h.inv rfl
      exact ⟨_, h.stay hi h.inv (.found nests.1 rest) rfl rfl⟩
  | miss unknown =>
    cases nests with
    | running nests =>
      have rest ticket := nests.2 _ ticket _ h.inv rfl
      exact ⟨_, h.stay hi h.inv (.missing nests.1 rest) rfl rfl⟩
  | make known =>
    cases nests with
    | missing under rest =>
      exact ⟨_, h.stay hi h.inv (.found under rest) (opened_requests ..) rfl⟩
  | join => exact ⟨_, h.join hi⟩
  | answer hr => exact h.answer hi hr
  | @grant ticket next granted =>
    refine ⟨_, h.stay hi h.inv ?_ rfl rfl⟩
    generalize K i = held at nests
    cases nests with
    | waiting under rest => exact .running rest

theorem comes (h : R.Comes asker R') (hn : ∀ asker, R.Nested d K asker) :
    ∃ K', R'.Nested d K' asker := by
  induction h with
  | start => exact ⟨K, hn _⟩
  | move _ hi hm ih =>
    obtain ⟨K', nested⟩ := ih
    exact nested.move hi hm
  | elsewhere _ op engine catalogFaults clock ih =>
    obtain ⟨K', nested⟩ := ih
    exact ⟨K', nested.elsewhere op engine catalogFaults clock⟩

theorem going (h : R.Nested d K asker) (hg : g ∈ K i) : R.Goes i ∨ R.kept i := by
  obtain ⟨c, hi, unfinished⟩ := h.unfinished hg
  exact goes_or_waits hi unfinished

-- Nobody waits for a caller that waits for a caller that waits.
theorem holder_goes (h : R.Nested d K asker) (hw : R.kept i) :
    ∃ j, R.holder? asker i = some j ∧
      (R.Goes j ∨ ∃ k, R.holder? asker j = some k ∧ R.Goes k) := by
  obtain ⟨j, g, hj, hg, held, -⟩ := h.holder hw
  refine ⟨j, hj, (h.going hg).imp_right fun waits => ?_⟩
  obtain ⟨k, g', hk, hg', held', under⟩ := h.holder waits
  refine ⟨k, hk, (h.going hg').resolve_right fun waits' => ?_⟩
  obtain ⟨_, _, -, -, -, under'⟩ := h.holder waits'
  exact d.flat (under g hg held) (under' g' hg' held')

theorem ended_or_move (h : R.Nested d K asker) : R.Ended ∨ ∃ R', R.Move R' := by
  have moves {i : Nat} (goes : R.Goes i) : ∃ R', R.Move R' := by
    obtain ⟨c, c', w, hi, hm⟩ := goes
    exact ⟨_, .mk i hi hm⟩
  by_cases ended : R.Ended
  · exact .inl ended
  obtain ⟨c, hc, unfinished⟩ : ∃ c ∈ R.callers, c.result? = none := by
    simpa [Race.Ended, Race.results] using ended
  obtain ⟨i, hi⟩ := List.mem_iff_getElem?.mp hc
  rcases goes_or_waits hi unfinished with goes | waits
  · exact .inr (moves goes)
  · obtain ⟨_, -, goes | ⟨_, -, goes⟩⟩ := h.holder_goes waits <;> exact .inr (moves goes)

theorem ends (h : R.Nested d K asker) : R.Ends fun _ => True := by
  refine ends_of_invariant (I := fun R => ∃ K asker, R.Nested d K asker) ?_ ?_
    (fun _ _ _ => trivial) ⟨K, asker, h⟩
  · rintro R _ ⟨K, asker, nested⟩ ⟨i, hi, hm⟩
    obtain ⟨K', nested⟩ := nested.move hi hm
    exact ⟨K', _, nested⟩
  · rintro R ⟨K, asker, nested⟩
    exact nested.ended_or_move

end Nested

end Race

end Historian
