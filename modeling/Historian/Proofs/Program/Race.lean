import Mathlib.Logic.Hydra
import Historian.Proofs.Program.Interleaving

namespace Historian

open KeyedLocks

namespace Program

variable {α β ε : Type} {P Q : Request → Prop} {p : Program α}

-- All that a program ever asks for is of some kind.
def Asks (P : Request → Prop) : Program α → Prop
  | .done _ => True
  | .ask r next => P r ∧ ∀ a, (next a).Asks P

namespace Asks

theorem mono (h : p.Asks P) (hq : ∀ r, P r → Q r) : p.Asks Q := by
  induction p with
  | done => trivial
  | ask r next ih => exact ⟨hq r h.1, fun a => ih a (h.2 a)⟩

theorem request {r : Request} (h : P r) : (Program.request r).Asks P :=
  ⟨h, fun _ => trivial⟩

theorem bind {f : α → Program β} (h : p.Asks P) (hf : ∀ a, (f a).Asks P) : (p >>= f).Asks P := by
  induction p with
  | done a => exact hf a
  | ask r next ih => exact ⟨h.1, fun a => ih a (h.2 a)⟩

theorem exceptBind {a : ExceptT σ Program α} {f : α → ExceptT σ Program β} (h : a.run.Asks P)
    (hf : ∀ x, (f x).run.Asks P) : (a >>= f).run.Asks P := by
  rw [ExceptT.run_bind]
  refine h.bind fun x => ?_
  cases x with
  | ok x => exact hf x
  | error e => trivial

theorem retry [Transient τ] {policy : RetryPolicy} {attempt : Program (Option (Except τ α))}
    (h : attempt.Asks P) (hw : ∀ n, P (.wait n)) :
    (policy.retry name attempt wait).Asks P := by
  unfold RetryPolicy.retry
  generalize policy.attempts - 1 = left
  generalize 0 = made
  induction left generalizing made with
  | zero =>
    unfold RetryPolicy.retryFrom
    refine h.bind fun answer => ?_
    split
    · trivial
    · split <;> trivial
  | succ left ih =>
    unfold RetryPolicy.retryFrom
    refine h.bind fun answer => ?_
    split
    · trivial
    · split
      · trivial
      · exact (request (hw _)).bind fun _ => ih _

end Asks

end Program

-- Requests that have nothing to do with locks, and those that do not ask for the time either.

def Request.Lockless : Request → Prop
  | .acquire _ | .release _ | .forget _ => False
  | _ => True

def Request.Timeless : Request → Prop
  | .now => False
  | r => r.Lockless

theorem Request.Timeless.lockless {r : Request} (h : r.Timeless) : r.Lockless := by
  cases r <;> trivial

theorem Request.Lockless.ne_acquire {r : Request} (h : r.Lockless) (key : LockKey) :
    r ≠ .acquire key := by
  rintro rfl
  exact h

namespace World

variable {ε : Type} {w w' w₁ w₂ : World ε}

-- Worlds that differ at most in their locks and in the time.
structure Like (w w' : World ε) : Prop where
  engine : w'.engine = w.engine
  catalog : w'.catalog = w.catalog
  catalogFaults : w'.catalogFaults = w.catalogFaults

theorem Like.refl (w : World ε) : w.Like w :=
  ⟨rfl, rfl, rfl⟩

theorem Like.trans (h₁ : w.Like w₁) (h₂ : w₁.Like w₂) : w.Like w₂ :=
  ⟨h₂.engine.trans h₁.engine, h₂.catalog.trans h₁.catalog,
    h₂.catalogFaults.trans h₁.catalogFaults⟩

theorem Like.symm (h : w.Like w') : w'.Like w :=
  ⟨h.engine.symm, h.catalog.symm, h.catalogFaults.symm⟩

theorem Like.perform (h : w.Like w') (op : CatalogOp) :
    (w'.perform op).1 = (w.perform op).1 ∧ (w.perform op).2.Like (w'.perform op).2 := by
  simp only [World.perform, h.catalog, h.catalogFaults]
  split <;> exact ⟨rfl, h.engine, rfl, rfl⟩

variable [Engine.Endpoint ε]

theorem answer_locks {r : Request} (hr : r.Lockless) :
    (w.answer r).2.locks = w.locks ∧ (w.answer r).2.nextTicket = w.nextTicket := by
  cases r with
  | catalog op => exact w.perform_locks op
  | acquire | release | forget => exact hr.elim
  | _ => exact ⟨rfl, rfl⟩

theorem Like.answer {r : Request} (h : w.Like w') (hr : r.Timeless) :
    (w'.answer r).1 = (w.answer r).1 ∧ (w.answer r).2.Like (w'.answer r).2 := by
  cases r with
  | catalog op => exact h.perform op
  | execute limit sql =>
    simp only [World.answer, h.engine]
    exact ⟨rfl, rfl, h.catalog, h.catalogFaults⟩
  | describe limit table =>
    simp only [World.answer, h.engine]
    exact ⟨rfl, rfl, h.catalog, h.catalogFaults⟩
  | wait millis => exact ⟨rfl, h.engine, h.catalog, h.catalogFaults⟩
  | acquire | release | forget | now => exact hr.elim

end World

namespace Program

variable {α β ε : Type} [Engine.Endpoint ε]

-- A run of a program while others take and give back locks and time goes by.
inductive Runs : Program α → World ε → α → World ε → Prop
  | done {a : α} (h : w.Like w') : Runs (.done a) w a w'
  | ask {r : Request} {next : r.Answer → Program α} (h : w.Like w₁)
    (hr : Runs (next (w₁.answer r).1) (w₁.answer r).2 a w') : Runs (.ask r next) w a w'

variable {p : Program α} {w w' w₁ : World ε} {a : α}

theorem Runs.from (h : p.Runs w a w') (hl : w₁.Like w) : p.Runs w₁ a w' := by
  cases h with
  | done h => exact .done (hl.trans h)
  | ask h hr => exact .ask (hl.trans h) hr

theorem Runs.until (h : p.Runs w a w') (hl : w'.Like w₁) : p.Runs w a w₁ := by
  induction h with
  | done h => exact .done (h.trans hl)
  | ask h _ ih => exact .ask h (ih hl)

theorem Runs.bind {f : α → Program β} {b : β} (h : (p >>= f).Runs w b w') :
    ∃ a w₁, p.Runs w a w₁ ∧ (f a).Runs w₁ b w' := by
  induction p generalizing w with
  | done a => exact ⟨a, w, .done (.refl w), h⟩
  | ask r next ih =>
    cases h with
    | ask h hr =>
      obtain ⟨a, w₂, first, second⟩ := ih _ hr
      exact ⟨a, w₂, .ask h first, second⟩

theorem run_like (hp : p.Asks Request.Timeless) (h : w.Like w') :
    (p.run w').1 = (p.run w).1 ∧ (p.run w).2.Like (p.run w').2 := by
  induction p generalizing w w' with
  | done a => exact ⟨rfl, h⟩
  | ask r next ih =>
    obtain ⟨same, like⟩ := h.answer hp.1
    simp only [run, same]
    exact ih _ (hp.2 _) like

-- Nothing of that matters to a program that does not ask for it.
theorem Runs.eq_run (h : p.Runs w a w') (hp : p.Asks Request.Timeless) :
    a = (p.run w).1 ∧ (p.run w).2.Like w' := by
  induction h with
  | done h => exact ⟨rfl, h⟩
  | ask h _ ih =>
    obtain ⟨result, like⟩ := ih (hp.2 _)
    obtain ⟨same, after⟩ := h.answer hp.1
    rw [same] at result like
    exact ⟨result.trans (run_like (hp.2 _) after).1, (run_like (hp.2 _) after).2.trans like⟩

end Program

-- A program on its way, which may also be in the middle of asking for a lock.
inductive Caller (α : Type)
  | thread (t : Thread α)
  | missing (key : LockKey) (next : Nat → Program α)
  | found (key : LockKey) (epoch : Nat) (next : Nat → Program α)

-- Programs that share a world, and that take locks step by step.
structure Race (ε α : Type) where
  world : World ε
  callers : List (Caller α)

variable {ε α : Type} [Engine.Endpoint ε]

namespace Caller

variable {w w' : World ε} {c c' : Caller α}

-- A step of a caller. Another one may have made the line of a key since it was looked up in vain.
inductive Moves (w : World ε) : Caller α → Caller α → World ε → Prop
  | look (h : w.locks.epochs.lookup key = some epoch) :
    Moves w (.thread (.running (.ask (.acquire key) next))) (.found key epoch next) w
  | miss (h : w.locks.epochs.lookup key = none) :
    Moves w (.thread (.running (.ask (.acquire key) next))) (.missing key next) w
  | make (h : (w.locks.opened key).epochs.lookup key = some epoch) :
    Moves w (.missing key next) (.found key epoch next) { w with locks := w.locks.opened key }
  | join : Moves w (.found key epoch next) (.thread (.waiting w.nextTicket next))
    { w with
      locks := w.locks.joined w.nextTicket key epoch
      nextTicket := w.nextTicket + 1 }
  | answer {r : Request} {next : r.Answer → Program α} (hr : ∀ key, r ≠ .acquire key) :
    Moves w (.thread (.running (.ask r next))) (.thread (.running (next (w.answer r).1)))
      (w.answer r).2
  | grant (hh : w.locks.holds ticket) :
    Moves w (.thread (.waiting ticket next)) (.thread (.running (next ticket))) w

-- Every call comes to its end in finitely many steps, whatever it is answered.

def After (ε : Type) [Engine.Endpoint ε] (c' c : Caller α) : Prop :=
  ∃ w w' : World ε, c.Moves w c' w'

theorem acc_waiting {next : Nat → Program α}
    (h : ∀ ticket, Acc (After ε) (.thread (.running (next ticket)))) (ticket : Nat) :
    Acc (After ε) (.thread (.waiting ticket next)) := by
  refine ⟨_, ?_⟩
  rintro _ ⟨w, w', hm⟩
  cases hm
  exact h ticket

theorem acc_found {next : Nat → Program α}
    (h : ∀ ticket, Acc (After ε) (.thread (.running (next ticket)))) (key : LockKey) (epoch : Nat) :
    Acc (After ε) (.found key epoch next) := by
  refine ⟨_, ?_⟩
  rintro _ ⟨w, w', hm⟩
  cases hm
  exact acc_waiting h _

theorem acc_running (p : Program α) : Acc (After ε) (.thread (.running p)) := by
  induction p with
  | done a =>
    refine ⟨_, ?_⟩
    rintro _ ⟨w, w', hm⟩
    cases hm
  | ask r next ih =>
    refine ⟨_, ?_⟩
    rintro _ ⟨w, w', hm⟩
    cases hm with
    | look => exact acc_found ih _ _
    | miss =>
      refine ⟨_, ?_⟩
      rintro _ ⟨w, w', hm⟩
      cases hm
      exact acc_found ih _ _
    | answer => exact ih _

theorem after_wellFounded : WellFounded (After ε (α := α)) := by
  refine ⟨fun c => ?_⟩
  cases c with
  | thread t =>
    cases t with
    | running p => exact acc_running p
    | waiting ticket next => exact acc_waiting (fun _ => acc_running _) ticket
  | missing key next =>
    refine ⟨_, ?_⟩
    rintro _ ⟨w, w', hm⟩
    cases hm
    exact acc_found (fun _ => acc_running _) _ _
  | found key epoch next => exact acc_found (fun _ => acc_running _) key epoch

-- The result of a call that has ended.
def result? : Caller α → Option α
  | .thread t => t.result?
  | _ => none

end Caller

namespace Race

variable {R R' R'' : Race ε α}

-- Programs that are about to begin.
def together (w : World ε) (ps : List (Program α)) : Race ε α where
  world := w
  callers := ps.map fun p => .thread (.running p)

-- A step of any caller that can take one.
inductive Move (R : Race ε α) : Race ε α → Prop
  | mk {w : World ε} (i : Nat) (hi : R.callers[i]? = some c) (hm : c.Moves R.world c' w) :
    Move R { world := w, callers := R.callers.set i c' }

-- Any number of steps.
abbrev Moves (R R' : Race ε α) : Prop := Relation.ReflTransGen Move R R'

def Waits (R : Race ε α) (ticket : Nat) : Prop := ∃ next, .thread (.waiting ticket next) ∈ R.callers

-- What can come of a race. A lock that nobody has goes to any of those who wait for it, and time
-- goes by.
inductive Reaches (R : Race ε α) : Race ε α → Prop
  | refl : Reaches R R
  | move {R' R'' : Race ε α} (h : Reaches R R') (hm : R'.Move R'') : Reaches R R''
  | overtaken {R' : Race ε α} (h : Reaches R R') (hr : r ∈ R'.world.locks.requests)
    (hw : ∀ q ∈ R'.world.locks.requests, sameLine r q → R'.Waits q.owner) :
    Reaches R { R' with world := { R'.world with locks := R'.world.locks.promote r } }
  | later {R' : Race ε α} (h : Reaches R R') (clock : Int) :
    Reaches R { R' with world := { R'.world with clock } }

theorem Reaches.trans (h : R.Reaches R') (h' : R'.Reaches R'') : R.Reaches R'' := by
  induction h' with
  | refl => exact h
  | move _ hm ih => exact ih.move hm
  | overtaken _ hr hw ih => exact ih.overtaken hr hw
  | later _ clock ih => exact ih.later clock

-- No race goes on for ever.
theorem move_wellFounded : WellFounded fun R' R : Race ε α => R.Move R' := by
  refine Subrelation.wf (fun {R' R} hm => ?_)
    (InvImage.wf (fun R : Race ε α => (R.callers : Multiset (Caller α)))
      (Caller.after_wellFounded (ε := ε)).cutExpand)
  obtain @⟨c, c', w, i, hi, hc⟩ := hm
  obtain ⟨hl, rfl⟩ := List.getElem?_eq_some_iff.mp hi
  have whole (d : Caller α) : ((R.callers.set i d : List (Caller α)) : Multiset (Caller α)) =
      ↑(R.callers.take i ++ R.callers.drop (i + 1)) + {d} := by
    rw [List.set_eq_take_append_cons_drop, if_pos hl, Multiset.add_comm, Multiset.singleton_add]
    exact Multiset.coe_eq_coe.mpr List.perm_middle
  have after : Caller.After ε c' R.callers[i] := ⟨R.world, w, hc⟩
  have step := Relation.cutExpand_add_single ↑(R.callers.take i ++ R.callers.drop (i + 1)) after
  rw [← whole, ← whole, List.set_getElem_self] at step
  exact step

def results (R : Race ε α) : List (Option α) := R.callers.map Caller.result?

def Ended (R : Race ε α) : Prop := ∀ x ∈ R.results, x.isSome

-- However it goes on, the race comes to an end, and what holds then.
inductive Ends (Q : Race ε α → Prop) : Race ε α → Prop
  | now {R : Race ε α} (he : R.Ended) (hq : Q R) : Ends Q R
  | on {R R' : Race ε α} (hm : R.Move R') (h : ∀ R', R.Move R' → Ends Q R') : Ends Q R

theorem ends_of_invariant {I Q : Race ε α → Prop} (hi : ∀ R R', I R → R.Move R' → I R')
    (hs : ∀ R, I R → R.Ended ∨ ∃ R', R.Move R') (hq : ∀ R, I R → R.Ended → Q R) (h : I R) :
    R.Ends Q := by
  induction R using (move_wellFounded (ε := ε) (α := α)).induction with
  | _ R ih =>
    rcases hs R h with he | ⟨R', hm⟩
    · exact .now he (hq R h he)
    · exact .on hm fun R₁ h₁ => ih R₁ h₁ (hi R R₁ h h₁)

end Race

-- Threads that take every lock at one stroke do nothing that the callers of a race cannot.

def Pool.race (p : Pool ε α) : Race ε α where
  world := p.world
  callers := p.threads.map .thread

theorem Race.acquired {R : Race ε α} {key : LockKey} {next : Nat → Program α}
    (hi : R.callers[i]? = some (.thread (.running (.ask (.acquire key) next)))) :
    R.Moves { world := (R.world.answer (.acquire key)).2
              callers := R.callers.set i (.thread (.waiting R.world.nextTicket next)) } := by
  obtain ⟨hl, -⟩ := List.getElem?_eq_some_iff.mp hi
  obtain ⟨epoch, known⟩ := R.world.locks.opened_known key
  have found : R.Moves { world := { R.world with locks := R.world.locks.opened key }
                         callers := R.callers.set i (.found key epoch next) } := by
    cases there : R.world.locks.epochs.lookup key with
    | some e =>
      rw [opened_of_known there] at known ⊢
      exact .single (.mk i hi (.look known))
    | none =>
      have missed : R.Moves ⟨R.world, R.callers.set i (.missing key next)⟩ :=
        .single (.mk i hi (.miss there))
      have made := missed.tail (.mk i (List.getElem?_set_self hl) (.make known))
      rwa [List.set_set] at made
  have joined := found.tail (.mk i (List.getElem?_set_self hl) .join)
  rw [List.set_set, ← request_eq known] at joined
  exact joined

theorem Pool.Steps.race {p p' : Pool ε α} (h : p.Steps p') : p.race.Moves p'.race := by
  induction h with
  | refl => exact .refl
  | @tail p' p'' _ hs ih =>
    refine ih.trans ?_
    obtain ⟨i, hs⟩ := hs
    obtain ⟨t, ht, ⟨t', w'⟩, hw, rfl⟩ : ∃ t, p'.threads[i]? = some t ∧ ∃ r,
        t.step p'.world = some r ∧ p'' = { world := r.2, threads := p'.threads.set i r.1 } := by
      simp only [Pool.step, bind, Option.bind_eq_some_iff] at hs
      obtain ⟨t, ht, r, hr, he⟩ := hs
      exact ⟨t, ht, r, hr, (Option.some.inj he).symm⟩
    have at' : p'.race.callers[i]? = some (.thread t) := by simp [Pool.race, ht]
    have after : Pool.race ⟨w', p'.threads.set i t'⟩ =
        ⟨w', p'.race.callers.set i (.thread t')⟩ := by simp [Pool.race]
    rw [after]
    cases Thread.step_stepped hw with
    | queued key next => exact Race.acquired at'
    | answered r next hr => exact .single (.mk i at' (.answer hr))
    | granted ticket next hh => exact .single (.mk i at' (.grant hh))

end Historian
