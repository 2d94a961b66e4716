import Mathlib.Algebra.BigOperators.Group.Finset.Basic
import Historian.Engine.Error

namespace Historian

variable {ε α : Type} [Transient ε]

namespace Outcome

-- Success, or failure for good, before the attempt is cut off.
def Settles (o : Outcome ε α) (deadline : Nat) : Prop :=
  o.delay ≤ deadline ∧ ∀ e, o.result = .error e → ¬isTransient e

-- What comes of it for whoever waits no longer than that.
def seen (o : Outcome ε α) (operation : String) (deadline : Nat) : Except ε α :=
  if o.delay ≤ deadline then o.result else .error (Transient.timedOut operation deadline)

variable {o : Outcome ε α} {operation : String} {deadline : Nat}

theorem Settles.lasting (h : o.Settles deadline) (he : o.seen operation deadline = .error e) :
    isTransient e = false := by
  rw [seen, if_pos h.1] at he
  simpa using h.2 e he

theorem transient_of_not_settles (h : ¬o.Settles deadline)
    (late : isTransient (Transient.timedOut operation deadline : ε)) :
    ∃ e, o.seen operation deadline = .error e ∧ isTransient e := by
  unfold seen
  split
  case isTrue hd =>
    have fails : ∃ e, o.result = .error e ∧ isTransient e := by simpa [Settles, hd] using h
    exact fails
  case isFalse => exact ⟨_, rfl, late⟩

end Outcome

-- Attempts are counted from one. The last is the first that settles the matter, if so many are
-- allowed; `made` were made before, to no end.
structure LastAttempt (deadline : Nat) (script : Nat → Outcome ε α) (made allowed n : Nat) :
    Prop where
  later : made < n
  within : n ≤ allowed
  pending : ∀ i, made ≤ i → i + 1 < n → ¬(script i).Settles deadline
  final : (script (n - 1)).Settles deadline ∨ n = allowed

namespace LastAttempt

variable {script : Nat → Outcome ε α}

theorem unique (h : LastAttempt deadline script made allowed n)
    (h' : LastAttempt deadline script made allowed n') : n = n' := by
  have le {m m' : Nat} (h : LastAttempt deadline script made allowed m)
      (h' : LastAttempt deadline script made allowed m') : m ≤ m' := by
    by_contra longer
    have := h'.later
    rcases h'.final with settles | rfl
    · exact h.pending (m' - 1) (by omega) (by omega) settles
    · exact longer h.within
  exact Nat.le_antisymm (le h h') (le h' h)

theorem of_settles (h : (script made).Settles deadline) (left : Nat) :
    LastAttempt deadline script made (made + left + 1) (made + 1) where
  later := Nat.lt_succ_self made
  within := by omega
  pending i := by omega
  final := .inl h

theorem of_spent : LastAttempt deadline script made (made + 1) (made + 1) where
  later := Nat.lt_succ_self made
  within := Nat.le_refl _
  pending i := by omega
  final := .inr rfl

theorem of_succ (h : LastAttempt deadline script (made + 1) allowed n)
    (hn : ¬(script made).Settles deadline) : LastAttempt deadline script made allowed n where
  later := Nat.lt_of_succ_lt h.later
  within := h.within
  pending i hi hl := by
    rcases Nat.eq_or_lt_of_le hi with rfl | hi
    · exact hn
    · exact h.pending i hi hl
  final := h.final

end LastAttempt

namespace Timeline

variable {p : RetryPolicy} {operation : String} {script : Nat → Outcome ε α}

-- The milliseconds that so many attempts take, and so many waits.

def attempted (p : RetryPolicy) (script : Nat → Outcome ε α) (n : Nat) : Nat :=
  ∑ i ∈ Finset.range n, min (script i).delay p.attemptTimeout

def waited (p : RetryPolicy) (n : Nat) : Nat :=
  ∑ i ∈ Finset.range n, p.backoff i

-- The timeline when an attempt begins, and when it has ended.

def before (p : RetryPolicy) (script : Nat → Outcome ε α) (n : Nat) : Timeline :=
  ⟨n, attempted p script n + waited p n⟩

def after (p : RetryPolicy) (script : Nat → Outcome ε α) (n : Nat) : Timeline :=
  ⟨n, attempted p script n + waited p (n - 1)⟩

omit [Transient ε] in
theorem attempt_before (made : Nat) :
    (attempt script p.attemptTimeout (before p script made)).2 = after p script (made + 1) := by
  simp only [attempt, before, after, attempted, Finset.sum_range_succ, Nat.add_sub_cancel]
  congr 1
  omega

omit [Transient ε] in
theorem wait_after (made : Nat) :
    (wait (p.backoff made) (after p script (made + 1))).2 = before p script (made + 1) := by
  simp only [wait, before, after, waited, Finset.sum_range_succ, Nat.add_sub_cancel, Nat.add_assoc]

-- The attempts that remain when `made` were made, `left` of them after the next.
def remaining (p : RetryPolicy) (operation : String) (script : Nat → Outcome ε α)
    (made left : Nat) : Except (RetryFailure ε) α × Timeline :=
  (p.retryFrom operation (attempt script p.attemptTimeout) wait made left :
    StateM Timeline _).run (before p script made)

theorem remaining_eq : remaining p operation script made left =
    (match (script made).seen operation p.attemptTimeout with
      | .ok a => return .ok a
      | .error e => do
        if !isTransient e then return .error ⟨made + 1, e⟩
        match left with
        | 0 => return .error ⟨made + 1, e⟩
        | left + 1 =>
          wait (p.backoff made)
          p.retryFrom operation (attempt script p.attemptTimeout) wait (made + 1) left :
      StateM Timeline _).run (after p script (made + 1)) := by
  have seen : (attempt script p.attemptTimeout (before p script made)).1.getD
      (.error (Transient.timedOut operation p.attemptTimeout)) =
        (script made).seen operation p.attemptTimeout := by
    simp only [attempt, before, Outcome.seen]
    by_cases hd : (script made).delay ≤ p.attemptTimeout <;> simp [hd]
  conv_lhs => unfold remaining RetryPolicy.retryFrom
  rw [← attempt_before, ← seen]
  rfl

theorem remaining_ok (h : (script made).seen operation p.attemptTimeout = .ok a) :
    remaining p operation script made left = (.ok a, after p script (made + 1)) := by
  rw [remaining_eq, h]
  rfl

theorem remaining_final (h : (script made).seen operation p.attemptTimeout = .error e)
    (hn : isTransient e = false ∨ left = 0) :
    remaining p operation script made left = (.error ⟨made + 1, e⟩, after p script (made + 1)) := by
  rw [remaining_eq, h]
  cases ht : isTransient e with
  | false => simp only [ht]; rfl
  | true =>
    obtain rfl := hn.resolve_left (by simp [ht])
    simp only [ht]
    rfl

theorem remaining_succ (h : (script made).seen operation p.attemptTimeout = .error e)
    (ht : isTransient e) : remaining p operation script made (left + 1) =
      remaining p operation script (made + 1) left := by
  rw [remaining_eq, h]
  simp only [ht]
  exact congrArg (StateT.run _) (wait_after made)

-- What comes of the operation and when, if an attempt is the last one.
def conclusion (p : RetryPolicy) (operation : String) (script : Nat → Outcome ε α) (n : Nat) :
    Except (RetryFailure ε) α × Timeline :=
  (((script (n - 1)).seen operation p.attemptTimeout).mapError (.mk n), after p script n)

theorem remaining_last (h : (script made).Settles p.attemptTimeout ∨ left = 0) :
    remaining p operation script made left = conclusion p operation script (made + 1) := by
  unfold conclusion
  rw [Nat.add_sub_cancel]
  cases hr : (script made).seen operation p.attemptTimeout with
  | ok a => exact remaining_ok hr
  | error e => exact remaining_final hr (h.imp_left fun settles => settles.lasting hr)

theorem remaining_concludes (script : Nat → Outcome ε α)
    (late : isTransient (Transient.timedOut operation p.attemptTimeout : ε)) (made left : Nat) :
    ∃ n, LastAttempt p.attemptTimeout script made (made + left + 1) n ∧
      remaining p operation script made left = conclusion p operation script n := by
  induction left generalizing made with
  | zero => exact ⟨made + 1, .of_spent, remaining_last (.inr rfl)⟩
  | succ left ih =>
    by_cases h : (script made).Settles p.attemptTimeout
    case pos => exact ⟨made + 1, .of_settles h _, remaining_last (.inl h)⟩
    case neg =>
      obtain ⟨e, he, ht⟩ := Outcome.transient_of_not_settles h late
      obtain ⟨n, last, concludes⟩ := ih (made + 1)
      have allowed : made + 1 + left + 1 = made + (left + 1) + 1 := by omega
      exact ⟨n, (allowed ▸ last).of_succ h, (remaining_succ he ht).trans concludes⟩

-- The attempts go on to the first that settles the matter, or until there may be no more; what the
-- last one comes to is the answer, and all the time is that of the attempts and of the waits
-- between them.
theorem retry_concludes (p : RetryPolicy) (operation : String) (script : Nat → Outcome ε α)
    (late : isTransient (Transient.timedOut operation p.attemptTimeout : ε)) :
    ∃ n, LastAttempt p.attemptTimeout script 0 (max 1 p.maxAttempts) n ∧
      let (answer, t) := retry p operation script
      t.calls = n ∧
      answer = ((script (n - 1)).seen operation p.attemptTimeout).mapError (.mk n) ∧
      (∀ f, answer = .error f → f.attempts = n ∧ (f.isExhausted ↔ isTransient f.error) ∧
        (f.isExhausted → n = max 1 p.maxAttempts)) ∧
      t.elapsed = ∑ i ∈ Finset.range n, min (script i).delay p.attemptTimeout +
        ∑ i ∈ Finset.range (n - 1), p.backoff i := by
  obtain ⟨n, last, concludes⟩ := remaining_concludes script late 0 (p.attempts - 1)
  have allowed : 0 + (p.attempts - 1) + 1 = max 1 p.maxAttempts := by
    unfold RetryPolicy.attempts
    omega
  rw [allowed] at last
  have concludes : retry p operation script = conclusion p operation script n := concludes
  refine ⟨n, last, ?_⟩
  rw [concludes]
  refine ⟨rfl, rfl, fun f hf => ?_, rfl⟩
  cases hr : (script (n - 1)).seen operation p.attemptTimeout with
  | ok a => cases hr ▸ hf
  | error e =>
    obtain rfl : f = ⟨n, e⟩ := by cases hr ▸ hf; rfl
    refine ⟨rfl, .rfl, fun exhausted => last.final.resolve_left fun settles => ?_⟩
    exact Bool.false_ne_true ((settles.lasting hr).symm.trans exhausted)

-- The first attempt comes too late, the second fails, and the third answers when its time is up.

def belated : Nat → Outcome EngineError Nat
  | 0 => ⟨60000, .ok 1⟩
  | 1 => ⟨5, .error (.transport "reset")⟩
  | _ => ⟨10000, .ok 3⟩

theorem retry_concludes_belated :
    let p : RetryPolicy := {}
    isTransient (Transient.timedOut "describe" p.attemptTimeout : EngineError) ∧
      retry p "describe" belated = (.ok 3, ⟨3, 20005 + (p.backoff 0 + p.backoff 1)⟩) := by
  intro p
  have late : isTransient (Transient.timedOut "describe" p.attemptTimeout : EngineError) :=
    rfl
  have third : LastAttempt p.attemptTimeout belated 0 (max 1 p.maxAttempts) 3 := {
    later := by decide
    within := by decide
    pending i _ hi := by
      obtain rfl | rfl : i = 0 ∨ i = 1 := by omega
      · exact fun settles => absurd settles.1 (by decide)
      · exact fun settles => settles.2 _ rfl rfl
    final := .inr rfl }
  obtain ⟨n, last, calls, answer, -, elapsed⟩ := retry_concludes p "describe" belated late
  obtain rfl := last.unique third
  have attempts : ∑ i ∈ Finset.range 3, min (belated i).delay p.attemptTimeout = 20005 := by decide
  have waits : ∑ i ∈ Finset.range (3 - 1), p.backoff i = p.backoff 0 + p.backoff 1 := by
    simp [Finset.sum_range_succ]
  rw [attempts, waits] at elapsed
  exact ⟨late, Prod.ext answer (congrArg₂ Timeline.mk calls elapsed)⟩

end Timeline

end Historian
