import Mathlib.Logic.Function.Iterate
import Historian.Proofs.Program.Offline

namespace Historian

open Engine World

namespace RetryPolicy

-- An attempt decides if it succeeds or fails for good.
def decides [Transient σ] : Except σ α → Bool
  | .ok _ => true
  | .error e => !isTransient e

-- The first of so many attempts that decides; attempts are counted from zero.
def decisive? [Transient σ] (outcomes : Nat → Except σ α) (allowed : Nat) : Option Nat :=
  (List.range allowed).find? fun n => decides (outcomes n)

-- The last attempt that is made, `left` further ones being allowed after the first.
def lastAttempt [Transient σ] (outcomes : Nat → Except σ α) (left : Nat) : Nat :=
  (decisive? outcomes (left + 1)).getD left

theorem of_not_decides [Transient σ] {r : Except σ α} (h : ¬decides r) :
    ∃ f, r = .error f ∧ isTransient f := by
  cases r with
  | ok a => exact absurd rfl h
  | error f => exact ⟨f, rfl, by simpa [decides] using h⟩

section

variable [Transient σ] {outcomes : Nat → Except σ α}

theorem decides_of_decisive? (h : decisive? outcomes allowed = some k) : decides (outcomes k) := by
  simpa using List.find?_some h

theorem lastAttempt_of_decides (h : decides (outcomes 0)) (left : Nat) :
    lastAttempt outcomes left = 0 := by
  simp [lastAttempt, decisive?, List.range_succ_eq_map, h]

theorem lastAttempt_zero : lastAttempt outcomes 0 = 0 := by
  cases h : decides (outcomes 0) <;> simp [lastAttempt, decisive?, h]

theorem lastAttempt_succ (h : decides (outcomes 0) = false) (left : Nat) :
    lastAttempt outcomes (left + 1) = lastAttempt (fun n => outcomes (n + 1)) left + 1 := by
  rw [lastAttempt, decisive?, List.range_succ_eq_map, List.find?_cons_of_neg (by simp [h]),
    List.find?_map]
  exact Option.getD_map ..

end

theorem attempts_eq (policy : RetryPolicy) : policy.attempts - 1 + 1 = policy.attempts := by
  unfold attempts
  omega

end RetryPolicy

-- The statement that a request sends to the engine.
def Request.sent : Request → Option String
  | .execute _ sql => some sql
  | _ => none

variable {ε : Type} [Endpoint ε]

-- A world with this engine and this catalog, for which no error is arranged.
structure World.Shows (w : World ε) (e : ε) (c : Catalog) : Prop where
  engine : w.engine = e
  catalog : w.catalog = c
  faults : w.catalogFaults = []

namespace Program

open RetryPolicy (decides decisive? lastAttempt)

variable {e e₁ e₂ : ε} {c c₁ c₂ : Catalog} {l l' : List String}

-- What a program that runs alone comes to and leaves, and the statements that it sends, whatever
-- the locks and the clock are.
def Yields (p : Program α) (e : ε) (c : Catalog) (sent : List String) (a : α) (e' : ε)
    (c' : Catalog) : Prop :=
  ∀ w : World ε, w.Shows e c → (p.run w).1 = a ∧ (p.run w).2.Shows e' c' ∧
    (p.requests w).filterMap Request.sent = sent

namespace Yields

theorem done (a : α) : (pure a : Program α).Yields e c [] a e c :=
  fun _ hw => ⟨rfl, hw, rfl⟩

theorem bind {p : Program α} {f : α → Program β} (h : p.Yields e c l a e₁ c₁)
    (hf : (f a).Yields e₁ c₁ l' b e₂ c₂) : (p >>= f).Yields e c (l ++ l') b e₂ c₂ := by
  intro w hw
  obtain ⟨rfl, clear, rfl⟩ := h w hw
  obtain ⟨rfl, clear', rfl⟩ := hf _ clear
  rw [run_bind, requests_bind, List.filterMap_append]
  exact ⟨rfl, clear', rfl⟩

theorem ask (e₁ : ε) (c₁ : Catalog) {r : Request} {next : r.Answer → Program α}
    (h : ∀ w : World ε, w.Shows e c →
      (w.answer r).2.Shows e₁ c₁ ∧ (next (w.answer r).1).Yields e₁ c₁ l a e₂ c₂) :
    (ask r next).Yields e c (r.sent.toList ++ l) a e₂ c₂ := by
  intro w hw
  obtain ⟨shows, rest⟩ := h w hw
  obtain ⟨result, left, sent⟩ := rest _ shows
  refine ⟨result, left, ?_⟩
  rw [requests, List.filterMap_cons, sent]
  cases r.sent <;> rfl

-- Taking a lock and giving it back touches nothing but the locks.
theorem holding {key : LockKey} {p : Program α} (h : p.Yields e c l a e₁ c₁) :
    (holding key p).Yields e c l a e₁ c₁ := by
  have released (ticket : Nat) : (release ticket).Yields e₁ c₁ [] () e₁ c₁ :=
    .ask _ _ fun _ hw => ⟨⟨hw.engine, hw.catalog, hw.faults⟩, .done ()⟩
  have held (ticket : Nat) :
      (p >>= fun a => release ticket >>= fun _ => pure a).Yields e c (l ++ ([] ++ [])) a e₁ c₁ :=
    h.bind ((released ticket).bind (.done a))
  rw [List.append_nil, List.append_nil] at held
  exact .ask _ _ fun _ hw => ⟨⟨hw.engine, hw.catalog, hw.faults⟩, held _⟩

theorem wait (millis : Nat) : (wait millis).Yields e c [] () e c :=
  .ask _ _ fun _ hw => ⟨⟨hw.engine, hw.catalog, hw.faults⟩, .done ()⟩

theorem execute (limit : Nat) (sql : String) : (execute limit sql).Yields e c [sql]
    (Endpoint.execute e (some limit) sql).1 (Endpoint.execute e (some limit) sql).2 c := by
  refine .ask (Endpoint.execute e (some limit) sql).2 c fun w hw => ?_
  obtain ⟨rfl, catalog, faults⟩ := hw
  exact ⟨⟨rfl, catalog, faults⟩, .done _⟩

-- The catalog answers at the first attempt.
theorem retryCatalog {op : CatalogOp} {x : op.Answer} (policy : RetryPolicy)
    (h : op.carryOut c = (.ok x, c₁)) : (retryCatalog policy op).Yields e c [] (.ok x) e c₁ := by
  have asked : (catalog op).Yields e c [] (.ok x) e c₁ := by
    refine .ask e c₁ fun w hw => ?_
    obtain ⟨engine, rfl, faults⟩ := hw
    have answered : w.answer (.catalog op) = (.ok x, { w with catalog := c₁ }) := by
      simp only [answer, perform, faults, takeFault, h]
      rfl
    rw [answered]
    exact ⟨⟨engine, rfl, faults⟩, .done _⟩
  have attempt : (some <$> catalog op).Yields e c [] (some (.ok x)) e c₁ := by
    rw [map_eq_pure_bind]
    exact asked.bind (.done _)
  unfold Program.retryCatalog RetryPolicy.retry RetryPolicy.retryFrom
  exact attempt.bind (.done _)

theorem exceptBind {x : ExceptT σ Program α} {f : α → ExceptT σ Program β}
    (h : x.run.Yields e c l (.ok a) e₁ c₁) (hf : (f a).run.Yields e₁ c₁ l' b e₂ c₂) :
    (x >>= f).run.Yields e c (l ++ l') b e₂ c₂ := by
  rw [ExceptT.run_bind]
  exact h.bind hf

theorem exceptLift {p : Program α} {f : α → ExceptT σ Program β} (h : p.Yields e c l a e₁ c₁)
    (hf : (f a).run.Yields e₁ c₁ l' b e₂ c₂) :
    (liftM p >>= f).run.Yields e c (l ++ l') b e₂ c₂ := by
  have lifted : (liftM p : ExceptT σ Program α).run.Yields e c l (.ok a) e₁ c₁ := by
    show (Except.ok <$> p).Yields e c l (.ok a) e₁ c₁
    rw [map_eq_pure_bind, ← l.append_nil]
    exact h.bind (.done _)
  exact lifted.exceptBind hf

end Yields

-- The engine after a number of calls with one statement.
def insisted (limit : Nat) (sql : String) (e : ε) (n : Nat) : ε :=
  (fun e => (Endpoint.execute e (some limit) sql).2)^[n] e

-- What the attempts to execute a statement come to, one after another.
def outcome (policy : RetryPolicy) (operation sql : String) (e : ε) (n : Nat) :
    Except EngineError Unit :=
  let e := insisted policy.attemptTimeout sql e n
  (Endpoint.execute e (some policy.attemptTimeout) sql).1.getD
    (.error (.timeout operation policy.attemptTimeout))

-- A program that makes attempts up to that of number `n`, after `made` earlier ones, and answers
-- what the last one came to.
def Attempts (p : Program (Except (RetryFailure EngineError) Unit)) (policy : RetryPolicy)
    (operation sql : String) (made : Nat) (e : ε) (c : Catalog) (n : Nat) : Prop :=
  p.Yields e c (List.replicate (n + 1) sql)
    ((outcome policy operation sql e n).mapError (RetryFailure.mk (made + n + 1)))
    (insisted policy.attemptTimeout sql e (n + 1)) c

namespace Attempts

variable {policy : RetryPolicy} {operation sql : String} {made left : Nat}

theorem attempt_eq : (Endpoint.execute e (some policy.attemptTimeout) sql).1.getD
    (.error (Transient.timedOut operation policy.attemptTimeout)) =
      outcome policy operation sql e 0 :=
  rfl

theorem decided (h : decides (outcome policy operation sql e 0)) :
    (policy.retryFrom operation (execute policy.attemptTimeout sql) wait made left).Attempts policy
      operation sql made e c 0 := by
  unfold Attempts RetryPolicy.retryFrom
  change Yields _ e c ([sql] ++ []) _ _ c
  refine .bind (.execute _ _) ?_
  rw [attempt_eq]
  cases hr : outcome policy operation sql e 0 with
  | ok => exact .done _
  | error f =>
    have final : (!isTransient f) = true := by rwa [hr] at h
    simp only [final]
    exact .done _

theorem spent (hf : outcome policy operation sql e 0 = .error f) (transient : isTransient f) :
    (policy.retryFrom operation (execute policy.attemptTimeout sql) wait made 0).Attempts policy
      operation sql made e c 0 := by
  unfold Attempts RetryPolicy.retryFrom
  change Yields _ e c ([sql] ++ []) _ _ c
  refine .bind (.execute _ _) ?_
  simp only [attempt_eq, hf, transient]
  exact .done _

theorem later (hf : outcome policy operation sql e 0 = .error f) (transient : isTransient f)
    (rest : (policy.retryFrom operation (execute policy.attemptTimeout sql) wait (made + 1)
      left).Attempts policy operation sql (made + 1) (insisted policy.attemptTimeout sql e 1) c n) :
    (policy.retryFrom operation (execute policy.attemptTimeout sql) wait made
      (left + 1)).Attempts policy operation sql made e c (n + 1) := by
  have count : made + (n + 1) + 1 = made + 1 + n + 1 := by omega
  unfold Attempts RetryPolicy.retryFrom
  rw [count]
  refine .bind (.execute _ _) ?_
  simp only [attempt_eq, hf, transient]
  exact .bind (.wait _) rest

end Attempts

theorem retryFrom_attempts (policy : RetryPolicy) (operation sql : String) (made left : Nat) (e : ε)
    (c : Catalog) :
    (policy.retryFrom operation (execute policy.attemptTimeout sql) wait made left).Attempts policy
      operation sql made e c (lastAttempt (outcome policy operation sql e) left) := by
  induction left generalizing made e with
  | zero =>
    rw [RetryPolicy.lastAttempt_zero]
    by_cases h : decides (outcome policy operation sql e 0)
    case pos => exact .decided h
    case neg =>
      obtain ⟨f, hf, transient⟩ := RetryPolicy.of_not_decides h
      exact .spent hf transient
  | succ left ih =>
    by_cases h : decides (outcome policy operation sql e 0)
    case pos =>
      rw [RetryPolicy.lastAttempt_of_decides h]
      exact .decided h
    case neg =>
      obtain ⟨f, hf, transient⟩ := RetryPolicy.of_not_decides h
      rw [RetryPolicy.lastAttempt_succ (by simpa using h)]
      exact .later hf transient (ih _ _)

section RetryExecute

variable {policy : RetryPolicy} {operation sql : String}

theorem retryExecute_attempts : (retryExecute policy operation sql).Attempts policy operation sql 0
    e c (lastAttempt (outcome policy operation sql e) (policy.attempts - 1)) :=
  retryFrom_attempts policy operation sql 0 _ e c

-- The first attempt that decides is the last one.
theorem retryExecute_decided
    (h : decisive? (outcome policy operation sql e) policy.attempts = some k) :
    (retryExecute policy operation sql).Yields e c (List.replicate (k + 1) sql)
      ((outcome policy operation sql e k).mapError (RetryFailure.mk (k + 1)))
      (insisted policy.attemptTimeout sql e (k + 1)) c := by
  have attempts : (retryExecute policy operation sql).Attempts _ _ _ _ e c _ :=
    retryExecute_attempts
  rwa [lastAttempt, RetryPolicy.attempts_eq, h, Option.getD_some, Attempts, Nat.zero_add] at attempts

theorem retryExecute_exhausted
    (h : decisive? (outcome policy operation sql e) policy.attempts = none) :
    ∃ f, outcome policy operation sql e (policy.attempts - 1) = .error f ∧ isTransient f ∧
      (retryExecute policy operation sql).Yields e c (List.replicate policy.attempts sql)
        (.error ⟨policy.attempts, f⟩) (insisted policy.attemptTimeout sql e policy.attempts) c := by
  have attempts : (retryExecute policy operation sql).Attempts _ _ _ _ e c _ :=
    retryExecute_attempts
  rw [lastAttempt, RetryPolicy.attempts_eq, h, Option.getD_none, Attempts, Nat.zero_add,
    RetryPolicy.attempts_eq] at attempts
  have last : policy.attempts - 1 ∈ List.range policy.attempts := by
    have := policy.attempts_eq
    exact List.mem_range.mpr (by omega)
  obtain ⟨f, hf, transient⟩ := RetryPolicy.of_not_decides (List.find?_eq_none.mp h _ last)
  rw [hf] at attempts
  exact ⟨f, hf, transient, attempts⟩

end RetryExecute

end Program

end Historian
