import Historian.Program
import Historian.Proofs.Catalog.Operations

namespace Historian

-- Locks that were asked for and not given back, the latest first, with their tickets.
abbrev Held := List (Nat × LockKey)

def Held.Has (K : Held) (key : LockKey) : Prop := ∃ ticket, (ticket, key) ∈ K

namespace Request

-- What a request can be answered with and what the catalog is then, whatever the engine does and
-- whatever errors the catalog meets.
def Answers (c : Catalog) : (r : Request) → r.Answer → Catalog → Prop
  | .catalog op, a, c' => (∃ e, a = .error e ∧ c' = c) ∨
    ∃ x, op.perform c = .ok (x, c') ∧ (a = .ok x ∨ ∃ e, op.unreadable? x = some e ∧ a = .error e)
  | _, _, c' => c' = c

theorem carryOut_answers (op : CatalogOp) (c : Catalog) :
    Answers c (.catalog op) (op.carryOut c).1 (op.carryOut c).2 := by
  rcases op.carryOut_cases c with ⟨e, -, hr⟩ | ⟨x, c', ho, ⟨-, hr⟩ | ⟨e, hs, hr⟩⟩
  · exact .inl ⟨e, by rw [hr], by rw [hr]⟩
  · exact .inr ⟨x, by rw [hr, ho], .inl (by rw [hr])⟩
  · exact .inr ⟨x, by rw [hr, ho], .inr ⟨e, hs, by rw [hr]⟩⟩

-- The locks after a request.
def heldAfter (K : Held) : (r : Request) → r.Answer → Held
  | .acquire key, ticket => (ticket, key) :: K
  | .release _, _ => K.tail
  | _, _ => K

end Request

-- What locks are for: whoever has the lock of a key may rely on what the key protects. `Steady`
-- says that nothing has changed but what some keys protect, and a key is gone when it will never
-- protect anything again.
structure Discipline where
  Inv : Catalog → Prop
  Steady : (LockKey → Prop) → Catalog → Catalog → Prop
  Gone : Catalog → LockKey → Prop
  refl : Steady free c c
  trans : Steady free c c' → Steady free c' c'' → Steady free c c''
  widen : Inv c → Steady free c c' → (∀ key, free key → Gone c key ∨ free' key) → Steady free' c c'
  gone : Steady free c c' → Gone c key → Gone c' key

namespace Discipline

variable {d : Discipline} {K : Held} {c c' c'' : Catalog}

-- What others may have done while a program has some locks.
structure Meanwhile (d : Discipline) (K : Held) (c c' : Catalog) : Prop where
  steady : d.Steady (¬K.Has ·) c c'
  inv : d.Inv c'

-- What a program that has some locks may do.
structure Does (d : Discipline) (K : Held) (c c' : Catalog) : Prop where
  steady : d.Steady K.Has c c'
  inv : d.Inv c'

theorem Meanwhile.refl (h : d.Inv c) : d.Meanwhile K c c :=
  ⟨d.refl, h⟩

theorem Meanwhile.trans (h : d.Meanwhile K c c') (h' : d.Meanwhile K c' c'') :
    d.Meanwhile K c c'' :=
  ⟨d.trans h.steady h'.steady, h'.inv⟩

theorem Does.refl (h : d.Inv c) : d.Does K c c :=
  ⟨d.refl, h⟩

-- Locks are given back in the reverse order, and only what is gone is forgotten.
def Allows (d : Discipline) (K : Held) (c : Catalog) : Request → Prop
  | .release ticket => ∃ key, K.head? = some (ticket, key)
  | .forget key => d.Gone c key
  | _ => True

-- The locks that are left after a request, but for one that takes a lock.
theorem Allows.left {r : Request} (ha : d.Allows K c r) (hr : ∀ key, r ≠ .acquire key)
    (hn : (K.map (·.1)).Nodup) (a : r.Answer) :
    (r.heldAfter K a).Sublist K ∧ ∀ g ∈ r.heldAfter K a, r ≠ .release g.1 := by
  cases r with
  | acquire key => exact absurd rfl (hr key)
  | release ticket =>
    obtain ⟨key, hk⟩ := ha
    obtain ⟨K, rfl⟩ := List.head?_eq_some_iff.mp hk
    refine ⟨List.sublist_cons_self _ _, fun g (hg : g ∈ K) he => ?_⟩
    obtain rfl := Request.release.inj he
    exact (List.nodup_cons.mp hn).1 (List.mem_map.mpr ⟨g, hg, rfl⟩)
  | _ => exact ⟨.refl _, nofun⟩

theorem Allows.ne_release {r : Request} (ha : d.Allows K c r) (hg : ∀ g ∈ K, g.1 ≠ ticket) :
    r ≠ .release ticket := by
  rintro rfl
  obtain ⟨key, hk⟩ := ha
  exact hg _ (List.mem_of_head? hk) rfl

-- A program that keeps to the discipline whatever others do between its requests; `Q` says what it
-- ends with.
def Keeps (d : Discipline) (Q : Held → α → Catalog → Prop) : Program α → Held → Catalog → Prop
  | .done a, K, c => Q K a c
  | .ask r next, K, c => ∀ c₁, d.Meanwhile K c c₁ → d.Allows K c₁ r ∧
      ∀ a c₂, r.Answers c₁ a c₂ → d.Does K c₁ c₂ ∧ d.Keeps Q (next a) (r.heldAfter K a) c₂

namespace Keeps

variable {p : Program α} {Q Q' : Held → α → Catalog → Prop}

theorem mono (h : d.Keeps Q p K c) (hq : ∀ K a c, Q K a c → Q' K a c) : d.Keeps Q' p K c := by
  induction p generalizing K c with
  | done a => exact hq _ _ _ h
  | ask r next ih =>
    intro c₁ h₁
    obtain ⟨ha, hn⟩ := h c₁ h₁
    exact ⟨ha, fun a c₂ h₂ => ⟨(hn a c₂ h₂).1, ih a (hn a c₂ h₂).2⟩⟩

theorem bind {f : α → Program β} {R : Held → β → Catalog → Prop}
    (h : d.Keeps (fun K a c => d.Keeps R (f a) K c) p K c) : d.Keeps R (p >>= f) K c := by
  induction p generalizing K c with
  | done a => exact h
  | ask r next ih =>
    intro c₁ h₁
    obtain ⟨ha, hn⟩ := h c₁ h₁
    exact ⟨ha, fun a c₂ h₂ => ⟨(hn a c₂ h₂).1, ih a (hn a c₂ h₂).2⟩⟩

theorem step {f : α → Program β} {R : Held → β → Catalog → Prop} (h : d.Keeps Q p K c)
    (hf : ∀ K a c, Q K a c → d.Keeps R (f a) K c) : d.Keeps R (p >>= f) K c :=
  bind (h.mono hf)

-- What others do before the next request makes no difference.
theorem stable (h : d.Keeps (fun _ _ _ => True) p K c) (hm : d.Meanwhile K c c') :
    d.Keeps (fun _ _ _ => True) p K c' := by
  cases p with
  | done a => trivial
  | ask r next => exact fun c₁ h₁ => h c₁ (hm.trans h₁)

theorem request {r : Request} {Q : Held → r.Answer → Catalog → Prop}
    (h : ∀ c₁, d.Meanwhile K c c₁ → d.Allows K c₁ r ∧
      ∀ a c₂, r.Answers c₁ a c₂ → d.Does K c₁ c₂ ∧ Q (r.heldAfter K a) a c₂) :
    d.Keeps Q (Program.request r) K c :=
  h

-- A request that is no operation of the catalog.
theorem other {r : Request} {Q : Held → r.Answer → Catalog → Prop}
    (hr : ∀ {c a c'}, r.Answers c a c' → c' = c)
    (h : ∀ c₁, d.Meanwhile K c c₁ → d.Allows K c₁ r ∧ ∀ a, Q (r.heldAfter K a) a c₁) :
    d.Keeps Q (Program.request r) K c := by
  refine request fun c₁ h₁ => ⟨(h c₁ h₁).1, fun a c₂ ha => ?_⟩
  obtain rfl := hr ha
  exact ⟨.refl h₁.inv, (h c₂ h₁).2 a⟩

theorem wait {millis : Nat} {Q : Held → Unit → Catalog → Prop}
    (h : ∀ c₁, d.Meanwhile K c c₁ → Q K () c₁) : d.Keeps Q (Program.wait millis) K c :=
  other id fun c₁ h₁ => ⟨trivial, fun _ => h c₁ h₁⟩

-- Calls that are tried again: only an attempt that succeeds may do anything.
theorem retry [Transient τ] {attempt : Program (Option (Except τ α))} {policy : RetryPolicy}
    {Q : Except (RetryFailure τ) α → Catalog → Prop}
    (ha : ∀ c₁, d.Meanwhile K c c₁ → d.Keeps (fun K' o c₂ => K' = K ∧
      (∀ x, o = some (.ok x) → Q (.ok x) c₂) ∧
        ((∀ x, o ≠ some (.ok x)) → d.Meanwhile K c c₂)) attempt K c₁)
    (hf : ∀ c₁ f, d.Meanwhile K c c₁ → Q (.error f) c₁) (hm : d.Meanwhile K c c') :
    d.Keeps (fun K' r c₂ => K' = K ∧ Q r c₂) (policy.retry name attempt Program.wait) K c' := by
  have outcome (o : Option (Except τ α)) (late : τ) :
      (∃ x, o = some (.ok x)) ∨ (∀ x, o ≠ some (.ok x)) ∧ ∃ e, o.getD (.error late) = .error e := by
    rcases o with _ | e | x
    · exact .inr ⟨nofun, late, rfl⟩
    · exact .inr ⟨nofun, e, rfl⟩
    · exact .inl ⟨x, rfl⟩
  unfold RetryPolicy.retry
  generalize policy.attempts - 1 = left
  generalize 0 = made
  induction left generalizing made c' with
  | zero =>
    unfold RetryPolicy.retryFrom
    refine (ha c' hm).step fun K' o c₂ ⟨hK, hq, h₂⟩ => ?_
    subst hK
    rcases outcome o (Transient.timedOut name policy.attemptTimeout) with ⟨x, rfl⟩ | ⟨hn, e, he⟩
    · exact ⟨rfl, hq x rfl⟩
    · simp only [he]
      split <;> exact ⟨rfl, hf _ _ (h₂ hn)⟩
  | succ left ih =>
    unfold RetryPolicy.retryFrom
    refine (ha c' hm).step fun K' o c₂ ⟨hK, hq, h₂⟩ => ?_
    subst hK
    rcases outcome o (Transient.timedOut name policy.attemptTimeout) with ⟨x, rfl⟩ | ⟨hn, e, he⟩
    · exact ⟨rfl, hq x rfl⟩
    · simp only [he]
      split
      · exact ⟨rfl, hf _ _ (h₂ hn)⟩
      · exact bind (wait fun c₃ h₃ => ih ((h₂ hn).trans h₃) _)

variable {policy : RetryPolicy}

-- An engine call changes nothing of the catalog.
theorem execute (h : d.Inv c) :
    d.Keeps (fun K' _ c₁ => K' = K ∧ d.Meanwhile K c c₁) (Program.retryExecute policy name sql)
      K c := by
  refine retry (Q := fun _ => d.Meanwhile K c) (fun c₁ h₁ => ?_) (fun _ _ h₁ => h₁) (.refl h)
  exact other id fun c₂ h₂ => ⟨trivial, fun _ => ⟨rfl, fun _ _ => h₁.trans h₂, fun _ =>
    h₁.trans h₂⟩⟩

theorem catalog {op : CatalogOp} [op.Legible]
    {Q : Except (RetryFailure CatalogError) op.Answer → Catalog → Prop} (h : d.Inv c) (hf : ∀ c₁ f, d.Meanwhile K c c₁ → Q (.error f) c₁)
    (hq : ∀ c₁ x c₂, d.Meanwhile K c c₁ → op.perform c₁ = .ok (x, c₂) →
      d.Does K c₁ c₂ ∧ Q (.ok x) c₂) :
    d.Keeps (fun K' r c₁ => K' = K ∧ Q r c₁) (Program.retryCatalog policy op) K c := by
  refine retry (fun c₁ h₁ => ?_) hf (.refl h)
  refine bind (p := Program.catalog op) (request fun c₂ h₂ => ⟨trivial, fun a c₃ ha => ?_⟩)
  have h₂ := h₁.trans h₂
  rcases ha with ⟨e, rfl, rfl⟩ | ⟨x, ho, rfl | ⟨e, hr, -⟩⟩
  · exact ⟨.refl h₂.inv, rfl, nofun, fun _ => h₂⟩
  · obtain ⟨does, hx⟩ := hq c₂ x c₃ h₂ ho
    refine ⟨does, rfl, fun y hy => ?_, fun hn => absurd rfl (hn x)⟩
    cases hy
    exact hx
  · cases (CatalogOp.plain x).symm.trans hr

end Keeps

-- An action that can fail and that gives back all locks that it takes; `Q` says what it ends with
-- when it succeeds.
def Abides (d : Discipline) (K : Held) (c : Catalog) (a : ExceptT σ Program α)
    (Q : α → Catalog → Prop) : Prop :=
  d.Keeps (fun K' r c' => K' = K ∧ ∀ x, r = .ok x → Q x c') a.run K c

namespace Abides

variable {a : ExceptT σ Program α} {Q Q' : α → Catalog → Prop} {policy : RetryPolicy}

theorem pure (h : Q x c) : d.Abides K c (Pure.pure x : ExceptT σ Program α) Q :=
  ⟨rfl, fun _ he => Except.ok.inj he ▸ h⟩

theorem throw {e : σ} : d.Abides K c (MonadExcept.throw e : ExceptT σ Program α) Q :=
  ⟨rfl, nofun⟩

theorem mono (h : d.Abides K c a Q) (hq : ∀ x c, Q x c → Q' x c) : d.Abides K c a Q' :=
  Keeps.mono h fun _ _ c ⟨hK, hx⟩ => ⟨hK, fun x he => hq x c (hx x he)⟩

-- A part of an action, by what it ends with: the rest may rely on it.
theorem step {f : α → ExceptT σ Program β} {R : β → Catalog → Prop} (h : d.Abides K c a Q)
    (hf : ∀ x c', Q x c' → d.Abides K c' (f x) R) : d.Abides K c (a >>= f) R := by
  unfold Abides
  rw [ExceptT.run_bind]
  refine Keeps.step h fun K' r c' ⟨hK, hq⟩ => ?_
  subst hK
  cases r with
  | ok x => exact hf x c' (hq x rfl)
  | error e => exact ⟨rfl, nofun⟩

theorem lifted {p : Program α} (h : d.Keeps (fun K' b c' => K' = K ∧ Q b c') p K c) :
    d.Abides K c (ExceptT.lift p : ExceptT σ Program α) Q :=
  Keeps.bind (h.mono fun _ _ _ ⟨hK, hq⟩ => ⟨hK, fun _ he => Except.ok.inj he ▸ hq⟩)

theorem lift {p : Program β} {f : β → ExceptT σ Program α} {P : β → Catalog → Prop}
    (h : d.Keeps (fun K' b c' => K' = K ∧ P b c') p K c)
    (hf : ∀ b c', P b c' → d.Abides K c' (f b) Q) : d.Abides K c (liftM p >>= f) Q :=
  step (lifted h) hf

theorem catalog {op : CatalogOp} [op.Legible] {g : RetryFailure CatalogError → σ}
    {Q : op.Answer → Catalog → Prop}
    (h : d.Inv c) (hq : ∀ c₁ x c₂, d.Meanwhile K c c₁ → op.perform c₁ = .ok (x, c₂) →
      d.Does K c₁ c₂ ∧ Q x c₂) :
    d.Abides K c (ExceptT.mk do return (← Program.retryCatalog policy op).mapError g) Q := by
  refine Keeps.step (Keeps.catalog (Q := fun r c => ∀ x, r = .ok x → Q x c) h
    (fun _ _ _ => nofun) (fun c₁ x c₂ h₁ ho => ?_)) fun K' r c₁ ⟨hK, hx⟩ => ⟨hK, fun x he => ?_⟩
  · refine (hq c₁ x c₂ h₁ ho).imp_right fun hx y hy => ?_
    cases hy
    exact hx
  · exact hx x (mapError_eq_ok.mp he)

theorem holding {key : LockKey} (h : ∀ ticket c₁, d.Meanwhile K c c₁ →
      d.Abides ((ticket, key) :: K) c₁ a fun _ _ => True) :
    d.Abides K c (ExceptT.mk (Program.holding key a.run)) fun _ => d.Inv := by
  have acquired : d.Keeps (fun K' ticket c₁ => K' = (ticket, key) :: K ∧ d.Meanwhile K c c₁)
      (Program.acquire key) K c :=
    Keeps.other id fun _ h₁ => ⟨trivial, fun _ => ⟨rfl, h₁⟩⟩
  have released {ticket : Nat} {c₁ : Catalog} : d.Keeps (fun K' _ c₂ => K' = K ∧ d.Inv c₂)
      (Program.release ticket) ((ticket, key) :: K) c₁ :=
    Keeps.other id fun _ h₂ => ⟨⟨key, rfl⟩, fun _ => ⟨rfl, h₂.inv⟩⟩
  unfold Abides
  rw [ExceptT.run_mk, Program.holding]
  refine acquired.step fun K' ticket c₁ ⟨hK, h₁⟩ => ?_
  subst hK
  refine Keeps.step (h ticket c₁ h₁) fun K' r c₂ ⟨hK, _⟩ => ?_
  subst hK
  exact released.step fun K' _ c₃ ⟨hK, h₃⟩ => ⟨hK, fun _ _ => h₃⟩

end Abides

end Discipline

end Historian
