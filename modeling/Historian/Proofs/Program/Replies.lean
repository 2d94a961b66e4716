import Historian.Proofs.Program.Ensures
import Historian.Proofs.Program.Race

namespace Historian

open Engine World

-- What the engine says to a statement; nothing if it says it too late.
abbrev Reply := Option (Except EngineError Unit)

def Request.Executes : Request → Prop
  | .execute .. => True
  | _ => False

def Request.reply : (r : Request) → r.Answer → List Reply
  | .execute .., a => [a]
  | _, _ => []

theorem Request.reply_eq_nil {r : Request} (h : ¬r.Executes) (a : r.Answer) : r.reply a = [] := by
  cases r with
  | execute => exact absurd trivial h
  | _ => rfl

-- The engine was called and never did what it was asked.
def Thwarted (replies : List Reply) : Prop := replies ≠ [] ∧ ∀ a ∈ replies, a ≠ some (.ok ())

theorem Thwarted.ne_nil (h : Thwarted replies) : replies ≠ [] :=
  h.1

theorem not_thwarted {replies : List Reply} (h : some (.ok ()) ∈ replies) : ¬Thwarted replies :=
  fun hn => hn.2 _ h rfl

namespace Program

variable {ε : Type} [Endpoint ε] {w : World ε}

-- The replies of the engine to a program that runs alone, one after another.
def replies : Program α → World ε → List Reply
  | .done _, _ => []
  | .ask r next, w => r.reply (w.answer r).1 ++ (next (w.answer r).1).replies (w.answer r).2

theorem replies_bind (p : Program α) (f : α → Program β) (w : World ε) :
    (p >>= f).replies w = p.replies w ++ (f (p.run w).1).replies (p.run w).2 := by
  induction p generalizing w with
  | done a => rfl
  | ask r next ih => exact (congrArg _ (ih ..)).trans (List.append_assoc ..).symm

theorem Asks.replies {p : Program α} (h : p.Asks (¬·.Executes)) (w : World ε) :
    p.replies w = [] := by
  induction p generalizing w with
  | done => rfl
  | ask r next ih =>
    simp only [Program.replies, r.reply_eq_nil h.1, List.nil_append]
    exact ih _ (h.2 _) _

-- A statement was carried out, or refused or lost at every attempt.
def Told (as : List Reply) : Except σ Unit → Prop
  | .ok _ => some (.ok ()) ∈ as
  | .error _ => Thwarted as

theorem Told.lost {reply : Reply} {as : List Reply} {r : Except σ Unit} (h : Told as r)
    (lost : reply ≠ some (.ok ())) : Told (reply :: as) r := by
  cases r with
  | ok => exact List.mem_cons_of_mem _ h
  | error => exact ⟨List.cons_ne_nil _ _, List.forall_mem_cons.mpr ⟨lost, h.2⟩⟩

theorem told_lost {reply : Reply} {f : σ} (lost : reply ≠ some (.ok ())) :
    Told [reply] (.error f) :=
  ⟨List.cons_ne_nil _ _, List.forall_mem_singleton.mpr lost⟩

theorem retryExecute_told (policy : RetryPolicy) (operation sql : String) (w : World Service) :
    Told ((retryExecute policy operation sql).replies w)
      ((retryExecute policy operation sql).run w).1 := by
  have attempted (w : World Service) : (execute policy.attemptTimeout sql).replies w =
      [((execute policy.attemptTimeout sql).run w).1] := rfl
  have carriedOut {reply : Reply} {late : EngineError} {u : Unit}
      (h : reply.getD (.error late) = .ok u) : reply = some (.ok ()) := by
    cases reply <;> cases h
    rfl
  have lost {reply : Reply} {late e : EngineError}
      (h : reply.getD (.error late) = .error e) : reply ≠ some (.ok ()) := by
    rintro rfl
    cases h
  unfold retryExecute RetryPolicy.retry
  generalize policy.attempts - 1 = left
  generalize 0 = made
  induction left generalizing made w with
  | zero =>
    unfold RetryPolicy.retryFrom
    rw [replies_bind, run_bind, attempted]
    cases hr : ((execute policy.attemptTimeout sql).run w).1.getD _ with
    | ok u => exact carriedOut hr ▸ List.mem_singleton_self _
    | error e =>
      dsimp only
      split <;> exact told_lost (lost hr)
  | succ left ih =>
    unfold RetryPolicy.retryFrom
    rw [replies_bind, run_bind, attempted]
    cases hr : ((execute policy.attemptTimeout sql).run w).1.getD _ with
    | ok u => exact carriedOut hr ▸ List.mem_singleton_self _
    | error e =>
      dsimp only
      split
      · exact told_lost (lost hr)
      · exact (ih _ _).lost (lost hr)

end Program

-- What an action that can fail ensures when it runs alone, of the replies of the engine as well.
def Hears (a : ExceptT σ Program α) (w : World Service) (Q : List Reply → α → World Service → Prop)
    (E : List Reply → σ → World Service → Prop) : Prop :=
  Ensures a w (Q (a.run.replies w)) (E (a.run.replies w))

namespace Hears

variable {a : ExceptT σ Program α} {w : World Service} {Q Q' : List Reply → α → World Service → Prop}
  {E E' : List Reply → σ → World Service → Prop}

theorem mono (h : Hears a w Q E) (hq : ∀ as x w, Q as x w → Q' as x w)
    (he : ∀ as e w, E as e w → E' as e w) : Hears a w Q' E' :=
  Ensures.mono h (hq _) (he _)

theorem step {f : α → ExceptT σ Program β} {R : List Reply → β → World Service → Prop}
    (h : Hears a w Q E)
    (hf : ∀ as x w', Q as x w' →
      Hears (f x) w' (fun bs => R (as ++ bs)) fun bs => E' (as ++ bs))
    (he : ∀ as e w', E as e w' → E' as e w') : Hears (a >>= f) w R E' := by
  simp only [Hears, Ensures, ExceptT.run_bind, Program.run_bind, Program.replies_bind] at *
  generalize a.run.run w = r at *
  obtain ⟨e | x, w'⟩ := r
  · refine (List.append_nil (a.run.replies w)).symm ▸ ?_
    exact he _ _ _ h
  · exact hf _ _ _ h

-- An action that leaves the engine alone.
theorem quiet {Q : α → World Service → Prop} {E : σ → World Service → Prop}
    (hs : a.run.Asks (¬·.Executes)) (h : Ensures a w Q E) :
    Hears a w (fun as x w' => as = [] ∧ Q x w') fun as e w' => as = [] ∧ E e w' := by
  unfold Hears
  rw [hs.replies]
  exact h.mono (fun _ _ h => ⟨rfl, h⟩) fun _ _ h => ⟨rfl, h⟩

theorem pure (h : Q [] x w) : Hears (pure x) w Q E :=
  h

theorem throw (h : E [] e w) : Hears (throw e) w Q E :=
  h

theorem of_ensures {Q : α → World Service → Prop} {E : σ → World Service → Prop}
    (h : Ensures a w Q E) : Hears a w (fun _ => Q) fun _ => E :=
  h

theorem lift {p : Program β} {f : β → ExceptT σ Program α}
    (h : Hears (f (p.run w).1) (p.run w).2 (fun as => Q (p.replies w ++ as))
      fun as => E (p.replies w ++ as)) : Hears (liftM p >>= f) w Q E := by
  have replies : (liftM p : ExceptT σ Program β).run.replies w = p.replies w := by
    show (Except.ok <$> p).replies w = _
    rw [map_eq_pure_bind, Program.replies_bind]
    exact List.append_nil _
  have result : (liftM p : ExceptT σ Program β).run.run w = (.ok (p.run w).1, (p.run w).2) :=
    Program.run_map p Except.ok w
  simpa only [Hears, Ensures, ExceptT.run_bind, Program.run_bind, Program.replies_bind, replies,
    result] using h

theorem holding {key : LockKey}
    (h : ∀ w₁, w.Untouched w₁ →
      Hears a w₁ (fun as x w₂ => ∀ w₃, w₂.Untouched w₃ → Q as x w₃)
        (fun as e w₂ => ∀ w₃, w₂.Untouched w₃ → E as e w₃)) :
    Hears (ExceptT.mk (Program.holding key a.run)) w Q E := by
  have acquired : w.Untouched ((Program.acquire key).run w).2 := ⟨rfl, rfl, .refl _⟩
  have released {n w₂} : World.Untouched w₂ ((Program.release n).run w₂).2 := ⟨rfl, rfl, .refl _⟩
  have inner := h _ acquired
  have silent : (Program.holding key a.run).replies w =
      a.run.replies ((Program.acquire key).run w).2 := by
    simp only [Program.holding, Program.replies_bind]
    exact List.append_nil _
  simp only [Hears, Ensures, ExceptT.run_mk] at inner ⊢
  rw [silent]
  simp only [Program.holding, Program.run_bind, Program.run_pure]
  generalize a.run.run ((Program.acquire key).run w).2 = r at *
  obtain ⟨_ | _, w₂⟩ := r <;> exact inner _ released

end Hears

end Historian
