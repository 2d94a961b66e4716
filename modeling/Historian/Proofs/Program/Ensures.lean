import Historian.Proofs.Basic
import Historian.Proofs.Program.Calls

namespace Historian

open Engine World

theorem Program.run_map (p : Program α) (f : α → β) (w : World Service) :
    (f <$> p).run w = (f (p.run w).1, (p.run w).2) := by
  rw [map_eq_pure_bind, run_bind, run_pure]

-- Time does not run backwards, whatever a program does.

theorem World.answer_clock (w : World Service) (r : Request) : w.clock ≤ (w.answer r).2.clock := by
  cases r with
  | catalog op =>
    simp only [answer, perform]
    split <;> exact Int.le_refl _
  | execute limit sql => simp only [answer, afterCall]; omega
  | describe limit table => simp only [answer, afterCall]; omega
  | wait millis => simp only [answer]; omega
  | _ => exact Int.le_refl _

theorem Program.run_clock (p : Program α) (w : World Service) : w.clock ≤ (p.run w).2.clock := by
  induction p generalizing w with
  | done a => exact Int.le_refl _
  | ask r next ih => exact Int.le_trans (w.answer_clock r) (ih _ _)

-- What an action that can fail ensures when it runs alone: `Q` after a success, `E` after a
-- failure.
def Ensures (a : ExceptT σ Program α) (w : World Service) (Q : α → World Service → Prop)
    (E : σ → World Service → Prop) : Prop :=
  Ends Q E (a.run.run w)

namespace Ensures

variable {a : ExceptT σ Program α} {w : World Service} {Q Q' : α → World Service → Prop}
  {E E' : σ → World Service → Prop}

theorem of_ok (h : Ensures a w Q E) (hr : a.run.run w = (.ok x, w')) : Q x w' := by
  rwa [Ensures, hr] at h

theorem of_error (h : Ensures a w Q E) (hr : a.run.run w = (.error e, w')) : E e w' := by
  rwa [Ensures, hr] at h

theorem exists_ok (h : Ensures a w Q fun _ _ => False) :
    ∃ x w', a.run.run w = (.ok x, w') ∧ Q x w' := by
  unfold Ensures at h
  generalize a.run.run w = r at *
  obtain ⟨_ | x, w'⟩ := r
  · exact h.elim
  · exact ⟨x, w', rfl, h⟩

theorem exists_error (h : Ensures a w (fun _ _ => False) E) :
    ∃ e w', a.run.run w = (.error e, w') ∧ E e w' := by
  unfold Ensures at h
  generalize a.run.run w = r at *
  obtain ⟨e | _, w'⟩ := r
  · exact ⟨e, w', rfl, h⟩
  · exact h.elim

-- What holds of the world afterwards in either case.
theorem after {P : World Service → Prop} (h : Ensures a w Q E) (hq : ∀ x w, Q x w → P w)
    (he : ∀ e w, E e w → P w) : P (a.run.run w).2 := by
  unfold Ensures at h
  generalize a.run.run w = r at h
  obtain ⟨_ | _, _⟩ := r
  · exact he _ _ h
  · exact hq _ _ h

theorem mono (h : Ensures a w Q E) (hq : ∀ x w, Q x w → Q' x w) (he : ∀ e w, E e w → E' e w) :
    Ensures a w Q' E' :=
  Ends.mono h hq he

theorem clock (h : Ensures a w Q E) :
    Ensures a w (fun x w' => Q x w' ∧ w.clock ≤ w'.clock) E := by
  have passed := Program.run_clock a.run w
  unfold Ensures at *
  generalize a.run.run w = r at h passed
  obtain ⟨_ | _, _⟩ := r
  · exact h
  · exact ⟨h, passed⟩

-- What holds of every end.
theorem always (hq : ∀ x w, Q x w) (he : ∀ e w, E e w) : Ensures a w Q E := by
  unfold Ensures
  generalize a.run.run w = r
  obtain ⟨_ | _, _⟩ := r
  · exact he _ _
  · exact hq _ _

theorem pure (h : Q x w) : Ensures (pure x) w Q E :=
  h

theorem throw (h : E e w) : Ensures (throw e) w Q E :=
  h

theorem bind {f : α → ExceptT σ Program β} {R : β → World Service → Prop}
    (h : Ensures a w (fun x w' => Ensures (f x) w' R E) E) : Ensures (a >>= f) w R E := by
  simp only [Ensures, ExceptT.run_bind, Program.run_bind] at *
  generalize a.run.run w = r at *
  obtain ⟨_ | _, _⟩ := r <;> exact h

-- A step of an action, by what it ensures: the rest may rely on it.
theorem step {f : α → ExceptT σ Program β} {R : β → World Service → Prop} (h : Ensures a w Q E)
    (hf : ∀ x w', Q x w' → Ensures (f x) w' R E') (he : ∀ e w', E e w' → E' e w') :
    Ensures (a >>= f) w R E' :=
  bind (h.mono hf he)

-- A condition that ends the action.
theorem guard {c : Prop} [Decidable c] {f : PUnit → ExceptT σ Program α} (he : c → E e w)
    (hf : ¬c → Ensures (f ⟨⟩) w Q E) :
    Ensures (if c then MonadExcept.throw e >>= f else f ⟨⟩) w Q E := by
  split
  case isTrue hc => exact bind (throw (he hc))
  case isFalse hc => exact hf hc

-- A step that itself cannot fail.
theorem lift {p : Program β} {f : β → ExceptT σ Program α}
    (h : Ensures (f (p.run w).1) (p.run w).2 Q E) :
    Ensures (liftM p >>= f) w Q E := by
  refine bind ?_
  show Ends _ _ ((ExceptT.lift p).run.run w)
  simpa [Program.run_map, Ends] using h

theorem mapError {p : Program (Except τ α)} {g : τ → σ}
    (h : Ends Q (fun e => E (g e)) (p.run w)) :
    Ensures (ExceptT.mk do return (← p).mapError g) w Q E := by
  simp only [Ensures, ExceptT.run_mk, Program.run_bind, Program.run_pure]
  generalize p.run w = r at *
  obtain ⟨_ | _, _⟩ := r <;> exact h

-- The checks of names and the operations of the catalog, whatever errors become of their failures.

theorem checked {r : Except τ α} {g : τ → σ} :
    Ensures (ExceptT.mk (Pure.pure (r.mapError g))) w (fun x w' => r = .ok x ∧ w' = w)
      (fun _ w' => w' = w ∧ ∀ x, r ≠ .ok x) := by
  cases r <;> simp [Ensures, Ends]

variable {policy : RetryPolicy} {g : RetryFailure CatalogError → σ}

theorem answered {op : CatalogOp} :
    Ensures (ExceptT.mk do return (← Program.retryCatalog policy op).mapError g) w
      (fun a w' => op.unreadable? a = none ∧ op.perform w.catalog = .ok (a, w'.catalog) ∧
        w'.engine = w.engine ∧ w'.catalogFaults.Sublist w.catalogFaults)
      (fun e w' => ∃ f, e = g f ∧ Erred w op w' f.error) :=
  .mapError <| (retryCatalog_run policy op w).mono (fun _ _ h => h) fun f _ h => ⟨f, rfl, h⟩

-- An operation whose answers can always be read.
theorem catalog {op : CatalogOp} [op.Legible] :
    Ensures (ExceptT.mk do return (← Program.retryCatalog policy op).mapError g) w
      (fun a w' => op.perform w.catalog = .ok (a, w'.catalog) ∧ w'.engine = w.engine ∧
        w'.catalogFaults.Sublist w.catalogFaults)
      (fun _ w' => w.Untouched w' ∧ ∃ e, Failed w op e) := by
  refine answered.mono (fun _ _ h => h.2) ?_
  rintro _ w' ⟨f, -, erred⟩
  exact ⟨erred.of_legible.1, f.error, erred.of_legible.2⟩

-- An operation that only reads.
theorem reads {op : CatalogOp} {x : op.Answer} (h : op.perform w.catalog = .ok (x, w.catalog)) :
    Ensures (ExceptT.mk do return (← Program.retryCatalog policy op).mapError g) w
      (fun a w' => a = x ∧ op.unreadable? x = none ∧ w.Untouched w')
      (fun e w' => w.Untouched w' ∧
        (w.SoundCatalog → ∃ f, e = g f ∧ op.unreadable? x = some f.error)) := by
  refine answered.mono (fun a w' ⟨hr, ho, he, hs⟩ => ?_) ?_
  · obtain ⟨rfl, hc⟩ := Prod.mk.inj (Except.ok.inj (h.symm.trans ho))
    exact ⟨rfl, hr, he, hc.symm, hs⟩
  · rintro _ w' ⟨f, rfl, erred⟩
    cases erred with
    | failed hu hf =>
      refine ⟨hu, fun hc => ?_⟩
      cases h.symm.trans (hf.refused_of_sound hc)
    | unread ho hr he hs =>
      obtain ⟨rfl, hc⟩ := Prod.mk.inj (Except.ok.inj (h.symm.trans ho))
      exact ⟨⟨he, hc.symm, hs⟩, fun _ => ⟨f, rfl, hr⟩⟩

theorem read {op : CatalogOp} [op.Legible] {x : op.Answer}
    (h : op.perform w.catalog = .ok (x, w.catalog)) :
    Ensures (ExceptT.mk do return (← Program.retryCatalog policy op).mapError g) w
      (fun a w' => a = x ∧ w.Untouched w') (fun _ w' => w.Untouched w' ∧ ¬w.SoundCatalog) := by
  refine (reads h).mono (fun a w' ⟨ha, _, hu⟩ => ⟨ha, hu⟩) (fun _ w' ⟨hu, hf⟩ => ⟨hu, fun hc => ?_⟩)
  obtain ⟨f, -, hr⟩ := hf hc
  cases (CatalogOp.plain x).symm.trans hr

-- The locks of a program that runs alone are free, so that taking and giving them back is all, and
-- takes no time.
theorem holding_timed {key : LockKey}
    (h : ∀ w₁, w.Untouched w₁ → w₁.clock = w.clock →
      Ensures a w₁ (fun x w₂ => ∀ w₃, w₂.Untouched w₃ → w₃.clock = w₂.clock → Q x w₃)
        (fun e w₂ => ∀ w₃, w₂.Untouched w₃ → w₃.clock = w₂.clock → E e w₃)) :
    Ensures (ExceptT.mk (Program.holding key a.run)) w Q E := by
  simp only [Ensures, ExceptT.run_mk, Program.holding, Program.run_bind, Program.run_pure] at *
  have acquired : w.Untouched ((Program.acquire key).run w).2 := ⟨rfl, rfl, .refl _⟩
  have released {n w₂} : World.Untouched w₂ ((Program.release n).run w₂).2 := ⟨rfl, rfl, .refl _⟩
  have inner := h _ acquired rfl
  generalize a.run.run ((Program.acquire key).run w).2 = r at *
  obtain ⟨_ | _, w₂⟩ := r <;> exact inner _ released rfl

theorem holding {key : LockKey}
    (h : ∀ w₁, w.Untouched w₁ → Ensures a w₁ (fun x w₂ => ∀ w₃, w₂.Untouched w₃ → Q x w₃)
      (fun e w₂ => ∀ w₃, w₂.Untouched w₃ → E e w₃)) :
    Ensures (ExceptT.mk (Program.holding key a.run)) w Q E :=
  holding_timed fun w₁ h₁ _ =>
    (h w₁ h₁).mono (fun _ _ hq w₃ h₃ _ => hq w₃ h₃) (fun _ _ he w₃ h₃ _ => he w₃ h₃)

end Ensures

end Historian
