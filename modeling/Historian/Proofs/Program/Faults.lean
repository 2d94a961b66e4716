import Historian.Proofs.Program.Ensures

namespace Historian

open Engine

namespace World

variable {w w' : World Service}

-- No error is arranged for the operations of a name.
def Clear (name : String) (w : World Service) : Prop := ∀ f ∈ w.catalogFaults, f.1 ≠ name

theorem takeFault_clear {fs : List (String × CatalogError)} :
    takeFault name fs = none ↔ ∀ f ∈ fs, f.1 ≠ name := by
  induction fs with
  | nil => simp [takeFault]
  | cons f fs ih =>
    unfold takeFault
    split
    case isTrue he => simp [he]
    case isFalse hn => simp [hn, ih]

theorem answer_faults (w : World Service) (r : Request) :
    (w.answer r).2.catalogFaults.Sublist w.catalogFaults := by
  cases r with
  | catalog op =>
    simp only [answer, perform]
    split
    case h_1 hf => exact (takeFault_some hf).1
    case h_2 => exact .refl _
  | _ => exact .refl _

theorem Clear.mono (h : w.Clear name) (hs : w'.catalogFaults.Sublist w.catalogFaults) :
    w'.Clear name :=
  fun f hf => h f (hs.subset hf)

end World

open World

theorem Program.run_faults (p : Program α) (w : World Service) :
    (p.run w).2.catalogFaults.Sublist w.catalogFaults := by
  induction p generalizing w with
  | done a => exact .refl _
  | ask r next ih => exact (ih _ _).trans (w.answer_faults r)

namespace Ensures

variable {a : ExceptT σ Program α} {w : World Service} {Q Q' : α → World Service → Prop}
  {E E' : σ → World Service → Prop}

theorem and (h : Ensures a w Q E) (h' : Ensures a w Q' E') :
    Ensures a w (fun x w' => Q x w' ∧ Q' x w') (fun e w' => E e w' ∧ E' e w') := by
  unfold Ensures at *
  generalize a.run.run w = r at *
  obtain ⟨_ | _, _⟩ := r <;> exact ⟨h, h'⟩

theorem stays_clear (h : w.Clear name) :
    Ensures a w (fun _ w' => w'.Clear name) (fun _ _ => True) := by
  have later := h.mono (a.run.run_faults w)
  unfold Ensures
  generalize a.run.run w = r at later
  obtain ⟨_ | _, _⟩ := r
  · trivial
  · exact later

theorem stays_sound (h : w.SoundCatalog) :
    Ensures a w (fun _ w' => w'.SoundCatalog) (fun _ w' => w'.SoundCatalog) := by
  have later := h.mono (a.run.run_faults w)
  unfold Ensures
  generalize a.run.run w = r at later
  obtain ⟨_ | _, _⟩ := r <;> exact later

variable {policy : RetryPolicy} {g : RetryFailure CatalogError → σ} {op : CatalogOp}

-- An operation is tried until no error is arranged for it any more.
theorem clears :
    Ensures (ExceptT.mk do return (← Program.retryCatalog policy op).mapError g) w
      (fun _ w' => w'.Clear op.name) (fun _ _ => True) := by
  refine .mapError (E := fun _ _ => True) <| RetryPolicy.retryFrom_run (I := fun _ => True)
    (E := fun _ _ => True) (fun _ _ _ => trivial) (fun w₁ _ => ?_) _ _ _ trivial
  rw [map_eq_pure_bind, Program.run_bind, run_catalog]
  simp only [Program.run_pure, Option.getD_some, perform]
  split
  case h_1 => exact ⟨trivial, fun _ => trivial⟩
  case h_2 hf =>
    generalize (op.carryOut w₁.catalog).1 = x
    cases x with
    | error => exact ⟨trivial, fun _ => trivial⟩
    | ok => exact takeFault_clear.mp hf

-- Then it is carried out at the first attempt.
theorem clear_read {x : op.Answer} (hc : w.Clear op.name)
    (h : op.carryOut w.catalog = (.ok x, w.catalog)) :
    Ensures (ExceptT.mk do return (← Program.retryCatalog policy op).mapError g) w
      (fun a w' => a = x ∧ w' = w) (fun _ _ => False) := by
  have answered : w.perform op = (.ok x, w) := by
    simp only [perform, takeFault_clear.mpr hc, h]
  refine .mapError ?_
  unfold Program.retryCatalog RetryPolicy.retry RetryPolicy.retryFrom
  rw [map_eq_pure_bind, Program.run_bind, Program.run_bind, run_catalog, answered]
  exact ⟨rfl, rfl⟩

end Ensures

-- A retry that fails in the same way at every attempt has the same result.
theorem RetryPolicy.retryFrom_agree [Transient ε] {p : RetryPolicy}
    {attempt attempt' : Program (Option (Except ε α))} {I : World Service → World Service → Prop}
    (hw : ∀ n w w', I w w' → I ((Program.wait n).run w).2 ((Program.wait n).run w').2)
    (ha : ∀ w w', I w w' → (attempt'.run w').1 = (attempt.run w).1 ∧
      ((∃ a, (attempt.run w).1 = some (.ok a)) ∨ I (attempt.run w).2 (attempt'.run w').2))
    (made left : Nat) (w w' : World Service) (h : I w w') :
    ((retryFrom p operation attempt' Program.wait made left).run w').1 =
      ((retryFrom p operation attempt Program.wait made left).run w).1 := by
  induction left generalizing made w w' with
  | zero =>
    obtain ⟨same, -⟩ := ha w w' h
    unfold retryFrom
    rw [Program.run_bind, Program.run_bind, same]
    split
    · rfl
    · split <;> rfl
  | succ left ih =>
    obtain ⟨same, next⟩ := ha w w' h
    unfold retryFrom
    rw [Program.run_bind, Program.run_bind, same]
    rcases next with ⟨a, ok⟩ | next
    · rw [ok]
      rfl
    · split
      · rfl
      · split
        · rfl
        · exact ih _ _ _ (hw _ _ _ next)

end Historian
