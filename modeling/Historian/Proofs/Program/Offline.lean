import Historian.Proofs.Program.Faults

namespace Historian

open Engine World

-- A request that reaches the engine.
def Request.CallsEngine : Request → Prop
  | .execute .. | .describe .. => True
  | _ => False

variable {ε : Type} [Endpoint ε] {w w₁ w₂ : World ε}

theorem World.answer_engine (h : ¬q.CallsEngine) (w : World ε) :
    (w.answer q).2.engine = w.engine := by
  cases q with
  | execute => exact absurd trivial h
  | describe => exact absurd trivial h
  | catalog op =>
    simp only [answer, perform]
    split <;> rfl
  | _ => rfl

namespace Program

-- What a program that runs alone asks for, one request after another.
def requests : Program α → World ε → List Request
  | .done _, _ => []
  | .ask q next, w => q :: (next (w.answer q).1).requests (w.answer q).2

theorem requests_bind (p : Program α) (f : α → Program β) (w : World ε) :
    (p >>= f).requests w = p.requests w ++ (f (p.run w).1).requests (p.run w).2 := by
  induction p generalizing w with
  | done a => rfl
  | ask q next ih => exact congrArg (q :: ·) (ih ..)

-- How a program runs alone that does not call the engine.
structure Offline (p : Program α) (w : World ε) (a : α) (w' : World ε) : Prop where
  result : p.run w = (a, w')
  calls : ∀ q ∈ p.requests w, ¬q.CallsEngine

namespace Offline

theorem done (a : α) (w : World ε) : (pure a : Program α).Offline w a w :=
  ⟨rfl, fun _ h => absurd h List.not_mem_nil⟩

theorem request {q : Request} (h : ¬q.CallsEngine) (w : World ε) :
    (Program.request q).Offline w (w.answer q).1 (w.answer q).2 :=
  ⟨rfl, fun _ hq => List.mem_singleton.mp hq ▸ h⟩

theorem bind {p : Program α} {f : α → Program β} (h : p.Offline w a w₁)
    (hf : (f a).Offline w₁ b w₂) : (p >>= f).Offline w b w₂ := by
  refine ⟨by rw [run_bind, h.result, hf.result], fun q hq => ?_⟩
  rw [requests_bind, h.result, List.mem_append] at hq
  exact hq.elim (h.calls q) (hf.calls q)

theorem exceptBind {x : ExceptT σ Program α} {f : α → ExceptT σ Program β}
    (h : x.run.Offline w (.ok a) w₁) (hf : (f a).run.Offline w₁ b w₂) :
    (x >>= f).run.Offline w b w₂ := by
  rw [ExceptT.run_bind]
  exact h.bind hf

theorem engine {p : Program α} (h : p.Offline w a w₁) : w₁.engine = w.engine := by
  induction p generalizing w with
  | done =>
    cases h.result
    rfl
  | ask q next ih =>
    have calls := List.forall_mem_cons.mp h.calls
    exact (ih _ ⟨h.result, calls.2⟩).trans (answer_engine calls.1 w)

-- A catalog for which no error is arranged answers at the first attempt.
theorem read {op : CatalogOp} {x : op.Answer} {policy : RetryPolicy}
    {g : RetryFailure CatalogError → σ} (clear : takeFault op.name w.catalogFaults = none)
    (h : op.carryOut w.catalog = (.ok x, w.catalog)) :
    (ExceptT.mk do return (← retryCatalog policy op).mapError g).run.Offline w (.ok x) w := by
  have answered : w.answer (.catalog op) = (.ok x, w) := by
    simp only [answer, perform, clear, h]
    rfl
  have attempt : (some <$> catalog op).Offline w (some (.ok x)) w := by
    rw [map_eq_pure_bind]
    have asked := request (q := .catalog op) id w
    rw [answered] at asked
    exact asked.bind (.done ..)
  have retried : (retryCatalog policy op).Offline w (.ok x) w := by
    unfold retryCatalog RetryPolicy.retry RetryPolicy.retryFrom
    exact attempt.bind (.done ..)
  exact retried.bind (.done ..)

end Offline

end Program

end Historian
