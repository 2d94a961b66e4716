import Historian.Proofs.Program.Offline
import Historian.Proofs.Schema.Once

namespace Historian.Synchronizer

open Engine World Schema Program

variable {w w' : World Service} {policy : RetryPolicy} {code text : String} {r : SyncReport}

-- A call that rejects nothing leaves its category quiet, however it came to its end.

theorem Quiet.untouched (h : Quiet code r w) (hu : w.Untouched w') : Quiet code r w' := by
  obtain ⟨⟨k, signals, text, prepared, same, report⟩, readable⟩ := h
  exact ⟨⟨k, signals, text, prepared.of_catalog hu.catalog, same, report⟩,
    readable.1.mono hu.catalogFaults, readable.2.mono hu.catalogFaults⟩

theorem Synced.quiet (h : Synced code inspect w w' r) (clean : r.rejected = [])
    (readable : Readable w') : Quiet code r.idle w' := by
  cases h with
  | skipped hp _ hf hu => exact ⟨⟨_, _, _, hp.of_catalog hu.catalog, hf, rfl⟩, readable⟩
  | recorded hp ha hb _ h =>
    obtain ⟨time, ho⟩ := h.catalog
    exact (hp.of_catalog (hb.moved.catalog.trans ha.catalog)).stamped hb.idle ho readable
  | incomplete _ _ _ rejected _ => exact absurd clean rejected

theorem syncLocked_quiets :
    Ensures (syncLocked policy code inspect) w
      (fun r w' => r.rejected = [] → Quiet code r.idle w') (fun _ _ => True) :=
  (syncLocked_ensures.and readable_of_reads).mono (fun _ _ h clean => h.1.quiet clean h.2)
    fun _ _ _ => trivial

theorem call_quiets {inspect : Bool} :
    Ensures (if inspect then resync policy code else sync policy code) w
      (fun r w' => r.rejected = [] → Quiet code r.idle w') (fun _ _ => True) := by
  have locked (inspect : Bool) (w₁ : World Service) :
      Ensures (syncLocked policy code inspect) w₁
        (fun r w₂ => ∀ w₃, w₂.Untouched w₃ → r.rejected = [] → Quiet code r.idle w₃)
        (fun _ w₂ => ∀ w₃, w₂.Untouched w₃ → True) :=
    syncLocked_quiets.mono (fun _ _ h _ hu clean => (h clean).untouched hu) fun _ _ _ _ _ => trivial
  cases inspect with
  | false => exact .holding fun w₁ _ => locked false w₁
  | true => exact .holding fun w₁ _ => locked true w₁

-- A call for a quiet category reads the catalog, and that is all, whatever engine there is.

variable {ε : Type} [Endpoint ε] {v : World ε}

theorem Quiet.offline (h : Quiet code r w) (hc : v.catalog = w.catalog)
    (hf : v.catalogFaults ⊆ w.catalogFaults) :
    (syncLocked policy code false).run.Offline v (.ok r) v := by
  obtain ⟨⟨k, signals, text, prepared, same, rfl⟩, category, listed⟩ := h
  have clear {name : String} (h : w.Clear name) : takeFault name v.catalogFaults = none :=
    takeFault_clear.mpr fun f hm => h f (hf hm)
  have loaded : (loadCategory policy code).run.Offline v (.ok k) v := by
    refine .exceptBind (.read (clear category) rfl) ?_
    rw [hc, prepared.category]
    exact .done ..
  have statement : (checked (superTableStatement k.toCategoryKey
      ((v.catalog.listSignals code).map (·.toSignalSpec)))).run.Offline v (.ok text) v := by
    rw [hc, prepared.listed, prepared.statement]
    exact .done ..
  refine loaded.exceptBind ?_
  rw [if_neg (by simp [prepared.active])]
  refine .exceptBind (.read (clear listed) rfl) (statement.exceptBind ?_)
  dsimp only
  rw [if_pos (by simp [same])]
  exact .done ..

-- Once a call has rejected nothing, synchronizing the category again comes to the same and has
-- nothing to do: no engine is called, whatever has become of it meanwhile, and nothing changes.
theorem sync_idempotent {policy policy' : RetryPolicy} {code : String} (inspect : Bool)
    {w w₁ : World Service} {w₂ : World ε} {r : SyncReport}
    (ran : (if inspect then resync policy code else sync policy code).run.run w = (.ok r, w₁))
    (clean : r.rejected = []) (catalog : w₂.catalog = w₁.catalog)
    (faults : w₂.catalogFaults ⊆ w₁.catalogFaults) :
    ∃ w₃, (sync policy' code).run.run w₂ = (.ok r.idle, w₃) ∧ w₃.engine = w₂.engine ∧
      w₃.catalog = w₂.catalog ∧
      ∀ q ∈ (sync policy' code).run.requests w₂, ¬q.CallsEngine := by
  have quiet : Quiet code r.idle w₁ := call_quiets.of_ok ran clean
  let v := (w₂.answer (.acquire (.schema code))).2
  have inner : (syncLocked policy' code false).run.Offline v (.ok r.idle) v :=
    quiet.offline catalog faults
  have outer : (sync policy' code).run.Offline w₂ (.ok r.idle)
      (v.answer (.release w₂.nextTicket)).2 :=
    .bind (.request id w₂) (inner.bind (.bind (.request id v) (.done ..)))
  exact ⟨_, outer.result, outer.engine, rfl, outer.calls⟩

-- Even if all that the first call made is lost.
theorem sync_idempotent_workshop :
    ∃ r w₁, (sync {} "motor").run.run workshop = (.ok r, w₁) ∧ r.action = .created ∧
      ∃ w₃, (sync {} "motor").run.run { w₁ with engine := ({} : Service) } = (.ok r.idle, w₃) ∧
        w₃.engine = {} ∧ w₃.catalog = w₁.catalog ∧
        ∀ q ∈ (sync {} "motor").run.requests { w₁ with engine := ({} : Service) },
          ¬q.CallsEngine := by
  obtain ⟨-, -, made⟩ := run_workshop
  generalize ran : (sync {} "motor").run.run workshop = result at made
  obtain ⟨_ | r, w₁⟩ := result
  · cases made
  simp only [Except.toOption, Option.map_some, Option.some.injEq, Prod.mk.injEq] at made
  obtain ⟨action, clean, -⟩ := made
  exact ⟨r, w₁, rfl, action, sync_idempotent false ran clean rfl fun _ h => h⟩

end Historian.Synchronizer
