import Historian.Proofs.Schema.Children

namespace Historian.Synchronizer

open Engine World Schema

-- What anybody can ask of the synchronizer.
inductive Call
  | sync (code : String)
  | resync (code : String)
  | ensureChildTable (category asset : String) (id : Int)
  | provision (spec : AssetSpec)

namespace Call

-- The world after a call that ran alone.
def run (policy : RetryPolicy) (w : World Service) : Call → World Service
  | .sync code => ((Synchronizer.sync policy code).run.run w).2
  | .resync code => ((Synchronizer.resync policy code).run.run w).2
  | .ensureChildTable category asset id =>
    ((Synchronizer.ensureChildTable policy category asset id).run.run w).2
  | .provision spec => ((Synchronizer.provision policy spec).run.run w).2

end Call

variable {w w' w'' : World Service} {k : CategoryKey} {code text : String} {r : SyncReport}

-- What no call of the synchronizer changes.
structure Kept (w w' : World Service) : Prop where
  keys : w'.catalog.keys = w.catalog.keys
  signals : w'.catalog.signals = w.catalog.signals
  features : w'.catalog.features = w.catalog.features
  tasks : w'.catalog.tasks = w.catalog.tasks
  nextTask : w'.catalog.next.task = w.catalog.next.task
  streams : w'.engine.tables.streams = w.engine.tables.streams

namespace Kept

theorem trans (h₁ : Kept w w') (h₂ : Kept w' w'') : Kept w w'' where
  keys := h₂.keys.trans h₁.keys
  signals := h₂.signals.trans h₁.signals
  features := h₂.features.trans h₁.features
  tasks := h₂.tasks.trans h₁.tasks
  nextTask := h₂.nextTask.trans h₁.nextTask
  streams := h₂.streams.trans h₁.streams

theorem of_furnished (h : Furnished k w w') : Kept w w' := by
  obtain ⟨assets, serial, hc⟩ := h.catalog
  have streams := h.steps.streams
  constructor <;> first | exact streams | simp [hc, Catalog.keys]

theorem of_moved (h : Moved k w w') : Kept w w' :=
  of_furnished (.of_moved h)

theorem of_untouched (h : w.Untouched w') : Kept w w' := by
  constructor <;> first | rw [h.engine] | rw [h.catalog]

theorem of_recorded (h : Recorded code text w w') : Kept w w' := by
  obtain ⟨time, hc⟩ := h.catalog
  obtain ⟨-, hc⟩ := Catalog.changeCategory_ok hc
  have keys : w'.catalog.keys = w.catalog.keys := Catalog.keys_map (congrArg _ hc) fun _ => rfl
  constructor <;> first | exact keys | rw [h.engine] | rw [hc]

theorem of_touched (h : Touched code w w') : Kept w w' := by
  cases h with
  | nothing h => exact of_untouched h
  | moved _ h => exact of_moved h

theorem of_provisioned (h : Provisioned code w w') : Kept w w' := by
  cases h with
  | nothing h => exact of_untouched h
  | furnished _ h => exact of_furnished h

theorem of_synced (h : Synced code inspect w w' r) : Kept w w' := by
  have asked {k : CategoryKey} {signals : List SignalSpec} {w₁ w₂} {r r' : SyncReport}
      (ha : World.Asked w w₁)
      (hb : Brought k signals w₁ w₂ r r') : Kept w w₂ :=
    of_moved ((Moved.of_unmoved ha.toUnmoved).trans hb.moved)
  cases h with
  | skipped _ _ _ hu => exact of_untouched hu
  | recorded _ ha hb _ hr => exact (asked ha hb).trans (of_recorded hr)
  | incomplete _ ha hb _ hu => exact (asked ha hb).trans (of_untouched hu)

end Kept

theorem Call.kept (policy : RetryPolicy) (w : World Service) (call : Call) :
    Kept w (call.run policy w) := by
  cases call with
  | sync => exact sync_ensures.after (fun _ _ => .of_synced) (fun _ _ => .of_touched)
  | resync => exact resync_ensures.after (fun _ _ => .of_synced) (fun _ _ => .of_touched)
  | ensureChildTable =>
    exact ensureChildTable_ensures.after (fun _ _ => .of_touched) (fun _ _ => .of_touched)
  | provision =>
    exact provision_ensures.after (fun _ _ => .of_provisioned) (fun _ _ => .of_provisioned)

end Historian.Synchronizer
