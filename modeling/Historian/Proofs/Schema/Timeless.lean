import Historian.Proofs.Program.Faults
import Historian.Proofs.Program.Race
import Historian.Proofs.Schema.Plan

namespace Historian

open Engine World

namespace Synchronizer

open Schema

variable {w w' : World Service} {policy : RetryPolicy} {code text : String} {r : SyncReport}

-- Synchronizing has nothing to do with locks, and up to the record not with the time either.
def Timeless (a : Action α) : Prop := a.run.Asks Request.Timeless

namespace Timeless

theorem pure (x : α) : Timeless (pure x : Action α) :=
  trivial

theorem throw (e : SyncError) : Timeless (throw e : Action α) :=
  trivial

theorem bind {a : Action α} {f : α → Action β} (h : Timeless a) (hf : ∀ x, Timeless (f x)) :
    Timeless (a >>= f) :=
  Program.Asks.exceptBind h hf

theorem guard {c : Prop} [Decidable c] {e : SyncError} {f : PUnit → Action α}
    (hf : Timeless (f ⟨⟩)) : Timeless (if c then MonadExcept.throw e >>= f else f ⟨⟩) := by
  split
  · exact .bind (.throw e) fun _ => hf
  · exact hf

theorem lift {p : Program α} (h : p.Asks Request.Timeless) : Timeless (liftM p : Action α) :=
  Program.Asks.bind h fun _ => trivial

theorem checked (x : Except Invalid α) : Timeless (checked x) :=
  trivial

theorem catalog (op : CatalogOp) : Timeless (catalog policy op) := by
  refine Program.Asks.bind (.retry ?_ fun _ => trivial) fun _ => trivial
  exact Program.Asks.bind (.request trivial) fun _ => trivial

theorem describe (category : String) (table : TableName) :
    Timeless (describe policy category table) :=
  Program.Asks.bind (.retry (.request trivial) fun _ => trivial) fun _ => trivial

theorem execute (sql : String) : Timeless (execute policy sql) := by
  refine (lift (.retry (.request trivial) fun _ => trivial)).bind fun x => ?_
  split <;> exact pure _

theorem mustExecute (category operation sql : String) :
    Timeless (mustExecute policy category operation sql) := by
  refine (execute sql).bind fun x => ?_
  split
  · exact pure _
  · exact throw _

theorem addColumns (k : CategoryKey) (cs : List Column) (r : SyncReport) :
    Timeless (addColumns policy k cs r) := by
  induction cs generalizing r with
  | nil => exact pure _
  | cons c cs ih =>
    refine (checked _).bind fun statement => (execute _).bind fun x => ?_
    split
    · exact ih _
    · exact guard (ih _)

theorem widenColumns (k : CategoryKey) (xs : List Widening) (r : SyncReport) :
    Timeless (widenColumns policy k xs r) := by
  induction xs generalizing r with
  | nil => exact pure _
  | cons x xs ih =>
    refine (checked _).bind fun statement => (execute _).bind fun x => ?_
    split
    · exact ih _
    · exact guard (ih _)

theorem create (k : CategoryKey) (signals : List SignalSpec) (text : String) (r : SyncReport) :
    Timeless (create policy k signals text r) :=
  (checked _).bind fun _ => (mustExecute ..).bind fun _ => (mustExecute ..).bind fun _ => pure _

theorem alter (k : CategoryKey) (d : Diff) (r : SyncReport) : Timeless (alter policy k d r) :=
  (addColumns ..).bind fun _ => (widenColumns ..).bind fun _ => pure _

theorem bring (category : String) (k : CategoryKey) (signals : List SignalSpec) (text : String)
    (r : SyncReport) : Timeless (bring policy category k signals text r) := by
  refine (describe ..).bind fun found => ?_
  split
  · exact create ..
  · exact alter ..

theorem loadCategory (code : String) : Timeless (loadCategory policy code) := by
  refine (catalog _).bind fun found => ?_
  split
  · exact pure _
  · exact throw _

theorem survey (code : String) : Timeless (survey policy code) := by
  refine (loadCategory _).bind fun k => guard ?_
  refine (catalog _).bind fun listed => (checked _).bind fun text => ?_
  dsimp only
  split
  · exact pure _
  · exact (bring ..).bind fun _ => pure _

end Timeless

-- The record with its time.
def mark (policy : RetryPolicy) (code text : String) (r : SyncReport) (time : Int) :
    Action SyncReport := do
  catalog policy (.recordCategorySync code (fingerprint text) time)
  return r

theorem Timeless.mark (code text : String) (r : SyncReport) (time : Int) :
    Timeless (mark policy code text r time) :=
  (catalog _).bind fun _ => pure _

theorem finish_run (hr : r.rejected = []) (w : World Service) :
    (finish policy code (r, some text)).run.run w =
      (mark policy code text r w.clock).run.run w := by
  simp only [finish, hr, List.isEmpty_nil, if_true]
  rfl

theorem finish_runs {a : Except SyncError SyncReport} (hr : r.rejected = [])
    (h : (finish policy code (r, some text)).run.Runs w a w') :
    ∃ time, (mark policy code text r time).run.Runs w a w' := by
  simp only [finish, hr, List.isEmpty_nil, if_true] at h
  have asked : Program.Runs (.ask .now fun time => (mark policy code text r time).run) w a w' := h
  cases asked with
  | ask like rest => exact ⟨_, rest.from like⟩

theorem syncLocked_lockless : (syncLocked policy code false).run.Asks Request.Lockless := by
  rw [syncLocked_eq]
  refine ((Timeless.survey code).mono fun _ => Request.Timeless.lockless).exceptBind fun x => ?_
  obtain ⟨r, _ | text⟩ := x
  · trivial
  · simp only [finish]
    split
    · refine .exceptBind ⟨trivial, fun _ => trivial⟩ fun time => ?_
      refine .exceptBind ?_ fun _ => trivial
      exact Program.Asks.mono (Timeless.catalog _) fun _ => Request.Timeless.lockless
    · trivial

-- The record succeeds at any time or at none.

theorem record_agree (h : w.Like w') (time time' : Int) :
    (w'.perform (.recordCategorySync code text time')).1 =
        (w.perform (.recordCategorySync code text time)).1 ∧
      ((∃ a, (w.perform (.recordCategorySync code text time)).1 = .ok a) ∨
        (w.perform (.recordCategorySync code text time)).2.Like
          (w'.perform (.recordCategorySync code text time')).2) := by
  simp only [perform, CatalogOp.name, h.catalog, h.catalogFaults]
  split
  case h_1 => exact ⟨rfl, .inr ⟨h.engine, rfl, rfl⟩⟩
  case h_2 =>
    simp only [CatalogOp.carryOut, CatalogOp.perform, Catalog.recordCategorySync,
      Catalog.changeCategory]
    cases w.catalog.requireCategory code with
    | error e => exact ⟨rfl, .inr ⟨h.engine, rfl, rfl⟩⟩
    | ok k => exact ⟨rfl, .inl ⟨(), rfl⟩⟩

theorem result_catalog (op : CatalogOp) (w : World Service) :
    ((catalog policy op).run.run w).1 =
      ((Program.retryCatalog policy op).run w).1.mapError (SyncError.ofCatalog op.name) := by
  simp only [catalog, ExceptT.run_mk, Program.run_bind, Program.run_pure]

theorem result_bind_pure {a : Action α} (x : β) (w : World Service) :
    ((a >>= fun _ => pure x).run.run w).1 = (a.run.run w).1.map fun _ => x := by
  rw [ExceptT.run_bind, Program.run_bind]
  generalize (a.run.run w).1 = y
  cases y <;> rfl

theorem mark_agree (hl : w.Like w') (time time' : Int) :
    ((mark policy code text r time').run.run w').1 =
      ((mark policy code text r time).run.run w).1 := by
  have answers : ((Program.retryCatalog policy
        (.recordCategorySync code (fingerprint text) time')).run w').1 =
      ((Program.retryCatalog policy
        (.recordCategorySync code (fingerprint text) time)).run w).1 := by
    refine RetryPolicy.retryFrom_agree (I := World.Like) (fun n w w' h => ?_) (fun w w' h => ?_) _ _
      w w' hl
    · exact ⟨h.engine, h.catalog, h.catalogFaults⟩
    · obtain ⟨same, next⟩ := record_agree h time time'
      exact ⟨congrArg some same, next.imp (fun ⟨a, ha⟩ => ⟨a, congrArg some ha⟩) id⟩
  have same := (result_catalog (.recordCategorySync code (fingerprint text) time') w').trans
    ((congrArg (Except.mapError _) answers).trans
      (result_catalog (.recordCategorySync code (fingerprint text) time) w).symm)
  exact (result_bind_pure r w').trans
    ((congrArg (Except.map _) same).trans (result_bind_pure r w).symm)

end Synchronizer

end Historian
