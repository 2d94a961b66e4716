import Historian.Proofs.Program.Ensures
import Historian.Proofs.Schema.Statement
import Historian.Schema.Synchronizer

namespace Historian

open Engine World

theorem Engine.Tables.run_eq {t : Tables} (h : Sql.Statement.parse text = .ok s) :
    t.run text = t.perform text s := by
  simp [Tables.run, h]

theorem Engine.Tables.run_ok {t : Tables} (h : t.run text = .ok t') :
    ∃ s, Sql.Statement.parse text = .ok s ∧ t.perform text s = .ok t' := by
  unfold Tables.run at h
  split at h
  · exact ⟨_, ‹_›, h⟩
  · cases h

namespace World

variable {w w₁ w₂ : World Service}

-- No error that is arranged claims that something is there already.
def Honest (w : World Service) : Prop :=
  w.Meets (·.isAlreadyExists = false)

theorem Refused.honest (h : Refused policy w sql e) (hw : w.Honest) (he : e.isAlreadyExists) :
    ∃ r, w.engine.tables.run sql = .error r ∧ r.error = e := by
  cases h with
  | missed h =>
    cases h with
    | arranged hf => simp [hw e hf] at he
    | late => cases he
  | refusal h => exact ⟨_, h, rfl⟩

end World

namespace Synchronizer

variable {w : World Service} {policy : RetryPolicy}

theorem checked_ensures {r : Except Invalid α} :
    Ensures (checked r) w (fun x w' => r = .ok x ∧ w' = w) (fun _ w' => w' = w ∧ ∀ x, r ≠ .ok x) :=
  .checked

theorem catalog_ensures {op : CatalogOp} [op.Legible] :
    Ensures (catalog policy op) w
      (fun a w' => op.perform w.catalog = .ok (a, w'.catalog) ∧ w'.engine = w.engine ∧
        w'.catalogFaults.Sublist w.catalogFaults)
      (fun _ w' => w.Untouched w' ∧ ∃ e, Failed w op e) :=
  .catalog

theorem read_ensures {op : CatalogOp} [op.Legible] {x : op.Answer}
    (h : op.perform w.catalog = .ok (x, w.catalog)) :
    Ensures (catalog policy op) w (fun a w' => a = x ∧ w.Untouched w')
      (fun _ w' => w.Untouched w' ∧ ¬w.SoundCatalog) :=
  .read h

-- If the answer is withheld, the error says why.
theorem reads_ensures {op : CatalogOp} {x : op.Answer}
    (h : op.perform w.catalog = .ok (x, w.catalog)) :
    Ensures (catalog policy op) w (fun a w' => a = x ∧ op.unreadable? x = none ∧ w.Untouched w')
      (fun e w' => w.Untouched w' ∧
        (w.SoundCatalog → ∃ err, op.unreadable? x = some err ∧ e = .catalog err)) := by
  refine (Ensures.reads h).mono (fun _ _ h => h) ?_
  rintro _ w' ⟨hu, withheld⟩
  refine ⟨hu, fun hc => ?_⟩
  obtain ⟨f, rfl, hr⟩ := withheld hc
  obtain ⟨column, he⟩ := CatalogOp.unreadable?_error hr
  have lasting : f.isExhausted = false := by rw [RetryFailure.isExhausted, he]; rfl
  exact ⟨_, hr, by simp [SyncError.ofCatalog, lasting]⟩

theorem describe_ensures {category : String} {table : TableName} :
    Ensures (describe policy category table) w
      (fun s w' => s = w.engine.tables.describe table ∧ w.Asked w')
      (fun _ w' => w.Asked w' ∧ ¬w.SoundEngine policy) :=
  .mapError <| (retryDescribe_run policy table w).mono (fun _ _ h => h)
    fun _ _ h => ⟨h.1, fun hs => hs.not_missed h.2⟩

-- A statement took effect, or counts as if it had because the engine says that its object is there,
-- or failed for another reason.
inductive Executed (policy : RetryPolicy) (sql : String) (w w' : World Service) :
    Except (RetryFailure EngineError) Unit → Prop
  | done (h : w.engine.tables.run sql = .ok w'.engine.tables) (hc : w'.catalog = w.catalog)
    (hl : w.Later w') : Executed policy sql w w' (.ok ())
  | present (hu : w.Unmoved w') (hr : Refused policy w sql e) (he : e.isAlreadyExists) :
    Executed policy sql w w' (.ok ())
  | failed (hu : w.Unmoved w') (hr : Refused policy w sql f.error)
    (he : f.error.isAlreadyExists = false) : Executed policy sql w w' (.error f)

theorem execute_ensures {sql : String} :
    Ensures (execute policy sql) w (fun r w' => Executed policy sql w w' r) (fun _ _ => False) := by
  refine .lift ?_
  have run := retryExecute_run policy "engine execute" sql w
  generalize (Program.retryExecute policy "engine execute" sql).run w = r at run
  obtain ⟨f | _, w'⟩ := r
  · cases he : f.error.isAlreadyExists with
    | true =>
      simp only [he, if_true]
      exact .pure (.present run.1 run.2 he)
    | false =>
      simp only [he, Bool.false_eq_true, if_false]
      exact .pure (.failed run.1 run.2 he)
  · exact .pure (.done run.1 run.2.1 run.2.2)

theorem mustExecute_ensures {category operation sql : String} :
    Ensures (mustExecute policy category operation sql) w
      (fun _ w' => Executed policy sql w w' (.ok ())) (fun _ w' => w.Unmoved w') := by
  refine execute_ensures.step (fun r w' h => ?_) (fun _ _ h => h.elim)
  cases h with
  | done h hc hl => exact .pure (.done h hc hl)
  | present hu hr he => exact .pure (.present hu hr he)
  | failed hu hr he => exact .throw hu

theorem loadCategory_ensures {code : String} :
    Ensures (loadCategory policy code) w
      (fun k w' => w.catalog.getCategory code = some k ∧ w.Untouched w')
      (fun _ w' => w.Untouched w' ∧ ¬(w.SoundCatalog ∧ (w.catalog.getCategory code).isSome)) := by
  refine (read_ensures rfl).step (fun a w' ⟨ha, hu⟩ => ?_)
    (fun _ w' ⟨hu, hc⟩ => ⟨hu, fun h => hc h.1⟩)
  cases a with
  | none => exact .throw ⟨hu, fun ⟨_, hs⟩ => by simp [← ha] at hs⟩
  | some k => exact .pure ⟨ha.symm, hu⟩

end Synchronizer

end Historian
