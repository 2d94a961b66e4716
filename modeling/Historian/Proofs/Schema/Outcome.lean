import Historian.Proofs.Schema.Calls
import Historian.Proofs.Schema.Steps

namespace Historian

-- The column that a widening asks for.
def Schema.Widening.column (x : Widening) : Column := ⟨x.name, x.new⟩

namespace Synchronizer

open Engine World Schema

variable {w w' w'' : World Service} {policy : RetryPolicy} {k : CategoryKey}

-- What became of a row of columns that the engine was told to add or to widen, one after another.
-- That the engine itself said a column is there is known only if `H` holds.
inductive Alters (H : Prop) (act : Tables → Column → Except Refusal Tables) :
    List Column → Tables → List String → List String → Tables → Prop
  | nil : Alters H act [] t [] [] t
  | acted (h : act t c = .ok t') (hs : Alters H act cs t' done failed t'') :
    Alters H act (c :: cs) t (c.name :: done) failed t''
  | present (h : H → ∃ r, act t c = .error r ∧ r.error.isAlreadyExists)
    (hs : Alters H act cs t done failed t') : Alters H act (c :: cs) t (c.name :: done) failed t'
  | refused (hs : Alters H act cs t done failed t') :
    Alters H act (c :: cs) t done (c.name :: failed) t'

-- What a call may do to the engine for a category while it leaves the catalog alone.
structure Moved (k : CategoryKey) (w w' : World Service) : Prop extends Later w w' where
  catalog : w'.catalog = w.catalog
  steps : Steps k w.engine.tables w'.engine.tables

theorem Moved.refl (w : World Service) : Moved k w w :=
  ⟨.refl w, rfl, .refl⟩

theorem Moved.trans (h₁ : Moved k w w') (h₂ : Moved k w' w'') : Moved k w w'' :=
  ⟨h₁.toLater.trans h₂.toLater, h₂.catalog.trans h₁.catalog, h₁.steps.trans h₂.steps⟩

theorem Moved.of_unmoved (h : w.Unmoved w') : Moved k w w' :=
  ⟨h.toLater, h.catalog, h.tables ▸ .refl⟩

theorem Executed.moved (h : Executed policy text w w' r)
    (hstep : ∀ t, w.engine.tables.run text = .ok t → Step k w.engine.tables t) : Moved k w w' := by
  cases h with
  | done h hc hl => exact ⟨hl, hc, .single (hstep _ h)⟩
  | present hu _ _ => exact .of_unmoved hu
  | failed hu _ _ => exact .of_unmoved hu

-- The statements for a row of columns, as the synchronizer sends them: the names that it counts as
-- done, the ones that it rejects, and the texts that it reports.
structure Altered (H : Prop) (act : Tables → Column → Except Refusal Tables) (k : CategoryKey)
    (cs : List Column) (w w' : World Service) (names : List String) (rejected : List Rejection)
    (sent : List String) : Prop extends Moved k w w' where
  alters : Alters H act cs w.engine.tables names (rejected.map (·.signal)) w'.engine.tables
  length : sent.length = names.length

namespace Altered

variable {act : Tables → Column → Except Refusal Tables} {c : Column}

theorem nil : Altered H act k [] w w [] [] [] :=
  ⟨.refl w, .nil, rfl⟩

theorem ok (hx : Executed policy text w w' (.ok ())) (hH : H → w.Honest)
    (hrun : ∀ t : Tables, t.run text = act t c) (hm : Moved k w w')
    (hs : Altered H act k cs w' w'' names rejected sent) :
    Altered H act k (c :: cs) w w'' (c.name :: names) rejected (text :: sent) := by
  refine ⟨hm.trans hs.toMoved, ?_, by simp [hs.length]⟩
  cases hx with
  | done h _ _ => exact .acted (hrun _ ▸ h) hs.alters
  | present hu hr he =>
    refine .present (fun h => ?_) (hu.tables ▸ hs.alters)
    obtain ⟨refusal, ht, rfl⟩ := hr.honest (hH h) he
    exact ⟨refusal, hrun _ ▸ ht, he⟩

theorem error (hx : Executed policy text w w' (.error f)) (hm : Moved k w w')
    (hs : Altered H act k cs w' w'' names rejected sent) :
    Altered H act k (c :: cs) w w'' names (⟨c.name, f.error.message⟩ :: rejected) sent := by
  refine ⟨hm.trans hs.toMoved, ?_, hs.length⟩
  cases hx with
  | failed hu _ _ => exact .refused (hu.tables ▸ hs.alters)

end Altered

theorem addColumns_ensures {cs : List Column} {r : SyncReport} (H : Prop) (hH : H → w.Honest)
    (hw : ∀ c ∈ cs, c.type.Writable) :
    Ensures (addColumns policy k cs r) w
      (fun r' w' => ∃ names rejected sent,
        Altered H (·.addColumn k.superTable ·) k cs w w' names rejected sent ∧
        r' = { r with
          added := r.added ++ names, rejected := r.rejected ++ rejected
          statements := r.statements ++ sent })
      (fun _ w' => Moved k w w') := by
  induction cs generalizing r w with
  | nil => exact .pure ⟨[], [], [], .nil, by simp⟩
  | cons c cs ih =>
    have ⟨hc, hcs⟩ := List.forall_mem_cons.mp hw
    refine checked_ensures.step (fun text _ ⟨ht, he⟩ => ?_) (fun _ _ ⟨he, _⟩ => he ▸ .refl _)
    subst he
    have hrun (t : Tables) := t.run_eq (addColumnStatement_parse ht hc)
    refine execute_ensures.step (fun x w' hx => ?_) (fun _ _ h => h.elim)
    have hm : Moved k _ w' := hx.moved fun _ h => .add c ((hrun _).symm.trans h)
    have rest {r} := ih (r := r) (fun h => (hH h).later hm.toLater) hcs
    cases x with
    | ok =>
      refine rest.mono (fun r' w'' ⟨names, rejected, sent, hs, hr⟩ => ?_) (fun _ _ h => hm.trans h)
      exact ⟨_, _, _, .ok hx hH hrun hm hs, by simp [hr]⟩
    | error f =>
      cases hf : f.isExhausted with
      | true => simpa [hf] using .throw hm
      | false =>
        simp only [hf, Bool.false_eq_true, if_false]
        refine rest.mono (fun r' w'' ⟨names, rejected, sent, hs, hr⟩ => ?_)
          (fun _ _ h => hm.trans h)
        exact ⟨_, _, _, .error hx hm hs, by simp [hr]⟩

theorem widenColumns_ensures {xs : List Widening} {r : SyncReport} (H : Prop) (hH : H → w.Honest)
    (hw : ∀ x ∈ xs, x.new.Writable) :
    Ensures (widenColumns policy k xs r) w
      (fun r' w' => ∃ names rejected sent,
        Altered H (·.modifyColumn k.superTable ·) k (xs.map (·.column)) w w' names rejected sent ∧
        r' = { r with
          widened := r.widened ++ names, rejected := r.rejected ++ rejected
          statements := r.statements ++ sent })
      (fun _ w' => Moved k w w') := by
  induction xs generalizing r w with
  | nil => exact .pure ⟨[], [], [], .nil, by simp⟩
  | cons x xs ih =>
    have ⟨hx, hxs⟩ := List.forall_mem_cons.mp hw
    refine checked_ensures.step (fun text _ ⟨ht, he⟩ => ?_) (fun _ _ ⟨he, _⟩ => he ▸ .refl _)
    subst he
    have hrun (t : Tables) := t.run_eq (modifyColumnStatement_parse ht hx)
    refine execute_ensures.step (fun r w' hr => ?_) (fun _ _ h => h.elim)
    have hm : Moved k _ w' := hr.moved fun _ h => .modify x.column ((hrun _).symm.trans h)
    have rest {r} := ih (r := r) (fun h => (hH h).later hm.toLater) hxs
    cases r with
    | ok =>
      refine rest.mono (fun r' w'' ⟨names, rejected, sent, hs, hr'⟩ => ?_) (fun _ _ h => hm.trans h)
      exact ⟨_, _, _, .ok hr hH hrun hm hs, by simp [hr', Widening.column]⟩
    | error f =>
      cases hf : f.isExhausted with
      | true => simpa [hf] using .throw hm
      | false =>
        simp only [hf, Bool.false_eq_true, if_false]
        refine rest.mono (fun r' w'' ⟨names, rejected, sent, hs, hr'⟩ => ?_)
          (fun _ _ h => hm.trans h)
        exact ⟨_, _, _, .error hr hm hs, by simp [hr', Widening.column]⟩

end Synchronizer

end Historian
