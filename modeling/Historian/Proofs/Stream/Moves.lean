import Historian.Proofs.Catalog.Operations
import Historian.Proofs.Stream.Statement

namespace Historian.StreamManager

open Engine World

-- What anybody can ask of the manager.
inductive Call
  | register (category : String) (document : Json)
  | create (category feature : String)
  | deploy (id : String)
  | pause (id : String)
  | resume (id : String)
  | stop (id : String)
  | acknowledge (id : String)
  | delete (id : String)

-- The world after a call that ran alone.
def Call.run (policy : RetryPolicy) (w : World Service) : Call → World Service
  | .register category document => ((StreamManager.register policy category document).run.run w).2
  | .create category feature => ((StreamManager.create policy category feature).run.run w).2
  | .deploy id => ((StreamManager.deploy policy id).run.run w).2
  | .pause id => ((StreamManager.pause policy id).run.run w).2
  | .resume id => ((StreamManager.resume policy id).run.run w).2
  | .stop id => ((StreamManager.stop policy id).run.run w).2
  | .acknowledge id => ((StreamManager.acknowledge policy id).run.run w).2
  | .delete id => ((StreamManager.delete policy id).run.run w).2

-- Whether a call makes tasks only in categories of some kind.
def Call.Within (P : String → Prop) : Call → Prop
  | .create category _ => P category
  | _ => True

-- The catalog with other logs.
def Logged (c c' : Catalog) : Prop :=
  ∃ logs serial, c' = { c with logs, next := { c.next with log := serial } }

theorem Logged.refl (c : Catalog) : Logged c c :=
  ⟨_, _, rfl⟩

-- The stream that a registered feature is compiled to.
inductive Derived (c : Catalog) (category feature : String) (s : CompiledStream) : Prop
  | intro (hk : c.getCategory category = some k) (hf : c.feature? category feature = some f)
    (hd : FeatureConfig.read (documentOf f) = .ok config)
    (hs : CompiledStream.ofFeature k.toCategoryKey config f.generation = .ok s)

-- What a task for a stream is made of.
def ordered (category feature : String) (s : CompiledStream) : TaskSpec :=
  { category, feature, generation := s.generation, streamName := s.streamName
    targetTable := s.targetTable, sql := s.sql }

-- What a deployment requires besides a valid transition.
def Cleared (c : Catalog) (t : StreamTask) : StreamAction → Prop
  | .deploy => t.status = .created ∧ ∀ o ∈ c.tasks, o.category = t.category →
    o.feature = t.feature →
    o.id ≠ t.id → o.status.isLive = false
  | _ => True

-- All that a call can do to the catalog and the engine, as long as the catalog is sound and tasks
-- are made only in categories of some kind.
inductive Move (P : String → Prop) (c : Catalog) (e : Tables) (c' : Catalog) (e' : Tables) : Prop
  | idle (hl : Logged c c') (he : e' = e)
  | registered (config : FeatureConfig)
    (ho : c.upsertFeature category config.name config.toJson = .ok (f, c')) (he : e' = e)
  | created (hp : P category) (hs : Derived c category feature s)
    (hn : ∀ t ∈ c.tasks, t.category = category → t.streamName = s.streamName → t.status = .stopped)
    (ho : c.createTask (ordered category feature s) = .ok (t, c₁))
    (hl : Logged c₁ c') (he : e' = e)
  | acted {t : StreamTask} {action : StreamAction} (ht : c.task? t.id = some t)
    (hv : action.next? t.status = some next)
    (ha : action ≠ .delete) (hc : Cleared c t action) (hr : e.run (issued t action) = .ok e')
    (ho : c.setTaskStatus t.id next none = .ok (t', c₁)) (hl : Logged c₁ c')
  | failed {t : StreamTask} {action : StreamAction} (ht : c.task? t.id = some t)
    (hv : action.next? t.status = some next)
    (ha : action.failsIntoError) (ho : c.setTaskStatus t.id .error (some cause) = .ok (t', c₁))
    (hl : Logged c₁ c') (he : e' = e)
  | deleted {t : StreamTask} (ht : c.task? t.id = some t)
    (hv : StreamAction.delete.next? t.status = some next)
    (hr : t.status = .error → e.run (issued t .delete) = .ok e') (he : t.status ≠ .error → e' = e)
    (ho : c.deleteTask t.id = .ok ((), c'))

variable {w w₁ w₂ w' : World Service} {policy : RetryPolicy} {P : String → Prop}

def Moves (P : String → Prop) (w w' : World Service) : Prop :=
  Move P w.catalog w.engine.tables w'.catalog w'.engine.tables

theorem Moves.of_untouched (h : w.Untouched w') : Moves P w w' :=
  .idle (h.catalog ▸ .refl _) (h.engine ▸ rfl)

theorem Moves.between (h₁ : w.Untouched w₁) (h : Moves P w₁ w₂) (h₂ : w₂.Untouched w') :
    Moves P w w' := by
  unfold Moves at *
  rw [h₂.catalog, h₂.engine]
  rwa [h₁.catalog, h₁.engine] at h

theorem Moves.after (hu : w.Untouched w₁) (h : Moves P w₁ w') : Moves P w w' :=
  .between hu h (.refl _)

-- However the action ends, it is one of these moves.
abbrev Makes (P : String → Prop) (a : Action α) (w : World Service) : Prop :=
  Ensures a w (fun _ w' => Moves P w w') (fun _ w' => Moves P w w')

theorem Makes.since {a : Action α} (hu : w.Untouched w₁) (h : Makes P a w₁) :
    Ensures a w₁ (fun _ w' => Moves P w w') (fun _ w' => Moves P w w') :=
  h.mono (fun _ _ h => h.after hu) (fun _ _ h => h.after hu)

theorem Makes.moves {a : Action α} (h : Makes P a w) : Moves P w (a.run.run w).2 :=
  Ensures.after h (fun _ _ h => h) (fun _ _ h => h)

-- The parts of calls.

theorem checked_ensures {r : Except Invalid α} :
    Ensures (checked r) w (fun x w' => r = .ok x ∧ w' = w) (fun _ w' => w' = w ∧ ∀ x, r ≠ .ok x) :=
  .checked

theorem catalog_ensures {op : CatalogOp} [op.Legible] :
    Ensures (catalog policy op) w
      (fun a w' => op.perform w.catalog = .ok (a, w'.catalog) ∧ w'.engine = w.engine ∧
        w'.catalogFaults.Sublist w.catalogFaults)
      (fun _ w' => w.Untouched w' ∧ ∃ e, Failed w op e) :=
  .catalog

theorem read_ensures {op : CatalogOp} {x : op.Answer}
    (h : op.perform w.catalog = .ok (x, w.catalog)) :
    Ensures (catalog policy op) w (fun a w' => a = x ∧ w.Untouched w')
    (fun _ w' => w.Untouched w') :=
  (Ensures.reads h).mono (fun _ _ h => ⟨h.1, h.2.2⟩) (fun _ _ h => h.1)

theorem loadCategory_ensures {code : String} :
    Ensures (loadCategory policy code) w
      (fun k w' => w.catalog.getCategory code = some k ∧ w.Untouched w')
        (fun _ w' => w.Untouched w') := by
  refine (read_ensures rfl).step (fun a w' ⟨ha, hu⟩ => ?_) (fun _ _ hu => hu)
  cases a with
  | none => exact .throw hu
  | some k => exact .pure ⟨ha.symm, hu⟩

theorem task?_id {c : Catalog} {id : String} (h : c.task? id = some t) : t.id = id := by
  simpa using List.find?_some h

theorem loadTask_ensures {id : String} :
    Ensures (loadTask policy id) w
      (fun t w' => t.id = id ∧ w.catalog.task? t.id = some t ∧ w.Untouched w')
      (fun _ w' => w.Untouched w') := by
  refine (read_ensures rfl).step (fun a w' ⟨ha, hu⟩ => ?_) (fun _ _ hu => hu)
  cases a with
  | none => exact .throw hu
  | some t =>
    have hi := task?_id ha.symm
    exact .pure ⟨hi, hi ▸ ha.symm, hu⟩

theorem created_of_next (h : StreamAction.deploy.next? status = some next)
    (hr : ¬(status == .running) = true) : status = .created := by
  cases status <;> simp_all [StreamAction.next?]

theorem transition_ensures {t : StreamTask} :
    Ensures (transition t action) w (fun next w' => action.next? t.status = some next ∧ w' = w)
      (fun _ w' => w' = w) := by
  unfold transition
  split
  · exact .pure ⟨‹_›, rfl⟩
  · exact .throw rfl

theorem log_ensures {task : String} :
    Ensures (log policy task level message) w
      (fun _ w' => Logged w.catalog w'.catalog ∧ w'.engine = w.engine) (fun _ _ => False) := by
  refine .lift (.pure ?_)
  have ends := retryCatalog_run policy (.appendLog task level message) w
  generalize (Program.retryCatalog policy (.appendLog task level message)).run w = r at ends
  obtain ⟨_ | _, w'⟩ := r
  · have ⟨hu, _⟩ := ends.of_legible
    exact ⟨hu.catalog ▸ .refl _, hu.engine⟩
  · exact ⟨Catalog.appendLog_ok ends.2.1, ends.2.2.1⟩

-- The status of a task that is there can be set, the catalog being sound.
theorem setStatus_ensures {t : StreamTask} (hc : w.SoundCatalog)
    (ht : w.catalog.task? t.id = some t) :
    Ensures (setStatus policy t.id status lastError) w
      (fun a w' => w.catalog.setTaskStatus t.id status lastError = .ok (a, w'.catalog) ∧
        w'.engine = w.engine) (fun _ _ => False) := by
  refine (catalog_ensures).mono (fun _ _ h => ⟨h.1, h.2.1⟩) (fun _ _ ⟨_, e, hf⟩ => ?_)
  have refused := hf.refused_of_sound hc
  simp [CatalogOp.perform, Catalog.setTaskStatus, ht] at refused

theorem runTransition_ensures {t : StreamTask} {action : StreamAction} (hc : w.SoundCatalog)
    (ht : w.catalog.task? t.id = some t) (ha : action ≠ .delete) (hf : Cleared w.catalog t action) :
    Makes P (runTransition policy t action (issued t action)) w := by
  refine transition_ensures.step (fun next w ⟨hv, he⟩ => ?_)
    (fun _ _ he => he ▸ .of_untouched (.refl _))
  subst he
  refine .lift ?_
  have run := retryExecute_run policy action.name (issued t action) w
  generalize (Program.retryExecute policy action.name (issued t action)).run w = r at run
  obtain ⟨f | _, w₁⟩ := r
  case ok =>
    obtain ⟨hr, hcat, hl⟩ := run
    refine (setStatus_ensures (hc.later hl) (hcat ▸ ht)).step (fun a w₂ ⟨ho, he⟩ => ?_)
      (fun _ _ h => h.elim)
    refine log_ensures.step (fun _ w₃ ⟨hlog, he'⟩ => .pure ?_) (fun _ _ h => h.elim)
    rw [hcat] at ho
    rw [← he, ← he'] at hr
    exact .acted ht hv ha hf hr ho hlog
  case error =>
    obtain ⟨hu, -⟩ := run
    have idle {level message} : Ensures (do
        log policy t.id level message
        MonadExcept.throw (StreamError.ofEngine t.id t.streamName action f)) w₁
        (fun (_ : StreamTask) w' => Moves P w w') (fun _ w' => Moves P w w') := by
      refine log_ensures.step (fun _ w₂ ⟨hlog, he⟩ => .throw ?_) (fun _ _ h => h.elim)
      exact .idle (hu.catalog ▸ hlog) (he ▸ hu.tables)
    simp only
    split
    case isTrue => exact idle
    case isFalse =>
      split
      case isFalse => exact idle
      case isTrue hi =>
        refine (setStatus_ensures (hc.later hu.toLater) (hu.catalog ▸ ht)).step
          (fun a w₂ ⟨ho, he⟩ => ?_)
          (fun _ _ h => h.elim)
        refine log_ensures.step (fun _ w₃ ⟨hlog, he'⟩ => .throw ?_) (fun _ _ h => h.elim)
        exact .failed ht hv hi (hu.catalog ▸ ho) hlog (by rw [he', he, hu.tables])

theorem holding_ensures {key : String} {a : Action α}
    (h : ∀ w₁, w.Untouched w₁ → Makes P a w₁) :
    Makes P (holding key a) w :=
  .holding fun _ h₁ => (h _ h₁).mono (fun _ _ h _ h₂ => .between h₁ h h₂)
    (fun _ _ h _ h₂ => .between h₁ h h₂)

-- The calls.

theorem checkSignals_ensures {category : String} {config : FeatureConfig} :
    Ensures (checkSignals policy category config) w (fun _ w' => w.Untouched w')
      (fun _ w' => w.Untouched w') := by
  refine (read_ensures rfl).step (fun _ w₁ ⟨_, hu⟩ => ?_) (fun _ _ hu => hu)
  exact checked_ensures.mono (fun _ _ h => h.2 ▸ hu) (fun _ _ h => h.1 ▸ hu)

theorem validated_ensures {category : String} {document : Json} :
    Ensures (validated policy category document) w (fun _ w' => w.Untouched w')
      (fun _ w' => w.Untouched w') := by
  refine loadCategory_ensures.step (fun k w₁ ⟨_, h₁⟩ => ?_) (fun _ _ hu => hu)
  refine checked_ensures.step (fun config w₁ ⟨_, he⟩ => ?_) (fun _ _ h => h.1 ▸ h₁)
  subst he
  exact checkSignals_ensures.step (fun _ _ hu => .pure (h₁.trans hu)) (fun _ _ hu => h₁.trans hu)

theorem register_ensures {category : String} {document : Json} :
    Makes P (register policy category document) w := by
  refine validated_ensures.step (fun (k, config) w₁ h₁ => ?_) (fun _ _ hu => .of_untouched hu)
  refine (catalog_ensures).mono (fun f w₂ ⟨ho, he, _⟩ => ?_)
    (fun _ _ h => .of_untouched (h₁.trans h.1))
  rw [h₁.catalog] at ho
  exact .registered config ho (by rw [he, h₁.engine])

theorem compile_ensures {category feature : String} :
    Ensures (compile policy category feature) w
      (fun s w' => Derived w.catalog category feature s ∧ w.Untouched w')
        (fun _ w' => w.Untouched w') := by
  refine loadCategory_ensures.step (fun k w₁ ⟨hk, h₁⟩ => ?_) (fun _ _ hu => hu)
  refine (read_ensures rfl).step (fun found w₂ ⟨hf, h₂⟩ => ?_) (fun _ _ hu => h₁.trans hu)
  have h₂ := h₁.trans h₂
  cases found with
  | none => exact .throw h₂
  | some f =>
    simp only
    refine checked_ensures.step (fun config w₂ ⟨hd, he⟩ => ?_) (fun _ _ h => h.1 ▸ h₂)
    subst he
    refine checkSignals_ensures.step (fun _ w₃ h₃ => ?_) (fun _ _ hu => h₂.trans hu)
    refine checked_ensures.mono (fun s w₃ ⟨hs, he⟩ => ⟨?_, he ▸ h₂.trans h₃⟩)
      (fun _ _ h => h.1 ▸ h₂.trans h₃)
    exact .intro hk (h₁.catalog ▸ hf.symm) hd hs

theorem createTask_ensures {s : CompiledStream} (hp : P category)
    (hs : Derived w.catalog category feature s) :
    Makes P (createTask policy category feature s) w := by
  have quiet {w'} (hu : World.Untouched w w') : Moves P w w' := .of_untouched hu
  refine (read_ensures rfl).step (fun tasks w₁ ⟨ht, h₁⟩ => ?_) (fun _ _ hu => quiet hu)
  subst ht
  split
  case h_1 => exact .bind (.throw (quiet h₁))
  case h_2 hn =>
    refine (catalog_ensures).step (fun t w₂ ⟨ho, he, _⟩ => ?_) (fun _ _ h => quiet (h₁.trans h.1))
    refine log_ensures.step (fun _ w₃ ⟨hlog, he'⟩ => .pure ?_) (fun _ _ h => h.elim)
    rw [h₁.catalog] at ho
    refine .created hp hs (fun t hm hcat hname => ?_) ho hlog (by rw [he', he, h₁.engine])
    simpa [hname] using List.find?_eq_none.mp hn t (List.mem_filter.mpr ⟨hm, by simpa using hcat⟩)

theorem create_ensures {category feature : String} (hp : P category) :
    Makes P (create policy category feature) w := by
  refine compile_ensures.step (fun s w₁ ⟨hs, h₁⟩ => ?_) (fun _ _ hu => .of_untouched hu)
  refine Makes.since h₁ (holding_ensures fun w₂ h₂ => ?_)
  exact createTask_ensures hp ((h₁.trans h₂).catalog ▸ hs)

theorem requireNoLiveGeneration_ensures {t : StreamTask} (hs : t.status = .created) :
    Ensures (requireNoLiveGeneration policy t) w
      (fun _ w' => Cleared w.catalog t .deploy ∧ w.Untouched w') (fun _ w' => w.Untouched w') := by
  refine (read_ensures rfl).step (fun tasks w₁ ⟨ht, h₁⟩ => ?_) (fun _ _ hu => hu)
  subst ht
  split
  case h_1 => exact .throw h₁
  case h_2 hn =>
    refine .pure ⟨⟨hs, fun o hm hcat hf hi => ?_⟩, h₁⟩
    simpa [hi, hf] using List.find?_eq_none.mp hn o (List.mem_filter.mpr ⟨hm, by simpa using hcat⟩)

theorem deploy_ensures {id : String} (hc : w.SoundCatalog) :
    Makes P (deploy policy id) w := by
  refine holding_ensures fun w₁ h₁ => ?_
  refine loadTask_ensures.step (fun t w₂ ⟨_, ht, h₂⟩ => ?_) (fun _ _ hu => .of_untouched hu)
  split
  case isTrue => exact .pure (.of_untouched h₂)
  case isFalse hr =>
    refine transition_ensures.step (fun next w₂ ⟨hv, he⟩ => ?_)
      (fun _ _ he => .of_untouched (he ▸ h₂))
    subst he
    have created := created_of_next hv hr
    refine Makes.since h₂ (holding_ensures fun w₃ h₃ => ?_)
    refine (requireNoLiveGeneration_ensures created).step (fun _ w₄ ⟨hl, h₄⟩ => ?_)
      (fun _ _ hu => .of_untouched hu)
    have h₃₄ := h₃.trans h₄
    have sound := hc.later (h₁.trans (h₂.trans h₃₄)).asked.toLater
    have run : Makes P (runTransition policy t .deploy (issued t .deploy)) w₄ :=
      runTransition_ensures sound (by rwa [h₃₄.catalog, h₂.catalog]) nofun (h₄.catalog ▸ hl)
    exact run.step (fun _ _ h => .pure (h.after h₄)) (fun _ _ h => h.after h₄)

theorem control_ensures {id : String} {action : StreamAction} (hc : w.SoundCatalog)
    (ha : action ∈ [.pause, .resume, .stop]) :
    Makes P (control policy action id) w := by
  refine holding_ensures fun w₁ h₁ => ?_
  refine loadTask_ensures.step (fun t w₂ ⟨_, ht, h₂⟩ => ?_) (fun _ _ hu => .of_untouched hu)
  refine transition_ensures.step (fun _ w₂ ⟨_, he⟩ => ?_) (fun _ _ he => .of_untouched (he ▸ h₂))
  subst he
  have sound := hc.later (h₁.trans h₂).asked.toLater
  have run : Makes P (runTransition policy t action (issued t action)) w₂ :=
    runTransition_ensures sound (h₂.catalog ▸ ht) (by rintro rfl; simp at ha) (by
      cases action <;> trivial)
  have same : issued t action = controlStatement t action := by
    cases action <;> first | rfl | simp at ha
  exact Makes.since h₂ (same ▸ run)

-- The stream that a failed task may have left is dropped, or nothing happens.
theorem dropStream_ensures {t : StreamTask} {action : StreamAction} :
    Ensures (dropStream policy t action) w
      (fun _ w' => w.engine.tables.run (dropStatement t) = .ok w'.engine.tables ∧
        w'.catalog = w.catalog ∧ w.Later w')
      (fun _ w' => w.Unmoved w') := by
  refine .lift ?_
  have run := retryExecute_run policy "drop stream" (dropStatement t) w
  generalize (Program.retryExecute policy "drop stream" (dropStatement t)).run w = r at run
  obtain ⟨f | _, w₁⟩ := r
  · exact .throw run.1
  · exact .pure run

theorem acknowledge_ensures {id : String} (hc : w.SoundCatalog) :
    Makes P (acknowledge policy id) w := by
  refine holding_ensures fun w₁ h₁ => ?_
  refine loadTask_ensures.step (fun t w₂ ⟨_, ht, h₂⟩ => ?_) (fun _ _ hu => .of_untouched hu)
  refine transition_ensures.step (fun next w₂ ⟨hv, he⟩ => ?_)
    (fun _ _ he => .of_untouched (he ▸ h₂))
  subst he
  refine dropStream_ensures.step (fun _ w₃ ⟨hr, hcat, hl⟩ => ?_)
    (fun _ w₃ hu => Moves.after h₂ (.idle (hu.catalog ▸ .refl _) hu.tables))
  have sound := hc.later ((h₁.trans h₂).asked.toLater.trans hl)
  have ht : w₃.catalog.task? t.id = some t := by rw [hcat, h₂.catalog, ht]
  refine (setStatus_ensures sound ht).step (fun a w₄ ⟨ho, he⟩ => ?_) (fun _ _ h => h.elim)
  refine log_ensures.step (fun _ w₅ ⟨hlog, he'⟩ => .pure (Moves.after h₂ ?_)) (fun _ _ h => h.elim)
  obtain rfl : next = .created := by
    cases hs : t.status <;> simp_all [StreamAction.next?]
  rw [hcat] at ho ht
  rw [← he, ← he'] at hr
  exact .acted ht hv (by decide) trivial hr ho hlog

theorem delete_ensures {id : String} (hc : w.SoundCatalog) :
    Makes P (delete policy id) w := by
  refine holding_ensures fun w₁ h₁ => ?_
  refine loadTask_ensures.step (fun t w₂ ⟨hi, ht, h₂⟩ => ?_) (fun _ _ hu => .of_untouched hu)
  refine transition_ensures.step (fun next w₂ ⟨hv, he⟩ => ?_)
    (fun _ _ he => .of_untouched (he ▸ h₂))
  subst he hi
  have sound := hc.later (h₁.trans h₂).asked.toLater
  have remove {w₃} (hcat : w₃.catalog = w₂.catalog) (hl : w₂.Later w₃)
      (hr : t.status = .error → w₂.engine.tables.run (issued t .delete) = .ok w₃.engine.tables)
      (hs : t.status ≠ .error → w₃.engine.tables = w₂.engine.tables) :
      Ensures (do
        catalog policy (.deleteTask t.id)
        ExceptT.lift (Program.forget (.stream t.id))) w₃
        (fun _ w' => Moves P w₁ w') (fun _ w' => Moves P w₁ w') := by
    have ht : w₂.catalog.task? t.id = some t := by rw [h₂.catalog, ht]
    refine (catalog_ensures).step (fun _ w₄ ⟨ho, he, _⟩ => ?_) (fun _ _ ⟨_, e, hf⟩ => ?_)
    · refine Ensures.pure (Moves.after h₂ (.deleted ht hv ?_ ?_ (hcat ▸ ho)))
      · exact fun hs => he ▸ hr hs
      · exact fun hn => (congrArg _ he).trans (hs hn)
    · have refused := hf.refused_of_sound (sound.later hl)
      simp [CatalogOp.perform, Catalog.deleteTask, hcat, ht] at refused
  split
  case isTrue hs =>
    refine dropStream_ensures.step (fun _ w₃ ⟨hr, hcat, hl⟩ => ?_)
      (fun _ w₃ hu => Moves.after h₂ (.idle (hu.catalog ▸ .refl _) hu.tables))
    exact remove hcat hl (fun _ => hr) (fun hn => absurd (by simpa using hs) hn)
  case isFalse hs =>
    exact remove rfl (.refl _) (fun he => by simp [he] at hs) (fun _ => rfl)

theorem Call.moves {call : Call} (hc : w.SoundCatalog) (hp : call.Within P) (policy : RetryPolicy) :
    Moves P w (call.run policy w) := by
  cases call with
  | register => exact register_ensures.moves
  | create => exact (create_ensures hp).moves
  | deploy => exact (deploy_ensures hc).moves
  | pause | resume | stop =>
    exact (control_ensures hc (by decide)).moves
  | acknowledge => exact (acknowledge_ensures hc).moves
  | delete => exact (delete_ensures hc).moves

end Historian.StreamManager
