import Historian.Proofs.Catalog.Audit
import Historian.Proofs.Schema.Frame
import Historian.Proofs.Stream.Lifecycle

namespace Historian

namespace StreamManager

open Engine World

variable {w w' : World Service} {policy : RetryPolicy} {t : StreamTask}

-- A catalog whose logs account for its tasks, and which is healthy.
structure Accountable (w : World Service) : Prop where
  sound : w.SoundCatalog
  audited : w.catalog.Audited

theorem Accountable.unmoved (h : Accountable w) (hu : w.Unmoved w') : Accountable w' :=
  ⟨h.sound.later hu.toLater, hu.catalog ▸ h.audited⟩

theorem Accountable.untouched (h : Accountable w) (hu : w.Untouched w') : Accountable w' :=
  h.unmoved hu.asked.toUnmoved

-- However the action ends, the logs account for the tasks still.
abbrev Keeps (a : Action α) (w : World Service) : Prop :=
  Ensures a w (fun _ w' => Accountable w') (fun _ w' => Accountable w')

-- A task that is there gets its line, the catalog being sound.
theorem log_appends {id : String} (hc : w.SoundCatalog) (ht : (w.catalog.task? id).isSome) :
    Ensures (log policy id level message) w
      (fun _ w' => w.catalog.appendLog id level message = .ok ((), w'.catalog) ∧ w'.SoundCatalog)
      (fun _ _ => False) := by
  refine .lift (.pure ?_)
  have ends := retryCatalog_run policy (.appendLog id level message) w
  generalize (Program.retryCatalog policy (.appendLog id level message)).run w = r at ends
  obtain ⟨_ | _, w'⟩ := r
  · have refused := ends.of_legible.2.refused_of_sound hc
    simp [CatalogOp.perform, Catalog.appendLog, ht] at refused
  · exact ⟨ends.2.1, hc.mono ends.2.2.2⟩

-- The parts of calls that write to the log.

theorem note_keeps {f : Unit → Action α} (h : Accountable w) (ht : w.catalog.task? t.id = some t)
    (he : Entry.read message level = some e) (hs : e.Leads t.status t.status)
    (hf : ∀ w', Accountable w' → Keeps (f ()) w') :
    Keeps (log policy t.id level message >>= f) w := by
  have there : (w.catalog.task? t.id).isSome := by simp [ht]
  refine (log_appends h.sound there).step (fun _ w₁ ⟨hl, hc⟩ => hf w₁ ?_) (fun _ _ h => h.elim)
  exact ⟨hc, h.audited.noted ht hl he hs⟩

theorem turn_keeps {f : StreamTask → Action α} (h : Accountable w)
    (ht : w.catalog.task? t.id = some t) (he : Entry.read message level = some e)
    (hs : e.Leads t.status s) (hf : ∀ r w', Accountable w' → Keeps (f r) w') :
    Keeps (do
      let r ← setStatus policy t.id s cause
      log policy t.id level message
      f r) w := by
  refine ((setStatus_ensures h.sound ht).and (.stays_sound h.sound)).step
    (fun r w₁ ⟨⟨ho, _⟩, hc⟩ => ?_) (fun _ _ h => h.1.elim)
  have turned := (Catalog.mem_setTaskStatus ht ho).mpr (.inr rfl)
  have there := Catalog.task?_isSome turned
  refine (log_appends hc there).step (fun _ w₂ ⟨hl, hc⟩ => hf r w₂ ?_) (fun _ _ h => h.elim)
  exact ⟨hc, h.audited.turned ht ho hl he hs⟩

theorem holding_keeps {key : String} {a : Action α} (h : Accountable w)
    (ha : ∀ w₁, w.Untouched w₁ → Accountable w₁ → Keeps a w₁) : Keeps (holding key a) w :=
  .holding fun w₁ h₁ => (ha w₁ h₁ (h.untouched h₁)).mono (fun _ _ h _ h₂ => h.untouched h₂)
    (fun _ _ h _ h₂ => h.untouched h₂)

-- An operation that is for others too.
theorem catalog_keeps {op : CatalogOp} [op.Legible] (h : Accountable w) (hop : ¬op.Records) :
    Keeps (catalog policy op) w :=
  catalog_ensures.mono
    (fun _ _ ⟨ho, _, hs⟩ =>
      ⟨h.sound.mono hs, h.audited.thins (Catalog.perform_thins h.audited.numbered hop ho)⟩)
    (fun _ _ hu => h.untouched hu.1)

-- What a call does once it has found the task and the action is valid for it.
theorem acting_keeps {id : String} {action : StreamAction} {f : StreamTask → Action α}
    (h : Accountable w)
    (hf : ∀ t w₁, w₁.catalog.task? t.id = some t → Accountable w₁ → Keeps (f t) w₁) :
    Keeps (holding id do
      let t ← loadTask policy id
      let _ ← transition t action
      f t) w := by
  refine holding_keeps h fun w₁ _ h₁ => ?_
  refine loadTask_ensures.step (fun t w₂ ⟨_, ht, h₂⟩ => ?_) (fun _ _ hu => h₁.untouched hu)
  refine transition_ensures.step (fun _ w₃ ⟨_, he⟩ => ?_) (fun _ _ he => h₁.untouched (he ▸ h₂))
  subst he
  exact hf t _ (h₂.catalog ▸ ht) (h₁.untouched h₂)

theorem runTransition_keeps {action : StreamAction} (h : Accountable w)
    (ht : w.catalog.task? t.id = some t) (ha : action.failsIntoError) :
    Keeps (runTransition policy t action sql) w := by
  refine transition_ensures.step (fun next w ⟨hv, he⟩ => ?_) (fun _ _ he => he ▸ h)
  subst he
  refine .lift ?_
  have run := retryExecute_run policy action.name sql w
  generalize (Program.retryExecute policy action.name sql).run w = r at run
  obtain ⟨f | _, w₁⟩ := r
  case ok =>
    obtain ⟨-, hcat, hl⟩ := run
    have h₁ : Accountable w₁ := ⟨h.sound.later hl, hcat ▸ h.audited⟩
    exact turn_keeps h₁ (hcat ▸ ht) (Entry.read_moved hv) .moved fun _ _ h => .pure h
  case error =>
    have h₁ := h.unmoved run.1
    rw [← run.1.catalog] at ht
    simp only [ha, if_true]
    split
    case isTrue => exact note_keeps h₁ ht rfl .remark fun _ h => .throw h
    case isFalse => exact turn_keeps h₁ ht rfl .failed fun _ _ h => .throw h

-- The calls.

theorem register_keeps {document : Json} (h : Accountable w) :
    Keeps (register policy category document) w :=
  validated_ensures.step (fun (_, _) _ h₁ => catalog_keeps (h.untouched h₁) not_false)
    (fun _ _ hu => h.untouched hu)

theorem createTask_keeps {s : CompiledStream} (h : Accountable w) :
    Keeps (createTask policy category feature s) w := by
  refine (read_ensures rfl).step (fun tasks w₁ ⟨_, h₁⟩ => ?_) (fun _ _ hu => h.untouched hu)
  have h₁ := h.untouched h₁
  split
  case h_1 => exact .bind (.throw h₁)
  case h_2 =>
    refine (catalog_ensures).step (fun t w₂ ⟨ho, _, hs⟩ => ?_) (fun _ _ h => h₁.untouched h.1)
    have hc : w₂.SoundCatalog := h₁.sound.mono hs
    have there := Catalog.task?_isSome ((Catalog.mem_createTask ho).mpr (.inr rfl))
    refine (log_appends hc there).step (fun _ w₃ ⟨hl, hc⟩ => .pure ?_) (fun _ _ h => h.elim)
    exact ⟨hc, h₁.audited.created ho hl (Entry.read_created _ _)⟩

theorem create_keeps {category feature : String} (h : Accountable w) :
    Keeps (create policy category feature) w :=
  compile_ensures.step
    (fun _ _ ⟨_, h₁⟩ => holding_keeps (h.untouched h₁) fun _ _ h => createTask_keeps h)
    (fun _ _ hu => h.untouched hu)

theorem deploy_keeps {id : String} (h : Accountable w) : Keeps (deploy policy id) w := by
  refine holding_keeps h fun w₁ _ h₁ => ?_
  refine loadTask_ensures.step (fun t w₂ ⟨_, ht, h₂⟩ => ?_) (fun _ _ hu => h₁.untouched hu)
  split
  case isTrue => exact .pure (h₁.untouched h₂)
  case isFalse hr =>
    refine transition_ensures.step (fun next w₂ ⟨hv, he⟩ => ?_)
      (fun _ _ he => h₁.untouched (he ▸ h₂))
    subst he
    refine holding_keeps (h₁.untouched h₂) fun w₃ h₃ hk₃ => ?_
    refine (requireNoLiveGeneration_ensures (created_of_next hv hr)).step (fun _ w₄ ⟨_, h₄⟩ => ?_)
      (fun _ _ hu => hk₃.untouched hu)
    have ht : w₄.catalog.task? t.id = some t := by rw [h₄.catalog, h₃.catalog, h₂.catalog, ht]
    exact (runTransition_keeps (hk₃.untouched h₄) ht rfl).step (fun _ _ h => .pure h)
      (fun _ _ h => h)

theorem control_keeps {id : String} {action : StreamAction} (h : Accountable w)
    (ha : action.failsIntoError) : Keeps (control policy action id) w :=
  acting_keeps h fun _ _ ht h => runTransition_keeps h ht ha

theorem acknowledge_keeps {id : String} (h : Accountable w) :
    Keeps (acknowledge policy id) w := by
  refine acting_keeps h fun t w₁ ht h₁ => ?_
  refine dropStream_ensures.step (fun _ w₂ ⟨_, hcat, hl⟩ => ?_) (fun _ _ hu => h₁.unmoved hu)
  have h₂ : Accountable w₂ := ⟨h₁.sound.later hl, hcat ▸ h₁.audited⟩
  exact turn_keeps h₂ (hcat ▸ ht) rfl .acknowledged fun _ _ h => .pure h

theorem delete_keeps {id : String} (h : Accountable w) : Keeps (delete policy id) w := by
  have remove {w₁} (h : Accountable w₁) : Keeps (do
      catalog policy (.deleteTask id)
      ExceptT.lift (Program.forget (.stream id))) w₁ := by
    have deleted : Keeps (catalog policy (.deleteTask id)) w₁ := catalog_keeps h not_false
    exact deleted.step (fun _ _ h => Ensures.pure ⟨h.sound, h.audited⟩) (fun _ _ h => h)
  refine acting_keeps h fun t w₁ _ h₁ => ?_
  split
  case isTrue =>
    refine dropStream_ensures.step (fun _ w₂ ⟨_, hcat, hl⟩ => ?_) (fun _ _ hu => h₁.unmoved hu)
    exact remove ⟨h₁.sound.later hl, hcat ▸ h₁.audited⟩
  case isFalse => exact remove h₁

theorem Call.accountable (h : Accountable w) (policy : RetryPolicy) (call : Call) :
    Accountable (call.run policy w) := by
  have after {α} {a : Action α} (h : Keeps a w) : Accountable (a.run.run w).2 :=
    Ensures.after h (fun _ _ h => h) (fun _ _ h => h)
  cases call with
  | register => exact after (register_keeps h)
  | create => exact after (create_keeps h)
  | deploy => exact after (deploy_keeps h)
  | pause | resume | stop => exact after (control_keeps h rfl)
  | acknowledge => exact after (acknowledge_keeps h)
  | delete => exact after (delete_keeps h)

end StreamManager

namespace Synchronizer

open Engine World

variable {w : World Service}

-- No call of the synchronizer writes to the log of a task, the catalog being sound.
theorem call_logs (hc : w.SoundCatalog) (policy : RetryPolicy) (call : Call) :
    (call.run policy w).catalog.logs = w.catalog.logs := by
  have synced {w' code} (h : Respects code w w') : w'.catalog.logs = w.catalog.logs := by
    cases h with
    | nothing _ hc => rw [hc]
    | own _ _ hc =>
      obtain hc | ⟨_, _, hc⟩ := hc
      · rw [hc]
      · rw [hc]
        rfl
  cases call with
  | sync | resync =>
    exact holding_respects.after (fun _ _ h => synced h) (fun _ _ h => synced h)
  | ensureChildTable category asset =>
    have attached {w'} (h : Attaches category asset w w') : w'.catalog.logs = w.catalog.logs := by
      cases h with
      | nothing _ hc => rw [hc]
      | own _ h => rw [h.catalog]
    exact ensureChildTable_attaches.after (fun _ _ h => attached h) (fun _ _ h => attached h)
  | provision spec =>
    have furnished {w'} (h : Furnishes spec w w') : w'.catalog.logs = w.catalog.logs := by
      cases h with
      | nothing _ hc => rw [hc]
      | own _ _ h => rw [h.rest]
    have undeceived : Undeceived spec.code w := by
      intro name code met
      exact absurd (hc ▸ met) List.not_mem_nil
    exact (provision_furnishes undeceived).after (fun _ _ h => furnished h)
      (fun _ _ h => furnished h)

end Synchronizer

namespace StreamManager

open Engine World

-- A fresh catalog and calls of the manager one after another, whatever the engine answers, while
-- the catalog is healthy. Others than the manager neither make tasks nor write to their logs, but
-- tasks may go, by themselves or with their category.
inductive Managed : World Service → Prop
  | fresh (hc : w.catalog = {}) : Managed w
  | arranged (h : Managed w) (hc : w'.catalog = w.catalog) : Managed w'
  | edited (h : Managed w) (op : CatalogOp) (hop : ¬op.Records) : Managed (w.edit op)
  | synchronized (h : Managed w) (hc : w.SoundCatalog) (policy : RetryPolicy)
    (call : Synchronizer.Call) : Managed (call.run policy w)
  | managed (h : Managed w) (hc : w.SoundCatalog) (policy : RetryPolicy) (call : Call) :
    Managed (call.run policy w)

variable {w : World Service}

theorem Managed.audited (h : Managed w) : w.catalog.Audited := by
  induction h with
  | fresh hc => exact hc ▸ ⟨⟨.nil, nofun⟩, nofun, nofun⟩
  | arranged _ hc ih => exact hc ▸ ih
  | edited _ op hop ih =>
    unfold World.edit
    split
    case h_1 h => exact ih.thins (Catalog.perform_thins ih.numbered hop h)
    case h_2 => exact ih
  | @synchronized w _ hc policy call ih =>
    have kept := call.kept policy w
    have logs := Synchronizer.call_logs hc policy call
    exact ih.thins (.of_eq ih.numbered kept.tasks logs kept.nextTask)
  | managed _ hc policy call ih => exact (Call.accountable ⟨hc, ih⟩ policy call).audited

theorem Managed.events {es : List Event} (h : Managed w) (he : ∀ op, .edit op ∈ es → ¬op.Records) :
    Managed (es.foldl Event.apply w) := by
  induction es generalizing w with
  | nil => exact h
  | cons e es ih =>
    refine ih ?_ fun op hop => he op (List.mem_cons_of_mem _ hop)
    have met faults : Managed (Event.meeting w faults) := h.arranged rfl
    cases e with
    | edit op => exact h.edited op (he op List.mem_cons_self)
    | sync c => exact (met _).synchronized rfl {} c
    | call c faults => exact (met faults).managed rfl {} c

-- The log of a task accounts for its status: every line of it can be read, the lines one after
-- another come to the status, and an action began where the lines before it had come to.
theorem log_replays (h : Managed w) : ∀ t ∈ w.catalog.tasks,
    (∀ l ∈ w.catalog.listLogs t.id, l.entry?.isSome) ∧
    replay (w.catalog.listLogs t.id) = some t.status ∧
    ∀ before l after action s s', w.catalog.listLogs t.id = before ++ l :: after →
      l.entry? = some (.moved action s s') → replay before = some s := by
  intro t ht
  have told := h.audited.told t ht
  exact ⟨told.legible, told.replays, fun _ _ _ _ _ _ hl he => told.begins hl he⟩

-- A task with lines of all kinds in its log.
def eventful : List Event :=
  deployed ++ [ .call (.pause "t1") (List.replicate 3 (.transport "down")), .call (.pause "t1"),
    .call (.resume "t1") [.rejected ⟨0x2601⟩ "no"], .call (.acknowledge "t1") ]

theorem run_eventful :
    let w := Event.run eventful
    w.catalog.tasks.map (fun t => (t.id, t.status)) = [("t1", .created)] ∧
    (w.catalog.listLogs "t1").map (fun l => (l.level, l.message)) =
      [(.info, "Created from feature avg1 generation 1"), (.info, "deploy: created -> running"),
        (.warn, "pause failed after 3 attempts: Transport error: down"),
        (.info, "pause: running -> paused"),
        (.error, "resume rejected by engine: Engine rejected statement [0x2601]: no"),
        (.info, "Error acknowledged; ready to redeploy")] := by
  delta Event.run Event.apply Call.run Synchronizer.Call.run Service.instEndpoint Service.execute
    Service.receive Tables.apply
  rw [Sql.tokenize_characters]
  decide +kernel

theorem log_replays_eventful :
    let w := Event.run eventful
    Managed w ∧ ∃ t ∈ w.catalog.tasks, t.status = .created ∧
      replay (w.catalog.listLogs t.id) = some .created ∧
      ∃ before l after, w.catalog.listLogs t.id = before ++ l :: after ∧
        l.entry? = some (.moved .pause .running .paused) ∧ replay before = some .running := by
  have unrecorded : ∀ op, .edit op ∈ eventful → ¬op.Records := by
    simp [eventful, deployed, CatalogOp.Records]
  have managed : Managed (Event.run eventful) := (Managed.fresh rfl).events unrecorded
  have replays := log_replays managed
  obtain ⟨statuses, lines⟩ := run_eventful
  simp only
  generalize Event.run eventful = w at *
  obtain ⟨t, ht, he⟩ := List.map_eq_singleton_iff.mp statuses
  obtain ⟨hi, hs⟩ := Prod.mk.inj he
  have there : t ∈ w.catalog.tasks := by simp [ht]
  obtain ⟨-, status, begins⟩ := replays t there
  have parts : (w.catalog.listLogs t.id).map _ = [_, _, _] ++ [_, _, _] := hi ▸ lines
  obtain ⟨before, rest, hl, -, hr⟩ := List.map_eq_append_iff.mp parts
  obtain ⟨l, after, rfl, hm, -⟩ := List.map_eq_cons_iff.mp hr
  obtain ⟨level, message⟩ := Prod.mk.inj hm
  have moved : l.entry? = some (.moved .pause .running .paused) := by
    rw [LogLine.entry?, level, message]
    rfl
  exact ⟨managed, t, there, hs, hs ▸ status, before, l, after, hl, moved,
    begins before l after _ _ _ hl moved⟩

end StreamManager

end Historian
