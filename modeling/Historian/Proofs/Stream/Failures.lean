import Historian.Proofs.Program.Replies
import Historian.Proofs.Stream.Deletion
import Historian.Proofs.Stream.Replay
import Historian.Proofs.Stream.Requests

namespace Historian.StreamManager

open Engine World

variable {w w' w₁ w₂ : World Service} {policy : RetryPolicy} {t : StreamTask} {id : String}
  {action : StreamAction}

-- One line is new in the log of a task, and it is a warning or an error.
def Noted (id : String) (w w' : World Service) : Prop :=
  ∃ l : LogLine, l.level ≠ .info ∧ w'.catalog.listLogs id = w.catalog.listLogs id ++ [l]

-- A failure of the engine leaves the task there, with a line in its log or without one.
structure Aftermath (id : String) (action : StreamAction) (w w' : World Service) : Prop where
  there : (w'.catalog.task? id).isSome
  logs : if action.failsIntoError then Noted id w w'
    else w'.catalog.listLogs id = w.catalog.listLogs id

theorem Aftermath.between (h₁ : w₁.catalog.logs = w.catalog.logs) (h : Aftermath id action w₁ w₂)
    (h₂ : w'.catalog = w₂.catalog) : Aftermath id action w w' := by
  obtain ⟨there, logs⟩ := h
  simp only [Noted, Catalog.listLogs, h₁] at logs
  exact ⟨h₂ ▸ there, by simpa only [Noted, Catalog.listLogs, h₂] using logs⟩

-- An action that does not succeed when the engine fails, and what comes of the failure.
abbrev Accounts (a : Action α) (id : String) (action : StreamAction) (w : World Service) : Prop :=
  Hears a w (fun as _ _ => ¬Thwarted as) fun as _ w' => Thwarted as → Aftermath id action w w'

-- The parts of a call that leave the engine alone.

abbrev Silent (a : Action α) : Prop := Within (¬·.Executes) a

theorem waits_silent (millis : Nat) : ¬(Request.wait millis).Executes :=
  not_false

theorem reads_silent (op : CatalogOp) : ¬(Request.catalog op).Executes :=
  not_false

theorem catalog_silent : Silent (catalog policy op) :=
  catalog_within waits_silent reads_silent op

theorem loadTask_silent : Silent (loadTask policy id) :=
  loadTask_within waits_silent reads_silent

theorem requireNoLiveGeneration_silent : Silent (requireNoLiveGeneration policy t) :=
  requireNoLiveGeneration_within waits_silent reads_silent

theorem not_thwarted_nil : ¬Thwarted [] :=
  fun h => h.ne_nil rfl

namespace Accounts

theorem of_quiet {a : Action α} (hs : Silent a) : Accounts a id action w :=
  (Hears.quiet hs (Ensures.always (fun _ _ => trivial) fun _ _ => trivial)).mono
    (fun _ _ _ h => h.1 ▸ not_thwarted_nil)
    fun _ _ _ h thwarted => absurd (h.1 ▸ thwarted) not_thwarted_nil

theorem after {a : Action α} {f : α → Action β} {Q : α → World Service → Prop}
    {E : StreamError → World Service → Prop} (hs : Silent a) (ha : Ensures a w Q E)
    (hf : ∀ x w', Q x w' → w'.catalog.logs = w.catalog.logs ∧ Accounts (f x) id action w') :
    Accounts (a >>= f) id action w := by
  refine (Hears.quiet hs ha).step (fun as x w' ⟨silent, hq⟩ => ?_)
    fun as _ _ ⟨silent, _⟩ thwarted => absurd (silent ▸ thwarted) not_thwarted_nil
  subst silent
  obtain ⟨same, rest⟩ := hf x w' hq
  exact rest.mono (fun _ _ _ h => h) fun _ _ _ h thwarted => (h thwarted).between same rfl

theorem holding {key : String} {a : Action α}
    (h : ∀ w₁, w.Untouched w₁ → Accounts a id action w₁) :
    Accounts (holding key a) id action w :=
  Hears.holding fun w₁ h₁ => (h w₁ h₁).mono (fun _ _ _ h _ _ => h)
    fun _ _ _ h _ h₂ thwarted => (h thwarted).between (by rw [h₁.catalog]) h₂.catalog

-- What only drops the result.
theorem returning {a : Action α} (h : Accounts a id action w) (y : β) :
    Accounts (a >>= fun _ => pure y) id action w :=
  h.step (fun as _ _ hn => .pure (by rwa [List.append_nil])) fun _ _ _ h => h

end Accounts

-- The engine calls.

theorem listLogs_appended {c c' : Catalog} (h : c.appendLog id level message = .ok (u, c')) :
    ∃ l : LogLine, l.level = level ∧ c'.listLogs id = c.listLogs id ++ [l] ∧ c'.tasks = c.tasks := by
  unfold Catalog.appendLog at h
  split at h <;> cases h
  exact ⟨⟨c.next.log, id, level, message⟩, rfl, by simp [Catalog.listLogs], rfl⟩

theorem noting {e : StreamError} (hc : w.SoundCatalog) (there : (w.catalog.task? id).isSome)
    (ha : action.failsIntoError) (hl : level ≠ .info) :
    Ensures (log policy id level message >>= fun _ => (throw e : Action α)) w (fun _ _ => False)
      fun _ w' => Aftermath id action w w' := by
  refine (log_appends hc there).step (fun _ w₁ ⟨appended, _⟩ => .throw ?_) fun _ _ h => h.elim
  obtain ⟨l, rfl, lines, tasks⟩ := listLogs_appended appended
  refine ⟨?_, by simpa only [ha, if_true] using ⟨l, hl, lines⟩⟩
  rwa [Catalog.task?, tasks]

theorem runTransition_accounts (hc : w.SoundCatalog) (ht : w.catalog.task? t.id = some t)
    (ha : action.failsIntoError) : Accounts (runTransition policy t action sql) t.id action w := by
  refine .after transition_within transition_ensures fun next w' ⟨_, same⟩ => ?_
  subst same
  refine ⟨rfl, .lift ?_⟩
  have told := Program.retryExecute_told policy action.name sql w'
  have run := retryExecute_run policy action.name sql w'
  generalize (Program.retryExecute policy action.name sql).replies w' = replies at told
  generalize (Program.retryExecute policy action.name sql).run w' = r at told run
  obtain ⟨f | _, w₁⟩ := r
  case ok =>
    have done (as : List Reply) : ¬Thwarted (replies ++ as) :=
      not_thwarted (List.mem_append_left _ told)
    exact .of_ensures (.always (fun _ _ => done _) fun _ _ h => absurd h (done _))
  case error =>
    obtain ⟨unmoved, -⟩ := run
    have sound := hc.later unmoved.toLater
    rw [← unmoved.catalog] at ht
    refine Hears.mono (.of_ensures (Q := fun _ _ => False)
      (E := fun _ w'' => Aftermath t.id action w₁ w'') ?_) (fun _ _ _ h => h.elim)
      fun _ _ _ h _ => h.between (by rw [unmoved.catalog]) rfl
    simp only [ha, if_true]
    have warned : LogLevel.warn ≠ .info := nofun
    have severe : LogLevel.error ≠ .info := nofun
    split
    case isTrue => exact noting sound (by simp [ht]) ha warned
    case isFalse =>
      refine ((setStatus_ensures sound ht).and (.stays_sound sound)).step
        (fun r w₂ ⟨⟨set, _⟩, sound⟩ => ?_) fun _ _ h => h.1.elim
      have there := Catalog.task?_isSome ((Catalog.mem_setTaskStatus ht set).mpr (.inr rfl))
      obtain ⟨_, -, -, same⟩ := Catalog.setTaskStatus_ok set
      exact (noting sound there ha severe).mono (fun _ _ h => h)
        fun _ _ h => h.between (by rw [same]) rfl

-- Nothing is written down when a stream cannot be dropped.
theorem dropStream_accounts {f : Unit → Action α} (ht : w.catalog.task? t.id = some t)
    (ha : action.failsIntoError = false) :
    Accounts (dropStream policy t action >>= f) t.id action w := by
  have told := Program.retryExecute_told policy "drop stream" (dropStatement t) w
  have run := retryExecute_run policy "drop stream" (dropStatement t) w
  have dropped : Hears (dropStream policy t action) w (fun as _ _ => some (.ok ()) ∈ as)
      fun _ _ w' => w'.catalog = w.catalog := by
    refine .lift ?_
    generalize (Program.retryExecute policy "drop stream" (dropStatement t)).replies w = replies
      at told
    generalize (Program.retryExecute policy "drop stream" (dropStatement t)).run w = r at told run
    obtain ⟨f | _, w₁⟩ := r
    · exact .throw run.1.catalog
    · exact .pure (List.mem_append_left _ told)
  refine dropped.step (fun as _ w' told => ?_) fun _ _ w' same _ => ?_
  · have done (bs : List Reply) : ¬Thwarted (as ++ bs) :=
      not_thwarted (List.mem_append_left _ told)
    exact .of_ensures (.always (fun _ _ => done _) fun _ _ h => absurd h (done _))
  · exact ⟨by simp [same, ht], by simp [ha, same]⟩

-- The calls.

theorem finding_accounts {f : StreamTask → Action α} (hc : w.SoundCatalog)
    (h : ∀ t w', w'.SoundCatalog → w'.catalog.task? t.id = some t →
      Accounts (f t) t.id action w') :
    Accounts (holding id do f (← loadTask policy id)) id action w := by
  refine .holding fun w₁ h₁ => ?_
  have sound := hc.later h₁.asked.toLater
  refine .after loadTask_silent loadTask_ensures fun t w₂ ⟨hi, ht, h₂⟩ => ?_
  refine ⟨by rw [h₂.catalog], hi ▸ h t w₂ (sound.later h₂.asked.toLater) (h₂.catalog ▸ ht)⟩

theorem acting_accounts {f : StreamTask → Action α} (hc : w.SoundCatalog)
    (h : ∀ t w', w'.SoundCatalog → w'.catalog.task? t.id = some t →
      Accounts (f t) t.id action w') :
    Accounts (holding id do
      let t ← loadTask policy id
      let _ ← transition t action
      f t) id action w := by
  refine finding_accounts hc fun t w₁ sound ht => ?_
  refine .after transition_within transition_ensures fun _ w₂ ⟨_, same⟩ => ?_
  subst same
  exact ⟨rfl, h t w₂ sound ht⟩

theorem deploy_accounts (hc : w.SoundCatalog) : Accounts (deploy policy id) id .deploy w := by
  refine finding_accounts hc fun t w₁ sound ht => ?_
  split
  case isTrue => exact .of_quiet trivial
  case isFalse hr =>
    refine .after transition_within transition_ensures fun _ w₂ ⟨hv, same⟩ => ?_
    subst same
    refine ⟨rfl, .holding fun w₃ h₃ => ?_⟩
    have created := created_of_next hv hr
    refine .after requireNoLiveGeneration_silent (requireNoLiveGeneration_ensures created)
      fun _ w₄ ⟨_, h₄⟩ => ?_
    refine ⟨by rw [h₄.catalog], .returning ?_ true⟩
    exact runTransition_accounts (sound.later (h₃.trans h₄).asked.toLater)
      (by rw [h₄.catalog, h₃.catalog, ht]) rfl

theorem carryOut_accounts (hc : w.SoundCatalog) (policy : RetryPolicy) (id : String)
    (action : StreamAction) : Accounts (carryOut policy id action) id action w := by
  have control {action : StreamAction} (ha : action.failsIntoError) :
      Accounts (control policy action id) id action w :=
    acting_accounts hc fun _ _ sound ht => runTransition_accounts sound ht ha
  cases action with
  | deploy => exact (deploy_accounts hc).returning ()
  | pause | resume | stop => exact (control rfl).returning ()
  | acknowledge =>
    have acknowledge : Accounts (acknowledge policy id) id .acknowledge w :=
      acting_accounts hc fun _ _ _ ht => dropStream_accounts ht rfl
    exact acknowledge.returning ()
  | delete =>
    refine acting_accounts hc fun t w₁ sound ht => ?_
    split
    case isTrue => exact dropStream_accounts ht rfl
    case isFalse =>
      refine .of_quiet (catalog_silent.step fun _ => ?_)
      exact Program.Asks.bind (.request not_false) fun _ => trivial

theorem thwarted_fails (hc : w.SoundCatalog)
    (failed : Thwarted ((carryOut policy id action).run.replies w)) :
    ∃ e w', (carryOut policy id action).run.run w = (.error e, w') ∧ Aftermath id action w w' := by
  have accounts := carryOut_accounts hc policy id action
  simp only [Accounts, Hears, Ensures] at accounts
  generalize (carryOut policy id action).run.run w = r at *
  obtain ⟨e | _, w'⟩ := r
  · exact ⟨e, w', rfl, accounts failed⟩
  · exact absurd failed accounts

theorem not_noted_of_same (h : w'.catalog.listLogs id = w.catalog.listLogs id) :
    ¬Noted id w w' := by
  rintro ⟨l, -, lines⟩
  simp [h] at lines

theorem failsIntoError_iff :
    action.failsIntoError ↔ action ≠ .acknowledge ∧ action ≠ .delete := by
  cases action <;> decide

-- A failure of the engine is in the log of the task if the action was to deploy, pause, resume or
-- stop its stream, and only then. What an action cannot drop of a failed task is not told.
theorem failure_noted_iff (hc : w.SoundCatalog)
    (failed : Thwarted ((carryOut policy id action).run.replies w)) :
    ∃ e w', (carryOut policy id action).run.run w = (.error e, w') ∧
      (w'.catalog.task? id).isSome ∧
      (Noted id w w' ↔ action ≠ .acknowledge ∧ action ≠ .delete) ∧
      (¬Noted id w w' → w'.catalog.listLogs id = w.catalog.listLogs id) := by
  obtain ⟨e, w', run, there, logs⟩ := thwarted_fails hc failed
  refine ⟨e, w', run, there, ?_⟩
  rw [← failsIntoError_iff]
  split at logs
  case isTrue ha => exact ⟨iff_of_true logs ha, fun hn => absurd logs hn⟩
  case isFalse ha => exact ⟨iff_of_false (not_noted_of_same logs) ha, fun _ => logs⟩

-- The engine refuses to pause a stream, and then to drop it.

def refusing (es : List Event) : World Service :=
  Event.meeting (Event.run es) [.rejected ⟨0x2601⟩ "no"]

theorem sound_refusing (es : List Event) : (refusing es).SoundCatalog :=
  rfl

theorem thwarted_of_error {replies : List Reply}
    (h : replies.map (·.map Except.toOption) = [some none]) : Thwarted replies := by
  obtain ⟨a, rfl, ha⟩ := List.map_eq_singleton_iff.mp h
  refine ⟨List.cons_ne_nil _ _, List.forall_mem_singleton.mpr ?_⟩
  rintro rfl
  cases ha

theorem refusals_thwarted :
    Thwarted ((carryOut {} "t1" .pause).run.replies (refusing deployed)) ∧
      Thwarted ((carryOut {} "t1" .acknowledge).run.replies (refusing refused)) := by
  have outcomes : ((carryOut {} "t1" .pause).run.replies (refusing deployed)).map
        (·.map Except.toOption) = [some none] ∧
      ((carryOut {} "t1" .acknowledge).run.replies (refusing refused)).map
        (·.map Except.toOption) = [some none] := by
    delta refusing Event.run Event.apply Call.run Synchronizer.Call.run Service.instEndpoint
      Service.execute Service.receive Tables.apply
    rw [Sql.tokenize_characters]
    decide +kernel
  exact outcomes.imp thwarted_of_error thwarted_of_error

theorem managed_refusing {es : List Event} (he : ∀ op, .edit op ∈ es → ¬op.Records) :
    Managed (refusing es) :=
  ((Managed.fresh rfl).events he).arranged rfl

theorem failure_noted_refused :
    (∃ e w', (carryOut {} "t1" .pause).run.run (refusing deployed) = (.error e, w') ∧
      Noted "t1" (refusing deployed) w') ∧
    ∃ e w', (carryOut {} "t1" .acknowledge).run.run (refusing refused) = (.error e, w') ∧
      ¬Noted "t1" (refusing refused) w' := by
  constructor
  · obtain ⟨e, w', run, -, noted, -⟩ := failure_noted_iff (sound_refusing _) refusals_thwarted.1
    exact ⟨e, w', run, noted.mpr (by decide)⟩
  · obtain ⟨e, w', run, -, noted, -⟩ := failure_noted_iff (sound_refusing _) refusals_thwarted.2
    exact ⟨e, w', run, fun h => absurd (noted.mp h).1 (by decide)⟩

-- The documentation promises a line for every failure.
theorem failure_untold :
    ¬∀ (w : World Service) (policy : RetryPolicy) (id : String) (action : StreamAction),
      Managed w → w.SoundCatalog → Thwarted ((carryOut policy id action).run.replies w) →
      ∃ e w', (carryOut policy id action).run.run w = (.error e, w') ∧
        (w'.catalog.task? id).isSome ∧ Noted id w w' := by
  intro told
  have managed : Managed (refusing refused) :=
    managed_refusing (by simp [refused, deployed, CatalogOp.Records])
  obtain ⟨e, w', run, -, noted⟩ :=
    told _ {} "t1" .acknowledge managed (sound_refusing _) refusals_thwarted.2
  obtain ⟨e, w₁, same, -, logs⟩ := thwarted_fails (sound_refusing _) refusals_thwarted.2
  obtain rfl : w' = w₁ := congrArg Prod.snd (run.symm.trans same)
  exact not_noted_of_same logs noted

end Historian.StreamManager
