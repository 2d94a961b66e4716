import Historian.Proofs.Program.Attempts
import Historian.Proofs.Stream.Lifecycle

namespace Historian

open Engine

namespace Catalog

-- The catalog with a row that takes the place of the task of its number.
def put (c : Catalog) (t : StreamTask) : Catalog :=
  { c with tasks := c.tasks.map fun r => if r.id = t.id then t else r }

-- The catalog with one more line in the log of a task.
def noting (c : Catalog) (id : String) (level : LogLevel) (message : String) : Catalog :=
  { c with
    logs := c.logs ++ [⟨c.next.log, id, level, message⟩]
    next := { c.next with log := c.next.log + 1 } }

variable {c : Catalog} {t : StreamTask} {id : String}

theorem setTaskStatus_put (ht : c.task? t.id = some t) :
    c.setTaskStatus t.id status cause = .ok
      ({ t with status, lastError := cause }, c.put { t with status, lastError := cause }) := by
  simp [setTaskStatus, ht, put]

theorem appendLog_noting (h : (c.task? id).isSome) :
    c.appendLog id level message = .ok ((), c.noting id level message) := by
  simp [appendLog, h, noting]

theorem task?_put (ht : c.task? t.id = some t) :
    ((c.put { t with status, lastError }).task? t.id).isSome := by
  have set : c.setTaskStatus t.id status lastError = _ := setTaskStatus_put ht
  have kept : { t with status, lastError } ∈ (c.put { t with status, lastError }).tasks :=
    (mem_setTaskStatus ht set).mpr (.inr rfl)
  exact task?_isSome (t := { t with status, lastError }) kept

end Catalog

namespace StreamManager

open Program RetryPolicy

variable {ε : Type} [Endpoint ε] {e e' : ε} {c c' : Catalog} {l : List String} {t : StreamTask}
  {id : String} {policy : RetryPolicy} {action : StreamAction} {next : StreamStatus}

-- The parts of a call.

theorem catalog_yields {op : CatalogOp} {x : op.Answer} (h : op.carryOut c = (.ok x, c')) :
    (catalog policy op).run.Yields e c [] (.ok x) e c' :=
  (Yields.retryCatalog policy h).bind (.done _)

theorem loadTask_yields (ht : c.task? id = some t) :
    (loadTask policy id).run.Yields e c [] (.ok t) e c := by
  have found : (CatalogOp.getTask id).carryOut c = (.ok (some t), c) := by
    simp only [CatalogOp.carryOut, CatalogOp.perform, ht]
    rfl
  exact (catalog_yields found).exceptBind (.done _)

theorem setStatus_yields (ht : c.task? t.id = some t) :
    (setStatus policy t.id status cause).run.Yields e c []
      (.ok { t with status, lastError := cause }) e
      (c.put { t with status, lastError := cause }) := by
  refine catalog_yields ?_
  simp only [CatalogOp.carryOut, CatalogOp.perform, Catalog.setTaskStatus_put ht]
  rfl

theorem log_yields (h : (c.task? id).isSome) :
    (log policy id level message).run.Yields e c [] (.ok ()) e (c.noting id level message) := by
  have noted : (CatalogOp.appendLog id level message).carryOut c =
      (.ok (), c.noting id level message) := by
    simp only [CatalogOp.carryOut, CatalogOp.perform, Catalog.appendLog_noting h]
    rfl
  exact (Yields.retryCatalog policy noted).exceptLift (.done _)

theorem transition_yields (valid : action.next? t.status = some next) :
    (transition t action).run.Yields e c [] (.ok next) e c := by
  unfold transition
  rw [valid]
  exact .done _

theorem requireNoLiveGeneration_yields (alone : Cleared c t .deploy) :
    (requireNoLiveGeneration policy t).run.Yields e c [] (.ok ()) e c := by
  have listed : (CatalogOp.listTasks (some t.category)).carryOut c =
      (.ok (c.listTasks (some t.category)), c) := rfl
  have none : (c.listTasks (some t.category)).find?
      (fun o => o.id != t.id && o.feature == t.feature && o.status.isLive) = none := by
    refine List.find?_eq_none.mpr fun o ho live => ?_
    obtain ⟨hm, category⟩ := List.mem_filter.mp ho
    simp only [Bool.and_eq_true, bne_iff_ne, beq_iff_eq] at live category
    simp [alone.2 o hm category live.1.2 live.1.1] at live
  refine (catalog_yields listed).exceptBind ?_
  rw [none]
  exact .done _

-- What the manager answers and records, the engine having had the last word.

def answered (t : StreamTask) (action : StreamAction) (next : StreamStatus) :
    Except (RetryFailure EngineError) Unit → Except StreamError StreamTask
  | .ok () => .ok { t with status := next, lastError := none }
  | .error f => .error (.ofEngine t.id t.streamName action f)

def recorded (c : Catalog) (t : StreamTask) (action : StreamAction) (next : StreamStatus) :
    Except (RetryFailure EngineError) Unit → Catalog
  | .ok () => (c.put { t with status := next, lastError := none }).noting t.id .info
      s!"{action.name}: {t.status.name} -> {next.name}"
  | .error f =>
    if f.isExhausted then
      c.noting t.id .warn s!"{action.name} failed after {f.attempts} attempts: {f.error.message}"
    else
      (c.put { t with status := .error, lastError := some f.error.message }).noting t.id .error
        s!"{action.name} rejected by engine: {f.error.message}"

theorem runTransition_yields {r : Except (RetryFailure EngineError) Unit} {sql : String}
    (ht : c.task? t.id = some t) (valid : action.next? t.status = some next)
    (asks : action.failsIntoError)
    (h : (retryExecute policy action.name sql).Yields e c l r e' c) :
    (runTransition policy t action sql).run.Yields e c l (answered t action next r) e'
      (recorded c t action next r) := by
  have there {status lastError} : ((c.put { t with status, lastError }).task? t.id).isSome :=
    Catalog.task?_put ht
  unfold runTransition
  refine (transition_yields valid).exceptBind ?_
  rw [← l.append_nil]
  refine h.exceptLift ?_
  cases r with
  | ok =>
    exact (setStatus_yields ht).exceptBind ((log_yields there).exceptBind (.done _))
  | error f =>
    cases exhausted : f.isExhausted with
    | true =>
      simp only [answered, recorded, exhausted, if_true]
      exact (log_yields (by simp [ht])).exceptBind (.done _)
    | false =>
      simp only [answered, recorded, exhausted, asks, if_true]
      exact (setStatus_yields ht).exceptBind ((log_yields there).exceptBind (.done _))

-- What only drops the result.
theorem returning_yields {a : Action α} {r : Except StreamError α} (y : β)
    (h : a.run.Yields e c l r e' c') :
    (a >>= fun _ => pure y).run.Yields e c l (r.map fun _ => y) e' c' := by
  rw [ExceptT.run_bind, ← l.append_nil]
  refine h.bind ?_
  cases r <;> exact .done _

theorem carryOut_yields {r : Except (RetryFailure EngineError) Unit} (ht : c.task? t.id = some t)
    (valid : action.next? t.status = some next) (asks : action.failsIntoError)
    (alone : Cleared c t action)
    (h : (retryExecute policy action.name (issued t action)).Yields e c l r e' c) :
    (carryOut policy t.id action).run.Yields e c l ((answered t action next r).map fun _ => ()) e'
      (recorded c t action next r) := by
  have ran := runTransition_yields ht valid asks h
  have controlled (hi : issued t action = controlStatement t action) :
      (control policy action t.id).run.Yields e c l (answered t action next r) e'
        (recorded c t action next r) := by
    rw [hi] at ran
    exact .holding ((loadTask_yields ht).exceptBind ((transition_yields valid).exceptBind ran))
  cases action with
  | deploy =>
    have deployed : (deploy policy t.id).run.Yields e c l
        ((answered t .deploy next r).map fun _ => true) e' (recorded c t .deploy next r) := by
      refine .holding ((loadTask_yields ht).exceptBind ?_)
      simp only [alone.1]
      refine (transition_yields valid).exceptBind (.holding ?_)
      exact (requireNoLiveGeneration_yields alone).exceptBind (returning_yields true ran)
    cases r <;> exact returning_yields () deployed
  | pause | resume | stop => exact returning_yields () (controlled rfl)
  | acknowledge | delete => cases asks

-- The call sends the statement so many times, answers and leaves this catalog.
def Concludes (policy : RetryPolicy) (t : StreamTask) (action : StreamAction) (e : ε) (c : Catalog)
    (sent : Nat) (answer : Except StreamError Unit) (c' : Catalog) : Prop :=
  (carryOut policy t.id action).run.Yields e c (List.replicate sent (issued t action)) answer
    (insisted policy.attemptTimeout (issued t action) e sent) c'

-- What comes of an action is what the first attempt that decides comes to, and if none does the
-- task stays as it is; whatever the engine answers, it is told in one line.
theorem carryOut_concludes (policy : RetryPolicy) (e : ε) (ht : c.task? t.id = some t)
    (valid : action.next? t.status = some next) (asks : action ∈ [.deploy, .pause, .resume, .stop])
    (alone : Cleared c t action) :
    let outcomes := outcome policy action.name (issued t action) e
    match decisive? outcomes policy.attempts with
    | some k =>
      match outcomes k with
      | .ok () =>
        Concludes policy t action e c (k + 1) (.ok ())
          ((c.put { t with status := next, lastError := none }).noting t.id .info
            s!"{action.name}: {t.status.name} -> {next.name}")
      | .error f =>
        Concludes policy t action e c (k + 1) (.error (.engine t.id action f.message))
          ((c.put { t with status := .error, lastError := some f.message }).noting t.id .error
            s!"{action.name} rejected by engine: {f.message}")
    | none =>
      ∃ f, outcomes (policy.attempts - 1) = .error f ∧
        Concludes policy t action e c policy.attempts
          (.error (.exhausted s!"{action.name} {t.streamName}" policy.attempts (.engine f)))
          (c.noting t.id .warn
            s!"{action.name} failed after {policy.attempts} attempts: {f.message}") := by
  dsimp only
  have asks : action.failsIntoError := by
    revert asks
    cases action <;> decide
  cases hk : decisive? (outcome policy action.name (issued t action) e) policy.attempts with
  | some k =>
    have decided := carryOut_yields ht valid asks alone (retryExecute_decided (c := c) hk)
    have last := decides_of_decisive? hk
    dsimp only
    cases hr : outcome policy action.name (issued t action) e k with
    | ok =>
      rw [hr] at decided
      exact decided
    | error f =>
      have final : (⟨k + 1, f⟩ : RetryFailure EngineError).isExhausted = false := by
        simpa [hr, decides, RetryFailure.isExhausted] using last
      rw [hr] at decided
      simp only [Except.mapError, answered, recorded, StreamError.ofEngine, final] at decided
      exact decided
  | none =>
    obtain ⟨f, hf, transient, gaveUp⟩ := retryExecute_exhausted (c := c) hk
    have exhausted : (⟨policy.attempts, f⟩ : RetryFailure EngineError).isExhausted = true :=
      transient
    have gaveUp := carryOut_yields ht valid asks alone gaveUp
    simp only [answered, recorded, StreamError.ofEngine, exhausted, if_true] at gaveUp
    exact ⟨f, hf, gaveUp⟩

-- An engine that replies to one call after another as it is told; attempts can come to anything.
structure Player where
  replies : Nat → Option (Except EngineError Unit)
  calls : Nat := 0

instance : Endpoint Player where
  execute p _ _ := (p.replies p.calls, { p with calls := p.calls + 1 })
  describe p _ _ := (none, p)
  latency _ := 0

theorem insisted_player {replies : Nat → Option (Except EngineError Unit)} {calls : Nat} (n : Nat) :
    insisted limit sql (⟨replies, calls⟩ : Player) n = ⟨replies, calls + n⟩ := by
  induction n generalizing calls with
  | zero => rfl
  | succ n ih => exact ih.trans (by rw [Nat.add_right_comm]; rfl)

theorem outcome_player {replies : Nat → Option (Except EngineError Unit)} {operation sql : String}
    (n : Nat) : outcome policy operation sql (⟨replies, 0⟩ : Player) n =
      (replies n).getD (.error (.timeout operation policy.attemptTimeout)) := by
  simp only [outcome, insisted_player, Nat.zero_add]
  rfl

-- A stream that runs is to be paused; the first attempt is lost, the second refused.

def running : StreamTask where
  category := "motor"
  feature := "avg1"
  generation := 1
  streamName := "fs_motor_avg1_g1"
  targetTable := "feat_motor_avg1"
  sql := ""
  id := "t1"
  status := .running

def rebuff : Player where
  replies
    | 0 => none
    | _ => some (.error (.rejected ⟨0x2601⟩ "no"))

theorem carryOut_concludes_refused :
    let c : Catalog := { tasks := [running] }
    c.task? running.id = some running ∧ StreamAction.pause.next? running.status = some .paused ∧
      StreamAction.pause ∈ [.deploy, .pause, .resume, .stop] ∧ Cleared c running .pause ∧
      Concludes {} running .pause rebuff c 2
        (.error (.engine "t1" .pause "Engine rejected statement [0x2601]: no"))
        ((c.put { running with
          status := .error
          lastError := some "Engine rejected statement [0x2601]: no" }).noting "t1" .error
            "pause rejected by engine: Engine rejected statement [0x2601]: no") := by
  intro c
  have found : c.task? running.id = some running := by decide
  have valid : StreamAction.pause.next? running.status = some .paused := rfl
  have concludes := carryOut_concludes {} rebuff found valid (by decide) trivial
  have second : decisive? (outcome {} StreamAction.pause.name (issued running .pause) rebuff)
      (RetryPolicy.attempts {}) = some 1 := by
    simp only [decisive?, rebuff, outcome_player]
    decide
  have refused : outcome {} StreamAction.pause.name (issued running .pause) rebuff 1 =
      .error (.rejected ⟨0x2601⟩ "no") := rfl
  simp only [second, refused] at concludes
  exact ⟨found, valid, by decide, trivial, concludes⟩

end StreamManager

end Historian
