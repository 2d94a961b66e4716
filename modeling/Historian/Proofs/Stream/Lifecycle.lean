import Mathlib.Logic.Relation
import Historian.Proofs.Stream.Agreement
import Historian.Proofs.Stream.History

namespace Historian.StreamManager

open Engine World

-- The steps that a task can take in its life.
inductive Leads : StreamStatus → StreamStatus → Prop
  | deployed : Leads .created .running
  | paused : Leads .running .paused
  | resumed : Leads .paused .running
  | stopped (h : s ∈ [.running, .paused]) : Leads s .stopped
  | failed (h : s ∈ [.created, .running, .paused]) : Leads s .error
  | acknowledged : Leads .error .created

namespace Leads

theorem of_next {action : StreamAction} (h : action.next? s = some next) (ha : action ≠ .delete)
    (hd : action = .deploy → s = .created) : Leads s next := by
  cases action with
  | deploy =>
    obtain rfl := hd rfl
    cases h
    exact .deployed
  | pause =>
    cases s <;> cases h
    exact .paused
  | resume =>
    cases s <;> cases h
    exact .resumed
  | stop => cases s <;> cases h <;> exact .stopped (by decide)
  | acknowledge =>
    cases s <;> cases h
    exact .acknowledged
  | delete => contradiction

theorem of_failure {action : StreamAction} (h : action.next? s = some next)
    (ha : action.failsIntoError) : Leads s .error := by
  refine .failed ?_
  cases s <;> cases action <;> simp_all [StreamAction.next?, StreamAction.failsIntoError]

-- Nothing leads out of the end.
theorem stopped_of_stopped (h : Relation.ReflTransGen Leads .stopped s) : s = .stopped := by
  induction h with
  | refl => rfl
  | tail _ hl ih =>
    subst ih
    cases hl with
    | stopped h | failed h => simp at h

end Leads

variable {P : String → Prop} {w w' : World Service} {c c' c'' : Catalog} {e e' : Tables}
  {R : StreamStatus → StreamStatus → Prop} {r t : StreamTask} {left more : List String}

-- Where a task comes from: it was there with what it is made of, or it has a number of its own and
-- began its life since.
inductive Origin (R : StreamStatus → StreamStatus → Prop) (c : Catalog) (r : StreamTask) : Prop
  | kept (t : StreamTask) (ht : t ∈ c.tasks) (hi : r.id = t.id) (hs : r.toTaskSpec = t.toTaskSpec)
    (hp : R t.status r.status)
  | made (hn : c.next.task ≤ n) (hi : r.id = Catalog.taskId n) (hp : R .created r.status)

-- All tasks come from those of a catalog before.
structure Descends (R : StreamStatus → StreamStatus → Prop) (c c' : Catalog) : Prop where
  tasks : ∀ r ∈ c'.tasks, Origin R c r
  next : c.next.task ≤ c'.next.task

theorem Descends.mono {R' : StreamStatus → StreamStatus → Prop} (h : Descends R c c')
    (hr : ∀ {s s'}, R s s' → R' s s') : Descends R' c c' := by
  refine ⟨fun r hm => ?_, h.next⟩
  cases h.tasks r hm with
  | kept t ht hi hs hp => exact .kept t ht hi hs (hr hp)
  | made hn hi hp => exact .made hn hi (hr hp)

theorem Descends.of_subset (ht : c'.tasks ⊆ c.tasks) (hn : c'.next.task = c.next.task)
    (hr : ∀ {s}, R s s) : Descends R c c' :=
  ⟨fun r hm => .kept r (ht hm) rfl rfl hr, hn ▸ Nat.le_refl _⟩

-- A task that was there comes from itself, because numbers are given once.
theorem Descends.same (h : Descends R c c') (hc : c.Numbered) (ht : t ∈ c.tasks) (hr : r ∈ c'.tasks)
    (hi : r.id = t.id) : r.toTaskSpec = t.toTaskSpec ∧ R t.status r.status := by
  cases h.tasks r hr with
  | kept t' ht' hi' hs hp =>
    obtain rfl : t' = t := hc.eq ht ht' (hi'.symm.trans hi)
    exact ⟨hs, hp⟩
  | made hn hi' hp =>
    obtain ⟨m, hm, he⟩ := hc.given t ht
    have := Catalog.taskId_injective ((hi'.symm.trans hi).trans he)
    omega

theorem Descends.trans (h : Descends (Relation.ReflTransGen R) c c')
    (h' : Descends (Relation.ReflTransGen R) c' c'') :
    Descends (Relation.ReflTransGen R) c c'' := by
  refine ⟨fun r hr => ?_, h.next.trans h'.next⟩
  cases h'.tasks r hr with
  | made hn hi hp => exact .made (h.next.trans hn) hi hp
  | kept t ht hi hs hp =>
    cases h.tasks t ht with
    | kept t' ht' hi' hs' hp' => exact .kept t' ht' (hi.trans hi') (hs.trans hs') (hp'.trans hp)
    | made hn hi' hp' => exact .made hn (hi.trans hi') (hp'.trans hp)

-- Setting the status of a task is a step in its life and leaves the other tasks as they are.
theorem Descends.set (ht : c.task? t.id = some t)
    (h : c.setTaskStatus t.id status lastError = .ok (a, c')) (hl : R t.status status)
    (hr : ∀ {s}, R s s) : Descends R c c' := by
  refine ⟨fun r hm => ?_, ?_⟩
  · rcases (Catalog.mem_setTaskStatus ht h).mp hm with ⟨hm, -⟩ | rfl
    · exact .kept r hm rfl rfl hr
    · exact .kept t (List.mem_of_find?_eq_some ht) rfl rfl hl
  · obtain ⟨_, -, -, rfl⟩ := Catalog.setTaskStatus_ok h
    exact Nat.le_refl _

theorem Descends.logged (h : Descends R c c') (hl : Logged c' c'') : Descends R c c'' := by
  obtain ⟨_, _, rfl⟩ := hl
  exact ⟨h.tasks, h.next⟩

open Relation in
theorem Move.descends (h : Move P c e c' e') : Descends (ReflGen Leads) c c' := by
  have still (ht : c'.tasks ⊆ c.tasks) (hn : c'.next.task = c.next.task) :
      Descends (ReflGen Leads) c c' := .of_subset ht hn .refl
  cases h with
  | idle hl => exact (Descends.of_subset (List.Subset.refl _) rfl .refl).logged hl
  | registered config ho =>
    obtain ⟨-, -, -, _, _, rfl, -⟩ := Catalog.upsertFeature_ok ho
    exact still (List.Subset.refl _) rfl
  | created _ _ _ ho hl =>
    refine Descends.logged ⟨fun r hr => ?_, ?_⟩ hl
    · rcases (Catalog.mem_createTask ho).mp hr with hr | rfl
      · exact .kept r hr rfl rfl .refl
      · obtain ⟨-, rfl, -⟩ := Catalog.createTask_ok ho
        exact .made (Nat.le_refl _) rfl .refl
    · obtain ⟨-, -, rfl⟩ := Catalog.createTask_ok ho
      exact Nat.le_succ _
  | acted ht hv ha hc _ ho hl =>
    have leads : Leads _ _ := .of_next hv ha fun hd => (hd ▸ hc).1
    exact (Descends.set ht ho (.single leads) .refl).logged hl
  | failed ht hv ha ho hl =>
    exact (Descends.set ht ho (.single (.of_failure hv ha)) .refl).logged hl
  | deleted _ _ _ _ ho =>
    refine still (fun r hr => ((Catalog.mem_deleteTask ho).mp hr).1) ?_
    obtain ⟨-, _, rfl⟩ := Catalog.deleteTask_ok ho
    rfl

open Relation in
theorem Next.descends (h : Next w more w') :
    Descends (ReflGen Leads) w.catalog w'.catalog := by
  cases h.shift with
  | aside ha => exact .of_subset (ha.tasks ▸ List.Subset.refl _) ha.nextTask .refl
  | moved hm => exact hm.descends
  | deleted _ hn ht => exact .of_subset (ht ▸ List.filter_sublist.subset) (hn ▸ rfl) .refl

open Relation in
theorem History.descends (h : History w left w') :
    Descends (ReflTransGen Leads) w.catalog w'.catalog := by
  induction h with
  | start => exact .of_subset (List.Subset.refl _) rfl .refl
  | next _ hn ih => exact ih.trans (hn.descends.mono ReflGen.to_reflTransGen)

-- The call that carries an action out.
def carryOut (policy : RetryPolicy) (id : String) : StreamAction → Action Unit
  | .deploy => discard (deploy policy id)
  | .pause => discard (pause policy id)
  | .resume => discard (resume policy id)
  | .stop => discard (stop policy id)
  | .acknowledge => discard (acknowledge policy id)
  | .delete => delete policy id

variable {policy : RetryPolicy} {id : String} {action : StreamAction}

-- An action is in conflict with the status of a task, and leaves everything as it was.
abbrev Conflicts (a : Action α) (w : World Service) (t : StreamTask) (action : StreamAction) :
    Prop :=
  Ensures a w (fun _ _ => False) fun e w' =>
    e = .conflict t.id t.status action ∧ w.Untouched w'

theorem loadTask_finds (hc : w.SoundCatalog) (ht : w.catalog.task? id = some t) :
    Ensures (loadTask policy id) w (fun r w' => r = t ∧ w.Untouched w') (fun _ _ => False) := by
  refine Ensures.step (Ensures.read rfl) (fun a w' ⟨ha, hu⟩ => ?_) (fun _ _ h => h.2 hc)
  have found : a = some t := ha.trans ht
  subst found
  exact .pure ⟨rfl, hu⟩

theorem transition_conflicts (h : action.next? t.status = none) :
    Conflicts (transition t action) w t action := by
  unfold transition
  rw [h]
  exact .throw ⟨rfl, .refl _⟩

-- Every action looks the task up and checks its status before anything else.
theorem holding_conflicts {f : StreamTask → Action α} (hc : w.SoundCatalog)
    (ht : w.catalog.task? id = some t)
    (hf : ∀ w, Conflicts (f t) w t action) :
    Conflicts (holding id do f (← loadTask policy id)) w t action := by
  refine Ensures.holding fun w₁ h₁ => ?_
  have sound := hc.later h₁.asked.toLater
  refine (loadTask_finds sound (h₁.catalog ▸ ht)).step (fun r w₂ ⟨hr, h₂⟩ => ?_)
    (fun _ _ h => h.elim)
  subst hr
  refine (hf w₂).mono (fun _ _ h => h.elim) (fun _ _ ⟨he, h₃⟩ w₄ h₄ => ⟨he, ?_⟩)
  exact (h₁.trans h₂).trans (h₃.trans h₄)

theorem discard_conflicts {a : Action α} (h : Conflicts a w t action) :
    Conflicts (discard a) w t action :=
  h.step (fun _ _ h => h.elim) (fun _ _ h => h)

theorem carryOut_conflicts (hc : w.SoundCatalog) (ht : w.catalog.task? id = some t)
    (hn : action.next? t.status = none) : Conflicts (carryOut policy id action) w t action := by
  have conflict {α} {f : StreamStatus → Action α} w :
      Conflicts (transition t action >>= f) w t action :=
    (transition_conflicts hn).step (fun _ _ h => h.elim) (fun _ _ h => h)
  cases action with
  | deploy =>
    refine discard_conflicts (holding_conflicts hc ht fun w => ?_)
    have idle : (t.status == .running) = false := by
      cases hs : t.status <;> simp_all [StreamAction.next?]
    simp only [idle]
    exact conflict w
  | pause | resume | stop => exact discard_conflicts (holding_conflicts hc ht conflict)
  | acknowledge => exact discard_conflicts (holding_conflicts hc ht conflict)
  | delete => exact holding_conflicts hc ht conflict

-- Whatever happens, a task goes step by step through its life and stays what it was made of, and an
-- action that is not for its status changes nothing.
theorem lifecycle_followed {w₀ : World Service} (hw : Fresh w₀) (h : History w₀ left w) :
    (∀ t ∈ w.catalog.tasks, Relation.ReflTransGen Leads .created t.status) ∧
    (∀ more w', Next w more w' → ∀ t ∈ w.catalog.tasks, ∀ r ∈ w'.catalog.tasks, r.id = t.id →
      r.status = t.status ∨ Leads t.status r.status) ∧
    (∀ more w', History w more w' → ∀ t ∈ w.catalog.tasks, ∀ r ∈ w'.catalog.tasks, r.id = t.id →
      r.toTaskSpec = t.toTaskSpec ∧ Relation.ReflTransGen Leads t.status r.status ∧
        (t.status = .stopped → r.status = .stopped)) ∧
    ∀ policy action, w.SoundCatalog → ∀ t ∈ w.catalog.tasks, action.next? t.status = none →
      ∃ w', (carryOut policy t.id action).run.run w =
          (.error (.conflict t.id t.status action), w') ∧
        w'.engine = w.engine ∧ w'.catalog = w.catalog := by
  have numbered := (h.ordered hw).numbered
  refine ⟨fun t ht => ?_, fun more w' hn t ht r hr hi => ?_, fun more w' hl t ht r hr hi => ?_,
    fun policy action hc t ht hn => ?_⟩
  · cases h.descends.tasks t ht with
    | kept t' ht' =>
      rw [hw.catalog] at ht'
      cases ht'
    | made _ _ hp => exact hp
  · obtain ⟨-, step⟩ := hn.descends.same numbered ht hr hi
    exact (Relation.reflGen_iff _ _ _).mp step
  · obtain ⟨spec, path⟩ := hl.descends.same numbered ht hr hi
    exact ⟨spec, path, fun hs => Leads.stopped_of_stopped (hs ▸ path)⟩
  · obtain ⟨e, w', hr, rfl, hu⟩ := (carryOut_conflicts hc (numbered.task? ht) hn).exists_error
    exact ⟨w', hr, hu.engine, hu.catalog⟩

theorem fresh_start : Fresh { engine := {} } :=
  ⟨rfl, rfl⟩

theorem History.run {es : List Event} (he : ∀ op, .edit op ∈ es → LeavesTasks op) :
    History { engine := {} } [] (Event.run es) :=
  History.start.events he

-- A task is made, and the engine refuses to start its stream.

def made : List Event :=
  [ .edit (.createCategory { code := "motor", database := "plant", name := "Motor" }),
    .edit (.addSignal (.stored "motor" "current" .numeric)),
    .call (.register "motor" (average "1h")), .call (.create "motor" "avg1") ]

def start : Event :=
  .call (.deploy "t1") [.rejected ⟨0x2601⟩ "no"]

theorem run_made :
    let statuses (w : World Service) := w.catalog.tasks.map fun t => (t.id, t.status)
    let w := Event.meeting (Event.run made) []
    statuses w = [("t1", .created)] ∧ statuses (start.apply w) = [("t1", .error)] := by
  decide +kernel

theorem lifecycle_followed_refused :
    let w := Event.meeting (Event.run made) []
    let w' := start.apply w
    Fresh { engine := {} } ∧ History { engine := {} } [] w ∧ History w [] w' ∧ w.SoundCatalog ∧
      ∃ t ∈ w.catalog.tasks, ∃ r ∈ w'.catalog.tasks, t.status = .created ∧ r.id = t.id ∧
        r.status = .error ∧ r.toTaskSpec = t.toTaskSpec ∧
        Relation.ReflTransGen Leads t.status r.status ∧ StreamAction.pause.next? t.status = none ∧
        ∃ w'', (carryOut {} t.id .pause).run.run w =
            (.error (.conflict t.id t.status .pause), w'') ∧ w''.catalog = w.catalog := by
  have before : History { engine := {} } [] (Event.meeting (Event.run made) []) :=
    (History.run (by simp [made, LeavesTasks])).next (.arranged rfl rfl)
  have unedited : ∀ op, .edit op ∈ [start] → LeavesTasks op := by simp [start]
  have after : History (Event.meeting (Event.run made) []) [] (start.apply _) :=
    History.start.events unedited
  have sound : (Event.meeting (Event.run made) []).SoundCatalog := rfl
  obtain ⟨-, -, path, conflict⟩ := lifecycle_followed fresh_start before
  have statuses := run_made
  simp only at statuses ⊢
  generalize Event.meeting (Event.run made) [] = w at *
  generalize start.apply w = w' at *
  obtain ⟨t, ht, he⟩ := List.map_eq_singleton_iff.mp statuses.1
  obtain ⟨r, hr, he'⟩ := List.map_eq_singleton_iff.mp statuses.2
  obtain ⟨hi, hs⟩ := Prod.mk.inj he
  obtain ⟨hi', hs'⟩ := Prod.mk.inj he'
  have mem : t ∈ w.catalog.tasks := by simp [ht]
  have mem' : r ∈ w'.catalog.tasks := by simp [hr]
  have same : r.id = t.id := hi'.trans hi.symm
  have none : StreamAction.pause.next? t.status = none := by rw [hs]; rfl
  obtain ⟨spec, leads, -⟩ := path [] w' after t mem r mem' same
  obtain ⟨w'', hc, -, hw⟩ := conflict {} .pause sound t mem none
  exact ⟨fresh_start, before, after, sound, t, mem, r, mem', hs, same, hs', spec, leads, none, w'',
    hc, hw⟩

end Historian.StreamManager
