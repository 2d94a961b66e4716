import Historian.Proofs.Catalog.Integrity
import Historian.Proofs.Program.Nesting
import Historian.Proofs.Stream.Concurrent
import Historian.Proofs.Stream.Requests

namespace Historian.StreamManager

open Catalog

variable {K : Held} {policy : RetryPolicy} {id : String}

-- The lock of a feature is asked for under the lock of a task, and no other lock under another. Any
-- text may be asked for as if it were the id of a task, but only the id of a task that is there
-- stays locked meanwhile.
def nesting : Nesting where
  Inv := Numbered
  Under key inner := (∃ n, key = .stream (taskId n)) ∧
    ∃ category feature, inner = .stream (featureKey category feature)
  kept {c c' r a} hc ha := by
    cases r with
    | catalog op =>
      rcases ha with ⟨_, -, rfl⟩ | ⟨x, ho, -⟩
      · exact hc
      · exact hc.effect (perform_effect ho)
    | _ =>
      obtain rfl : c' = c := ha
      exact hc
  flat := by
    rintro _ _ _ ⟨-, category, feature, rfl⟩ ⟨⟨n, he⟩, -⟩
    exact featureKey_ne_taskId (LockKey.stream.inj he)

abbrev Fits (K : Held) (a : Action α) (Q : α → Prop := fun _ => True) : Prop := nesting.Fits K a Q

theorem loadTask_fits : Fits K (loadTask policy id) fun _ => ∃ n, id = taskId n := by
  have found : Fits K (catalog policy (.getTask id)) fun t => t.isSome → ∃ n, id = taskId n := by
    refine .catalog fun c t c' hc ho there => ?_
    obtain ⟨rfl, rfl⟩ := Prod.mk.inj (Except.ok.inj ho)
    obtain ⟨t, ht⟩ := Option.isSome_iff_exists.mp there
    obtain ⟨n, -, hi⟩ := hc.given t (List.mem_of_find?_eq_some ht)
    exact ⟨n, (task?_id ht).symm.trans hi⟩
  refine found.step fun t ht => ?_
  cases t with
  | none => exact ⟨rfl, nofun⟩
  | some t => exact ⟨rfl, fun _ _ => ht rfl⟩

-- The parts that neither take a lock nor give one back.

theorem waits_spare (millis : Nat) : (Request.wait millis).SparesLocks :=
  trivial

theorem reads_spare (op : CatalogOp) : (Request.catalog op).SparesLocks :=
  trivial

theorem executes_spare (limit : Nat) (sql : String) : (Request.execute limit sql).SparesLocks :=
  trivial

abbrev Lockless (a : Action α) : Prop := Within Request.SparesLocks a

theorem runTransition_lockless {t : StreamTask} :
    Lockless (runTransition policy t action sql) :=
  runTransition_within waits_spare reads_spare executes_spare

theorem dropStream_lockless {t : StreamTask} : Lockless (dropStream policy t action) :=
  dropStream_within waits_spare executes_spare

theorem log_lockless : Lockless (log policy id level message) :=
  log_within waits_spare reads_spare

theorem setStatus_lockless : Lockless (setStatus policy id status lastError) :=
  catalog_within waits_spare reads_spare _

-- The calls, each of which begins without locks.

theorem create_fits {category feature : String} : Fits [] (create policy category feature) :=
  (Nesting.Fits.of_asks (compile_within waits_spare reads_spare)).step fun _ _ =>
    .holding nofun fun _ => .of_asks (createTask_within waits_spare reads_spare)

-- What is done with a task under its lock and no other.
theorem holding_fits {f : StreamTask → Action α} (h : ∀ t, Lockless (f t)) :
    Fits [] (holding id do f (← loadTask policy id)) :=
  .holding nofun fun _ =>
    .of_asks ((loadTask_within waits_spare reads_spare).step h)

theorem deploy_fits : Fits [] (deploy policy id) := by
  refine .holding (Q := fun _ => True) nofun fun ticket => ?_
  refine loadTask_fits.step fun t there => ?_
  split
  case isTrue => exact .of_asks trivial
  case isFalse =>
    refine (Nesting.Fits.of_asks transition_within).step fun _ _ => ?_
    refine .holding ?_ fun _ => .of_asks ?_
    · exact List.forall_mem_singleton.mpr ⟨there.imp fun _ => congrArg _, _, _, rfl⟩
    · exact (requireNoLiveGeneration_within waits_spare reads_spare).step fun _ =>
        runTransition_lockless.step fun _ => trivial

theorem control_fits : Fits [] (control policy action id) :=
  holding_fits fun _ => transition_within.step fun _ => runTransition_lockless

theorem acknowledge_fits : Fits [] (acknowledge policy id) :=
  holding_fits fun _ => transition_within.step fun _ => dropStream_lockless.step fun _ =>
    setStatus_lockless.step fun _ => log_lockless.step fun _ => trivial

theorem delete_fits : Fits [] (delete policy id) := by
  have remove : Lockless (do
      catalog policy (.deleteTask id)
      ExceptT.lift (Program.forget (.stream id))) :=
    (catalog_within waits_spare reads_spare _).step fun _ =>
      Program.Asks.bind (.request trivial) fun _ => trivial
  refine holding_fits fun t => transition_within.step fun _ => ?_
  split
  case isTrue => exact dropStream_lockless.step fun _ => remove
  case isFalse => exact remove

theorem Call.nests (call : Call) :
    nesting.Nests (fun K _ => K = []) (call.program policy) [] := by
  have discarded {α : Type} {a : Action α} (h : Fits [] a) :
      nesting.Nests (fun K _ => K = []) (discard a.run) [] :=
    Nesting.Nests.step h fun _ _ ⟨left, _⟩ => left
  cases call with
  | register => exact discarded (.of_asks (register_within waits_spare reads_spare))
  | create => exact discarded create_fits
  | deploy => exact discarded deploy_fits
  | pause | resume | stop => exact discarded control_fits
  | acknowledge => exact discarded acknowledge_fits
  | delete => exact discarded delete_fits

-- Calls that are about to begin, and that take their locks step by step.
def racing (w : World ε) (policy : RetryPolicy) (calls : List Call) : Race ε Unit :=
  .together w (calls.map (Call.program policy))

theorem race_calling (w : World ε) (policy : RetryPolicy) (calls : List Call) :
    (calling w policy calls).race = racing w policy calls := by
  simp [calling, racing, Pool.race, Race.together]

variable {ε : Type} [Engine.Endpoint ε] {w : World ε} {ops : List CatalogOp} {calls : List Call}
  {asker : Nat → Nat} {R : Race ε Unit}

theorem racing_nested (hc : w.catalog = after ops) (hl : w.locks = {})
    (h : (racing w policy calls).Comes asker R) : ∃ K, R.Nested nesting K asker := by
  have numbered : w.catalog.Numbered := hc ▸ (integral_empty.foldl ops).toNumbered
  refine Race.Nested.comes h fun _ => .start numbered hl ?_
  simp only [List.mem_map]
  rintro _ ⟨call, -, rfl⟩
  exact call.nests

-- A call that waits for a lock waits for one that goes on, or that waits for one that goes on.
theorem no_deadlock (hc : w.catalog = after ops) (hl : w.locks = {})
    (h : (racing w policy calls).Comes asker R) (hw : R.kept i) :
    ∃ j, R.holder? asker i = some j ∧
      (R.Goes j ∨ ∃ k, R.holder? asker j = some k ∧ R.Goes k) := by
  obtain ⟨K, nested⟩ := racing_nested hc hl h
  exact nested.holder_goes hw

-- Two generations of a feature are deployed, and the task of the second is to be paused: the pause
-- waits for the second deployment, which waits for the first.

def motors : List CatalogOp :=
  [ .createCategory { code := "motor", database := "plant", name := "Motor" },
    .addSignal (.stored "motor" "current" .numeric) ]

def crowd : List Call := raced ++ [.pause "t2"]

def workshop : World Engine.Script :=
  { engine := { responses := [] }, catalog := after motors }

-- Where the first deployment has the lock of the feature, the others go as far as they can.
def jam : Pool Engine.Script Unit :=
  (calling workshop {} crowd).play <|
    [0, 1, 2, 3].flatMap (List.replicate 10) ++ List.replicate 5 4 ++ List.replicate 10 5 ++
      List.replicate 10 6

theorem jammed : jam.race.kept 5 ∧ jam.race.kept 6 := by
  decide +kernel

theorem no_deadlock_jam :
    ∃ asker, (racing workshop {} crowd).Comes asker jam.race ∧ jam.race.kept 5 ∧ jam.race.kept 6 ∧
      ∃ j, jam.race.holder? asker 6 = some j ∧
        (jam.race.Goes j ∨ ∃ k, jam.race.holder? asker j = some k ∧ jam.race.Goes k) := by
  have moves : (racing workshop {} crowd).Moves jam.race :=
    race_calling workshop {} crowd ▸ (Pool.Steps.play .refl _).race
  obtain ⟨asker, comes⟩ := moves.comes
  exact ⟨asker, comes, jammed.1, jammed.2, no_deadlock rfl rfl comes jammed.2⟩

-- So the calls come to their end, in whatever order they go on.
theorem calls_end (hc : w.catalog = after ops) (hl : w.locks = {})
    (h : (racing w policy calls).Comes asker R) : R.Ends fun _ => True := by
  obtain ⟨K, nested⟩ := racing_nested hc hl h
  exact nested.ends

end Historian.StreamManager
