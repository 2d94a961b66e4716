import Historian.Proofs.Stream.Lifecycle

namespace Historian.StreamManager

open Engine World

variable {w : World Service} {c c' : Catalog} {left : List String}

-- How a stream comes to be abandoned with a category. The task it belongs to failed, which does not
-- keep the category from being deleted, or it does not belong to the task of its name that is
-- deleted: it is that of a task of another category, or was abandoned before.
inductive Deserted (left : List String) (c : Catalog) (code n : String) : Prop
  | failed {t : StreamTask} (ht : t ∈ c.tasks) (hc : t.category = code) (hn : t.streamName = n)
    (hs : t.status = .error)
  | shared {t r : StreamTask} (ht : t ∈ c.tasks) (hc : t.category = code) (hn : t.streamName = n)
    (hr : r ∈ c.tasks) (hrc : r.category ≠ code) (hrn : r.streamName = n) (hd : Deployed r.status)
  | before {t : StreamTask} (ht : t ∈ c.tasks) (hc : t.category = code) (hn : t.streamName = n)
    (hl : n ∈ left)

theorem Deserted.task (h : Deserted left c code n) :
    ∃ t ∈ c.tasks, t.category = code ∧ t.streamName = n := by
  cases h with
  | failed ht hc hn | shared ht hc hn | before ht hc hn => exact ⟨_, ht, hc, hn⟩

theorem not_mem_deleteCategory {t : StreamTask} (h : c.deleteCategory code = .ok (a, c'))
    (ht : t ∈ c.tasks) : t ∉ c'.tasks ↔ t.category = code := by
  obtain ⟨logs, rfl⟩ := Catalog.deleteCategory_ok h
  simp [ht]

-- A deletion does not ask the engine, so it abandons every stream that there is for the tasks it
-- takes along.
theorem mem_abandoned_iff (h : w.catalog.deleteCategory code = .ok ((), c')) :
    n ∈ abandoned code w ↔ (∃ t ∈ w.catalog.tasks, t.category = code ∧ t.streamName = n) ∧
      w.engine.tables.streams.contains n := by
  have deleted : (w.edit (.deleteCategory code)).catalog = c' := edit_ok (a := ()) h
  rw [mem_abandoned, deleted]
  refine and_congr_left fun _ => exists_congr fun t => and_congr_right fun ht => ?_
  rw [not_mem_deleteCategory h ht]

theorem failed_of_deployed {t : StreamTask} (h : c.deleteCategory code = .ok (a, c'))
    (ht : t ∈ c.tasks) (hc : t.category = code) (hd : Deployed t.status) : t.status = .error := by
  have none := (Catalog.deleteCategory_unused h).2
  have idle : t.status.isLive = false := by
    simpa [hc] using List.countP_eq_zero.mp none t ht
  rcases hd with hs | hs | hs
  · simp [hs, StreamStatus.isLive] at idle
  · simp [hs, StreamStatus.isLive] at idle
  · exact hs

-- In a history, these are the streams of failed tasks, but for those that belonged to others all
-- along.
theorem abandoned_iff (hd : w.catalog.deleteCategory code = .ok ((), c')) (n : String) :
    (n ∈ abandoned code w ↔ (∃ t ∈ w.catalog.tasks, t.category = code ∧ t.streamName = n) ∧
      w.engine.tables.streams.contains n) ∧
    ∀ w₀ left, Fresh w₀ → History w₀ left w →
      (n ∈ abandoned code w ↔
        w.engine.tables.streams.contains n ∧ Deserted left w.catalog code n) := by
  refine ⟨mem_abandoned_iff hd, fun w₀ left hw h => ?_⟩
  rw [mem_abandoned_iff hd, and_comm]
  refine and_congr_right fun hs => ⟨fun ⟨t, ht, hc, hn⟩ => ?_, Deserted.task⟩
  obtain ⟨s, hs⟩ : ∃ s, w.engine.tables.streams[n]? = some s := by
    rwa [← Option.isSome_iff_exists, ← Std.ExtTreeMap.contains_eq_isSome_getElem?]
  obtain hl | ⟨r, hr, hrn, hrd⟩ := (h.ordered hw).held n s hs
  · exact .before ht hc hn hl
  by_cases hrc : r.category = code
  case pos => exact .failed hr hrc hrn (failed_of_deployed hd hr hrc hrd)
  case neg => exact .shared ht hc hn hr hrc hrn hrd

-- The engine refuses to pause a stream, and the category is deleted.

def refused : List Event :=
  deployed ++ [.call (.pause "t1") [.rejected ⟨0x2601⟩ "no"]]

theorem run_refused : abandoned "motor" (Event.run refused) = ["fs_motor_avg1_g1"] := by
  delta Event.run Event.apply Call.run Synchronizer.Call.run Service.instEndpoint Service.execute
    Service.receive Tables.apply
  rw [Sql.tokenize_characters]
  decide +kernel

theorem history_refused : History { engine := {} } [] (Event.run refused) :=
  .run (by simp [refused, deployed, LeavesTasks])

theorem deletion_abandons :
    let w := Event.run refused
    let w' := w.edit (.deleteCategory "motor")
    Fresh { engine := {} } ∧ History { engine := {} } [] w ∧
      (∃ c', w.catalog.deleteCategory "motor" = .ok ((), c')) ∧
      ∃ t ∈ w.catalog.tasks, t ∉ w'.catalog.tasks ∧
        w'.engine.tables.streams.contains t.streamName := by
  have left : "fs_motor_avg1_g1" ∈ abandoned "motor" (Event.run refused) := by simp [run_refused]
  obtain ⟨⟨t, ht, hg, hn⟩, hs⟩ := mem_abandoned.mp left
  refine ⟨fresh_start, history_refused, deleteCategory_of_abandoned left, t, ht, hg, ?_⟩
  rw [edit_engine, hn]
  exact hs

theorem abandoned_iff_refused :
    let w := Event.run refused
    Fresh { engine := {} } ∧ History { engine := {} } [] w ∧
      (∃ c', w.catalog.deleteCategory "motor" = .ok ((), c')) ∧
      w.engine.tables.streams.contains "fs_motor_avg1_g1" ∧
        Deserted [] w.catalog "motor" "fs_motor_avg1_g1" := by
  have left : "fs_motor_avg1_g1" ∈ abandoned "motor" (Event.run refused) := by simp [run_refused]
  obtain ⟨c', deleted⟩ := deleteCategory_of_abandoned left
  refine ⟨fresh_start, history_refused, ⟨c', deleted⟩, ?_⟩
  exact ((abandoned_iff deleted _).2 _ _ fresh_start history_refused).mp left

end Historian.StreamManager
