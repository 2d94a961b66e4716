import Mathlib.Data.List.Nodup
import Std.Data.String.ToNat
import Historian.Proofs.Catalog.Operations

namespace Historian.Catalog

variable {c c' : Catalog} {t a : StreamTask}

theorem taskId_injective (h : taskId m = taskId n) : m = n := by
  have same : "t" ++ Nat.repr m = "t" ++ Nat.repr n := h
  exact Nat.repr_injective (String.append_right_inj _ |>.mp same)

-- Every task has an id of its own, which is one of those given so far.
structure Numbered (c : Catalog) : Prop where
  distinct : (c.tasks.map (·.id)).Nodup
  given : ∀ t ∈ c.tasks, ∃ n < c.next.task, t.id = taskId n

theorem Numbered.eq (h : c.Numbered) (ht : t ∈ c.tasks) (hr : r ∈ c.tasks) (hi : r.id = t.id) :
    r = t :=
  List.inj_on_of_nodup_map h.distinct hr ht hi

theorem task?_isSome (ht : t ∈ c.tasks) : (c.task? t.id).isSome := by
  rw [Catalog.task?, List.find?_isSome]
  exact ⟨t, ht, by simp⟩

theorem Numbered.task? (h : c.Numbered) (ht : t ∈ c.tasks) : c.task? t.id = some t := by
  obtain ⟨r, hr⟩ := Option.isSome_iff_exists.mp (task?_isSome ht)
  have hi : r.id = t.id := by simpa using List.find?_some hr
  rw [hr, h.eq ht (List.mem_of_find?_eq_some hr) hi]

-- Numbers are given once, whatever the operation.
theorem Numbered.effect (h : c.Numbered) (he : c.Effect op c') : c'.Numbered := by
  have fewer {p : StreamTask → Bool} : ((c.tasks.filter p).map (·.id)).Nodup :=
    (List.filter_sublist.map _).nodup h.distinct
  cases he with
  | deleteCategory => exact ⟨fewer, fun t ht => h.given t (List.mem_filter.mp ht).1⟩
  | deleteTask => exact ⟨fewer, fun t ht => h.given t (List.mem_filter.mp ht).1⟩
  | createTask =>
    constructor
    · simp only [List.map_append, List.map_cons, List.map_nil, List.nodup_append]
      refine ⟨h.distinct, by simp, ?_⟩
      simp only [List.mem_map, List.mem_singleton]
      rintro _ ⟨t, ht, rfl⟩ _ rfl he
      obtain ⟨n, hn, hi⟩ := h.given t ht
      exact absurd (taskId_injective (hi.symm.trans he)) (Nat.ne_of_lt hn)
    · intro t ht
      rcases List.mem_append.mp ht with ht | ht
      · obtain ⟨n, hn, hi⟩ := h.given t ht
        exact ⟨n, Nat.lt_succ_of_lt hn, hi⟩
      · rw [List.mem_singleton.mp ht]
        exact ⟨_, Nat.lt_succ_self _, rfl⟩
  | @setTaskStatus t status lastError id ht =>
    have hi : t.id = id := by simpa using List.find?_some ht
    constructor
    · have same :
          (c.tasks.map fun r => if r.id = id then { t with status, lastError } else r).map (·.id) =
            c.tasks.map (·.id) := by
        rw [List.map_map]
        refine List.map_congr_left fun r _ => ?_
        by_cases hr : r.id = id <;> simp [hr, hi]
      exact same ▸ h.distinct
    · simp only [List.mem_map]
      rintro _ ⟨r, hr, rfl⟩
      split
      case isTrue => exact h.given t (List.mem_of_find?_eq_some ht)
      case isFalse => exact h.given r hr
  | _ => exact ⟨h.distinct, h.given⟩

-- The tasks after each operation on them.

theorem mem_createTask (h : c.createTask spec = .ok (a, c')) :
    r ∈ c'.tasks ↔ r ∈ c.tasks ∨ r = a := by
  obtain ⟨-, -, rfl⟩ := createTask_ok h
  simp

theorem mem_setTaskStatus (ht : c.task? t.id = some t)
    (h : c.setTaskStatus t.id status lastError = .ok (a, c')) :
    r ∈ c'.tasks ↔ r ∈ c.tasks ∧ r.id ≠ t.id ∨ r = { t with status, lastError } := by
  obtain ⟨s, hs, rfl, rfl⟩ := setTaskStatus_ok h
  obtain rfl := Option.some.inj (hs.symm.trans ht)
  simp only [List.mem_map]
  constructor
  · rintro ⟨r, hr, rfl⟩
    split
    case isTrue => exact .inr rfl
    case isFalse hi => exact .inl ⟨hr, hi⟩
  · rintro (⟨hr, hi⟩ | rfl)
    · exact ⟨r, hr, by simp [hi]⟩
    · exact ⟨s, List.mem_of_find?_eq_some hs, by simp⟩

theorem mem_deleteTask {id : String} (h : c.deleteTask id = .ok (u, c')) :
    r ∈ c'.tasks ↔ r ∈ c.tasks ∧ r.id ≠ id := by
  obtain ⟨-, logs, rfl⟩ := deleteTask_ok h
  simp

end Historian.Catalog
