import Historian.Proofs.Catalog.Integrity
import Historian.Stream.Lifecycle
import Historian.Text.Cut

namespace Historian

-- What a line of a task's log says.
inductive Entry
  | created
  | moved (action : StreamAction) (before after : StreamStatus)
  | acknowledged
  | failed
  | remark

namespace Entry

-- The line of an action that succeeded, such as "pause: running -> paused".
def readMove (text : List Char) : Option Entry :=
  match Text.split ' ' text with
  | [action, before, ['-', '>'], after] => do
    let action ← StreamAction.all.find? fun a => a.name.toList ++ [':'] == action
    let before ← StreamStatus.ofName? (.ofList before)
    let after ← StreamStatus.ofName? (.ofList after)
    return .moved action before after
  | _ => none

def read (message : String) : LogLevel → Option Entry
  | .warn => some .remark
  | .error => some .failed
  | .info =>
    if "Created from feature ".toList.isPrefixOf message.toList then some .created
    else if message = "Error acknowledged; ready to redeploy" then some .acknowledged
    else readMove message.toList

-- The status of a task after a line, by the status before it.
def status : Entry → Option StreamStatus → Option StreamStatus
  | .created, _ | .acknowledged, _ => some .created
  | .moved _ _ after, _ => some after
  | .failed, _ => some .error
  | .remark, s => s

-- The lines that a task may get after its first, by what they do to its status.
inductive Leads : Entry → StreamStatus → StreamStatus → Prop
  | moved : Leads (.moved action s s') s s'
  | acknowledged : Leads .acknowledged s .created
  | failed : Leads .failed s .error
  | remark : Leads .remark s s

theorem read_created (feature : String) (generation : Int) :
    read s!"Created from feature {feature} generation {generation}" .info = some .created := by
  have front : "Created from feature ".toList.isPrefixOf
      s!"Created from feature {feature} generation {generation}".toList := by
    simp [toString_text]
  simp only [read, front, if_true]

theorem read_moved {action : StreamAction} (h : action.next? s = some next) :
    read s!"{action.name}: {s.name} -> {next.name}" .info = some (.moved action s next) := by
  cases action <;> cases s <;> cases h <;> rfl

end Entry

def LogLine.entry? (l : LogLine) : Option Entry := Entry.read l.message l.level

-- The status that a log comes to, oldest line first.
def replay (lines : List LogLine) : Option StreamStatus :=
  lines.foldl (fun s l => l.entry?.elim s (·.status s)) none

theorem replay_snoc {l : LogLine} (h : l.entry? = some e) :
    replay (lines ++ [l]) = e.status (replay lines) := by
  simp [replay, h]

-- A log that accounts for the status of a task line by line.
inductive Tells : List LogLine → StreamStatus → Prop
  | created {l : LogLine} (h : l.entry? = some .created) : Tells [l] .created
  | snoc {l : LogLine} (h : Tells lines s) (he : l.entry? = some e) (hs : e.Leads s s') :
    Tells (lines ++ [l]) s'

namespace Tells

variable {lines : List LogLine} {s : StreamStatus}

theorem legible (h : Tells lines s) : ∀ l ∈ lines, l.entry?.isSome := by
  induction h with
  | created h => simp [h]
  | snoc _ he _ ih =>
    intro l hl
    rcases List.mem_append.mp hl with old | new
    · exact ih l old
    · rw [List.mem_singleton.mp new, he]
      rfl

theorem replays (h : Tells lines s) : replay lines = some s := by
  induction h with
  | created h => simp [replay, h, Entry.status]
  | snoc _ he hs ih =>
    rw [replay_snoc he, ih]
    cases hs <;> rfl

-- A move begins where the lines before it have led.
theorem begins {l : LogLine} (h : Tells lines s) (hl : lines = before ++ l :: after)
    (he : l.entry? = some (.moved action x y)) : replay before = some x := by
  induction h generalizing after with
  | created first =>
    obtain ⟨rfl, same⟩ | ⟨_, same⟩ := List.singleton_eq_append_iff.mp hl
    · cases same
      cases first.symm.trans he
    · cases same
  | snoc told last leads ih =>
    rcases List.eq_nil_or_concat after with rfl | ⟨after, l', rfl⟩
    · obtain ⟨rfl, same⟩ := List.append_inj' hl rfl
      cases same
      cases last.symm.trans he
      cases leads
      exact told.replays
    · rw [List.concat_eq_append, ← List.cons_append, ← List.append_assoc] at hl
      exact ih (List.append_inj' hl rfl).1

end Tells

-- Whether an operation makes a task, sets its status or writes to its log.
def CatalogOp.Records : CatalogOp → Prop
  | .createTask _ | .setTaskStatus .. | .appendLog .. => True
  | _ => False

namespace Catalog

variable {c c' c₁ : Catalog} {t : StreamTask}

theorem appendLog_line {task : String} (h : c.appendLog task level message = .ok (u, c')) :
    ∃ l : LogLine, l.entry? = Entry.read message level ∧ c'.tasks = c.tasks ∧
      c'.next.task = c.next.task ∧ c'.logs = c.logs ++ [l] ∧ l.task = task ∧
      (c.task? task).isSome := by
  unfold appendLog at h
  split at h <;> cases h
  exact ⟨_, rfl, rfl, rfl, rfl, rfl, ‹_›⟩

-- A catalog whose logs account for its tasks. The lines of a log are of a task that was given a
-- number, so that the log of a new task begins empty.
structure Audited (c : Catalog) : Prop where
  numbered : c.Numbered
  given : ∀ l ∈ c.logs, ∃ n < c.next.task, l.task = taskId n
  told : ∀ t ∈ c.tasks, Tells (c.listLogs t.id) t.status

-- Tasks may go and their logs with them, but what stays is what it was.
structure Thins (c c' : Catalog) : Prop where
  numbered : c'.Numbered
  nextTask : c'.next.task = c.next.task
  logs : c'.logs ⊆ c.logs
  tasks : ∀ t ∈ c'.tasks, t ∈ c.tasks ∧ c'.listLogs t.id = c.listLogs t.id

theorem Audited.thins (h : c.Audited) (ht : Thins c c') : c'.Audited where
  numbered := ht.numbered
  given l hl := ht.nextTask ▸ h.given l (ht.logs hl)
  told t hm := by
    obtain ⟨hm, same⟩ := ht.tasks t hm
    exact same ▸ h.told t hm

theorem Thins.of_eq (hn : c.Numbered) (tasks : c'.tasks = c.tasks) (logs : c'.logs = c.logs)
    (nextTask : c'.next.task = c.next.task) : Thins c c' where
  numbered := ⟨tasks ▸ hn.distinct, by rw [tasks, nextTask]; exact hn.given⟩
  nextTask := nextTask
  logs := logs ▸ List.Subset.refl _
  tasks t ht := ⟨tasks ▸ ht, by rw [listLogs, logs, listLogs]⟩

theorem deleteTask_thins (hn : c.Numbered) {id : String} (h : c.deleteTask id = .ok (u, c')) :
    Thins c c' := by
  have performed : (CatalogOp.deleteTask id).perform c = .ok (u, c') := h
  have numbered := hn.effect (perform_effect performed)
  unfold deleteTask at h
  split at h <;> cases h
  refine ⟨numbered, rfl, List.filter_sublist.subset, fun t ht => ?_⟩
  obtain ⟨ht, other⟩ := List.mem_filter.mp ht
  refine ⟨ht, ?_⟩
  simp only [listLogs, List.filter_filter]
  refine List.filter_congr fun l _ => ?_
  by_cases mine : l.task = t.id
  · simpa [mine] using other
  · simp [mine]

theorem deleteCategory_thins (hn : c.Numbered) (h : c.deleteCategory code = .ok (u, c')) :
    Thins c c' := by
  have performed : (CatalogOp.deleteCategory code).perform c = .ok (u, c') := h
  have numbered := hn.effect (perform_effect performed)
  obtain ⟨-, -, -, rfl⟩ := deleteCategory_row h
  refine ⟨numbered, rfl, List.filter_sublist.subset, fun t ht => ?_⟩
  obtain ⟨ht, other⟩ := List.mem_filter.mp ht
  refine ⟨ht, ?_⟩
  simp only [listLogs, List.filter_filter]
  refine List.filter_congr fun l _ => ?_
  by_cases mine : l.task = t.id
  case neg => simp [mine]
  have stays : (!((c.tasks.filter (·.category == code)).map (·.id)).contains l.task) = true := by
    by_contra gone
    obtain ⟨r, hr, hc, hi⟩ := gone_iff.mp (Bool.eq_false_iff.mpr gone)
    simp [← hn.eq ht hr (hi.trans mine), hc] at other
  rw [stays, Bool.and_true]

-- A task whose log lacks one line is accounted for when the line is written.
theorem Audited.of_append {id : String} (hn : c.Numbered)
    (given : ∀ l ∈ c.logs, ∃ n < c.next.task, l.task = taskId n)
    (told : ∀ r ∈ c.tasks, ∀ l : LogLine, l.entry? = Entry.read message level →
      Tells (c.listLogs r.id ++ if r.id = id then [l] else []) r.status)
    (h : c.appendLog id level message = .ok (u, c')) : c'.Audited := by
  have performed : (CatalogOp.appendLog id level message).perform c = .ok (u, c') := h
  obtain ⟨line, entry, tasks, nextTask, logs, rfl, there⟩ := appendLog_line h
  refine ⟨hn.effect (perform_effect performed), fun l hl => ?_, fun r hr => ?_⟩
  · rw [nextTask]
    rcases List.mem_append.mp (logs ▸ hl) with old | new
    · exact given l old
    · obtain ⟨t, found⟩ := Option.isSome_iff_exists.mp there
      obtain ⟨n, hn, hi⟩ := hn.given t (List.mem_of_find?_eq_some found)
      have named : t.id = line.task := by simpa using List.find?_some found
      exact ⟨n, hn, by rw [List.mem_singleton.mp new, ← named, hi]⟩
  · have grown : c'.listLogs r.id =
        c.listLogs r.id ++ if r.id = line.task then [line] else [] := by
      by_cases same : r.id = line.task
      · simp [listLogs, logs, List.filter_append, same]
      · simp [listLogs, logs, List.filter_append, same, Ne.symm same]
    exact grown ▸ told r (tasks ▸ hr) line entry

theorem Audited.created (h : c.Audited) (ho : c.createTask spec = .ok (t, c₁))
    (hl : c₁.appendLog t.id level message = .ok (u, c'))
    (he : Entry.read message level = some .created) : c'.Audited := by
  have performed : (CatalogOp.createTask spec).perform c = .ok (t, c₁) := ho
  have numbered := h.numbered.effect (perform_effect performed)
  obtain ⟨-, rfl, rfl⟩ := createTask_ok ho
  refine .of_append numbered (fun l hl => ?_) (fun r hr l entry => ?_) hl
  · obtain ⟨n, hn, hi⟩ := h.given l hl
    exact ⟨n, Nat.lt_succ_of_lt hn, hi⟩
  · rcases (mem_createTask ho).mp hr with old | rfl
    · rw [if_neg (h.numbered.fresh old), List.append_nil]
      exact h.told r old
    · have unheard : c.listLogs (taskId c.next.task) = [] := by
        refine List.filter_eq_nil_iff.mpr fun l hl => ?_
        obtain ⟨n, hn, hi⟩ := h.given l hl
        have other : n ≠ c.next.task := Nat.ne_of_lt hn
        simpa [hi] using fun same => other (taskId_injective same)
      rw [if_pos rfl]
      show Tells (c.listLogs (taskId c.next.task) ++ [l]) .created
      rw [unheard]
      exact .created (entry.trans he)

theorem Audited.noted (h : c.Audited) (ht : c.task? t.id = some t)
    (hl : c.appendLog t.id level message = .ok (u, c'))
    (he : Entry.read message level = some e) (hs : e.Leads t.status t.status) : c'.Audited := by
  refine .of_append h.numbered h.given (fun r hr l entry => ?_) hl
  split
  case isTrue same =>
    obtain rfl := h.numbered.eq (List.mem_of_find?_eq_some ht) hr same
    exact (h.told r hr).snoc (entry.trans he) hs
  case isFalse =>
    rw [List.append_nil]
    exact h.told r hr

theorem Audited.turned (h : c.Audited) (ht : c.task? t.id = some t)
    (ho : c.setTaskStatus t.id s cause = .ok (t', c₁))
    (hl : c₁.appendLog t.id level message = .ok (u, c'))
    (he : Entry.read message level = some e) (hs : e.Leads t.status s) : c'.Audited := by
  have performed : (CatalogOp.setTaskStatus t.id s cause).perform c = .ok (t', c₁) := ho
  have numbered := h.numbered.effect (perform_effect performed)
  have members {r : StreamTask} := mem_setTaskStatus (r := r) ht ho
  obtain ⟨_, -, -, rfl⟩ := setTaskStatus_ok ho
  refine .of_append numbered h.given (fun r hr l entry => ?_) hl
  rcases members.mp hr with ⟨old, other⟩ | rfl
  · rw [if_neg other, List.append_nil]
    exact h.told r old
  · rw [if_pos rfl]
    exact (h.told t (List.mem_of_find?_eq_some ht)).snoc (entry.trans he) hs

-- No other operation adds to the tasks or to their logs.
theorem perform_thins (hn : c.Numbered) {op : CatalogOp} {a : op.Answer} (hop : ¬op.Records)
    (h : op.perform c = .ok (a, c')) : Thins c c' := by
  have spares := CatalogOp.perform_spares h
  cases op with
  | deleteTask => exact deleteTask_thins hn h
  | deleteCategory => exact deleteCategory_thins hn h
  | createTask | setTaskStatus | appendLog => exact absurd trivial hop
  | _ => exact .of_eq hn (spares.tasks id) (spares.logs id) (spares.nextTask id)

end Catalog

end Historian
