import Historian.Proofs.Catalog.Tasks
import Historian.Proofs.Stream.Moves

namespace Historian.StreamManager

open Engine

variable {P : String → Prop} {c c' : Catalog} {e e' : Tables}

namespace Logged

theorem keys (h : Logged c c') : c'.keys = c.keys := by
  obtain ⟨_, _, rfl⟩ := h
  rfl

theorem features (h : Logged c c') : c'.features = c.features := by
  obtain ⟨_, _, rfl⟩ := h
  rfl

theorem tasks (h : Logged c c') : c'.tasks = c.tasks := by
  obtain ⟨_, _, rfl⟩ := h
  rfl

theorem numbered (h : Logged c c') (hn : c.Numbered) : c'.Numbered := by
  obtain ⟨_, _, rfl⟩ := h
  exact ⟨hn.distinct, hn.given⟩

end Logged

theorem Move.numbered (h : Move P c e c' e') (hn : c.Numbered) : c'.Numbered := by
  have effect {op : CatalogOp} {a : op.Answer} {c₁} (ho : op.perform c = .ok (a, c₁)) :
      c₁.Numbered :=
    hn.effect (Catalog.perform_effect ho)
  cases h with
  | idle hl => exact hl.numbered hn
  | registered config ho => exact @effect (.upsertFeature _ _ _) _ _ ho
  | created _ _ _ ho hl => exact hl.numbered (@effect (.createTask _) _ _ ho)
  | acted _ _ _ _ _ ho hl => exact hl.numbered (@effect (.setTaskStatus _ _ _) _ _ ho)
  | failed _ _ _ ho hl => exact hl.numbered (@effect (.setTaskStatus _ _ _) _ _ ho)
  | deleted _ _ _ _ ho => exact @effect (.deleteTask _) _ _ ho

theorem Move.keys (h : Move P c e c' e') : c'.keys = c.keys := by
  cases h with
  | idle hl => exact hl.keys
  | registered config ho =>
    obtain ⟨-, -, -, _, _, rfl, -⟩ := Catalog.upsertFeature_ok ho
    rfl
  | created _ _ _ ho hl =>
    obtain ⟨-, -, rfl⟩ := Catalog.createTask_ok ho
    exact hl.keys
  | acted _ _ _ _ _ ho hl | failed _ _ _ ho hl =>
    obtain ⟨_, -, -, rfl⟩ := Catalog.setTaskStatus_ok ho
    exact hl.keys
  | deleted _ _ _ _ ho =>
    obtain ⟨-, _, rfl⟩ := Catalog.deleteTask_ok ho
    rfl

-- A task in one of these states may have its stream in the engine.
def Deployed (status : StreamStatus) : Prop :=
  status = .running ∨ status = .paused ∨ status = .error

-- The stream of a task is in the engine, made by the statement of the task.
structure Owns (e : Tables) (t : StreamTask) (s : Stream) : Prop where
  status : Deployed t.status
  stream : e.streams[t.streamName]? = some s
  sql : s.sql = t.sql

-- What holds of the tasks and the streams whatever the order of the calls.
structure Tidy (c : Catalog) (e : Tables) : Prop where
  numbered : c.Numbered
  unique : c.Unique
  valid : ∀ k ∈ c.keys, k.Valid
  compiled : ∀ t ∈ c.tasks, ∃ k, Compiled c.keys t.toTaskSpec k
  owned : ∀ n s, e.streams[n]? = some s → ∃ t ∈ c.tasks, t.streamName = n ∧ Owns e t s
  target : ∀ n s, e.streams[n]? = some s →
    ∃ source, Sql.Statement.parse s.sql = .ok (.createStream true n s.target source)

-- What a move does to the tasks and to the streams.
inductive Turn (P : String → Prop) (c : Catalog) (e : Tables) (c' : Catalog) (e' : Tables) : Prop
  | still (hm : c'.tasks = c.tasks) (he : e' = e)
  | made (t : StreamTask) (hm : ∀ r, r ∈ c'.tasks ↔ r ∈ c.tasks ∨ r = t) (hs : t.status = .created)
    (hp : P t.category) (hd : Derived c t.category t.feature s)
    (ht : t.toTaskSpec = ordered t.category t.feature s)
    (hn : ∀ r ∈ c.tasks, r.category = t.category → r.streamName = t.streamName →
      r.status = .stopped)
    (he : e' = e)
  | acted (t : StreamTask) (ht : t ∈ c.tasks)
    (hm : ∀ r, r ∈ c'.tasks ↔ r ∈ c.tasks ∧ r.id ≠ t.id ∨ r = { t with status := next, lastError })
    (hv : action.next? t.status = some next) (ha : action ≠ .delete) (hc : Cleared c t action)
    (hi : Issued t e.streams[t.streamName]? action after) (he : e.Puts t.streamName after e')
  | failed (t : StreamTask) (ht : t ∈ c.tasks)
    (hm : ∀ r, r ∈ c'.tasks ↔ r ∈ c.tasks ∧ r.id ≠ t.id ∨
      r = { t with status := .error, lastError })
    (hs : t.status ≠ .stopped) (he : e' = e)
  | dropped (t : StreamTask) (ht : t ∈ c.tasks) (hm : ∀ r, r ∈ c'.tasks ↔ r ∈ c.tasks ∧ r.id ≠ t.id)
    (hs : t.status = .error) (he : e.Puts t.streamName none e')
  | removed (t : StreamTask) (ht : t ∈ c.tasks) (hm : ∀ r, r ∈ c'.tasks ↔ r ∈ c.tasks ∧ r.id ≠ t.id)
    (hs : ¬Deployed t.status) (he : e' = e)

theorem Move.turn_of_compiled (h : Move P c e c' e')
    (hc : ∀ t ∈ c.tasks, ∃ k, Compiled c.keys t.toTaskSpec k) : Turn P c e c' e' := by
  have mem {t : StreamTask} (ht : c.task? t.id = some t) :
      t ∈ c.tasks := List.mem_of_find?_eq_some ht
  cases h with
  | idle hl he => exact .still hl.tasks he
  | registered config ho he =>
    obtain ⟨-, -, -, _, _, rfl, -⟩ := Catalog.upsertFeature_ok ho
    exact .still rfl he
  | created hp hs hn ho hl he =>
    obtain ⟨-, rfl, -⟩ := Catalog.createTask_ok ho
    exact .made _ (fun r => hl.tasks ▸ Catalog.mem_createTask ho) rfl hp hs rfl hn he
  | acted ht hv ha hf hr ho hl =>
    obtain ⟨k, hk⟩ := hc _ (mem ht)
    obtain ⟨after, hi, he⟩ := hk.run hr
    exact .acted _ (mem ht) (fun r => hl.tasks ▸ Catalog.mem_setTaskStatus ht ho) hv ha hf hi he
  | failed ht hv ha ho hl he =>
    refine .failed _ (mem ht) (fun r => hl.tasks ▸ Catalog.mem_setTaskStatus ht ho)
      (fun hs => ?_) he
    rw [hs, StreamAction.next?_stopped (by rintro rfl; cases ha)] at hv
    cases hv
  | @deleted next t ht hv hr he ho =>
    have members r := Catalog.mem_deleteTask (r := r) ho
    by_cases hs : t.status = .error
    case pos =>
      obtain ⟨k, hk⟩ := hc _ (mem ht)
      obtain ⟨after, hi, puts⟩ := hk.run (hr hs)
      cases hi
      exact .dropped t (mem ht) members hs puts
    case neg =>
      refine .removed t (mem ht) members ?_ (he hs)
      rintro (h | h | h) <;> simp_all [StreamAction.next?]

theorem Move.turn (h : Move P c e c' e') (hc : Tidy c e) : Turn P c e c' e' :=
  h.turn_of_compiled hc.compiled

-- The owner of a stream goes on owning it if it is not the task that is changed, or if that may
-- have a stream afterwards too.
theorem Tidy.passes (hc : Tidy c e) (ht : t ∈ c.tasks)
    (hm : ∀ r ∈ c.tasks, r.id ≠ t.id → r ∈ c'.tasks)
    (hb : e.streams[n]? = some s) (hs : e'.streams[n]? = some s') (hq : s'.sql = s.sql)
    (ha : Deployed t.status → t.streamName = n →
      ∃ a ∈ c'.tasks, a.streamName = t.streamName ∧ a.sql = t.sql ∧ Deployed a.status) :
    ∃ r ∈ c'.tasks, r.streamName = n ∧ Owns e' r s' := by
  obtain ⟨r, hr, rfl, ho⟩ := hc.owned n s hb
  by_cases hi : r.id = t.id
  case neg => exact ⟨r, hm r hr hi, rfl, ho.status, hs, hq.trans ho.sql⟩
  case pos =>
    obtain rfl := hc.numbered.eq ht hr hi
    obtain ⟨a, hm, hn, hsql, hst⟩ := ha ho.status rfl
    exact ⟨a, hm, hn, hst, hn ▸ hs, by rw [hsql, hq, ho.sql]⟩

theorem Turn.owned (h : Turn P c e c' e') (hc : Tidy c e) (hs : e'.streams[n]? = some s) :
    ∃ t ∈ c'.tasks, t.streamName = n ∧ Owns e' t s := by
  cases h with
  | still hm he =>
    obtain ⟨t, ht, hn, ho⟩ := hc.owned n s (he ▸ hs)
    exact ⟨t, hm ▸ ht, hn, he ▸ ho⟩
  | made t hm _ _ _ _ _ he =>
    obtain ⟨r, hr, hn, ho⟩ := hc.owned n s (he ▸ hs)
    exact ⟨r, (hm r).mpr (.inl hr), hn, he ▸ ho⟩
  | @acted next lastError action after t ht hm hv _ hf hi he =>
    have others : ∀ r ∈ c.tasks, r.id ≠ t.id → r ∈ c'.tasks :=
      fun r hr hi => (hm r).mpr (.inl ⟨hr, hi⟩)
    have changed := (hm _).mpr (.inr rfl)
    rcases he.cases hs with ⟨rfl, rfl⟩ | ⟨hn, hb⟩
    case inr => exact hc.passes ht others hb hs rfl fun _ he => absurd he.symm hn
    cases hi with
    | found hb =>
      refine hc.passes ht others hb hs rfl fun hd => ?_
      rcases hd with h | h | h <;> cases hf.1.symm.trans h
    | made hb hp =>
      obtain rfl : next = .running := by simpa [hf.1, StreamAction.next?, eq_comm] using hv
      exact ⟨_, changed, rfl, .inl rfl, hs, rfl⟩
    | paused hb =>
      refine hc.passes ht others hb hs rfl fun _ _ => ⟨_, changed, rfl, rfl, .inr (.inl ?_)⟩
      cases ht : t.status <;> simp_all [StreamAction.next?]
    | resumed hb =>
      refine hc.passes ht others hb hs rfl fun _ _ => ⟨_, changed, rfl, rfl, .inl ?_⟩
      cases ht : t.status <;> simp_all [StreamAction.next?]
  | failed t ht hm hst he =>
    have changed := (hm _).mpr (.inr rfl)
    exact hc.passes ht (fun r hr hi => (hm r).mpr (.inl ⟨hr, hi⟩)) (he ▸ hs) hs rfl
      fun _ _ => ⟨_, changed, rfl, rfl, .inr (.inr rfl)⟩
  | dropped t ht hm hst he =>
    rcases he.cases hs with ⟨-, hn⟩ | ⟨hn, hb⟩
    · cases hn
    · exact hc.passes ht (fun r hr hi => (hm r).mpr ⟨hr, hi⟩) hb hs rfl fun _ he =>
        absurd he.symm hn
  | removed t ht hm hst he =>
    exact hc.passes ht (fun r hr hi => (hm r).mpr ⟨hr, hi⟩) (he ▸ hs) hs rfl fun hd => absurd hd hst

theorem Turn.target (h : Turn P c e c' e') (hc : Tidy c e) (hs : e'.streams[n]? = some s) :
    ∃ source, Sql.Statement.parse s.sql = .ok (.createStream true n s.target source) := by
  cases h with
  | still _ he | made _ _ _ _ _ _ _ he | failed _ _ _ _ he | removed _ _ _ _ he =>
    exact hc.target n s (he ▸ hs)
  | dropped t _ _ _ he =>
    rcases he.cases hs with ⟨-, hn⟩ | ⟨-, hb⟩
    · cases hn
    · exact hc.target n s hb
  | acted t _ _ _ _ _ hi he =>
    rcases he.cases hs with ⟨rfl, rfl⟩ | ⟨-, hb⟩
    case inr => exact hc.target n s hb
    cases hi with
    | made _ hp => exact ⟨_, hp⟩
    | found hb | paused hb | resumed hb =>
      have known := hc.target _ _ hb
      exact known

-- Tasks keep their ids and what they were made of.
theorem Turn.origin (h : Turn P c e c' e') (hr : r ∈ c'.tasks) :
    (∃ t ∈ c.tasks, r.id = t.id ∧ r.toTaskSpec = t.toTaskSpec) ∨
      ∃ s, Derived c r.category r.feature s ∧ r.toTaskSpec = ordered r.category r.feature s ∧
        P r.category := by
  cases h with
  | still hm => exact .inl ⟨r, hm ▸ hr, rfl, rfl⟩
  | made t hm _ hp hd ht =>
    rcases (hm r).mp hr with hr | rfl
    · exact .inl ⟨r, hr, rfl, rfl⟩
    · exact .inr ⟨_, hd, ht, hp⟩
  | acted t ht hm | failed t ht hm =>
    rcases (hm r).mp hr with ⟨hr, -⟩ | rfl
    · exact .inl ⟨r, hr, rfl, rfl⟩
    · exact .inl ⟨t, ht, rfl, rfl⟩
  | dropped t ht hm | removed t ht hm => exact .inl ⟨r, ((hm r).mp hr).1, rfl, rfl⟩

theorem Turn.spec (h : Turn P c e c' e') (hr : r ∈ c'.tasks) :
    (∃ t ∈ c.tasks, r.toTaskSpec = t.toTaskSpec) ∨
      ∃ s, Derived c r.category r.feature s ∧ r.toTaskSpec = ordered r.category r.feature s ∧
        P r.category :=
  (h.origin hr).imp_left fun ⟨t, ht, _, he⟩ => ⟨t, ht, he⟩

theorem not_stopped_of_next {action : StreamAction} (h : action.next? status = some next)
    (ha : action ≠ .delete) : status ≠ .stopped := by
  rintro rfl
  cases (StreamAction.next?_stopped ha).symm.trans h

-- Within its category, a task that is not stopped has the name of its stream to itself.
def Apart (c : Catalog) : Prop :=
  ∀ t ∈ c.tasks, ∀ r ∈ c.tasks, t.status ≠ .stopped → r.status ≠ .stopped →
    r.category = t.category → r.streamName = t.streamName → r = t

-- It had that name before its status changed, too.
theorem Apart.set {a : StreamTask} (h : Apart c) (ht : t ∈ c.tasks) (hs : t.status ≠ .stopped)
    (hm : ∀ r, r ∈ c'.tasks ↔ r ∈ c.tasks ∧ r.id ≠ t.id ∨ r = a)
    (ha : a.toTaskSpec = t.toTaskSpec) : Apart c' := by
  have hcat : a.category = t.category := congrArg _ ha
  have hname : a.streamName = t.streamName := congrArg _ ha
  have other {r : StreamTask} (hr : r ∈ c.tasks) (hi : r.id ≠ t.id) (hrs : r.status ≠ .stopped)
      (hc : r.category = a.category) (hn : r.streamName = a.streamName) : False :=
    hi (congrArg _ (h t ht r hr hs hrs (hc.trans hcat) (hn.trans hname)))
  intro r hr o ho hrs hos hc hn
  rcases (hm r).mp hr with ⟨hr, hri⟩ | rfl <;> rcases (hm o).mp ho with ⟨ho, hoi⟩ | rfl
  · exact h r hr o ho hrs hos hc hn
  · exact (other hr hri hrs hc.symm hn.symm).elim
  · exact (other ho hoi hos hc hn).elim
  · rfl

theorem Turn.apart (ht : Turn P c e c' e') (h : Apart c) : Apart c' := by
  cases ht with
  | still hm => rwa [Apart, hm]
  | made t hm _ _ _ _ hn =>
    intro r hr o ho hrs hos hc he
    rcases (hm r).mp hr with hr | rfl <;> rcases (hm o).mp ho with ho | rfl
    · exact h r hr o ho hrs hos hc he
    · exact absurd (hn r hr hc.symm he.symm) hrs
    · exact absurd (hn o ho hc he) hos
    · rfl
  | acted t ht hm hv ha => exact h.set ht (not_stopped_of_next hv ha) hm rfl
  | failed t ht hm hs => exact h.set ht hs hm rfl
  | dropped t ht hm | removed t ht hm =>
    exact fun r hr o ho => h r ((hm r).mp hr).1 o ((hm o).mp ho).1

theorem Derived.compiled (h : Derived c spec.category spec.feature s) (hv : ∀ k ∈ c.keys, k.Valid)
    (hs : spec = ordered spec.category spec.feature s) : ∃ k, Compiled c.keys spec k := by
  obtain @⟨k, f, config, hk, hf, hd, hs'⟩ := h
  have ⟨hm, hcode⟩ := Catalog.keys_of_getCategory hk
  exact ⟨_, .of_feature hm (hv _ hm) hcode hs' (congrArg _ hs) (congrArg _ hs) (congrArg _ hs)⟩

theorem Move.compiled (h : Move P c e c' e') (hv : ∀ k ∈ c.keys, k.Valid)
    (hc : ∀ t ∈ c.tasks, ∃ k, Compiled c.keys t.toTaskSpec k) :
    ∀ r ∈ c'.tasks, ∃ k, Compiled c'.keys r.toTaskSpec k := by
  intro r hr
  rw [h.keys]
  obtain ⟨t, ht, he⟩ | ⟨s, hd, hs, -⟩ := (h.turn_of_compiled hc).spec hr
  · exact he ▸ hc t ht
  · exact hd.compiled hv hs

theorem Tidy.move (hc : Tidy c e) (h : Move P c e c' e') : Tidy c' e' := by
  have turn := h.turn hc
  refine ⟨h.numbered hc.numbered, ?_, h.keys ▸ hc.valid, h.compiled hc.valid hc.compiled,
    fun n s => turn.owned hc, fun n s => turn.target hc⟩
  rw [Catalog.Unique, h.keys]
  exact hc.unique

end Historian.StreamManager
