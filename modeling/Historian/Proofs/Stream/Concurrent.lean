import Historian.Proofs.Program.Interleaving
import Historian.Proofs.Stream.Writers

namespace Historian.StreamManager

open Catalog

variable {c c' c'' : Catalog} {free free' : LockKey → Prop} {t r : StreamTask} {K : Held}
  {policy : RetryPolicy}

theorem featureKey_ne_taskId : featureKey category feature ≠ taskId n := by
  intro h
  have first := congrArg (fun s : String => s.toList.head?) h
  simp [featureKey, taskId, toString_text] at first

-- The lock that the live generations of a task's feature are behind.
def siblings (t : StreamTask) : LockKey := .stream (featureKey t.category t.feature)

-- Every feature has at most one live task.
structure OneLive (c : Catalog) : Prop where
  numbered : c.Numbered
  sole : ∀ t ∈ c.tasks, ∀ r ∈ c.tasks, t.status.isLive → r.status.isLive →
    r.category = t.category → r.feature = t.feature → r = t

-- A task that is there stays as it is unless its lock is free, and no task of a feature becomes
-- live unless the feature's lock is free.
structure Steady (free : LockKey → Prop) (c c' : Catalog) : Prop where
  next : c.next.task ≤ c'.next.task
  given : ∀ r ∈ c'.tasks, (∃ t ∈ c.tasks, t.id = r.id) ∨ ∃ n, c.next.task ≤ n ∧ r.id = taskId n
  kept : ∀ t ∈ c.tasks, t ∈ c'.tasks ∨ free (.stream t.id)
  live : ∀ r ∈ c'.tasks, r.status.isLive →
    (∃ t ∈ c.tasks, t.category = r.category ∧ t.feature = r.feature ∧ t.status.isLive) ∨
      free (siblings r)

-- The key of a task that was deleted; nothing gets its id again.
def Gone (c : Catalog) (key : LockKey) : Prop :=
  ∃ n < c.next.task, key = .stream (taskId n) ∧ ∀ t ∈ c.tasks, t.id ≠ taskId n

namespace Steady

theorem refl : Steady free c c :=
  ⟨Nat.le_refl _, fun r hr => .inl ⟨r, hr, rfl⟩, fun _ => .inl,
    fun r hr hl => .inl ⟨r, hr, rfl, rfl, hl⟩⟩

theorem trans (h : Steady free c c') (h' : Steady free c' c'') : Steady free c c'' where
  next := Nat.le_trans h.next h'.next
  given r hr := by
    rcases h'.given r hr with ⟨t, ht, hi⟩ | ⟨n, hn, hi⟩
    · exact hi ▸ h.given t ht
    · exact .inr ⟨n, Nat.le_trans h.next hn, hi⟩
  kept t ht := (h.kept t ht).elim (h'.kept t) .inr
  live r hr hl := by
    rcases h'.live r hr hl with ⟨t, ht, hc, hf, hl⟩ | hk
    · have same : siblings t = siblings r := by rw [siblings, siblings, hc, hf]
      rw [← hc, ← hf, ← same]
      exact h.live t ht hl
    · exact .inr hk

theorem widen (h : Steady free c c') (hk : ∀ key, free key → Gone c key ∨ free' key) :
    Steady free' c c' where
  next := h.next
  given := h.given
  kept t ht := (h.kept t ht).imp_right fun hf => (hk _ hf).resolve_left fun ⟨_, _, he, hn⟩ =>
    hn t ht (LockKey.stream.inj he)
  live r hr hl := (h.live r hr hl).imp_right fun hf => (hk _ hf).resolve_left fun ⟨_, _, he, _⟩ =>
    featureKey_ne_taskId (LockKey.stream.inj he)

theorem gone (h : Steady free c c') (hg : Gone c key) : Gone c' key := by
  obtain ⟨n, hn, rfl, hi⟩ := hg
  refine ⟨n, Nat.lt_of_lt_of_le hn h.next, rfl, fun r hr he => ?_⟩
  rcases h.given r hr with ⟨t, ht, hi'⟩ | ⟨m, hm, hi'⟩
  · exact hi t ht (hi'.trans he)
  · obtain rfl := taskId_injective (hi'.symm.trans he)
    exact absurd hm (Nat.not_le.mpr hn)

end Steady

-- What the locks of the manager are for.
def locking : Discipline where
  Inv := OneLive
  Steady := Steady
  Gone := Gone
  refl := .refl
  trans := .trans
  widen _ := .widen
  gone := Steady.gone

-- What the operations do, as far as the discipline sees it.

theorem does_of_tasks (hc : OneLive c) (ht : c'.tasks = c.tasks)
    (hn : c'.next.task = c.next.task) : locking.Does K c c' where
  steady := by
    refine ⟨Nat.le_of_eq hn.symm, fun r hr => ?_, fun t h => .inl (ht ▸ h), fun r hr hl => ?_⟩
    · exact .inl ⟨r, ht ▸ hr, rfl⟩
    · exact .inl ⟨r, ht ▸ hr, rfl, rfl, hl⟩
  inv := ⟨⟨ht ▸ hc.numbered.distinct, by rw [ht, hn]; exact hc.numbered.given⟩, ht ▸ hc.sole⟩

theorem does_createTask {a : StreamTask} (hc : OneLive c)
    (ho : (CatalogOp.createTask spec).perform c = .ok (a, c')) :
    locking.Does K c c' := by
  have effect : c.Effect (.createTask spec) c' := perform_effect ho
  have mem {r : StreamTask} := mem_createTask (r := r) ho
  obtain ⟨-, ha, hc'⟩ := createTask_ok ho
  have idle : ¬a.status.isLive := by simp [ha, StreamStatus.isLive]
  have old {r : StreamTask} (hr : r ∈ c'.tasks) (hl : r.status.isLive) : r ∈ c.tasks :=
    (mem.mp hr).resolve_right fun he => idle (he ▸ hl)
  refine ⟨⟨?_, fun r hr => ?_, fun t ht => .inl (mem.mpr (.inl ht)), fun r hr hl => ?_⟩, ?_⟩
  · simp [hc']
  · rcases mem.mp hr with hr | rfl
    · exact .inl ⟨r, hr, rfl⟩
    · exact .inr ⟨c.next.task, Nat.le_refl _, by rw [ha]⟩
  · exact .inl ⟨r, old hr hl, rfl, rfl, hl⟩
  · exact ⟨hc.numbered.effect effect, fun t ht r hr hl hl' =>
      hc.sole t (old ht hl) r (old hr hl') hl hl'⟩

theorem does_deleteTask {id : String} (hc : OneLive c) (hk : K.Has (.stream id))
    (ho : (CatalogOp.deleteTask id).perform c = .ok ((), c')) : locking.Does K c c' := by
  have effect : c.Effect (.deleteTask id) c' := perform_effect ho
  have mem {r : StreamTask} := mem_deleteTask (r := r) ho
  obtain ⟨-, _, hc'⟩ := deleteTask_ok ho
  refine ⟨⟨?_, fun r hr => ?_, fun t ht => ?_, fun r hr hl => ?_⟩, ?_⟩
  · simp [hc']
  · exact .inl ⟨r, (mem.mp hr).1, rfl⟩
  · by_cases hi : t.id = id
    · exact .inr (hi ▸ hk)
    · exact .inl (mem.mpr ⟨ht, hi⟩)
  · exact .inl ⟨r, (mem.mp hr).1, rfl, rfl, hl⟩
  · exact ⟨hc.numbered.effect effect, fun t ht r hr => hc.sole t (mem.mp ht).1 r (mem.mp hr).1⟩

theorem gone_deleteTask (hc : OneLive c) (ht : t ∈ c.tasks)
    (ho : c.deleteTask t.id = .ok (u, c')) : Gone c' (.stream t.id) := by
  obtain ⟨n, hn, hi⟩ := hc.numbered.given t ht
  have mem {r : StreamTask} := mem_deleteTask (r := r) ho
  obtain ⟨-, _, hc'⟩ := deleteTask_ok ho
  exact ⟨n, by simpa [hc'] using hn, by rw [hi], fun r hr he => (mem.mp hr).2 (he.trans hi.symm)⟩

-- What it takes to set the status of a task, besides the task's lock: it is live before, or the
-- feature has no live task and its lock is there.
def Entitled (K : Held) (c : Catalog) (t : StreamTask) (status : StreamStatus) : Prop :=
  status.isLive → t.status.isLive ∨ K.Has (siblings t) ∧
    ∀ r ∈ c.tasks, r.category = t.category → r.feature = t.feature → ¬r.status.isLive

theorem does_setTaskStatus {a : StreamTask} (hc : OneLive c) (ht : t ∈ c.tasks)
    (hk : K.Has (.stream t.id)) (he : Entitled K c t status)
    (ho : (CatalogOp.setTaskStatus t.id status lastError).perform c = .ok (a, c')) :
    locking.Does K c c' := by
  have effect : c.Effect (.setTaskStatus t.id status lastError) c' := perform_effect ho
  have mem {r : StreamTask} := mem_setTaskStatus (r := r) (hc.numbered.task? ht) ho
  obtain ⟨_, -, -, hc'⟩ := setTaskStatus_ok ho
  have idle {r : StreamTask} (hl : status.isLive) (hr : r ∈ c.tasks) (hi : r.id ≠ t.id)
      (hcat : r.category = t.category) (hfeat : r.feature = t.feature) : ¬r.status.isLive := by
    rcases he hl with htl | ⟨-, hn⟩
    · exact fun hrl => hi (congrArg _ (hc.sole t ht r hr htl hrl hcat hfeat))
    · exact hn r hr hcat hfeat
  refine ⟨⟨?_, fun r hr => ?_, fun r hr => ?_, fun r hr hl => ?_⟩, hc.numbered.effect effect, ?_⟩
  · simp [hc']
  · rcases mem.mp hr with ⟨hr, -⟩ | rfl
    · exact .inl ⟨r, hr, rfl⟩
    · exact .inl ⟨t, ht, rfl⟩
  · by_cases hi : r.id = t.id
    · exact .inr (hi ▸ hk)
    · exact .inl (mem.mpr (.inl ⟨hr, hi⟩))
  · rcases mem.mp hr with ⟨hr, -⟩ | rfl
    · exact .inl ⟨r, hr, rfl, rfl, hl⟩
    · exact (he hl).imp (fun htl => ⟨t, ht, rfl, rfl, htl⟩) And.left
  · intro r hr o ho hrl hol hcat hfeat
    rcases mem.mp hr with ⟨hr, hri⟩ | rfl <;> rcases mem.mp ho with ⟨ho, hoi⟩ | rfl
    · exact hc.sole r hr o ho hrl hol hcat hfeat
    · exact absurd hrl (idle hol hr hri hcat.symm hfeat.symm)
    · exact absurd hol (idle hrl ho hoi hcat hfeat)
    · rfl

-- What a program knows of a task whose lock it has lasts.

theorem mem_meanwhile (ht : t ∈ c.tasks) (hk : K.Has (.stream t.id))
    (hm : locking.Meanwhile K c c') : t ∈ c'.tasks :=
  (hm.steady.kept t ht).resolve_right (not_not_intro hk)

theorem Entitled.meanwhile (h : Entitled K c t status) (hm : locking.Meanwhile K c c') :
    Entitled K c' t status := by
  refine fun hl => (h hl).imp_right fun ⟨hk, hn⟩ => ⟨hk, fun r hr hcat hfeat hrl => ?_⟩
  have same : siblings r = siblings t := by rw [siblings, siblings, hcat, hfeat]
  rcases hm.steady.live r hr hrl with ⟨o, ho, hcat', hfeat', hol⟩ | hf
  · exact hn o ho (hcat'.trans hcat) (hfeat'.trans hfeat) hol
  · exact hf (same ▸ hk)

-- The parts of calls.

abbrev Abides (K : Held) (c : Catalog) (a : Action α) (Q : α → Catalog → Prop) : Prop :=
  locking.Abides K c a Q

-- Whatever it ends with.
abbrev Lawful (K : Held) (c : Catalog) (a : Action α) : Prop :=
  Abides K c a fun _ c' => OneLive c'

theorem checked_abides {x : Except Invalid α} (hc : OneLive c) : Lawful K c (checked x) :=
  ⟨rfl, fun _ _ => hc⟩

theorem catalog_abides {op : CatalogOp} [op.Legible] {Q : op.Answer → Catalog → Prop} (hc : OneLive c)
    (hq : ∀ c₁ x c₂, locking.Meanwhile K c c₁ → op.perform c₁ = .ok (x, c₂) →
      locking.Does K c₁ c₂ ∧ Q x c₂) :
    Abides K c (catalog policy op) Q :=
  .catalog hc hq

-- An operation that only reads.
theorem read_abides (op : CatalogOp) [op.Legible] (answer : Catalog → op.Answer) (hc : OneLive c)
    (hr : ∀ c, op.perform c = .ok (answer c, c)) :
    Abides K c (catalog policy op) fun x c' => locking.Meanwhile K c c' ∧ x = answer c' := by
  refine catalog_abides hc fun c₁ x c₂ h₁ ho => ?_
  obtain ⟨rfl, rfl⟩ := Prod.mk.inj (Except.ok.inj ((hr c₁).symm.trans ho))
  exact ⟨.refl h₁.inv, h₁, rfl⟩

theorem log_abides {id : String} (hc : OneLive c) : Lawful K c (log policy id level message) := by
  refine .lift (Discipline.Keeps.catalog (Q := fun _ => OneLive) hc (fun _ _ h₁ => h₁.inv) ?_)
    fun _ _ hc => .pure hc
  intro c₁ x c₂ h₁ hp
  obtain ⟨_, _, he⟩ := appendLog_ok hp
  have does : locking.Does K c₁ c₂ := does_of_tasks h₁.inv (he ▸ rfl) (he ▸ rfl)
  exact ⟨does, does.inv⟩

theorem loadCategory_abides {code : String} (hc : OneLive c) :
    Lawful K c (loadCategory policy code) := by
  refine (read_abides (.getCategory code) (·.getCategory code) hc fun _ => rfl).step
    fun k c₁ ⟨h₁, _⟩ => ?_
  cases k with
  | none => exact .throw
  | some k => exact .pure h₁.inv

theorem loadTask_abides {id : String} (hc : OneLive c) :
    Abides K c (loadTask policy id) fun t c' => OneLive c' ∧ t ∈ c'.tasks ∧ t.id = id := by
  refine (read_abides (.getTask id) (·.task? id) hc fun _ => rfl).step fun found c₁ ⟨h₁, he⟩ => ?_
  cases found with
  | none => exact .throw
  | some t => exact .pure ⟨h₁.inv, List.mem_of_find?_eq_some he.symm, task?_id he.symm⟩

theorem transition_abides :
    Abides K c (transition t action) fun next c' => action.next? t.status = some next ∧ c' = c := by
  unfold transition
  split
  case h_1 hn => exact .pure ⟨hn, rfl⟩
  case h_2 => exact .throw

theorem setStatus_abides (hc : OneLive c) (ht : t ∈ c.tasks) (hk : K.Has (.stream t.id))
    (he : Entitled K c t status) : Lawful K c (setStatus policy t.id status lastError) := by
  refine catalog_abides hc fun c₁ x c₂ h₁ hp => ?_
  have does := does_setTaskStatus h₁.inv (mem_meanwhile ht hk h₁) hk (he.meanwhile h₁) hp
  exact ⟨does, does.inv⟩

theorem runTransition_abides (hc : OneLive c) (ht : t ∈ c.tasks) (hk : K.Has (.stream t.id))
    (he : ∀ next, action.next? t.status = some next → Entitled K c t next) :
    Lawful K c (runTransition policy t action sql) := by
  refine transition_abides.step fun next c' ⟨hn, hc'⟩ => ?_
  subst hc'
  refine .lift (Discipline.Keeps.execute hc) fun answer c₁ h₁ => ?_
  have ht := mem_meanwhile ht hk h₁
  cases answer with
  | ok _ =>
    refine (setStatus_abides h₁.inv ht hk ((he next hn).meanwhile h₁)).step fun _ c₂ h₂ => ?_
    exact (log_abides h₂).step fun _ _ h₃ => .pure h₃
  | error f =>
    have ends {level message c₂} (h₂ : OneLive c₂) : Lawful K c₂ (do
        log policy t.id level message
        MonadExcept.throw (StreamError.ofEngine t.id t.streamName action f) : Action StreamTask) :=
      (log_abides h₂).step fun _ _ _ => .throw
    simp only
    split
    case isTrue => exact ends h₁.inv
    case isFalse =>
      split
      case isFalse => exact ends h₁.inv
      case isTrue =>
        have idle : Entitled K c₁ t .error := by simp [Entitled, StreamStatus.isLive]
        exact (setStatus_abides h₁.inv ht hk idle).step fun _ _ h₂ => ends h₂

theorem requireNoLiveGeneration_abides (hc : OneLive c) (ht : t ∈ c.tasks)
    (hk : K.Has (.stream t.id)) (hf : K.Has (siblings t)) (hn : ¬t.status.isLive) :
    Abides K c (requireNoLiveGeneration policy t) fun _ c' =>
      OneLive c' ∧ t ∈ c'.tasks ∧ ∀ status, Entitled K c' t status := by
  refine (read_abides (.listTasks (some t.category)) (·.listTasks (some t.category)) hc
    fun _ => rfl).step fun tasks c₁ ⟨h₁, he⟩ => ?_
  subst he
  have ht := mem_meanwhile ht hk h₁
  split
  case h_1 => exact .throw
  case h_2 none =>
    refine .pure ⟨h₁.inv, ht, fun _ _ => .inr ⟨hf, fun r hr hcat hfeat hl => ?_⟩⟩
    by_cases hi : r.id = t.id
    · exact hn (h₁.inv.numbered.eq ht hr hi ▸ hl)
    · have listed : r ∈ c₁.listTasks (some t.category) := by simp [listTasks, hr, hcat]
      simpa [hi, hfeat, hl] using List.find?_eq_none.mp none r listed

-- The calls.

theorem holding_abides {key : String} {a : Action α}
    (h : ∀ ticket c₁, OneLive c₁ → Lawful ((ticket, .stream key) :: K) c₁ a) :
    Lawful K c (holding key a) :=
  .holding fun ticket c₁ h₁ => (h ticket c₁ h₁.inv).mono fun _ _ _ => trivial

-- What is done with a task is done under its lock.
theorem holding_task {id : String} {f : StreamTask → Action α}
    (h : ∀ K t c, OneLive c → t ∈ c.tasks → t.id = id → K.Has (.stream t.id) → Lawful K c (f t)) :
    Lawful K c (holding id do f (← loadTask policy id)) := by
  refine holding_abides fun ticket c₁ h₁ => ?_
  refine (loadTask_abides h₁).step fun t c₂ ⟨h₂, ht, hi⟩ => ?_
  exact h _ t c₂ h₂ ht hi ⟨ticket, hi ▸ List.mem_cons_self⟩

theorem deploy_abides {id : String} : Lawful K c (deploy policy id) := by
  refine holding_task fun K t c hc ht _ hk => ?_
  split
  case isTrue => exact .pure hc
  case isFalse hr =>
    refine transition_abides.step fun next c ⟨hn, he⟩ => ?_
    subst he
    have idle : ¬t.status.isLive := by
      rw [created_of_next hn hr]
      decide
    refine .holding fun ticket c₁ h₁ => ?_
    have ht := mem_meanwhile ht hk h₁
    have hk : Held.Has ((ticket, siblings t) :: K) (.stream t.id) :=
      hk.imp fun _ => List.mem_cons_of_mem _
    have hf : Held.Has ((ticket, siblings t) :: K) (siblings t) := ⟨ticket, List.mem_cons_self⟩
    refine (requireNoLiveGeneration_abides h₁.inv ht hk hf idle).step fun _ c₂ ⟨h₂, ht, he⟩ => ?_
    exact (runTransition_abides h₂ ht hk fun next _ => he next).step fun _ _ _ => .pure trivial

theorem control_abides {id : String} (ha : action ∈ [.pause, .resume, .stop]) :
    Lawful K c (control policy action id) := by
  refine holding_task fun K t c hc ht _ hk => ?_
  refine transition_abides.step fun _ c ⟨_, he⟩ => ?_
  subst he
  refine runTransition_abides hc ht hk fun next hn hl => .inl ?_
  refine (live_of_next hn (by rintro rfl; simp at ha) hl).resolve_left ?_
  rintro rfl
  simp at ha

theorem dropStream_abides (hc : OneLive c) :
    Abides K c (dropStream policy t action) fun _ c' => locking.Meanwhile K c c' := by
  refine .lift (Discipline.Keeps.execute hc) fun answer c₁ h₁ => ?_
  cases answer with
  | ok _ => exact .pure h₁
  | error f => exact .throw

theorem acknowledge_abides {id : String} : Lawful K c (acknowledge policy id) := by
  refine holding_task fun K t c hc ht _ hk => ?_
  refine transition_abides.step fun _ c ⟨_, he⟩ => ?_
  subst he
  refine (dropStream_abides hc).step fun _ c₁ h₁ => ?_
  have idle {K c} : Entitled K c t .created := by simp [Entitled, StreamStatus.isLive]
  refine (setStatus_abides h₁.inv (mem_meanwhile ht hk h₁) hk idle).step fun _ c₂ h₂ => ?_
  exact (log_abides h₂).step fun _ _ h₃ => .pure h₃

theorem delete_abides {id : String} : Lawful K c (delete policy id) := by
  refine holding_task fun K t c hc ht hi hk => ?_
  refine transition_abides.step fun _ c ⟨_, he⟩ => ?_
  subst he hi
  have remove {c} (hc : OneLive c) (ht : t ∈ c.tasks) : Lawful K c (do
      catalog policy (.deleteTask t.id)
      ExceptT.lift (Program.forget (.stream t.id))) := by
    have deleted : Abides K c (catalog policy (.deleteTask t.id)) fun _ c' =>
        OneLive c' ∧ Gone c' (.stream t.id) := by
      refine catalog_abides hc fun c₁ u c₂ h₁ hp => ?_
      have does := does_deleteTask h₁.inv hk hp
      exact ⟨does, does.inv, gone_deleteTask h₁.inv (mem_meanwhile ht hk h₁) hp⟩
    refine deleted.step fun _ c₁ ⟨h₁, hg⟩ => .lifted ?_
    exact Discipline.Keeps.other id fun c₂ h₂ => ⟨h₂.steady.gone hg, fun _ => ⟨rfl, h₂.inv⟩⟩
  split
  case isTrue =>
    exact (dropStream_abides hc).step fun _ c₁ h₁ => remove h₁.inv (mem_meanwhile ht hk h₁)
  case isFalse => exact remove hc ht

theorem checkSignals_abides {category : String} {config : FeatureConfig} (hc : OneLive c) :
    Lawful K c (checkSignals policy category config) :=
  (read_abides (.listSignals category) (·.listSignals category) hc fun _ => rfl).step
    fun _ _ ⟨h₁, _⟩ => checked_abides h₁.inv

theorem validated_abides {category : String} {document : Json} (hc : OneLive c) :
    Lawful K c (validated policy category document) := by
  refine (loadCategory_abides hc).step fun k c₁ h₁ => ?_
  refine (checked_abides h₁).step fun config c₂ h₂ => ?_
  exact (checkSignals_abides h₂).step fun _ _ h₃ => .pure h₃

theorem register_abides {category : String} {document : Json} (hc : OneLive c) :
    Lawful K c (register policy category document) := by
  refine (validated_abides hc).step fun (k, config) c₁ h₁ => ?_
  refine catalog_abides h₁ fun c₂ f c₃ h₂ hp => ?_
  obtain ⟨-, -, -, _, _, he, -⟩ := upsertFeature_ok hp
  have does : locking.Does K c₂ c₃ := does_of_tasks h₂.inv (he ▸ rfl) (he ▸ rfl)
  exact ⟨does, does.inv⟩

theorem compile_abides {category feature : String} (hc : OneLive c) :
    Lawful K c (compile policy category feature) := by
  refine (loadCategory_abides hc).step fun k c₁ h₁ => ?_
  refine (read_abides (.getFeature category feature) (·.feature? category feature) h₁
    fun _ => rfl).step fun found c₂ ⟨h₂, _⟩ => ?_
  cases found with
  | none => exact .throw
  | some f =>
    refine (checked_abides h₂.inv).step fun config c₃ h₃ => ?_
    exact (checkSignals_abides h₃).step fun _ _ h₄ => checked_abides h₄

theorem createTask_abides {s : CompiledStream} (hc : OneLive c) :
    Lawful K c (createTask policy category feature s) := by
  refine (read_abides (.listTasks (some category)) (·.listTasks (some category)) hc
    fun _ => rfl).step fun tasks c₁ ⟨h₁, _⟩ => ?_
  split
  case h_1 => exact .step (Q := fun _ _ => False) .throw nofun
  case h_2 =>
    refine .step (Q := fun _ => OneLive) (catalog_abides h₁.inv fun c₂ t c₃ h₂ hp => ?_)
      fun t c₃ h₃ => ?_
    · have does := does_createTask (K := K) h₂.inv hp
      exact ⟨does, does.inv⟩
    · exact (log_abides h₃).step fun _ _ h₄ => .pure h₄

theorem create_abides {category feature : String} (hc : OneLive c) :
    Lawful K c (create policy category feature) :=
  (compile_abides hc).step fun _ _ _ => holding_abides fun _ _ h₂ => createTask_abides h₂

-- A call as a program that shares its world with others.
def Call.program (policy : RetryPolicy) : Call → Program Unit
  | .register category document => discard (StreamManager.register policy category document).run
  | .create category feature => discard (StreamManager.create policy category feature).run
  | .deploy id => discard (StreamManager.deploy policy id).run
  | .pause id => discard (StreamManager.pause policy id).run
  | .resume id => discard (StreamManager.resume policy id).run
  | .stop id => discard (StreamManager.stop policy id).run
  | .acknowledge id => discard (StreamManager.acknowledge policy id).run
  | .delete id => discard (StreamManager.delete policy id).run

theorem Call.keeps (call : Call) (hc : OneLive c) :
    locking.Keeps (fun _ _ _ => True) (call.program policy) [] c := by
  have discarded {α : Type} {a : Action α} (h : Lawful [] c a) :
      locking.Keeps (fun _ _ _ => True) (discard a.run) [] c :=
    Discipline.Keeps.step h fun _ _ _ _ => trivial
  cases call with
  | register => exact discarded (register_abides hc)
  | create => exact discarded (create_abides hc)
  | deploy => exact discarded deploy_abides
  | pause | resume | stop => exact discarded (control_abides (by simp))
  | acknowledge => exact discarded acknowledge_abides
  | delete => exact discarded delete_abides

theorem OneLive.count (h : OneLive c) (category feature : String) :
    (c.tasks.countP fun t => t.category == category && t.feature == feature && t.status.isLive) ≤
      1 := by
  have single : ∀ ts : List StreamTask, ts.Nodup → (∀ t ∈ ts, ∀ r ∈ ts, r = t) → ts.length ≤ 1
    | [], _, _ => Nat.zero_le _
    | [_], _, _ => Nat.le_refl _
    | t :: r :: ts, hd, he =>
      absurd (he t (by simp) r (by simp)).symm (List.ne_of_not_mem_cons (List.nodup_cons.mp hd).1)
  rw [List.countP_eq_length_filter]
  refine single _ (h.numbered.distinct.of_map.filter _) ?_
  simp only [List.mem_filter, Bool.and_eq_true, beq_iff_eq]
  rintro t ⟨ht, ⟨rfl, rfl⟩, hl⟩ r ⟨hr, ⟨hcat, hfeat⟩, hl'⟩
  exact h.sole t ht r hr hl hl' hcat hfeat

-- Calls that are about to begin.
def calling (w : World ε) (policy : RetryPolicy) (calls : List Call) : Pool ε Unit :=
  { world := w, threads := calls.map fun call => .running (call.program policy) }

-- However calls run together, a feature has at most one live task at any time. A deployment looks
-- for live tasks long before it makes its own task live, but under the feature's lock, and no other
-- call makes a task live that was not.
theorem one_live_generation [Engine.Endpoint ε] {w : World ε} {policy : RetryPolicy}
    {calls : List Call} {p : Pool ε Unit} (ht : w.catalog.tasks = []) (hl : w.locks = {})
    (h : (calling w policy calls).Reaches p) (category feature : String) :
    (p.world.catalog.tasks.countP fun t =>
      t.category == category && t.feature == feature && t.status.isLive) ≤ 1 := by
  have fresh : OneLive w.catalog :=
    ⟨⟨by simp [ht], by simp [ht]⟩, by simp [ht]⟩
  have start : (calling w policy calls).Orderly locking fun _ => [] := by
    have keeps : ∀ q ∈ calls.map (Call.program policy),
        locking.Keeps (fun _ _ _ => True) q [] w.catalog := by
      simp only [List.mem_map]
      rintro _ ⟨call, -, rfl⟩
      exact call.keeps fresh
    simpa [calling, Function.comp_def] using Pool.Orderly.start fresh hl keeps
  obtain ⟨K, orderly⟩ := h.orderly start
  exact orderly.inv.count category feature

-- Two generations of a feature are deployed at once.

def raced : List Call :=
  [ .register "motor" (average "1h"), .create "motor" "avg1", .register "motor" (average "2h"),
    .create "motor" "avg1", .deploy "t1", .deploy "t2" ]

-- The first four calls one after another, the last two step by step in turn.
def turns : List Nat :=
  [0, 1, 2, 3].flatMap (List.replicate 10) ++ (List.replicate 20 [4, 5]).flatten

def race : Pool Engine.Script Unit :=
  let catalog := (Event.run (deployed.take 2)).catalog
  calling { engine := { responses := [] }, catalog } {} raced

theorem race_won : race.world.catalog.tasks = [] ∧
    ((race.play turns).world.catalog.tasks.map fun t => (t.id, t.status)) =
      [("t1", .running), ("t2", .created)] := by
  decide +kernel

theorem one_live_generation_race :
    race.world.catalog.tasks = [] ∧ race.world.locks = {} ∧ race.Reaches (race.play turns) ∧
      ((race.play turns).world.catalog.tasks.map fun t => (t.id, t.status)) =
        [("t1", .running), ("t2", .created)] ∧
      ((race.play turns).world.catalog.tasks.countP fun t =>
        t.category == "motor" && t.feature == "avg1" && t.status.isLive) ≤ 1 :=
  have reached : race.Reaches (race.play turns) := .play .refl turns
  ⟨race_won.1, rfl, reached, race_won.2,
    one_live_generation race_won.1 rfl reached "motor" "avg1"⟩

end Historian.StreamManager
