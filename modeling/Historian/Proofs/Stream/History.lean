import Historian.Proofs.Stream.Runs

namespace Historian.StreamManager

open Engine World

-- The operations of the catalog that leave tasks alone.
def LeavesTasks : CatalogOp → Prop
  | .deleteCategory _ | .createTask _ | .setTaskStatus .. | .deleteTask _ => False
  | _ => True

-- The streams that are in the engine still when the tasks of their names have gone with a category.
def abandoned (code : String) (w : World Service) : List String :=
  let after := w.edit (.deleteCategory code)
  ((w.catalog.tasks.filter (· ∉ after.catalog.tasks)).map (·.streamName)).filter
    (after.engine.tables.streams.contains ·)

-- What can happen next, and the streams that it abandons. Tasks are made and changed by the manager
-- only, but go with their category too.
inductive Next (w : World Service) : List String → World Service → Prop
  | arranged (hc : w'.catalog = w.catalog) (ht : w'.engine.tables = w.engine.tables) : Next w [] w'
  | edited (op : CatalogOp) (hop : LeavesTasks op) : Next w [] (w.edit op)
  | deleted (code : String) : Next w (abandoned code w) (w.edit (.deleteCategory code))
  | synchronized (policy : RetryPolicy) (call : Synchronizer.Call) : Next w [] (call.run policy w)
  | managed (hc : w.SoundCatalog) (policy : RetryPolicy) (call : Call) :
    Next w [] (call.run policy w)

-- What has happened since, and the streams abandoned on the way.
inductive History (w : World Service) : List String → World Service → Prop
  | start : History w [] w
  | next (h : History w left w') (hn : Next w' more w'') : History w (left ++ more) w''

structure Fresh (w : World Service) : Prop where
  catalog : w.catalog = {}
  tables : w.engine.tables = {}

variable {w w' : World Service} {c c' : Catalog} {e e' : Tables} {left : List String}

-- What leaves the tasks and the streams alone.
structure Aside (c : Catalog) (e : Tables) (c' : Catalog) (e' : Tables) : Prop where
  keys : c.keys ⊆ c'.keys
  valid : (∀ k ∈ c.keys, k.Valid) → ∀ k ∈ c'.keys, k.Valid
  tasks : c'.tasks = c.tasks
  nextTask : c'.next.task = c.next.task
  streams : e'.streams = e.streams

theorem Aside.refl (c : Catalog) (e : Tables) : Aside c e c e :=
  ⟨List.Subset.refl _, id, rfl, rfl, rfl⟩

theorem Aside.of_kept (h : Synchronizer.Kept w w') :
    Aside w.catalog w.engine.tables w'.catalog w'.engine.tables :=
  ⟨h.keys ▸ List.Subset.refl _, h.keys ▸ id, h.tasks, h.nextTask, h.streams⟩

theorem Aside.of_effect (h : c.Effect op c') (hop : LeavesTasks op) : Aside c e c' e := by
  have valid := valid_of_effect h
  have same (hk : c'.keys = c.keys) (ht : c'.tasks = c.tasks) (hn : c'.next.task = c.next.task) :
      Aside c e c' e := ⟨hk ▸ List.Subset.refl _, valid, ht, hn, rfl⟩
  cases h with
  | read | signals | assets | upsertFeature | deleteFeature | appendLog => exact same rfl rfl rfl
  | createCategory => exact ⟨by simp [Catalog.keys], valid, rfl, rfl, rfl⟩
  | setCategoryActive | recordCategorySync =>
    exact same (Catalog.keys_map rfl fun _ => rfl) rfl rfl
  | deleteCategory | createTask | setTaskStatus | deleteTask => exact hop.elim

-- What becomes of the tasks and the streams.
inductive Shift (w w' : World Service) : List String → Prop
  | aside (h : Aside w.catalog w.engine.tables w'.catalog w'.engine.tables) : Shift w w' []
  | moved (h : Moves (fun _ => True) w w') : Shift w w' []
  | deleted {more : List String} (code : String) (hn : w'.catalog.next = w.catalog.next)
    (ht : w'.catalog.tasks = w.catalog.tasks.filter (·.category != code))
    (hk : w'.catalog.keys = w.catalog.keys.filter (·.code != code)) (he : w'.engine = w.engine)
    (hs : ∀ t ∈ w.catalog.tasks, t ∉ w'.catalog.tasks →
      w.engine.tables.streams.contains t.streamName → t.streamName ∈ more) : Shift w w' more

theorem edit_engine (w : World Service) (op : CatalogOp) : (w.edit op).engine = w.engine := by
  unfold World.edit
  split <;> rfl

theorem edit_error {op : CatalogOp} (h : op.perform w.catalog = .error fault) : w.edit op = w := by
  simp [World.edit, h]

theorem edit_ok {op : CatalogOp} {a : op.Answer} (h : op.perform w.catalog = .ok (a, c')) :
    (w.edit op).catalog = c' := by
  simp [World.edit, h]

theorem mem_abandoned : n ∈ abandoned code w ↔
    (∃ t ∈ w.catalog.tasks, t ∉ (w.edit (.deleteCategory code)).catalog.tasks ∧ t.streamName = n) ∧
      w.engine.tables.streams.contains n := by
  simp [abandoned, edit_engine, and_assoc]

-- A deletion that fails abandons nothing.
theorem deleteCategory_of_abandoned (h : n ∈ abandoned code w) :
    ∃ c', w.catalog.deleteCategory code = .ok ((), c') := by
  cases ho : w.catalog.deleteCategory code with
  | ok r => exact ⟨r.2, rfl⟩
  | error fault =>
    have refused : (CatalogOp.deleteCategory code).perform w.catalog = .error fault := ho
    obtain ⟨⟨t, ht, hg, -⟩, -⟩ := mem_abandoned.mp h
    rw [edit_error refused] at hg
    contradiction

theorem Next.shift (h : Next w more w') : Shift w w' more := by
  cases h with
  | arranged hc ht => exact .aside (hc ▸ ht ▸ .refl _ _)
  | edited op hop =>
    unfold World.edit
    split
    case h_1 h => exact .aside (.of_effect (Catalog.perform_effect h) hop)
    case h_2 => exact .aside (.refl _ _)
  | deleted code =>
    cases ho : (CatalogOp.deleteCategory code).perform w.catalog with
    | error fault =>
      have none : abandoned code w = [] := by simp [abandoned, edit_error ho]
      rw [edit_error ho, none]
      exact .aside (.refl _ _)
    | ok r =>
      have deleted : w.catalog.deleteCategory code = .ok (r.1, r.2) := ho
      obtain ⟨logs, hc⟩ := Catalog.deleteCategory_ok deleted
      refine .deleted code ?_ ?_ ?_ (edit_engine ..) fun t ht hg hs =>
        mem_abandoned.mpr ⟨⟨t, ht, hg, rfl⟩, hs⟩
      all_goals rw [edit_ok ho, hc]
      simp [Catalog.keys, List.filter_map, Function.comp_def]
  | synchronized policy call => exact .aside (.of_kept (call.kept policy w))
  | managed hc policy call =>
    have within : call.Within fun _ => True := by cases call <;> trivial
    exact .moved (Call.moves hc within policy)

-- A stream belongs to a task that may have one, or else was abandoned.
def Belongs (left : List String) (c : Catalog) (n : String) : Prop :=
  n ∈ left ∨ ∃ t ∈ c.tasks, t.streamName = n ∧ Deployed t.status

-- What holds of the tasks and the streams throughout a history.
structure Ordered (left : List String) (c : Catalog) (e : Tables) : Prop where
  numbered : c.Numbered
  valid : ∀ k ∈ c.keys, k.Valid
  compiled : ∀ t ∈ c.tasks, ∃ k, Compiled c.keys t.toTaskSpec k
  held : ∀ n s, e.streams[n]? = some s → Belongs left c n

theorem Fresh.ordered (h : Fresh w) : Ordered [] w.catalog w.engine.tables := by
  rw [h.catalog, h.tables]
  exact ⟨⟨.nil, nofun⟩, nofun, nofun, by simp⟩

theorem Ordered.aside (h : Ordered left c e) (ha : Aside c e c' e') : Ordered left c' e' where
  numbered := ⟨ha.tasks ▸ h.numbered.distinct, ha.tasks ▸ ha.nextTask ▸ h.numbered.given⟩
  valid := ha.valid h.valid
  compiled t ht := (h.compiled t (ha.tasks ▸ ht)).imp fun _ hk => hk.mono ha.keys
  held n s hs := by
    rw [Belongs, ha.tasks]
    exact h.held n s (ha.streams ▸ hs)

-- The task that a stream belongs to goes on having it if it is not the one that is changed, or if
-- that may have a stream afterwards too.
theorem Belongs.passes {t : StreamTask} (h : Belongs left c n) (hc : c.Numbered) (ht : t ∈ c.tasks)
    (hm : ∀ r ∈ c.tasks, r.id ≠ t.id → r ∈ c'.tasks)
    (ha : Deployed t.status → t.streamName = n →
      ∃ a ∈ c'.tasks, a.streamName = n ∧ Deployed a.status) : Belongs left c' n := by
  refine h.imp_right fun ⟨r, hr, hn, hd⟩ => ?_
  by_cases hi : r.id = t.id
  case neg => exact ⟨r, hm r hr hi, hn, hd⟩
  case pos =>
    obtain rfl := hc.eq ht hr hi
    exact ha hd hn

-- An action that leaves a stream in the engine leaves its task live.
theorem Issued.deployed {t : StreamTask} {action : StreamAction}
    (h : Issued t before action (some s)) (hv : action.next? t.status = some next) :
    Deployed next := by
  cases h <;> cases hs : t.status <;> simp_all [StreamAction.next?, Deployed]

theorem Turn.held (h : Turn P c e c' e') (hc : c.Numbered)
    (held : ∀ n s, e.streams[n]? = some s → Belongs left c n) (hs : e'.streams[n]? = some s) :
    Belongs left c' n := by
  cases h with
  | still hm he => exact (held n s (he ▸ hs)).imp_right fun h => hm ▸ h
  | made t hm _ _ _ _ _ he =>
    exact (held n s (he ▸ hs)).imp_right fun ⟨r, hr, h⟩ => ⟨r, (hm r).mpr (.inl hr), h⟩
  | acted t ht hm hv ha hf hi he =>
    have others := fun r hr hi => (hm r).mpr (.inl ⟨hr, hi⟩)
    have changed := (hm _).mpr (.inr rfl)
    rcases he.cases hs with ⟨rfl, rfl⟩ | ⟨hn, hb⟩
    case inr => exact (held n s hb).passes hc ht others fun _ he => absurd he.symm hn
    exact .inr ⟨_, changed, rfl, hi.deployed hv⟩
  | failed t ht hm _ he =>
    exact (held n s (he ▸ hs)).passes hc ht (fun r hr hi => (hm r).mpr (.inl ⟨hr, hi⟩))
      fun _ hn => ⟨_, (hm _).mpr (.inr rfl), hn, .inr (.inr rfl)⟩
  | dropped t ht hm _ he =>
    rcases he.cases hs with ⟨-, hn⟩ | ⟨hn, hb⟩
    · cases hn
    · exact (held n s hb).passes hc ht (fun r hr hi => (hm r).mpr ⟨hr, hi⟩) fun _ he =>
        absurd he.symm hn
  | removed t ht hm hd he =>
    exact (held n s (he ▸ hs)).passes hc ht (fun r hr hi => (hm r).mpr ⟨hr, hi⟩) fun h =>
      absurd h hd

theorem Ordered.move (h : Ordered left c e) (hm : Move P c e c' e') : Ordered left c' e' :=
  have turn := hm.turn_of_compiled h.compiled
  ⟨hm.numbered h.numbered, hm.keys ▸ h.valid, hm.compiled h.valid h.compiled,
    fun _ _ => turn.held h.numbered h.held⟩

theorem Ordered.shift (h : Ordered left w.catalog w.engine.tables) (hs : Shift w w' more) :
    Ordered (left ++ more) w'.catalog w'.engine.tables := by
  cases hs with
  | aside ha => simpa using h.aside ha
  | moved hm => simpa using h.move hm
  | deleted code hn ht hk he hs =>
    have fewer : w'.catalog.tasks.Sublist w.catalog.tasks := ht ▸ List.filter_sublist
    constructor
    case numbered =>
      refine ⟨(fewer.map _).nodup h.numbered.distinct, fun t ht => ?_⟩
      exact hn ▸ h.numbered.given t (fewer.subset ht)
    case valid => exact fun k hm => h.valid k (List.mem_filter.mp (hk ▸ hm)).1
    case compiled =>
      intro t htm
      have ⟨hm, hc⟩ := List.mem_filter.mp (ht ▸ htm)
      obtain ⟨k, hkc⟩ := h.compiled t hm
      refine ⟨k, ?_, hkc.category, hkc.name, hkc.reads⟩
      exact hk ▸ List.mem_filter.mpr ⟨hkc.mem, hkc.category ▸ hc⟩
    case held =>
      intro n s hb
      rw [he] at hb
      obtain hl | ⟨t, htm, rfl, hd⟩ := h.held n s hb
      · exact .inl (List.mem_append_left _ hl)
      by_cases hg : t ∈ w'.catalog.tasks
      case pos => exact .inr ⟨t, hg, rfl, hd⟩
      case neg =>
        refine .inl (List.mem_append_right _ (hs t htm hg ?_))
        exact Std.ExtTreeMap.contains_eq_isSome_getElem?.trans (by simp [hb])

theorem History.ordered {w₀ : World Service} (h : History w₀ left w) (hw : Fresh w₀) :
    Ordered left w.catalog w.engine.tables := by
  induction h with
  | start => exact hw.ordered
  | next _ hn ih => exact ih.shift hn.shift

-- Events of a list, when they are not deletions.
theorem History.events {w₀ : World Service} {es : List Event} (h : History w₀ left w)
    (he : ∀ op, .edit op ∈ es → LeavesTasks op) : History w₀ left (es.foldl Event.apply w) := by
  induction es generalizing w with
  | nil => exact h
  | cons event es ih =>
    refine ih ?_ fun op ho => he op (.tail _ ho)
    have step {w w'} (h : History w₀ left w) (hn : Next w [] w') : History w₀ left w' := by
      simpa using h.next hn
    have met faults : History w₀ left (Event.meeting w faults) := step h (.arranged rfl rfl)
    cases event with
    | edit op => exact step h (.edited op (he op (.head _)))
    | sync c => exact step (met _) (.synchronized {} c)
    | call c faults => exact step (met faults) (.managed (by rfl) {} c)

end Historian.StreamManager
