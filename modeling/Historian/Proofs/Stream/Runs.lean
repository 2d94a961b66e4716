import Historian.Proofs.Schema.Runs
import Historian.Proofs.Stream.Owners

namespace Historian.StreamManager

open Engine World

-- The operations of the catalog that leave to the manager what is for it to change.
def Spares : CatalogOp → Prop
  | .deleteCategory _ | .upsertFeature .. | .createTask _ | .setTaskStatus .. | .deleteTask _ =>
    False
  | _ => True

-- A fresh catalog and a fresh engine, edits of the catalog, and calls of the synchronizer and of
-- the manager one after another, each in circumstances of its own. Tasks are made only in
-- categories of some kind.
inductive Reached (P : String → Prop) : World Service → Prop
  | fresh (hc : w.catalog = {}) (ht : w.engine.tables = {}) : Reached P w
  | arranged (h : Reached P w) (hc : w'.catalog = w.catalog)
    (ht : w'.engine.tables = w.engine.tables) : Reached P w'
  | edited (h : Reached P w) (op : CatalogOp) (hop : Spares op) : Reached P (w.edit op)
  | synchronized (h : Reached P w) (policy : RetryPolicy) (call : Synchronizer.Call) :
    Reached P (call.run policy w)
  | managed (h : Reached P w) (hc : w.SoundCatalog) (policy : RetryPolicy) (call : Call)
    (hp : call.Within P) : Reached P (call.run policy w)

variable {P : String → Prop} {w : World Service} {c c' : Catalog} {e e' : Tables}

-- What others than the manager may change.
structure Besides (c : Catalog) (e : Tables) (c' : Catalog) (e' : Tables) : Prop where
  keys : c.keys ⊆ c'.keys
  features : c'.features ⊆ c.features
  tasks : c'.tasks = c.tasks
  nextTask : c'.next.task = c.next.task
  streams : e'.streams = e.streams

theorem Besides.of_kept {w' : World Service} (h : Synchronizer.Kept w w') :
    Besides w.catalog w.engine.tables w'.catalog w'.engine.tables :=
  ⟨h.keys ▸ List.Subset.refl _, h.features ▸ List.Subset.refl _, h.tasks, h.nextTask, h.streams⟩

theorem Besides.of_effect (h : c.Effect op c') (hop : Spares op) : Besides c e c' e := by
  have same (hk : c'.keys = c.keys) (hf : c'.features = c.features) (ht : c'.tasks = c.tasks)
      (hn : c'.next.task = c.next.task) : Besides c e c' e :=
    ⟨hk ▸ List.Subset.refl _, hf ▸ List.Subset.refl _, ht, hn, rfl⟩
  have keys := h.keys
  cases h with
  | read | signals | assets | appendLog => exact same rfl rfl rfl rfl
  | createCategory => exact ⟨by simp [Catalog.keys], List.Subset.refl _, rfl, rfl, rfl⟩
  | setCategoryActive | recordCategorySync =>
    exact same (Catalog.keys_map rfl fun _ => rfl) rfl rfl rfl
  | deleteFeature => exact ⟨List.Subset.refl _, List.filter_sublist.subset, rfl, rfl, rfl⟩
  | deleteCategory | upsertFeature | createTask | setTaskStatus | deleteTask => exact hop.elim

theorem Tidy.besides (hc : Tidy c e) (h : Besides c e c' e') (hu : c'.Unique)
    (hv : ∀ k ∈ c'.keys, k.Valid) : Tidy c' e' where
  numbered := ⟨h.tasks ▸ hc.numbered.distinct, by rw [h.tasks, h.nextTask]; exact hc.numbered.given⟩
  unique := hu
  valid := hv
  compiled t ht := (hc.compiled t (h.tasks ▸ ht)).imp fun _ hk => hk.mono h.keys
  owned n s hs := by
    obtain ⟨t, ht, hn, ho⟩ := hc.owned n s (h.streams ▸ hs)
    exact ⟨t, h.tasks ▸ ht, hn, ho.status, h.streams ▸ ho.stream, ho.sql⟩
  target n s hs := hc.target n s (h.streams ▸ hs)

theorem Tidy.empty : Tidy {} {} where
  numbered := ⟨.nil, nofun⟩
  unique := .nil
  valid := nofun
  compiled := nofun
  owned := by simp
  target := by simp

-- The names of a category that is created are checked.
theorem valid_of_effect (h : c.Effect op c') (hv : ∀ k ∈ c.keys, k.Valid) :
    ∀ k ∈ c'.keys, k.Valid := by
  intro k hk
  cases h.keys with
  | same he => exact hv k (he ▸ hk)
  | added hs _ he =>
    rcases List.mem_append.mp (he ▸ hk) with hk | hk
    · exact hv k hk
    · rw [List.mem_singleton.mp hk]
      exact CategoryKey.check_ok.mp (bind_unit_eq_ok.mp hs).1
  | removed he => exact hv k (List.mem_filter.mp (he ▸ hk)).1

theorem Tidy.effect (hc : Tidy c e) (h : c.Effect op c') (hop : Spares op) : Tidy c' e :=
  hc.besides (.of_effect h hop) (h.unique hc.unique) (valid_of_effect h hc.valid)

theorem Reached.tidy (h : Reached P w) : Tidy w.catalog w.engine.tables := by
  induction h with
  | fresh hc ht => exact hc ▸ ht ▸ .empty
  | arranged _ hc ht ih => exact hc ▸ ht ▸ ih
  | edited _ op hop ih =>
    unfold World.edit
    split
    case h_1 h => exact ih.effect (Catalog.perform_effect h) hop
    case h_2 => exact ih
  | @synchronized w _ policy call ih =>
    have kept := call.kept policy w
    refine ih.besides (.of_kept kept) ?_ (kept.keys ▸ ih.valid)
    rw [Catalog.Unique, kept.keys]
    exact ih.unique
  | managed _ hc policy call hp ih => exact ih.move (Call.moves hc hp policy)

-- What fresh stores satisfy, and others than the manager keep, and every move keeps, holds
-- throughout.
theorem Reached.holds {I : Catalog → Tables → Prop} (h : Reached P w) (start : I {} {})
    (besides : ∀ {c e c' e'}, Besides c e c' e' → I c e → I c' e')
    (move : ∀ {c e c' e'}, Tidy c e → Move P c e c' e' → I c e → I c' e') :
    I w.catalog w.engine.tables := by
  induction h with
  | fresh hc ht => exact hc ▸ ht ▸ start
  | arranged _ hc ht ih => exact hc ▸ ht ▸ ih
  | edited _ op hop ih =>
    unfold World.edit
    split
    case h_1 h => exact besides (.of_effect (Catalog.perform_effect h) hop) ih
    case h_2 => exact ih
  | @synchronized w _ policy call ih => exact besides (.of_kept (call.kept policy w)) ih
  | managed h hc policy call hp ih => exact move h.tidy (Call.moves hc hp policy) ih

-- Runs as lists of events. Nothing is out of order but the engine, which meets a call with the
-- given errors.

inductive Event
  | edit (op : CatalogOp)
  | sync (call : Synchronizer.Call)
  | call (c : Call) (faults : List EngineError := [])

namespace Event

def Within (P : String → Prop) : Event → Prop
  | edit op => Spares op
  | sync _ => True
  | call c _ => c.Within P

-- The same stores, and the errors to come.
def meeting (w : World Service) (faults : List EngineError) : World Service :=
  { engine := { tables := w.engine.tables, faults := faults.map some }, catalog := w.catalog }

def apply (w : World Service) : Event → World Service
  | edit op => w.edit op
  | sync c => c.run {} (meeting w [])
  | call c faults => c.run {} (meeting w faults)

def run (es : List Event) : World Service :=
  es.foldl apply { engine := {} }

end Event

theorem Reached.events {es : List Event} (h : Reached P w) (he : ∀ e ∈ es, e.Within P) :
    Reached P (es.foldl Event.apply w) := by
  induction es generalizing w with
  | nil => exact h
  | cons e es ih =>
    have ⟨hp, hps⟩ := List.forall_mem_cons.mp he
    refine ih ?_ hps
    have met faults : Reached P (Event.meeting w faults) := h.arranged rfl rfl
    cases e with
    | edit op => exact h.edited op hp
    | sync c => exact (met _).synchronized {} c
    | call c faults => exact (met faults).managed rfl {} c hp

theorem Reached.run (es : List Event) (he : ∀ e ∈ es, e.Within P) : Reached P (Event.run es) :=
  events (.fresh rfl rfl) he

end Historian.StreamManager
