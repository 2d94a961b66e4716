import Historian.Proofs.Schema.Conformance
import Historian.Proofs.Schema.Runs

namespace Historian

open Engine World Schema Text

-- A table in which the column is found, of the type or a wider one, and no tag of its name.
def TableSchema.Covers (S : TableSchema) (c : Column) : Prop :=
  S.tag? c.name = none ∧ ∃ d, S.column? c.name = some d ∧ c.type.widens d.type

theorem TableSchema.Covers.grown {S S' : TableSchema} (h : S.Covers c) (hg : S.Grown S') :
    S'.Covers c := by
  obtain ⟨ht, d, hd, hw⟩ := h
  have ⟨d', hd', _, hw'⟩ := hg.columns _ _ hd
  exact ⟨by rwa [tag?, hg.tags], d', hd', ColumnType.widens_trans hw hw'⟩

namespace Synchronizer

-- The statement for the super-table of a category as the catalog stands.
def schemaText (w : World Service) (code : String) : Option String := do
  let k ← w.catalog.getCategory code
  let signals := (w.catalog.listSignals code).map (·.toSignalSpec)
  (superTableStatement k.toCategoryKey signals).toOption

-- The texts that a call takes the digest of.
def Call.digests (w : World Service) : Call → List String
  | .sync code | .resync code => (schemaText w code).toList
  | .ensureChildTable .. | .provision _ => []

-- Whether an operation puts a digest on record, which is for the synchronizer to do.
def Records : CatalogOp → Prop
  | .recordCategorySync .. => True
  | _ => False

-- A fresh catalog and a fresh engine, edits of the catalog, and calls of the synchronizer one after
-- another, each in circumstances of its own. The list holds the texts that were digested on the
-- way.
inductive Reached : List String → World Service → Prop
  | fresh (hc : w.catalog = {}) (ht : w.engine.tables = {}) : Reached [] w
  | arranged (h : Reached texts w) (hc : w'.catalog = w.catalog)
    (ht : w'.engine.tables = w.engine.tables) : Reached texts w'
  | edited (h : Reached texts w) (op : CatalogOp) (hop : ¬Records op) : Reached texts (w.edit op)
  | called (h : Reached texts w) (hw : w.Honest) (policy : RetryPolicy) (call : Call) :
    Reached (call.digests w ++ texts) (call.run policy w)

variable {w w' : World Service} {texts texts' : List String} {t t' : Tables} {k : CategoryKey}
  {policy : RetryPolicy} {code : String}

theorem Conforms.covers (h : Conforms signals n t t') :
    ∃ S, t'.describe n = some S ∧
      ∀ c ∈ signalColumns signals, Undisputed (signalColumns signals) c → S.Covers c := by
  have covers {S : TableSchema} {c} (ht : S.tag? c.name = none) (h : S.Has c) : S.Covers c :=
    have ⟨d, hd, he⟩ := h
    ⟨ht, d, hd, by simp [he]⟩
  cases h with
  | created _ hs distinct =>
    refine ⟨_, Tables.describe_superTable hs, fun c hc _ => ?_⟩
    have hm : c ∈ (desired signals).columns := .tail _ hc
    have found := findColumn_of_distinct (List.pairwise_append.mp distinct).1 hm
    exact covers (findColumn_of_distinct_append distinct hm) ⟨c, found, rfl⟩
  | mended _ hs' _ _ _ untagged has =>
    exact ⟨_, Tables.describe_superTable hs', fun c hc hu => covers (untagged c hc) (has c hc hu)⟩
  | foreign _ hd ht has =>
    exact ⟨_, ht ▸ hd, fun c hc _ => covers (has c hc).1 (has c hc).2⟩

-- What a digest on record stands for: a statement that was digested before, and a table that has
-- covered its columns ever since.
structure Vouched (texts : List String) (t : Tables) (k : CategoryKey) (digest text : String)
    (signals : List SignalSpec) : Prop where
  mem : text ∈ texts
  digested : fingerprint text = digest
  statement : superTableStatement k signals = .ok text
  covers : ∃ S, t.describe k.superTable = some S ∧
    ∀ c ∈ signalColumns signals, Undisputed (signalColumns signals) c → S.Covers c

theorem Vouched.mono (h : Vouched texts t k digest text signals) (hs : texts ⊆ texts')
    (hg : t.Grows t') : Vouched texts' t' k digest text signals := by
  refine ⟨hs h.mem, h.digested, h.statement, ?_⟩
  have ⟨S, hd, hc⟩ := h.covers
  have ⟨S', hd', hg'⟩ := hg _ _ hd
  exact ⟨S', hd', fun c hm hu => (hc c hm hu).grown hg'⟩

-- The catalog, the engine and the digests taken so far fit together.
structure Faithful (texts : List String) (w : World Service) : Prop where
  unique : w.catalog.Unique
  vouched : ∀ k ∈ w.catalog.categories, ∀ digest, k.fingerprint = some digest →
    ∃ text signals, Vouched texts w.engine.tables k.toCategoryKey digest text signals

theorem Faithful.grows (h : Faithful texts w) (hs : texts ⊆ texts')
    (hc : w'.catalog.categories = w.catalog.categories)
    (hg : w.engine.tables.Grows w'.engine.tables) : Faithful texts' w' := by
  refine ⟨by rw [Catalog.Unique, Catalog.keys, hc]; exact h.unique, fun k hk digest hd => ?_⟩
  obtain ⟨text, signals, hv⟩ := h.vouched k (hc ▸ hk) digest hd
  exact ⟨text, signals, hv.mono hs hg⟩

theorem Faithful.edit {op : CatalogOp} (h : Faithful texts w) (he : w.catalog.Effect op c)
    (hop : ¬Records op) : Faithful texts { w with catalog := c } := by
  refine ⟨he.unique h.unique, fun k hk digest hd => ?_⟩
  cases he with
  | createCategory =>
    rcases List.mem_append.mp hk with hk | hk
    · exact h.vouched k hk digest hd
    · cases List.mem_singleton.mp hk
      cases hd
  | @setCategoryActive code _ =>
    obtain ⟨k, hm, rfl⟩ := List.mem_map.mp hk
    by_cases hc : k.code = code <;> simp only [hc, if_true, if_false] at hd ⊢ <;>
      exact h.vouched k hm digest hd
  | recordCategorySync => exact absurd trivial hop
  | deleteCategory => exact h.vouched k (List.mem_filter.mp hk).1 digest hd
  | _ => exact h.vouched k hk digest hd

theorem Faithful.record (h : Faithful texts w) (hr : Recorded code text w w')
    (hv : ∀ k ∈ w.catalog.keys, k.code = code →
      ∃ signals, Vouched texts w.engine.tables k (fingerprint text) text signals) :
    Faithful texts w' := by
  obtain ⟨time, hc⟩ := hr.catalog
  have he : w.catalog.Effect (.recordCategorySync code (fingerprint text) time) w'.catalog :=
    Catalog.perform_effect hc
  refine ⟨he.unique h.unique, fun k hk digest hd => ?_⟩
  obtain ⟨-, hc⟩ := Catalog.changeCategory_ok hc
  rw [hc] at hk
  obtain ⟨k, hm, rfl⟩ := List.mem_map.mp hk
  rw [hr.engine]
  by_cases hcode : k.code = code <;> simp only [hcode, if_true, if_false] at hd ⊢
  case pos =>
    cases hd
    exact ⟨text, hv _ (List.mem_map_of_mem hm) hcode⟩
  case neg => exact h.vouched k hm digest hd

theorem Prepared.schemaText {k : CategoryInfo} (h : Prepared w code k signals text) :
    schemaText w code = some text := by
  simp [Synchronizer.schemaText, h.category, h.listed, h.statement, Except.toOption]

theorem Faithful.moved (h : Faithful texts w) (hm : Moved k w w') : Faithful texts w' :=
  h.grows (List.Subset.refl _) (congrArg _ hm.catalog) hm.steps.grows

theorem Faithful.untouched (h : Faithful texts w) (hu : w.Untouched w') : Faithful texts w' :=
  h.grows (List.Subset.refl _) (congrArg _ hu.catalog) (hu.engine ▸ .refl _)

theorem Faithful.touched (h : Faithful texts w) (ht : Touched code w w') : Faithful texts w' := by
  cases ht with
  | nothing hu => exact h.untouched hu
  | moved _ hm => exact h.moved hm

theorem Faithful.provisioned (h : Faithful texts w) (hp : Provisioned code w w') :
    Faithful texts w' := by
  cases hp with
  | nothing hu => exact h.untouched hu
  | furnished _ hf =>
    obtain ⟨_, _, hc⟩ := hf.catalog
    exact h.grows (List.Subset.refl _) (by rw [hc]) hf.steps.grows

theorem Faithful.synced {r : SyncReport} (h : Faithful texts w) (hw : w.Honest)
    (hs : Synced code inspect w w' r) : Faithful ((schemaText w code).toList ++ texts) w' := by
  have more : texts ⊆ (schemaText w code).toList ++ texts := List.subset_append_right _ _
  cases hs with
  | skipped hp hi hf hu => exact (h.untouched hu).grows more rfl (.refl _)
  | incomplete hp ha hb hr hu =>
    have hm := (Moved.of_unmoved ha.toUnmoved).trans hb.moved
    exact ((h.moved hm).untouched hu).grows more rfl (.refl _)
  | recorded hp ha hb hr hrec =>
    have hm := (Moved.of_unmoved ha.toUnmoved).trans hb.moved
    refine ((h.moved hm).grows more rfl (.refl _)).record hrec fun l hl hcode => ?_
    have ⟨hk, hkcode⟩ := Catalog.keys_of_getCategory hp.category
    rw [hm.catalog] at hl
    obtain rfl := Catalog.Unique.eq h.unique hk hl (hkcode.trans hcode.symm)
    have conforms := hb.conforms hr (hw.later ha.toLater) hp.statement
    exact ⟨_, by simp [hp.schemaText], rfl, hp.statement, conforms.covers⟩

theorem Reached.faithful (h : Reached texts w) : Faithful texts w := by
  induction h with
  | fresh hc =>
    refine ⟨by simp [Catalog.Unique, Catalog.keys, hc], fun k hk => ?_⟩
    rw [hc] at hk
    cases hk
  | arranged _ hc ht ih => exact ih.grows (List.Subset.refl _) (congrArg _ hc) (ht ▸ .refl _)
  | edited _ op hop ih =>
    unfold World.edit
    split
    · exact ih.edit (Catalog.perform_effect ‹_›) hop
    · exact ih
  | @called texts w _ hw policy call ih =>
    have touched {code w'} (ht : Touched code w w') :
        Faithful ((schemaText w code).toList ++ texts) w' :=
      (ih.touched ht).grows (List.subset_append_right _ _) rfl (.refl _)
    cases call with
    | sync code => exact sync_ensures.after (fun _ _ h => ih.synced hw h) (fun _ _ => touched)
    | resync code => exact resync_ensures.after (fun _ _ h => ih.synced hw h) (fun _ _ => touched)
    | ensureChildTable =>
      exact ensureChildTable_ensures.after (fun _ _ => ih.touched) (fun _ _ => ih.touched)
    | provision =>
      exact provision_ensures.after (fun _ _ => ih.provisioned) (fun _ _ => ih.provisioned)

-- A digest on record is that of a text that was digested.
theorem Reached.digested (h : Reached texts w) {k : CategoryInfo}
    (hk : w.catalog.getCategory code = some k) (hf : k.fingerprint.isSome) :
    ∃ text ∈ texts, k.fingerprint = some (fingerprint text) := by
  obtain ⟨k₀, hk₀, rfl⟩ := Option.map_eq_some_iff.mp hk
  obtain ⟨digest, hd⟩ := Option.isSome_iff_exists.mp hf
  obtain ⟨text, _, hv⟩ := h.faithful.vouched k₀ (List.mem_of_find?_eq_some hk₀) digest hd
  exact ⟨text, hv.mem, hd.trans (congrArg some hv.digested.symm)⟩

-- Runs in sound circumstances, as lists of events, with the texts that were digested.

inductive Event
  | edit (op : CatalogOp)
  | call (c : Call)

namespace Event

def Plain : Event → Prop
  | edit op => ¬Records op
  | call _ => True

def apply (r : List String × World Service) : Event → List String × World Service
  | edit op => (r.1, r.2.edit op)
  | call c =>
    let w : World Service := { engine := { tables := r.2.engine.tables }, catalog := r.2.catalog }
    (c.digests w ++ r.1, c.run {} w)

def run (es : List Event) : List String × World Service :=
  es.foldl apply ([], { engine := {} })

end Event

theorem Reached.events {r : List String × World Service} {es : List Event} (h : Reached r.1 r.2)
    (he : ∀ e ∈ es, e.Plain) : Reached (es.foldl Event.apply r).1 (es.foldl Event.apply r).2 := by
  induction es generalizing r with
  | nil => exact h
  | cons e es ih =>
    have ⟨hp, hps⟩ := List.forall_mem_cons.mp he
    refine ih ?_ hps
    cases e with
    | edit op => exact h.edited op hp
    | call c =>
      have calm :
          Reached r.1 { engine := { tables := r.2.engine.tables }, catalog := r.2.catalog } :=
        h.arranged rfl rfl
      exact calm.called nofun {} c

theorem Reached.run (es : List Event) (he : ∀ e ∈ es, e.Plain) :
    Reached (Event.run es).1 (Event.run es).2 :=
  events (.fresh rfl rfl) he

end Synchronizer

end Historian
