import Mathlib.Logic.Relation
import Historian.Proofs.Catalog.Generations
import Historian.Proofs.Stream.Lifecycle
import Historian.Proofs.Stream.Names

namespace Historian.StreamManager

open Engine World Relation

-- What can happen next as long as one feature is not deleted.
inductive Proceeds (P : String → Prop) (category feature : String) (w : World Service) :
    World Service → Prop
  | arranged (hc : w'.catalog = w.catalog) (ht : w'.engine.tables = w.engine.tables) :
    Proceeds P category feature w w'
  | edited (op : CatalogOp) (hop : Spares op) (hf : op ≠ .deleteFeature category feature) :
    Proceeds P category feature w (w.edit op)
  | synchronized (policy : RetryPolicy) (call : Synchronizer.Call) :
    Proceeds P category feature w (call.run policy w)
  | managed (hc : w.SoundCatalog) (policy : RetryPolicy) (call : Call) (hp : call.Within P) :
    Proceeds P category feature w (call.run policy w)

variable {P : String → Prop} {category feature : String} {w w₀ w₁ w' : World Service}
  {c c₀ c' : Catalog} {e e' : Tables}

theorem Proceeds.reached (hp : Proceeds P category feature w w') (h : Reached P w) :
    Reached P w' := by
  cases hp with
  | arranged hc ht => exact h.arranged hc ht
  | edited op hop => exact h.edited op hop
  | synchronized policy call => exact h.synchronized policy call
  | managed hc policy call hp => exact h.managed hc policy call hp

-- A feature is found again, with the same document if it is of the same generation.
def Advances (category feature : String) (c c' : Catalog) : Prop :=
  ∀ f, c.feature? category feature = some f → ∃ g, c'.feature? category feature = some g ∧
    f.generation ≤ g.generation ∧ (g.generation = f.generation → g.document = f.document)

theorem Advances.of_eq (h : c'.feature? category feature = c.feature? category feature) :
    Advances category feature c c' :=
  fun f hf => ⟨f, h.trans hf, Int.le_refl _, fun _ => rfl⟩

theorem Advances.upsert {document : Json}
    (h : c.upsertFeature code name document = .ok (a, c')) : Advances category feature c c' := by
  by_cases hn : code = category ∧ name = feature
  case neg => exact .of_eq (Catalog.upsertFeature_elsewhere h hn)
  obtain ⟨rfl, rfl⟩ := hn
  intro f hf
  have ⟨found, generation⟩ := Catalog.upsertFeature_finds h
  obtain ⟨-, -, text, -⟩ := Catalog.upsertFeature_ok h
  simp only [Catalog.generationWith, hf] at generation
  refine ⟨a, found, ?_⟩
  split at generation
  case isTrue same => exact ⟨by omega, fun _ => text.trans same.symm⟩
  case isFalse => exact ⟨by omega, by omega⟩

theorem Move.advances (h : Move P c e c' e') : Advances category feature c c' := by
  obtain same | ⟨_, _, _, ho⟩ := h.features
  · exact .of_eq (Catalog.feature?_congr same)
  · exact .upsert ho

-- All that the tasks of a feature depend on.
structure Passes (P : String → Prop) (category feature : String) (c c' : Catalog) : Prop where
  keys : c.keys ⊆ c'.keys
  unique : c'.Unique
  advances : Advances category feature c c'
  turn : ∃ e e', Turn P c e c' e'

theorem Passes.refl (hu : c.Unique) : Passes P category feature c c :=
  ⟨List.Subset.refl _, hu, .of_eq rfl, {}, {}, .still rfl rfl⟩

theorem Passes.of_besides (h : Besides c e c' e') (hu : c'.Unique)
    (hf : c'.feature? category feature = c.feature? category feature) :
    Passes P category feature c c' :=
  ⟨h.keys, hu, .of_eq hf, e, e, .still h.tasks rfl⟩

theorem Proceeds.passes (hp : Proceeds P category feature w w') (h : Reached P w) :
    Passes P category feature w.catalog w'.catalog := by
  have unique := (hp.reached h).tidy.unique
  cases hp with
  | arranged hc =>
    rw [hc] at unique ⊢
    exact .refl unique
  | edited op hop hf =>
    unfold World.edit at unique ⊢
    split
    case h_1 done =>
      rw [done] at unique
      have apart : ¬op.Concerns category feature := by
        cases op <;> simp_all [CatalogOp.Concerns, Spares]
      exact .of_besides (e := {}) (.of_effect (Catalog.perform_effect done) hop) unique
        (Catalog.perform_elsewhere done apart)
    case h_2 refused =>
      rw [refused] at unique
      exact .refl unique
  | synchronized policy call =>
    have kept := call.kept policy w
    exact .of_besides (.of_kept kept) unique (Catalog.feature?_congr kept.features)
  | managed hc policy call hp =>
    have move := Call.moves hc hp policy
    exact ⟨move.keys ▸ List.Subset.refl _, unique, move.advances, _, _, move.turn h.tidy⟩

-- What a feature is compiled to depends on the names of its category, its document and its
-- generation only.

theorem Derived.unique (h : Derived c category feature s) (h' : Derived c category feature s') :
    s' = s := by
  obtain @⟨k, f, config, hk, hf, hd, hs⟩ := h
  obtain @⟨k', f', config', hk', hf', hd', hs'⟩ := h'
  obtain rfl := Option.some.inj (hk.symm.trans hk')
  obtain rfl := Option.some.inj (hf.symm.trans hf')
  obtain rfl := Except.ok.inj (hd.symm.trans hd')
  exact Except.ok.inj (hs'.symm.trans hs)

theorem Derived.generation (h : Derived c category feature s) :
    ∃ f, c.feature? category feature = some f ∧ s.generation = f.generation := by
  obtain @⟨k, f, config, hk, hf, hd, hs⟩ := h
  exact ⟨f, hf, CompiledStream.ofFeature_generation hs⟩

theorem Derived.carried (h : Derived c category feature s) (hk : c.keys ⊆ c'.keys) (hu : c'.Unique)
    (hg : c'.feature? category feature = some g) (hn : g.generation = s.generation)
    (hd : ∀ f, c.feature? category feature = some f → g.document = f.document) :
    Derived c' category feature s := by
  obtain @⟨k, f, config, found, hf, hr, hs⟩ := h
  have ⟨there, named⟩ := Catalog.keys_of_getCategory found
  obtain ⟨k', hk'⟩ := Option.isSome_iff_exists.mp
    (Catalog.category?_isSome.mpr ⟨k.toCategoryKey, hk there, named⟩)
  have found' : c'.getCategory category = some (c'.info k') := by simp [Catalog.getCategory, hk']
  have ⟨there', named'⟩ := Catalog.keys_of_getCategory found'
  have same : (c'.info k').toCategoryKey = k.toCategoryKey :=
    hu.eq there' (hk there) (named'.trans named.symm)
  rw [CompiledStream.ofFeature_generation hs] at hn
  refine .intro found' hg ?_ (same ▸ hn ▸ hs)
  rwa [documentOf, hd f hf]

-- The generation of a task is one that its feature had before, or it is the one that the feature
-- has.
inductive Dated (c : Catalog) (t : TaskSpec) : Prop
  | past (hf : c.feature? t.category t.feature = some f) (hn : t.generation < f.generation)
  | present (hd : Derived c t.category t.feature s) (hn : t.generation = s.generation)
    (hq : t.sql = s.sql)

theorem Dated.passes (h : Dated c t) (hp : Passes P t.category t.feature c c') : Dated c' t := by
  cases h with
  | past hf hn =>
    obtain ⟨g, hg, grown, -⟩ := hp.advances _ hf
    exact .past hg (by omega)
  | present hd hn hq =>
    obtain ⟨f, hf, generation⟩ := hd.generation
    obtain ⟨g, hg, grown, same⟩ := hp.advances f hf
    by_cases he : g.generation = f.generation
    case neg => exact .past hg (by omega)
    refine .present (hd.carried hp.keys hp.unique hg (he.trans generation.symm) fun f' hf' => ?_)
      hn hq
    obtain rfl := Option.some.inj (hf.symm.trans hf')
    exact same he

-- Tasks of one generation have one statement.
theorem Dated.agree (h : Dated c t) (hd : Derived c t.category t.feature s)
    (hn : t.generation = s.generation) : t.sql = s.sql := by
  cases h with
  | past hf older =>
    obtain ⟨f, hf', generation⟩ := hd.generation
    obtain rfl := Option.some.inj (hf.symm.trans hf')
    omega
  | present hd' _ hq => exact hd.unique hd' ▸ hq

-- Tasks of a feature that were made since.
structure Recent (c₀ : Catalog) (category feature : String) (t : StreamTask) : Prop where
  category : t.category = category
  feature : t.feature = feature
  since : ∀ o ∈ c₀.tasks, o.id ≠ t.id

-- Among them, those of one generation have one statement.
structure Consistent (c₀ : Catalog) (category feature : String) (c : Catalog) : Prop where
  dated : ∀ t ∈ c.tasks, Recent c₀ category feature t → Dated c t.toTaskSpec
  agree : ∀ t ∈ c.tasks, ∀ r ∈ c.tasks, Recent c₀ category feature t →
    Recent c₀ category feature r → r.generation = t.generation → r.sql = t.sql

theorem Consistent.start (c₀ : Catalog) : Consistent c₀ category feature c₀ :=
  ⟨fun t ht h => absurd rfl (h.since t ht), fun t ht _ _ h => absurd rfl (h.since t ht)⟩

-- A recent task was there before, or it is made of what its feature is compiled to.
theorem Turn.recent (h : Turn P c e c' e') (ht : t ∈ c'.tasks)
    (hr : Recent c₀ category feature t) :
    (∃ o ∈ c.tasks, Recent c₀ category feature o ∧ t.toTaskSpec = o.toTaskSpec) ∨
      ∃ s, Derived c t.category t.feature s ∧ t.generation = s.generation ∧ t.sql = s.sql := by
  rcases h.origin ht with ⟨o, ho, hi, hs⟩ | ⟨s, hd, hs, -⟩
  · exact .inl ⟨o, ho, ⟨(congrArg _ hs).symm.trans hr.category,
      (congrArg _ hs).symm.trans hr.feature, hi ▸ hr.since⟩, hs⟩
  · exact .inr ⟨s, hd, congrArg _ hs, congrArg _ hs⟩

theorem Consistent.passes (h : Consistent c₀ category feature c)
    (hp : Passes P category feature c c') : Consistent c₀ category feature c' := by
  obtain ⟨_, _, turn⟩ := hp.turn
  have dated {t : StreamTask} (ht : t ∈ c'.tasks) (hr : Recent c₀ category feature t) :
      Dated c t.toTaskSpec := by
    rcases turn.recent ht hr with ⟨o, ho, hro, hs⟩ | ⟨s, hd, hn, hq⟩
    · exact hs ▸ h.dated o ho hro
    · exact .present hd hn hq
  refine ⟨fun t ht hr => ?_, fun t ht r hr htr hrr hn => ?_⟩
  · have own : Passes P t.category t.feature c c' := hr.category ▸ hr.feature ▸ hp
    exact (dated ht hr).passes own
  · have hc : t.category = r.category := htr.category.trans hrr.category.symm
    have hf : t.feature = r.feature := htr.feature.trans hrr.feature.symm
    rcases turn.recent ht htr with ⟨o, ho, hro, hs⟩ | ⟨s, hd, hn', hq⟩
    case inr => exact ((dated hr hrr).agree (hc ▸ hf ▸ hd) (hn.trans hn')).trans hq.symm
    rcases turn.recent hr hrr with ⟨o', ho', hro', hs'⟩ | ⟨s, hd, hn', hq⟩
    case inr => exact hq.trans ((dated ht htr).agree (hc ▸ hf ▸ hd) (hn.symm.trans hn')).symm
    have same := h.agree o ho o' ho' hro hro'
    simp only [hs, hs'] at hn ⊢
    exact same hn

theorem Consistent.run (h : Reached P w₀)
    (kept : ReflTransGen (Proceeds P category feature) w₀ w₁) :
    Reached P w₁ ∧ Consistent w₀.catalog category feature w₁.catalog := by
  induction kept with
  | refl => exact ⟨h, .start _⟩
  | tail _ hp ih => exact ⟨hp.reached ih.1, ih.2.passes (hp.passes ih.1)⟩

-- A task that was made between two moments.
structure Made (w₀ w₁ : World Service) (t : StreamTask) : Prop where
  after : ∀ o ∈ w₀.catalog.tasks, o.id ≠ t.id
  before : ∃ o ∈ w₁.catalog.tasks, o.id = t.id

theorem Made.origin (h : Made w₀ w₁ t) (hn : w₁.catalog.Numbered) (later : History w₁ left w)
    (ht : t ∈ w.catalog.tasks) : ∃ o ∈ w₁.catalog.tasks, t.toTaskSpec = o.toTaskSpec ∧
      ∀ p ∈ w₀.catalog.tasks, p.id ≠ o.id := by
  obtain ⟨o, ho, hi⟩ := h.before
  exact ⟨o, ho, (later.descends.same hn ho ht hi.symm).1, hi ▸ h.after⟩

-- Within a category the name of a stream stands for one generation of one feature, and it stands
-- for one statement as long as the feature is not deleted.
theorem streamName_denotes (h : Reached P w) (ht : t ∈ w.catalog.tasks) (hr : r ∈ w.catalog.tasks)
    (hc : r.category = t.category) (hn : r.streamName = t.streamName) :
    r.feature = t.feature ∧ r.generation = t.generation ∧
      ∀ w₀ w₁ left, Reached P w₀ → ReflTransGen (Proceeds P t.category t.feature) w₀ w₁ →
        History w₁ left w → Made w₀ w₁ t → Made w₀ w₁ r → r.sql = t.sql := by
  have compiled := h.named.compiled
  rw [compiled t ht, compiled r hr, hc, CompiledStream.nameOf_eq_iff,
    String.append_right_inj] at hn
  obtain ⟨feature, generation⟩ := hn
  refine ⟨feature, generation, fun w₀ w₁ left start kept later made made' => ?_⟩
  have ⟨reached, consistent⟩ := Consistent.run start kept
  have numbered := reached.tidy.numbered
  obtain ⟨o, ho, hs, since⟩ := made.origin numbered later ht
  obtain ⟨o', ho', hs', since'⟩ := made'.origin numbered later hr
  have recent : Recent w₀.catalog t.category t.feature o :=
    ⟨congrArg _ hs.symm, congrArg _ hs.symm, since⟩
  have recent' : Recent w₀.catalog t.category t.feature o' :=
    ⟨(congrArg _ hs'.symm).trans hc, (congrArg _ hs'.symm).trans feature, since'⟩
  have same := consistent.agree o ho o' ho' recent recent'
  simp only [hs, hs'] at generation ⊢
  exact same generation

-- Runs in which no event deletes the feature.
theorem Proceeds.events {es : List Event} (he : ∀ e ∈ es, e.Within P)
    (hd : .edit (.deleteFeature category feature) ∉ es) :
    ReflTransGen (Proceeds P category feature) w (es.foldl Event.apply w) := by
  induction es generalizing w with
  | nil => exact .refl
  | cons e es ih =>
    have ⟨hp, hps⟩ := List.forall_mem_cons.mp he
    have ⟨hne, hd⟩ := not_or.mp (mt List.mem_cons.mpr hd)
    have met faults : Proceeds P category feature w (Event.meeting w faults) := .arranged rfl rfl
    refine ReflTransGen.trans ?_ (ih hps hd)
    cases e with
    | edit op => exact .single (.edited op hp fun he => hne (he ▸ rfl))
    | sync c => exact .tail (.single (met _)) (.synchronized {} c)
    | call c faults =>
      have sound : (Event.meeting w faults).SoundCatalog := rfl
      exact .tail (.single (met faults)) (.managed sound {} c hp)

-- A stopped task makes room for another one of its generation. A feature that is deleted and
-- registered again begins with its first generation anew.

def recreated : List Event :=
  deployed ++ [.call (.stop "t1"), .call (.create "motor" "avg1")]

def reborn : List Event :=
  deployed ++ [.call (.stop "t1"), .edit (.deleteFeature "motor" "avg1"),
    .call (.register "motor" (average "2h")), .call (.create "motor" "avg1")]

theorem run_stopped :
    (∃ t ∈ (Event.run recreated).catalog.tasks, ∃ r ∈ (Event.run recreated).catalog.tasks,
      r.id ≠ t.id ∧ r.category = t.category ∧ r.streamName = t.streamName) ∧
    ∃ t ∈ (Event.run reborn).catalog.tasks, ∃ r ∈ (Event.run reborn).catalog.tasks,
      r.streamName = t.streamName ∧ r.sql ≠ t.sql := by
  delta Event.run Event.apply Call.run Synchronizer.Call.run Service.instEndpoint Service.execute
    Service.receive Tables.apply
  rw [Sql.tokenize_characters]
  decide +kernel

theorem streamName_denotes_recreated :
    let w := Event.run recreated
    Reached (· = "motor") w ∧ ∃ t ∈ w.catalog.tasks, ∃ r ∈ w.catalog.tasks,
      r.id ≠ t.id ∧ r.streamName = t.streamName ∧ r.generation = t.generation ∧ r.sql = t.sql := by
  have fresh : Reached (· = "motor") { engine := {} } := .fresh rfl rfl
  have within : ∀ e ∈ recreated, e.Within (· = "motor") := by
    simp [recreated, deployed, Event.Within, Spares, Call.Within]
  have reached := Reached.run recreated within
  obtain ⟨t, ht, r, hr, hi, hc, hn⟩ := run_stopped.1
  have kept : ReflTransGen (Proceeds (· = "motor") t.category t.feature) { engine := {} }
      (Event.run recreated) := Proceeds.events within (by simp [recreated, deployed])
  have made {t : StreamTask} (ht : t ∈ (Event.run recreated).catalog.tasks) :
      Made { engine := {} } (Event.run recreated) t :=
    ⟨fun _ ho => absurd ho List.not_mem_nil, t, ht, rfl⟩
  obtain ⟨-, generation, same⟩ := streamName_denotes reached ht hr hc hn
  exact ⟨reached, t, ht, r, hr, hi, hn, generation,
    same _ _ [] fresh kept .start (made ht) (made hr)⟩

theorem streamName_reused :
    ¬∀ w, Reached (· = "motor") w → ∀ t ∈ w.catalog.tasks, ∀ r ∈ w.catalog.tasks,
      r.streamName = t.streamName → r.sql = t.sql := by
  intro h
  obtain ⟨t, ht, r, hr, hn, hq⟩ := run_stopped.2
  refine hq (h _ (.run reborn ?_) t ht r hr hn)
  simp [reborn, deployed, Event.Within, Spares, Call.Within]

end Historian.StreamManager
