import Historian.Proofs.Catalog.Features
import Historian.Proofs.Feature.Canonical
import Historian.Proofs.Json.Finite
import Historian.Proofs.Json.Zeros
import Historian.Proofs.Stream.Names

namespace Historian.StreamManager

open Engine World

-- What the calls need of the catalog, and what they do then, the catalog being sound.

-- A category whose signals can feed a feature.
structure Feeds (c : Catalog) (category : String) (config : FeatureConfig) (k : CategoryInfo) :
    Prop where
  found : c.getCategory category = some k
  fits : config.check k.code ((c.listSignals k.code).map (·.toSignalSpec)) = .ok ()

-- The stream that a feature is compiled to, its category being able to feed it.
inductive Compiles (c : Catalog) (category feature : String) (s : CompiledStream) : Prop
  | intro (hf : c.feature? category feature = some f)
    (hd : FeatureConfig.read (documentOf f) = .ok config) (hk : Feeds c category config k)
    (hs : CompiledStream.ofFeature k.toCategoryKey config f.generation = .ok s)

variable {w w₁ : World Service} {policy : RetryPolicy} {category feature : String}
  {document : Json} {config : FeatureConfig} {k : CategoryInfo} {p s : CompiledStream}

theorem read_sound {op : CatalogOp} [op.Legible] {x : op.Answer} (hc : w.SoundCatalog)
    (h : op.perform w.catalog = .ok (x, w.catalog)) :
    Ensures (catalog policy op) w (fun a w' => a = x ∧ w.Untouched w') (fun _ _ => False) :=
  (Ensures.read h).mono (fun _ _ h => h) (fun _ _ h => h.2 hc)

theorem loadCategory_sound (hc : w.SoundCatalog) :
    Ensures (loadCategory policy category) w
      (fun k w' => w.catalog.getCategory category = some k ∧ w.Untouched w')
      (fun _ _ => w.catalog.getCategory category = none) := by
  refine (read_sound hc rfl).step (fun a w' ⟨ha, hu⟩ => ?_) (fun _ _ h => h.elim)
  cases a with
  | none => exact .throw ha.symm
  | some k => exact .pure ⟨ha.symm, hu⟩

theorem checkSignals_sound {code : String} (hc : w.SoundCatalog) :
    Ensures (checkSignals policy code config) w
      (fun _ w' =>
        config.check code ((w.catalog.listSignals code).map (·.toSignalSpec)) = .ok () ∧
          w.Untouched w')
      (fun _ _ =>
        config.check code ((w.catalog.listSignals code).map (·.toSignalSpec)) ≠ .ok ()) := by
  refine (read_sound hc rfl).step (fun a w' ⟨ha, hu⟩ => ?_) (fun _ _ h => h.elim)
  subst ha
  exact checked_ensures.mono (fun _ _ ⟨h, he⟩ => ⟨h, he ▸ hu⟩) (fun _ _ ⟨_, h⟩ => h ())

theorem validated_sound (hc : w.SoundCatalog) :
    Ensures (validated policy category document) w
      (fun (k, config) w' =>
        FeatureConfig.read document = .ok config ∧ Feeds w.catalog category config k ∧
          w.Untouched w')
      (fun _ _ => ∀ config k, FeatureConfig.read document = .ok config →
        ¬Feeds w.catalog category config k) := by
  refine (loadCategory_sound hc).step (fun k w₁ ⟨hk, h₁⟩ => ?_) (fun _ _ hn _ k _ hf => ?_)
  case refine_2 => cases hn.symm.trans hf.found
  refine checked_ensures.step (fun config w₂ ⟨hd, he⟩ => ?_) (fun _ _ ⟨_, h⟩ config _ hd => ?_)
  case refine_2 => exact absurd hd (h config)
  subst he
  refine (checkSignals_sound (hc.later h₁.asked.toLater)).step (fun _ w₃ ⟨hs, h₃⟩ => ?_)
    (fun _ _ hs config' k' hd' hf => ?_)
  · exact .pure ⟨hd, ⟨hk, h₁.catalog ▸ hs⟩, h₁.trans h₃⟩
  · cases hk.symm.trans hf.found
    cases hd.symm.trans hd'
    exact hs (h₁.catalog ▸ hf.fits)

-- The generation that a preview expects.
def foreseen (c : Catalog) (category : String) (config : FeatureConfig) : Int :=
  match c.feature? category config.name with
  | some f => if (documentOf f).same config.toJson then f.generation else f.generation + 1
  | none => 1

theorem preview_sound (hc : w.SoundCatalog) :
    Ensures (preview policy category document) w
      (fun p w' => w.Untouched w' ∧ ∃ config k, FeatureConfig.read document = .ok config ∧
        Feeds w.catalog category config k ∧
        CompiledStream.ofFeature k.toCategoryKey config (foreseen w.catalog k.code config) = .ok p)
      (fun _ _ => True) := by
  refine (validated_sound hc).step (fun (k, config) w₁ ⟨hd, hf, h₁⟩ => ?_) (fun _ _ _ => trivial)
  refine (read_sound (hc.later h₁.asked.toLater) rfl).step (fun found w₂ ⟨hg, h₂⟩ => ?_)
    (fun _ _ h => h.elim)
  refine checked_ensures.mono (fun p w₃ ⟨hs, he⟩ => ?_) (fun _ _ _ => trivial)
  refine ⟨he ▸ h₁.trans h₂, config, k, hd, hf, ?_⟩
  rw [h₁.catalog] at hg
  unfold foreseen
  rw [← hg]
  cases found <;> exact hs

theorem register_sound (hc : w.SoundCatalog) (hd : FeatureConfig.read document = .ok config)
    (hf : Feeds w.catalog category config k) :
    Ensures (register policy category document) w
      (fun f w' => w.catalog.upsertFeature k.code config.name config.toJson = .ok (f, w'.catalog) ∧
        w'.SoundCatalog)
      (fun _ _ => False) := by
  refine (validated_sound hc).step (fun (k', config') w₁ ⟨hd', hf', h₁⟩ => ?_)
    (fun _ _ h => h config k hd hf)
  cases hd.symm.trans hd'
  cases hf.found.symm.trans hf'.found
  have sound := hc.later h₁.asked.toLater
  refine (catalog_ensures).mono (fun f w₂ ⟨ho, _, hs⟩ => ?_) (fun _ _ ⟨_, e, h⟩ => ?_)
  · exact ⟨h₁.catalog ▸ ho, sound.mono hs⟩
  · obtain ⟨k', hk', -⟩ := Option.map_eq_some_iff.mp hf.found
    have hcode := (Catalog.keys_of_getCategory hf.found).2
    obtain ⟨f, c', ho⟩ := Catalog.upsertFeature_total config.toJson (hcode ▸ hk')
      (FeatureConfig.read_eq_ok.mp hd).nameFits
    have refused := h.refused_of_sound sound
    rw [h₁.catalog] at refused
    cases ho.symm.trans refused

-- What was loaded is what the stream is compiled from.
theorem Compiles.of_loaded (h : Compiles c category feature s)
    (hk : c.getCategory category = some k) (hf : c.feature? category feature = some f)
    (hd : FeatureConfig.read (documentOf f) = .ok config) :
    Feeds c category config k ∧
      CompiledStream.ofFeature k.toCategoryKey config f.generation = .ok s := by
  obtain ⟨hf', hd', hk', hs'⟩ := h
  cases hf.symm.trans hf'
  cases hd.symm.trans hd'
  cases hk.symm.trans hk'.found
  exact ⟨hk', hs'⟩

theorem Compiles.eq (h : Compiles c category feature s) (h' : Compiles c category feature s') :
    s' = s := by
  obtain ⟨hf, hd, hk, hs⟩ := h
  exact Except.ok.inj ((h'.of_loaded hk.found hf hd).2.symm.trans hs)

theorem compile_sound (hc : w.SoundCatalog) :
    Ensures (compile policy category feature) w
      (fun s w' => Compiles w.catalog category feature s ∧ w.Untouched w')
      (fun _ _ => ∀ s, ¬Compiles w.catalog category feature s) := by
  refine (loadCategory_sound hc).step (fun k w₁ ⟨hk, h₁⟩ => ?_) (fun _ _ hn s ⟨_, _, hf, _⟩ => ?_)
  case refine_2 => cases hn.symm.trans hf.found
  have sound := hc.later h₁.asked.toLater
  refine (read_sound sound rfl).step (fun found w₂ ⟨hg, h₂⟩ => ?_) (fun _ _ h => h.elim)
  have h₂ := h₁.trans h₂
  rw [h₁.catalog] at hg
  cases found with
  | none =>
    refine .throw fun s ⟨hf, _, _, _⟩ => ?_
    cases hg.trans hf
  | some f =>
    simp only
    refine checked_ensures.step (fun config w₂ ⟨hd, he⟩ => ?_)
      (fun _ _ ⟨_, hn⟩ s ⟨hf, hd, _, _⟩ => ?_)
    case refine_2 =>
      cases hg.trans hf
      exact hn _ hd
    subst he
    refine (checkSignals_sound (hc.later h₂.asked.toLater)).step (fun _ w₃ ⟨hfit, h₃⟩ => ?_)
      (fun _ _ hn s h => ?_)
    case refine_2 => exact hn (h₂.catalog ▸ (h.of_loaded hk hg.symm hd).1.fits)
    refine checked_ensures.mono (fun s w₄ ⟨hs, he⟩ => ?_) (fun _ _ ⟨_, hn⟩ s h => ?_)
    · exact ⟨.intro hg.symm hd ⟨hk, h₂.catalog ▸ hfit⟩ hs, he ▸ h₂.trans h₃⟩
    · exact hn s (h.of_loaded hk hg.symm hd).2

theorem createTask_sound (hc : w.SoundCatalog) (hk : w.catalog.getCategory category = some k) :
    Ensures (createTask policy category feature s) w
      (fun t _ => t.toTaskSpec = ordered category feature s)
      (fun _ _ => ∃ t ∈ w.catalog.tasks, t.streamName = s.streamName) := by
  refine (read_sound hc rfl).step (fun tasks w₁ ⟨ht, h₁⟩ => ?_) (fun _ _ h => h.elim)
  subst ht
  split
  case h_1 t ht =>
    have named : t.streamName = s.streamName ∧ t.status ≠ .stopped := by
      simpa using List.find?_some ht
    have listed := List.mem_of_find?_eq_some ht
    exact .bind (.throw ⟨t, (List.mem_filter.mp listed).1, named.1⟩)
  case h_2 =>
    refine (catalog_ensures).step (fun t w₂ ⟨ho, _, _⟩ => ?_) (fun _ _ ⟨_, e, h⟩ => ?_)
    · obtain ⟨-, rfl, -⟩ := Catalog.createTask_ok ho
      exact log_ensures.step (fun _ _ _ => .pure rfl) (fun _ _ h => h.elim)
    · have refused := h.refused_of_sound (hc.later h₁.asked.toLater)
      obtain ⟨k', hk', -⟩ := Option.map_eq_some_iff.mp hk
      rw [← h₁.catalog] at hk'
      simp [CatalogOp.perform, Catalog.createTask, Catalog.requireCategory, hk'] at refused

theorem create_sound (hc : w.SoundCatalog) :
    Ensures (create policy category feature) w
      (fun t _ => ∃ s, Compiles w.catalog category feature s ∧
        t.toTaskSpec = ordered category feature s)
      (fun _ _ => ∀ s, Compiles w.catalog category feature s →
        ∃ t ∈ w.catalog.tasks, t.streamName = s.streamName) := by
  refine (compile_sound hc).step (fun s w₁ ⟨hs, h₁⟩ => ?_) (fun _ _ hn s h => absurd h (hn s))
  refine .holding fun w₂ h₂ => ?_
  have untouched := h₁.trans h₂
  obtain ⟨k, hk⟩ : ∃ k, w₂.catalog.getCategory category = some k := by
    obtain ⟨_, _, hf, _⟩ := hs
    exact ⟨_, untouched.catalog ▸ hf.found⟩
  refine (createTask_sound (hc.later untouched.asked.toLater) hk).mono
    (fun t _ ht _ _ => ⟨s, hs, ht⟩) (fun _ _ ht _ _ s' hs' => ?_)
  rw [hs.eq hs', ← untouched.catalog]
  exact ht

-- Keeps a document and makes a task for its feature.
def registerAndCreate (policy : RetryPolicy) (category : String) (document : Json) :
    Action StreamTask := do
  let f ← register policy category document
  create policy category f.name

-- The generation is that of the document's text. What is made of the feature is compiled from that
-- text again, so that nothing is known of it unless the text is read as what it was written from.
theorem registerAndCreate_sound (policy : RetryPolicy) (hc : w.SoundCatalog)
    (hd : FeatureConfig.read document = .ok config) (hf : Feeds w.catalog category config k)
    (hr : Json.read? config.toJson.write = some config.toJson) :
    let generation := w.catalog.generationWith category config.name config.toJson
    Ensures (registerAndCreate policy category document) w
      (fun t _ => ∃ s, CompiledStream.ofFeature k.toCategoryKey config generation = .ok s ∧
        t.toTaskSpec = ordered category config.name s)
      (fun _ _ => ∀ s, CompiledStream.ofFeature k.toCategoryKey config generation = .ok s →
        ∃ t ∈ w.catalog.tasks, t.streamName = s.streamName) := by
  obtain rfl := (Catalog.keys_of_getCategory hf.found).2
  refine (register_sound hc hd hf).step (fun f w₁ ⟨ho, hc₁⟩ => ?_) (fun _ _ h => h.elim)
  obtain ⟨-, name, text, features, serial, catalog, -⟩ := Catalog.upsertFeature_ok ho
  obtain ⟨found, generation⟩ := Catalog.upsertFeature_finds ho
  have compiled {s} : Compiles w₁.catalog k.code f.name s ↔
      CompiledStream.ofFeature k.toCategoryKey config
        (w.catalog.generationWith k.code config.name config.toJson) = .ok s := by
    have value : documentOf f = config.toJson := by rw [documentOf, text, hr, Option.getD_some]
    have read : FeatureConfig.read (documentOf f) = .ok config :=
      value ▸ FeatureConfig.read_eq_ok.mpr (FeatureConfig.read_eq_ok.mp hd).toJson
    have feeds : Feeds w₁.catalog k.code config k := catalog ▸ ⟨hf.found, hf.fits⟩
    rw [← generation]
    exact ⟨fun h => (h.of_loaded feeds.found (name ▸ found) read).2,
      .intro (name ▸ found) read feeds⟩
  refine (create_sound hc₁).mono ?_ ?_
  · rintro t _ ⟨s, hs, ht⟩
    exact ⟨s, compiled.mp hs, name ▸ ht⟩
  · intro _ _ hn s hs
    obtain ⟨t, ht, hs⟩ := hn s (compiled.mpr hs)
    exact ⟨t, by simpa [catalog] using ht, hs⟩

-- A kept document from which a new one is told apart by the signs of its zeros only.
def Resigned (c : Catalog) (category : String) (config : FeatureConfig) : Prop :=
  ∃ f, c.feature? category config.name = some f ∧ documentOf f ≠ config.toJson ∧
    (documentOf f).oneZero = config.toJson.oneZero

-- A preview compares values and the catalog compares texts.
theorem foreseen_eq_iff (hr : Json.read? config.toJson.write = some config.toJson)
    (hs : ∀ f ∈ c.features, (Json.read? f.document).map Json.write = some f.document) :
    foreseen c category config = c.generationWith category config.name config.toJson ↔
      ¬Resigned c category config := by
  unfold Resigned foreseen Catalog.generationWith
  cases hf : c.feature? category config.name with
  | none => simp
  | some f =>
    obtain ⟨d, hd, hw⟩ := Option.map_eq_some_iff.mp (hs f (List.mem_of_find?_eq_some hf))
    have value : documentOf f = d := by rw [documentOf, hd, Option.getD_some]
    have text : f.document = config.toJson.write ↔ d = config.toJson := by
      constructor
      · intro h
        rw [h, hr] at hd
        exact (Option.some.inj hd).symm
      · rintro rfl
        exact hw.symm
    have same := Json.same_iff d config.toJson (Json.finite_of_read? hd) (Json.finite_of_read? hr)
    simp only [value, Option.some.injEq, exists_eq_left', ← same]
    by_cases h : d = config.toJson
    case pos =>
      rw [if_pos (text.mpr h), if_pos (same.mpr (congrArg _ h))]
      simp [h]
    case neg =>
      rw [if_neg (mt text.mp h)]
      by_cases hz : d.same config.toJson <;> simp [h, hz]

-- What is made is what was previewed.
structure Previewed (p : CompiledStream) (t : StreamTask) : Prop where
  generation : t.generation = p.generation
  streamName : t.streamName = p.streamName
  targetTable : t.targetTable = p.targetTable
  sql : t.sql = p.sql

-- Registering the document and making a task for its feature succeeds and makes what was previewed.
def Delivers (policy : RetryPolicy) (w : World Service) (category : String) (document : Json)
    (p : CompiledStream) : Prop :=
  ∃ t w', (registerAndCreate policy category document).run.run w = (.ok t, w') ∧ Previewed p t

-- A preview tells the truth just if it is not fooled by a zero.
theorem previewed_iff (hc : w.SoundCatalog)
    (hp : (preview policy category document).run.run w = (.ok p, w₁))
    (hn : ∀ t ∈ w.catalog.tasks, t.streamName ≠ p.streamName)
    (hd : FeatureConfig.read document = .ok config)
    (hr : Json.read? config.toJson.write = some config.toJson)
    (hs : ∀ f ∈ w.catalog.features, (Json.read? f.document).map Json.write = some f.document) :
    Delivers policy w₁ category document p ↔ ¬Resigned w.catalog category config := by
  obtain ⟨untouched, config', k, hd', hf, compiled⟩ := (preview_sound hc).of_ok hp
  cases hd.symm.trans hd'
  obtain rfl := (Catalog.keys_of_getCategory hf.found).2
  have made := registerAndCreate_sound policy (hc.later untouched.asked.toLater) hd
    (untouched.catalog.symm ▸ hf) hr
  rw [untouched.catalog] at made
  rw [← foreseen_eq_iff hr hs]
  constructor
  · rintro ⟨t, w₂, ht, same⟩
    obtain ⟨s, hs, spec⟩ := made.of_ok ht
    have generation : t.generation = s.generation := congrArg TaskSpec.generation spec
    rw [← CompiledStream.ofFeature_generation compiled]
    rw [← CompiledStream.ofFeature_generation hs, ← same.generation, generation]
  · intro he
    rw [← he] at made
    obtain ⟨t, w₂, ht, s, hs, spec⟩ := (made.mono (fun _ _ h => h) (fun _ _ h => by
      obtain ⟨t, ht, hname⟩ := h p compiled
      exact hn t ht hname)).exists_ok
    cases compiled.symm.trans hs
    exact ⟨t, w₂, ht, congrArg TaskSpec.generation spec, congrArg TaskSpec.streamName spec,
      congrArg TaskSpec.targetTable spec, congrArg TaskSpec.sql spec⟩

-- A feature is registered with a zero in its filter, and then looked at with a negative one.

def limited (window : String) (bound : Binary64) : Json :=
  .ofMembers [("name", .text "avg1"), ("source_signal", .text "current"), ("function", .text "avg"),
    ("window", .text window), ("filters", .ofMembers [("current", .number (.real bound))])]

def limitedConfig (window : Duration) (bound : Binary64) : FeatureConfig where
  name := "avg1"
  signal := "current"
  function := .avg
  window := window
  slide := window
  filters := [⟨"current", .eq, .number (.real bound)⟩]

def zeroed : List Event :=
  [ .edit (.createCategory { code := "motor", database := "plant", name := "Motor" }),
    .edit (.addSignal (.stored "motor" "current" .numeric)),
    .call (.register "motor" (limited "1h" .zero)) ]

theorem reached_zeroed : Reached (fun _ => True) (Event.run zeroed) :=
  .run zeroed (by simp [zeroed, Event.Within, Spares, Call.Within])

theorem after_zeroed :
    (Event.run zeroed).catalogFaults.isEmpty ∧ (Event.run zeroed).catalog.tasks.isEmpty ∧
      ∀ f ∈ (Event.run zeroed).catalog.features,
        (Json.read? f.document).map Json.write = some f.document := by
  decide +kernel

theorem sound_zeroed : (Event.run zeroed).SoundCatalog :=
  List.isEmpty_iff.mp after_zeroed.1

theorem taskless_zeroed (p : CompiledStream) :
    ∀ t ∈ (Event.run zeroed).catalog.tasks, t.streamName ≠ p.streamName := by
  simp [List.isEmpty_iff.mp after_zeroed.2.1]

theorem kept_zeroed : ∀ f ∈ (Event.run zeroed).catalog.features,
    (Json.read? f.document).map Json.write = some f.document :=
  after_zeroed.2.2

-- What a call that succeeds in a run of fixed events tells of its answer.
theorem exists_ok_of_map {r : Except σ α × World Service} (h : r.1.toOption.map f = some v) :
    ∃ x, r = (.ok x, r.2) ∧ f x = v := by
  obtain ⟨x, hx, hf⟩ := Option.map_eq_some_iff.mp h
  exact ⟨x, Prod.ext (toOption_eq_some.mp hx) rfl, hf⟩

theorem preview_misleads :
    let w := Event.run zeroed
    let document := limited "1h" ⟨true, 0⟩
    let config := limitedConfig ⟨3600000, by decide, by decide⟩ ⟨true, 0⟩
    Reached (fun _ => True) w ∧ w.SoundCatalog ∧ FeatureConfig.read document = .ok config ∧
      Json.read? config.toJson.write = some config.toJson ∧
      (∀ f ∈ w.catalog.features, (Json.read? f.document).map Json.write = some f.document) ∧
      ∃ p w₁, (preview {} "motor" document).run.run w = (.ok p, w₁) ∧
        (∀ t ∈ w.catalog.tasks, t.streamName ≠ p.streamName) ∧
        ¬Delivers {} w₁ "motor" document p := by
  intro w document config
  have ⟨previewed, made⟩ :
      ((preview {} "motor" document).run.run w).1.toOption.map (·.generation) = some 1 ∧
        ((registerAndCreate {} "motor" document).run.run
          ((preview {} "motor" document).run.run w).2).1.toOption.map (·.generation) = some 2 := by
    decide +kernel
  obtain ⟨p, hp, first⟩ := exists_ok_of_map previewed
  refine ⟨reached_zeroed, sound_zeroed, by cbv, by cbv, kept_zeroed, p, _, hp, taskless_zeroed p, ?_⟩
  rintro ⟨t, w₂, ht, same⟩
  rw [ht] at made
  have second : t.generation = 2 := by simpa [Except.toOption] using made
  exact absurd (first.symm.trans (same.generation.symm.trans second)) (by decide)

theorem previewed_iff_zeroed :
    let w := Event.run zeroed
    let document := limited "2h" .zero
    ∃ p w₁, (preview {} "motor" document).run.run w = (.ok p, w₁) ∧
      Delivers {} w₁ "motor" document p := by
  intro w document
  let config := limitedConfig ⟨7200000, by decide, by decide⟩ .zero
  have ⟨previewed, kept⟩ :
      ((preview {} "motor" document).run.run w).1.toOption.map (·.generation) = some 2 ∧
        (w.catalog.feature? "motor" config.name).map (fun f => (documentOf f).oneZero.write) ≠
          some config.toJson.oneZero.write := by
    decide +kernel
  obtain ⟨p, hp, -⟩ := exists_ok_of_map previewed
  have hd : FeatureConfig.read document = .ok config := by cbv
  have hr : Json.read? config.toJson.write = some config.toJson := by cbv
  refine ⟨p, _, hp,
    (previewed_iff sound_zeroed hp (taskless_zeroed p) hd hr kept_zeroed).mpr ?_⟩
  rintro ⟨f, hf, -, he⟩
  exact kept (by rw [hf, Option.map_some, he])

end Historian.StreamManager
