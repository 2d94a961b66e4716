import Historian.Proofs.Feature.Document
import Historian.Proofs.Stream.Agreement

namespace Historian.StreamManager

open Engine World

variable {P : String → Prop} {c c' : Catalog} {e e' : Tables} {t r : StreamTask}

-- No two streams write one table.
def OneWriter (e : Tables) : Prop :=
  ∀ (m n : String) (s s' : Stream), e.streams[m]? = some s → e.streams[n]? = some s' →
    s.target = s'.target → m = n

-- What keeps the streams of one feature apart, as far as anything does.
structure Guarded (c : Catalog) : Prop where
  documents : ∀ f ∈ c.features, ∀ config,
    FeatureConfig.read (documentOf f) = .ok config → config.name = f.name
  target : ∀ t ∈ c.tasks, t.targetTable = CompiledStream.targetOf t.category t.feature
  live : ∀ t ∈ c.tasks, ∀ r ∈ c.tasks, t.status.isLive → r.status.isLive →
    r.category = t.category → r.feature = t.feature → r = t

theorem targetOf_injective
    (h : CompiledStream.targetOf category m = CompiledStream.targetOf category n) : m = n := by
  have same : "feat_" ++ category ++ "_" ++ m = "feat_" ++ category ++ "_" ++ n := h
  exact (String.append_right_inj _).mp same

-- The document of a feature has the name of the feature, so that the stream is named after it.
theorem Derived.source (h : Derived c category feature s)
    (hd : ∀ f ∈ c.features, ∀ config,
      FeatureConfig.read (documentOf f) = .ok config → config.name = f.name) :
    ∃ k config n, CompiledStream.ofFeature k config n = .ok s ∧ k.code = category ∧
      config.name = feature := by
  obtain @⟨k, f, config, hk, hf, hr, hs⟩ := h
  have hcode : k.code = category := (Catalog.keys_of_getCategory hk).2
  have hname : f.name = feature := (Catalog.feature?_some hf).2
  exact ⟨_, config, _, hs, hcode, (hd f (List.mem_of_find?_eq_some hf) config hr).trans hname⟩

theorem Derived.target (h : Derived c category feature s)
    (hd : ∀ f ∈ c.features, ∀ config,
      FeatureConfig.read (documentOf f) = .ok config → config.name = f.name) :
    s.targetTable = CompiledStream.targetOf category feature := by
  obtain ⟨k, config, n, hs, rfl, rfl⟩ := h.source hd
  exact (CompiledStream.ofFeature_ok hs).2.1

-- Features are changed by a registration only.
theorem Move.features (h : Move P c e c' e') : c'.features = c.features ∨
    ∃ category f, ∃ config : FeatureConfig,
      c.upsertFeature category config.name config.toJson = .ok (f, c') := by
  cases h with
  | idle hl => exact .inl hl.features
  | registered config ho => exact .inr ⟨_, _, config, ho⟩
  | created _ _ _ ho hl =>
    obtain ⟨-, -, rfl⟩ := Catalog.createTask_ok ho
    exact .inl hl.features
  | acted _ _ _ _ _ ho hl | failed _ _ _ ho hl =>
    obtain ⟨_, -, -, rfl⟩ := Catalog.setTaskStatus_ok ho
    exact .inl hl.features
  | deleted _ _ _ _ ho =>
    obtain ⟨-, _, rfl⟩ := Catalog.deleteTask_ok ho
    exact .inl rfl

theorem Move.documented (h : Move P c e c' e') (hf : f ∈ c'.features) :
    f ∈ c.features ∨ ∃ config : FeatureConfig, f.name = config.name ∧
    f.document = config.toJson.write := by
  obtain same | ⟨_, _, config, ho⟩ := h.features
  · exact .inl (same ▸ hf)
  · obtain ⟨-, hn, hd, _, _, rfl, hs⟩ := Catalog.upsertFeature_ok ho
    rcases hs f hf with rfl | hf
    · exact .inr ⟨config, hn, hd⟩
    · exact .inl hf

theorem Guarded.documents_move (h : Guarded c) (hm : Move P c e c' e') :
    ∀ f ∈ c'.features, ∀ config,
    FeatureConfig.read (documentOf f) = .ok config → config.name = f.name := by
  intro f hf config hr
  obtain hf | ⟨registered, hn, hd⟩ := hm.documented hf
  · exact h.documents f hf config hr
  · exact (documentOf_name hd hr).trans hn.symm

theorem Guarded.target_turn (h : Guarded c) (ht : Turn P c e c' e') :
    ∀ r ∈ c'.tasks, r.targetTable = CompiledStream.targetOf r.category r.feature := by
  intro r hr
  obtain ⟨t, ht, he⟩ | ⟨s, hd, he, -⟩ := ht.spec hr
  · exact he ▸ h.target t ht
  · exact (congrArg _ he).trans (hd.target h.documents)

-- A task becomes live when it is deployed, and is live already when it is paused or resumed.
theorem live_of_next {action : StreamAction} (h : action.next? status = some next)
    (ha : action ≠ .delete)
    (hl : next.isLive) : action = .deploy ∨ status.isLive := by
  cases status <;> cases action <;> cases h <;> simp_all [StreamStatus.isLive]

theorem Guarded.live_acted {action : StreamAction} (h : Guarded c) (ht : t ∈ c.tasks)
    (hv : action.next? t.status = some next) (ha : action ≠ .delete) (hf : Cleared c t action)
    (hl : next.isLive) (hr : r ∈ c.tasks) (hi : r.id ≠ t.id) (hcat : r.category = t.category)
    (hfeat : r.feature = t.feature) : ¬r.status.isLive := by
  intro hrl
  obtain rfl | htl := live_of_next hv ha hl
  · simp [hf.2 r hr hcat hfeat hi] at hrl
  · exact hi (congrArg _ (h.live t ht r hr htl hrl hcat hfeat))

theorem Guarded.live_turn (h : Guarded c) (ht : Turn P c e c' e') :
    ∀ r ∈ c'.tasks, ∀ o ∈ c'.tasks, r.status.isLive → o.status.isLive →
      o.category = r.category → o.feature = r.feature → o = r := by
  cases ht with
  | still hm => exact hm ▸ h.live
  | made t hm hs =>
    have idle : ¬t.status.isLive := by simp [hs, StreamStatus.isLive]
    intro r hr o ho hrl hol
    rcases (hm r).mp hr with hr | rfl
    case inr => exact absurd hrl idle
    rcases (hm o).mp ho with ho | rfl
    · exact h.live r hr o ho hrl hol
    · exact absurd hol idle
  | failed t _ hm =>
    intro r hr o ho hrl hol
    rcases (hm r).mp hr with ⟨hr, -⟩ | rfl
    case inr => cases hrl
    rcases (hm o).mp ho with ⟨ho, -⟩ | rfl
    · exact h.live r hr o ho hrl hol
    · cases hol
  | acted t ht hm hv ha hf =>
    intro r hr o ho hrl hol hcat hfeat
    rcases (hm r).mp hr with ⟨hr, hri⟩ | rfl <;> rcases (hm o).mp ho with ⟨ho, hoi⟩ | rfl
    · exact h.live r hr o ho hrl hol hcat hfeat
    · exact absurd hrl (h.live_acted ht hv ha hf hol hr hri hcat.symm hfeat.symm)
    · exact absurd hol (h.live_acted ht hv ha hf hrl ho hoi hcat hfeat)
    · rfl
  | dropped t ht hm | removed t ht hm =>
    exact fun r hr o ho => h.live r ((hm r).mp hr).1 o ((hm o).mp ho).1

theorem Guarded.besides (h : Guarded c) (hb : Besides c e c' e') : Guarded c' :=
  ⟨fun f hf => h.documents f (hb.features hf), hb.tasks ▸ h.target, hb.tasks ▸ h.live⟩

theorem Guarded.move (h : Guarded c) (hc : Tidy c e) (hm : Move P c e c' e') : Guarded c' :=
  have turn := hm.turn hc
  ⟨h.documents_move hm, h.target_turn turn, h.live_turn turn⟩

theorem Reached.guarded {w : World Service} (h : Reached P w) : Guarded w.catalog :=
  h.holds (I := fun c _ => Guarded c) ⟨nofun, nofun, nofun⟩ (fun hb h => h.besides hb)
    (fun hc hm h => h.move hc hm)

-- The stream of a task writes the table of its feature, in the database of its category.
theorem Owns.target (h : Owns e t s) (ht : t ∈ c.tasks) (hc : Tidy c e) (hg : Guarded c) :
    ∃ k ∈ c.keys, k.code = t.category ∧
      s.target = ⟨k.database, CompiledStream.targetOf t.category t.feature⟩ := by
  obtain ⟨k, hk⟩ := hc.compiled t ht
  obtain ⟨source, hp⟩ := hc.target _ _ h.stream
  obtain ⟨source', he⟩ := hk.reads _ (h.sql ▸ hp)
  obtain ⟨-, -, target, -⟩ := Sql.Statement.createStream.inj he
  exact ⟨k, hk.mem, hk.category, by rw [target, hg.target t ht]⟩

-- How the streams of two tasks come to write one table: the one task failed, so that another
-- generation of the feature was started beside its stream, or the names of two categories in one
-- database run together.
inductive Overlap (c : Catalog) (t r : StreamTask) : Prop
  | failed (hc : r.category = t.category) (hf : r.feature = t.feature)
    (hs : t.status = .error ∨ r.status = .error)
  | coinciding (hc : r.category ≠ t.category) (hk : k ∈ c.keys) (hl : l ∈ c.keys)
    (hkc : k.code = t.category) (hlc : l.code = r.category) (hd : l.database = k.database)
    (hn : CompiledStream.targetOf r.category r.feature =
      CompiledStream.targetOf t.category t.feature)

theorem Overlap.target (h : Overlap c t r) (hc : Tidy c e) (hg : Guarded c) (ht : t ∈ c.tasks)
    (hr : r ∈ c.tasks) (hto : Owns e t s) (hro : Owns e r s') : s.target = s'.target := by
  obtain ⟨k, hk, hkc, he⟩ := hto.target ht hc hg
  obtain ⟨l, hl, hlc, he'⟩ := hro.target hr hc hg
  rw [he, he']
  cases h with
  | failed hcat hf =>
    obtain rfl := hc.unique.eq hk hl (by rw [hkc, hlc, hcat])
    rw [hcat, hf]
  | coinciding _ hk' hl' hkc' hlc' hd hn =>
    obtain rfl := hc.unique.eq hk hk' (hkc.trans hkc'.symm)
    obtain rfl := hc.unique.eq hl hl' (hlc.trans hlc'.symm)
    rw [hd, hn]

theorem overlap_of_target (hc : Tidy c e) (hg : Guarded c) (ht : t ∈ c.tasks) (hr : r ∈ c.tasks)
    (hto : Owns e t s) (hro : Owns e r s') (hn : r.streamName ≠ t.streamName)
    (hs : s.target = s'.target) : Overlap c t r := by
  obtain ⟨k, hk, hkc, he⟩ := hto.target ht hc hg
  obtain ⟨l, hl, hlc, he'⟩ := hro.target hr hc hg
  obtain ⟨hd, htable⟩ := TableName.mk.inj ((he.symm.trans hs).trans he')
  by_cases hcat : r.category = t.category
  case neg => exact .coinciding hcat hk hl hkc hlc hd.symm htable.symm
  case pos =>
    have hf : r.feature = t.feature := targetOf_injective (hcat ▸ htable.symm)
    refine .failed hcat hf ?_
    have live {o : StreamTask} (h : Deployed o.status) (he : o.status ≠ .error) :
        o.status.isLive := by
      rcases h with h | h | h <;> simp_all [StreamStatus.isLive]
    by_contra hne
    obtain ⟨hte, hre⟩ := not_or.mp hne
    obtain rfl := hg.live t ht r hr (live hto.status hte) (live hro.status hre) hcat hf
    exact hn rfl

-- Tables have one writer each but for these overlaps.
theorem oneWriter_iff {w : World Service} (h : Reached (fun _ => True) w) :
    OneWriter w.engine.tables ↔
      ∀ t ∈ w.catalog.tasks, ∀ r ∈ w.catalog.tasks, ∀ s s', Owns w.engine.tables t s →
        Owns w.engine.tables r s' → r.streamName ≠ t.streamName → ¬Overlap w.catalog t r := by
  have tidy := h.tidy
  have guarded := h.guarded
  constructor
  · intro hw t ht r hr s s' hto hro hn ho
    exact hn (hw _ _ _ _ hto.stream hro.stream (ho.target tidy guarded ht hr hto hro)).symm
  · intro hw m n s s' hm hn hs
    obtain ⟨t, ht, rfl, hto⟩ := tidy.owned m s hm
    obtain ⟨r, hr, rfl, hro⟩ := tidy.owned n s' hn
    by_contra hne
    have different : r.streamName ≠ t.streamName := fun he => hne he.symm
    exact hw t ht r hr s s' hto hro different
      (overlap_of_target tidy guarded ht hr hto hro different hs)

-- The engine refuses to pause a stream, and a second generation is deployed beside it.
def overlapping : List Event :=
  deployed ++
  [ .call (.pause "t1") [.rejected ⟨0x2601⟩ "no"], .call (.register "motor" (average "2h")),
    .call (.create "motor" "avg1"), .call (.deploy "t2") ]

theorem run_overlapping :
    let streams := (Event.run overlapping).engine.tables.streams
    streams["fs_motor_avg1_g1"]?.map (·.target) = some ⟨"plant", "feat_motor_avg1"⟩ ∧
      streams["fs_motor_avg1_g2"]?.map (·.target) = some ⟨"plant", "feat_motor_avg1"⟩ := by
  delta Event.run Event.apply Call.run Synchronizer.Call.run Service.instEndpoint Service.execute
    Service.receive Tables.apply
  rw [Sql.tokenize_characters]
  decide +kernel

theorem reached_overlapping : Reached (fun _ => True) (Event.run overlapping) :=
  .run overlapping (by simp [overlapping, deployed, Event.Within, Spares, Call.Within])

theorem not_oneWriter {m m' : String} {table : TableName} (hm : m ≠ m')
    (h : e.streams[m]?.map (·.target) = some table)
    (h' : e.streams[m']?.map (·.target) = some table) :
    ¬OneWriter e := by
  obtain ⟨s, hs, rfl⟩ := Option.map_eq_some_iff.mp h
  obtain ⟨s', hs', he⟩ := Option.map_eq_some_iff.mp h'
  exact fun hw => hm (hw _ _ _ _ hs hs' he.symm)

theorem writers_overlap :
    let w := Event.run overlapping
    Reached (fun _ => True) w ∧ ¬OneWriter w.engine.tables :=
  ⟨reached_overlapping, not_oneWriter (by decide) run_overlapping.1 run_overlapping.2⟩

theorem oneWriter_iff_overlapping :
    let w := Event.run overlapping
    Reached (fun _ => True) w ∧ ∃ t ∈ w.catalog.tasks, ∃ r ∈ w.catalog.tasks, ∃ s s',
      Owns w.engine.tables t s ∧ Owns w.engine.tables r s' ∧ Overlap w.catalog t r := by
  refine ⟨reached_overlapping, ?_⟩
  by_contra hne
  refine not_oneWriter (by decide) run_overlapping.1 run_overlapping.2
    ((oneWriter_iff reached_overlapping).mpr ?_)
  exact fun t ht r hr s s' hto hro _ ho => hne ⟨t, ht, r, hr, s, s', hto, hro, ho⟩

end Historian.StreamManager
