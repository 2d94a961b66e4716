import Std.Data.String.ToInt
import Historian.Proofs.Stream.Writers

namespace Historian

namespace CompiledStream

theorem ofFeature_generation {c : FeatureConfig} {n : Int} (h : ofFeature k c n = .ok s) :
    s.generation = n := by
  unfold ofFeature at h
  split at h
  case isTrue => cases h
  simp only [bind_unit_eq_ok, pure_eq_ok] at h
  obtain ⟨-, -, -, rfl⟩ := h
  rfl

-- A list is the same before the last of some letter, and behind it.
theorem append_cons_inj {x : α} {as bs as' bs' : List α} (hb : x ∉ bs) (hb' : x ∉ bs')
    (h : as ++ x :: bs = as' ++ x :: bs') : as = as' ∧ bs = bs' := by
  have aligned {as bs as' bs' us : List α} (hb : x ∉ bs) (ha : as' = as ++ us)
      (hu : x :: bs = us ++ x :: bs') : as = as' ∧ bs = bs' := by
    cases us with
    | nil => exact ⟨by simp [ha], (List.cons.inj hu).2⟩
    | cons u us => exact absurd (by simp [(List.cons.inj hu).2]) hb
  rcases List.append_eq_append_iff.mp h with ⟨us, ha, hu⟩ | ⟨us, ha, hu⟩
  · exact aligned hb ha hu
  · exact (aligned hb' ha hu).imp Eq.symm Eq.symm

theorem not_mem_toString (n : Int) : 'g' ∉ (toString n).toList := by
  have whole (n : Nat) : 'g' ∉ (Nat.repr n).toList := by
    intro hg
    have digit : 'g'.isDigit := Json.isDigit_toDigits n 'g' (by simpa using hg)
    contradiction
  cases n with
  | ofNat n => simpa [Int.toString_eq_repr, Int.repr] using whole n
  | negSucc n => simpa [Int.toString_eq_repr, Int.repr] using whole (n + 1)

-- A name tells the generation, which stands at its end, but not where the name of the category
-- ends and that of the feature begins.
theorem nameOf_eq_iff :
    nameOf category feature m = nameOf category' feature' n ↔
      category ++ "_" ++ feature = category' ++ "_" ++ feature' ∧ m = n := by
  have eq (category feature : String) (n : Int) :
      (nameOf category feature n).toList = "fs_".toList ++ (category ++ "_" ++ feature).toList ++
        ['_'] ++ 'g' :: (toString n).toList := by
    simp [nameOf, toString_text]
  constructor
  · intro h
    have same := congrArg String.toList h
    rw [eq, eq] at same
    obtain ⟨front, generation⟩ := append_cons_inj (not_mem_toString m) (not_mem_toString n) same
    refine ⟨String.toList_inj.mp (List.append_cancel_left (List.append_cancel_right front)), ?_⟩
    have text := String.toList_inj.mp generation
    rwa [Int.toString_eq_repr, Int.toString_eq_repr, Int.repr_inj] at text
  · rintro ⟨joined, rfl⟩
    rw [← String.toList_inj, eq, eq, joined]

end CompiledStream

namespace StreamManager

open Engine World

variable {P : String → Prop} {c c' : Catalog} {e e' : Tables} {t r : StreamTask}

theorem Derived.streamName (h : Derived c category feature s)
    (hd : ∀ f ∈ c.features, ∀ config,
      FeatureConfig.read (documentOf f) = .ok config → config.name = f.name) :
    s.streamName = CompiledStream.nameOf category feature s.generation := by
  obtain ⟨k, config, n, hs, rfl, rfl⟩ := h.source hd
  rw [CompiledStream.ofFeature_generation hs]
  exact (CompiledStream.ofFeature_ok hs).1

-- Streams are called after what they compute, and within a category no two are called the same.
structure Named (c : Catalog) : Prop where
  compiled : ∀ t ∈ c.tasks,
    t.streamName = CompiledStream.nameOf t.category t.feature t.generation
  apart : Apart c

theorem Named.besides (h : Named c) (hb : Besides c e c' e') : Named c' := by
  refine ⟨hb.tasks ▸ h.compiled, ?_⟩
  rw [Apart, hb.tasks]
  exact h.apart

theorem Named.turn (h : Named c) (hg : Guarded c) (ht : Turn P c e c' e') : Named c' where
  compiled r hr := by
    obtain ⟨t, ht, he⟩ | ⟨s, hd, he, -⟩ := ht.spec hr
    · exact he ▸ h.compiled t ht
    · have generation : r.generation = s.generation := congrArg _ he
      rw [generation]
      exact (congrArg _ he).trans (hd.streamName hg.documents)
  apart := ht.apart h.apart

theorem Reached.named {w : World Service} (h : Reached P w) : Named w.catalog := by
  have both := h.holds (I := fun c _ => Guarded c ∧ Named c) ⟨⟨nofun, nofun, nofun⟩, nofun, nofun⟩
    (fun hb h => ⟨h.1.besides hb, h.2.besides hb⟩)
    (fun hc hm h => ⟨h.1.move hc hm, h.2.turn h.1 (hm.turn hc)⟩)
  exact both.2

-- No two tasks that are not stopped have the same stream.
def Identifying (c : Catalog) : Prop :=
  ∀ t ∈ c.tasks, ∀ r ∈ c.tasks, t.status ≠ .stopped → r.status ≠ .stopped →
    r.streamName = t.streamName → r = t

-- The names of two categories run together with those of their features.
structure Confusable (t r : StreamTask) : Prop where
  category : r.category ≠ t.category
  generation : r.generation = t.generation
  joined : r.category ++ "_" ++ r.feature = t.category ++ "_" ++ t.feature

-- That is the only way in which two tasks come to have one stream.
theorem streamName_shared_iff {w : World Service} (h : Reached P w) (ht : t ∈ w.catalog.tasks)
    (hr : r ∈ w.catalog.tasks) (hts : t.status ≠ .stopped) (hrs : r.status ≠ .stopped)
    (hne : r ≠ t) : r.streamName = t.streamName ↔ Confusable t r := by
  have named := h.named
  rw [named.compiled t ht, named.compiled r hr, CompiledStream.nameOf_eq_iff]
  constructor
  · rintro ⟨joined, generation⟩
    refine ⟨fun hcat => hne (named.apart t ht r hr hts hrs hcat ?_), generation, joined⟩
    rw [named.compiled t ht, named.compiled r hr, CompiledStream.nameOf_eq_iff]
    exact ⟨joined, generation⟩
  · exact fun hc => ⟨hc.joined, hc.generation⟩

-- Two features of which the one is called as the other but for where its category ends.

def featured (category feature : String) : List Event :=
  [ .edit (.createCategory { code := category, database := "plant", name := category }),
    .edit (.addSignal (.stored category "current" .numeric)),
    .call (.register category (.ofMembers [("name", .text feature),
      ("source_signal", .text "current"), ("function", .text "avg"), ("window", .text "1h")])),
    .call (.create category feature) ]

def colliding : List Event := featured "a" "b_c" ++ featured "a_b" "c"

theorem reached_colliding : Reached (fun _ => True) (Event.run colliding) :=
  .run colliding (by simp [colliding, featured, Event.Within, Spares, Call.Within])

theorem run_colliding :
    (Event.run colliding).catalog.tasks.map (fun t => (t.id, t.streamName, t.status)) =
      [("t1", "fs_a_b_c_g1", .created), ("t2", "fs_a_b_c_g1", .created)] := by
  decide +kernel

theorem colliding_tasks :
    ∃ t ∈ (Event.run colliding).catalog.tasks, ∃ r ∈ (Event.run colliding).catalog.tasks,
      t.status ≠ .stopped ∧ r.status ≠ .stopped ∧ r ≠ t ∧ r.streamName = t.streamName := by
  obtain ⟨t, ts, htasks, ht, hts⟩ := List.map_eq_cons_iff.mp run_colliding
  obtain ⟨r, rfl, hr⟩ := List.map_eq_singleton_iff.mp hts
  simp only [Prod.mk.injEq] at ht hr
  have different : r ≠ t := by
    rintro rfl
    simp [ht.1] at hr
  exact ⟨t, by simp [htasks], r, by simp [htasks], by simp [ht], by simp [hr], different,
    by simp [ht, hr]⟩

theorem names_collide :
    let w := Event.run colliding
    Reached (fun _ => True) w ∧ ¬Identifying w.catalog := by
  refine ⟨reached_colliding, fun h => ?_⟩
  obtain ⟨t, ht, r, hr, hts, hrs, hne, hn⟩ := colliding_tasks
  exact hne (h t ht r hr hts hrs hn)

theorem streamName_shared_colliding :
    let w := Event.run colliding
    Reached (fun _ => True) w ∧ ∃ t ∈ w.catalog.tasks, ∃ r ∈ w.catalog.tasks,
      t.status ≠ .stopped ∧ r.status ≠ .stopped ∧ r ≠ t ∧ Confusable t r := by
  obtain ⟨t, ht, r, hr, hts, hrs, hne, hn⟩ := colliding_tasks
  have confused := (streamName_shared_iff reached_colliding ht hr hts hrs hne).mp hn
  exact ⟨reached_colliding, t, ht, r, hr, hts, hrs, hne, confused⟩

end StreamManager

end Historian
