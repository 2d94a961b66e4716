import Historian.Proofs.Stream.Runs

namespace Historian.StreamManager

open Engine World

variable {c c' : Catalog} {e e' : Tables} {t r : StreamTask} {code : String}

-- Whether the stream of a live task is paused.
def paused? : StreamStatus → Option Bool
  | .running => some false
  | .paused => some true
  | _ => none

-- The stream of a task is in the engine as it was compiled, paused or not.
def Holds (e : Tables) (t : StreamTask) (paused : Bool) : Prop :=
  ∃ s, e.streams[t.streamName]? = some s ∧ s.sql = t.sql ∧ s.paused = paused

-- What holds as long as tasks are made in one category only.
structure Agreed (code : String) (c : Catalog) (e : Tables) : Prop where
  category : ∀ t ∈ c.tasks, t.category = code
  names : ∀ t ∈ c.tasks, ∀ r ∈ c.tasks, t.status ≠ .stopped → r.status ≠ .stopped →
    r.streamName = t.streamName → r = t
  live : ∀ t ∈ c.tasks, ∀ b, paused? t.status = some b → Holds e t b

theorem Holds.puts (h : Holds e t b) (he : e.Puts n after e') (hn : t.streamName ≠ n) :
    Holds e' t b :=
  h.imp fun _ h => ⟨(he.elsewhere _ hn).trans h.1, h.2⟩

theorem not_stopped_of_live (h : paused? status = some b) : status ≠ .stopped := by
  rintro rfl
  cases h

theorem not_live_of_dropped {action : StreamAction} (h : action.next? status = some next)
    (ha : action ∈ [.stop, .acknowledge, .delete]) : paused? next = none := by
  cases status <;> cases action <;> cases h <;> first | rfl | simp at ha

theorem Agreed.category_turn (h : Agreed code c e) (ht : Turn (· = code) c e c' e') :
    ∀ r ∈ c'.tasks, r.category = code := by
  intro r hr
  obtain ⟨t, ht, he⟩ | ⟨_, -, -, hp⟩ := ht.spec hr
  · exact he ▸ h.category t ht
  · exact hp

theorem Agreed.names_turn (h : Agreed code c e) (ht : Turn (· = code) c e c' e') :
    ∀ r ∈ c'.tasks, ∀ o ∈ c'.tasks, r.status ≠ .stopped → o.status ≠ .stopped →
      o.streamName = r.streamName → o = r := by
  have before : Apart c := fun r hr o ho hrs hos _ => h.names r hr o ho hrs hos
  have category := h.category_turn ht
  exact fun r hr o ho hrs hos =>
    ht.apart before r hr o ho hrs hos ((category o ho).trans (category r hr).symm)

-- The stream of a live task is touched by no move but those of the task.
theorem Agreed.live_puts (h : Agreed code c e) (ht : t ∈ c.tasks) (hs : t.status ≠ .stopped)
    (he : e.Puts t.streamName after e') (hr : r ∈ c.tasks) (hi : r.id ≠ t.id)
    (hb : paused? r.status = some b) : Holds e' r b :=
  (h.live r hr b hb).puts he fun hn =>
    hi (congrArg _ (h.names t ht r hr hs (not_stopped_of_live hb) hn))

-- What the statement of an action leaves is what the next status says.
theorem Agreed.live_acted {action : StreamAction} (h : Agreed code c e) (hc : Tidy c e)
    (ht : t ∈ c.tasks)
    (hv : action.next? t.status = some next) (hf : Cleared c t action)
    (hi : Issued t e.streams[t.streamName]? action after) (he : e.Puts t.streamName after e')
    (hb : paused? next = some b) : Holds e' t b := by
  cases hi with
  | @found s hs =>
    obtain ⟨r, hr, hn, ho⟩ := hc.owned _ s hs
    have created : t.status = .created := hf.1
    have deployed := ho.status
    obtain rfl : r = t := by
      refine h.names t ht r hr (by simp [created]) ?_ hn
      rcases deployed with h | h | h <;> simp [h]
    simp [Deployed, created] at deployed
  | made hs hp =>
    obtain rfl : next = .running := by simpa [hf.1, StreamAction.next?, eq_comm] using hv
    cases hb
    exact ⟨_, he.here, rfl, rfl⟩
  | @paused s hs =>
    obtain ⟨hst, rfl⟩ : t.status = .running ∧ next = .paused := by
      cases hst : t.status <;> simp_all [StreamAction.next?]
    cases hb
    obtain ⟨s', hs', hq, -⟩ := h.live t ht false (by rw [hst]; rfl)
    obtain rfl := Option.some.inj (hs.symm.trans hs')
    exact ⟨_, he.here, hq, rfl⟩
  | @resumed s hs =>
    obtain ⟨hst, rfl⟩ : t.status = .paused ∧ next = .running := by
      cases hst : t.status <;> simp_all [StreamAction.next?]
    cases hb
    obtain ⟨s', hs', hq, -⟩ := h.live t ht true (by rw [hst]; rfl)
    obtain rfl := Option.some.inj (hs.symm.trans hs')
    exact ⟨_, he.here, hq, rfl⟩
  | dropped ha => cases (not_live_of_dropped hv ha).symm.trans hb

theorem Agreed.live_turn (h : Agreed code c e) (hc : Tidy c e) (ht : Turn (· = code) c e c' e') :
    ∀ r ∈ c'.tasks, ∀ b, paused? r.status = some b → Holds e' r b := by
  intro r hr b hb
  cases ht with
  | still hm he => exact he ▸ h.live r (hm ▸ hr) b hb
  | made t hm hs _ _ _ _ he =>
    rcases (hm r).mp hr with hr | rfl
    · exact he ▸ h.live r hr b hb
    · rw [hs] at hb
      cases hb
  | acted t ht hm hv ha hf hi he =>
    rcases (hm r).mp hr with ⟨hr, hid⟩ | rfl
    · exact h.live_puts ht (not_stopped_of_next hv ha) he hr hid hb
    · have held := h.live_acted hc ht hv hf hi he hb
      exact held
  | failed t ht hm _ he =>
    rcases (hm r).mp hr with ⟨hr, -⟩ | rfl
    · exact he ▸ h.live r hr b hb
    · cases hb
  | dropped t ht hm hs he =>
    have ⟨hr, hid⟩ := (hm r).mp hr
    exact h.live_puts ht (by simp [hs]) he hr hid hb
  | removed t ht hm _ he => exact he ▸ h.live r ((hm r).mp hr).1 b hb

theorem Reached.agreed {w : World Service} (h : Reached (· = code) w) :
    Agreed code w.catalog w.engine.tables := by
  refine h.holds ⟨nofun, nofun, nofun⟩ (fun hb h => ?_) (fun hc hm h => ?_)
  · refine ⟨hb.tasks ▸ h.category, hb.tasks ▸ h.names, fun t ht b hl => ?_⟩
    have held := h.live t (hb.tasks ▸ ht) b hl
    unfold Holds at *
    rwa [hb.streams]
  · have turn := hm.turn hc
    exact ⟨h.category_turn turn, h.names_turn turn, h.live_turn hc turn⟩

-- The catalog and the engine agree on the streams of a category.
theorem streams_agree {w : World Service} (h : Reached (· = code) w) :
    let streams := w.engine.tables.streams
    (∀ t ∈ w.catalog.tasks, t.status = .running →
      ∃ s, streams[t.streamName]? = some s ∧ s.sql = t.sql ∧ s.paused = false) ∧
    (∀ t ∈ w.catalog.tasks, t.status = .paused →
      ∃ s, streams[t.streamName]? = some s ∧ s.sql = t.sql ∧ s.paused = true) ∧
    ∀ n s, streams[n]? = some s →
      ∃ t, (w.catalog.tasks.filter fun r => r.streamName == n && r.status != .stopped) = [t] ∧
        Deployed t.status ∧ s.sql = t.sql := by
  have agreed := h.agreed
  refine ⟨fun t ht hs => agreed.live t ht _ (by rw [hs]; rfl),
    fun t ht hs => agreed.live t ht _ (by rw [hs]; rfl), fun n s hs => ?_⟩
  obtain ⟨t, ht, rfl, ho⟩ := h.tidy.owned n s hs
  have standing : t.status ≠ .stopped := by
    rcases ho.status with h | h | h <;> simp [h]
  refine ⟨t, ?_, ho.status, ho.sql⟩
  have distinct : w.catalog.tasks.Nodup := h.tidy.numbered.distinct.of_map
  refine List.perm_singleton.mp <|
    (List.perm_ext_iff_of_nodup (distinct.filter _) (by simp)).mpr fun r => ?_
  simp only [List.mem_filter, List.mem_singleton, Bool.and_eq_true, beq_iff_eq, bne_iff_ne]
  constructor
  · rintro ⟨hr, hn, hrs⟩
    exact agreed.names t ht r hr standing hrs hn
  · rintro rfl
    exact ⟨ht, rfl, standing⟩

-- A feature of one signal, deployed.

def average (window : String) : Json :=
  .ofMembers [("name", .text "avg1"), ("source_signal", .text "current"), ("function", .text "avg"),
    ("window", .text window)]

def deployed : List Event :=
  [ .edit (.createCategory { code := "motor", database := "plant", name := "Motor" }),
    .edit (.addSignal (.stored "motor" "current" .numeric)), .sync (.sync "motor"),
    .call (.register "motor" (average "1h")), .call (.create "motor" "avg1"), .call (.deploy "t1") ]

theorem deployed_within : ∀ e ∈ deployed, e.Within (· = "motor") := by
  simp [deployed, Event.Within, Spares, Call.Within]

theorem run_deployed :
    (Event.run deployed).catalog.tasks.map (fun t => (t.streamName, t.status)) =
      [("fs_motor_avg1_g1", .running)] := by
  delta Event.run Event.apply Call.run Synchronizer.Call.run Service.instEndpoint Service.execute
    Service.receive Tables.apply
  rw [Sql.tokenize_characters]
  decide +kernel

theorem streams_agree_deployed :
    let w := Event.run deployed
    Reached (· = "motor") w ∧ ∃ t s, w.catalog.tasks = [t] ∧ t.status = .running ∧
      w.engine.tables.streams["fs_motor_avg1_g1"]? = some s ∧ s.sql = t.sql ∧ s.paused = false := by
  have reached := Reached.run deployed deployed_within
  have tasks := run_deployed
  generalize Event.run deployed = w at reached tasks
  obtain ⟨t, ht, he⟩ := List.map_eq_singleton_iff.mp tasks
  obtain ⟨hn, hr⟩ := Prod.mk.inj he
  obtain ⟨s, hs, hq, hp⟩ := (streams_agree reached).1 t (by simp [ht]) hr
  exact ⟨reached, t, s, ht, hr, hn ▸ hs, hq, hp⟩

end Historian.StreamManager
