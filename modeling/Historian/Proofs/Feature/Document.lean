import Historian.Proofs.Feature.Reading
import Historian.Proofs.Json.Reading
import Historian.Stream.Manager

namespace Historian

namespace Json

-- Whatever the members have under a key is that text.
def Tells (ms : List (String × Json)) (key text : String) : Prop :=
  ∀ v, (key, v) ∈ ms → v = .text text

theorem blur_eq_text {v : Json} (h : v.blur = .text s) : v = .text s := by
  cases v <;> cases h
  rfl

namespace Tells

theorem ofMembers (h : Tells ms key s) (ho : ofMembers ms = .object ns) : Tells ns key s :=
  fun v hv => h v (mem_ofMembers ho hv)

theorem normalize (h : Tells ms key s) : Tells (normalizeMembers ms) key s := by
  intro v hv
  induction ms with
  | nil => cases hv
  | cons m ms ih =>
    rcases List.mem_cons.mp hv with he | hv
    · obtain ⟨rfl, rfl⟩ := Prod.mk.inj he
      rw [h m.2 (.head _)]
      rfl
    · exact ih (fun v hv => h v (.tail _ hv)) hv

theorem blur (h : Tells ms key s) (hb : blurMembers ns = blurMembers ms) : Tells ns key s := by
  intro v hv
  induction ns generalizing ms with
  | nil => cases hv
  | cons n ns ih =>
    cases ms with
    | nil => cases hb
    | cons m ms =>
      obtain ⟨he, hb⟩ := List.cons.inj hb
      obtain ⟨hk, he⟩ := Prod.mk.inj he
      rcases List.mem_cons.mp hv with hn | hv
      · obtain ⟨rfl, rfl⟩ := Prod.mk.inj hn
        rw [h m.2 (hk ▸ .head _)] at he
        exact blur_eq_text he
      · exact ih (fun v hv => h v (.tail _ hv)) hb hv

end Tells

-- What is read from the text of an object tells what the object tells.
theorem read?_tells (h : Tells ms key s) (hr : read? (write (.object ms)) = some j) :
    ∃ ns, j = .object ns ∧ Tells ns key s := by
  obtain ⟨raw, hraw, rfl⟩ := Option.map_eq_some_iff.mp hr
  have same := readRaw_write hraw
  cases raw <;> simp only [Json.blur, reduceCtorEq, object.injEq] at same
  case object raw => exact ⟨_, rfl, (h.blur same).normalize.ofMembers rfl⟩

end Json

namespace FeatureConfig

theorem toJson_tells (c : FeatureConfig) :
    ∃ ms, c.toJson = .object ms ∧ Json.Tells ms "name" c.name := by
  refine ⟨_, rfl, Json.Tells.ofMembers (fun v hv => ?_) rfl⟩
  have listed {key items} (hk : key ≠ "name") : ("name", v) ∉ listMember key items := by
    unfold listMember
    split <;> simp [hk.symm]
  have given {key s} (hk : key ≠ "name") : ("name", v) ∉ memberOf key s := by
    cases s <;> simp [memberOf, hk.symm]
  simpa [listed, given] using hv

theorem read_name (h : read (.object ms) = .ok c) : ("name", .text c.name) ∈ ms :=
  Json.mem_of_member? (requiredText_eq_ok.mp (read_eq_ok.mp h).name)

end FeatureConfig

namespace StreamManager

-- The document that is kept of a feature says its name.
theorem documentOf_name {c : FeatureConfig} (hd : f.document = c.toJson.write)
    (h : FeatureConfig.read (documentOf f) = .ok config) : config.name = c.name := by
  obtain ⟨ms, hc, tells⟩ := c.toJson_tells
  rw [documentOf, hd, hc] at h
  cases hr : Json.read? (Json.object ms).write with
  | none =>
    rw [hr] at h
    cases h
  | some j =>
    obtain ⟨ns, rfl, told⟩ := Json.read?_tells tells hr
    rw [hr] at h
    exact Json.text.inj (told _ (FeatureConfig.read_name h))

end StreamManager

end Historian
