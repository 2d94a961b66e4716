import Historian.Proofs.Catalog.Features
import Historian.Proofs.Program.Faults

namespace Historian

namespace CatalogOp

-- The operations that give a feature its document or that take it away.
def Concerns (category name : String) : CatalogOp → Prop
  | .upsertFeature code feature _ | .deleteFeature code feature =>
    code = category ∧ feature = name
  | .deleteCategory code => code = category
  | _ => False

instance : (deleteFeature category feature).Legible := ⟨fun _ => rfl⟩
instance : (deleteCategory code).Legible := ⟨fun _ => rfl⟩

theorem Concerns.legible {op : CatalogOp} {category name : String} (h : op.Concerns category name) :
    op.Legible := by
  cases op with
  | upsertFeature | deleteFeature | deleteCategory => infer_instance
  | _ => cases h

end CatalogOp

namespace Catalog

variable {c c' : Catalog} {f g : Feature} {document : Json}

-- What is looked for is found as before if all that is changed are other rows.
theorem find?_changed {p : α → Bool} {change : α → α}
    (h : ∀ a, change a = a ∨ p a = false ∧ p (change a) = false) (rows : List α) :
    (rows.map change).find? p = rows.find? p := by
  induction rows with
  | nil => rfl
  | cons a rows ih =>
    rcases h a with same | ⟨before, after⟩
    · simp [List.find?_cons, same, ih]
    · simp [before, after, ih]

theorem find?_kept {p q : α → Bool} (h : ∀ a, p a → q a) (rows : List α) :
    (rows.filter q).find? p = rows.find? p := by
  rw [List.find?_filter]
  refine congrArg (rows.find? ·) (funext fun a => ?_)
  cases hp : p a with
  | true => simp [h a hp]
  | false => simp

theorem upsertFeature_elsewhere (h : c.upsertFeature code feature document = .ok (f, c'))
    (hn : ¬(code = category ∧ feature = name)) :
    c'.feature? category name = c.feature? category name := by
  obtain ⟨-, -, upserted⟩ := upsertFeature_upserted h
  cases upserted with
  | added => simp [feature?, List.find?_append, hn]
  | kept => rfl
  | changed ho =>
    have named := feature?_some ho
    refine find?_changed (fun r => ?_) c.features
    split
    case isTrue hr => exact .inr (by simpa [hr, named] using hn)
    case isFalse => exact .inl rfl

-- A feature stays as it is unless it is itself concerned.
theorem perform_elsewhere {op : CatalogOp} {a : op.Answer} (h : op.perform c = .ok (a, c'))
    (hn : ¬op.Concerns category name) : c'.feature? category name = c.feature? category name := by
  cases perform_effect h with
  | upsertFeature => exact upsertFeature_elsewhere h hn
  | deleteFeature =>
    refine find?_kept (fun r hr => ?_) c.features
    grind [CatalogOp.Concerns]
  | deleteCategory =>
    refine find?_kept (fun r hr => ?_) c.features
    grind [CatalogOp.Concerns]
  | _ => rfl

theorem category?_isSome : (c.category? code).isSome ↔ ∃ k ∈ c.keys, k.code = code := by
  simp only [category?, keys, List.find?_isSome, beq_iff_eq, List.mem_map]
  constructor
  · rintro ⟨k, hk, hc⟩
    exact ⟨_, ⟨k, hk, rfl⟩, hc⟩
  · rintro ⟨_, ⟨k, hk, rfl⟩, hc⟩
    exact ⟨k, hk, hc⟩

-- Only a deletion takes a category away.
theorem perform_category {op : CatalogOp} {a : op.Answer} (h : op.perform c = .ok (a, c'))
    (hn : ¬op.Concerns category name) (hk : (c.category? category).isSome) :
    (c'.category? category).isSome := by
  obtain ⟨k, hk, hc⟩ := category?_isSome.mp hk
  refine category?_isSome.mpr ⟨k, ?_, hc⟩
  cases (perform_effect h).keys with
  | same he => exact he ▸ hk
  | added _ _ he => simp [he, hk]
  | removed he =>
    have other : k.code ≠ _ := fun h => hn (h.symm.trans hc)
    simp [he, hk, other]

-- How often a text is followed by another one.
def changes (texts : List String) : Nat :=
  (texts.zip texts.tail).countP fun pair => pair.2 != pair.1

theorem changes_concat (h : texts.getLast? = some s) (t : String) :
    changes (texts ++ [t]) = changes texts + if t = s then 0 else 1 := by
  induction texts with
  | nil => cases h
  | cons a texts ih =>
    cases texts with
    | nil =>
      obtain rfl : a = s := by simpa using h
      by_cases ht : t = a <;> simp [changes, ht]
    | cons b texts =>
      have rest := ih (by simpa using h)
      simp only [changes, List.cons_append, List.tail_cons, List.zip_cons_cons,
        List.countP_cons] at rest ⊢
      omega

end Catalog

namespace World

open Catalog Engine

-- A feature, and all the texts that it was given one after another.
structure Given (c : Catalog) (category name : String) (texts : List String) : Prop where
  owned : (c.category? category).isSome
  named : requireIdentifier "feature" name = .ok ()
  counted : ∃ f, c.feature? category name = some f ∧ texts.getLast? = some f.document ∧
    f.generation = 1 + changes texts

-- A run of operations of the catalog, with the texts that one feature is given. Any operation may
-- fail, and the errors that the store is going to make are whatever they are; but neither the
-- feature nor its category is deleted.
inductive Course (category name : String) (w : World Service) :
    List String → World Service → Prop
  | start : Course category name w [] w
  | given (h : Course category name w texts w₁) (clear : w₁.Clear "upsert_feature")
    (document : Json) : Course category name w (texts ++ [document.write])
      (w₁.perform (.upsertFeature category name document)).2
  | passed (h : Course category name w texts w₁) (op : CatalogOp)
    (ho : op.Concerns category name → ∃ e, (w₁.perform op).1 = .error e) :
    Course category name w texts (w₁.perform op).2
  | arranged (h : Course category name w texts w₁) (hc : w₂.catalog = w₁.catalog) :
    Course category name w texts w₂

variable {w w₁ : World Service} {category name : String} {texts : List String}

theorem Given.upserted {c c' : Catalog} {document : Json}
    (h : c.upsertFeature category name document = .ok (f, c'))
    (hg : c.generationWith category name document = 1 + changes (texts ++ [document.write])) :
    Given c' category name (texts ++ [document.write]) := by
  have ⟨found, generation⟩ := upsertFeature_finds h
  obtain ⟨-, -, text, _, _, after, -⟩ := upsertFeature_ok h
  obtain ⟨named, ⟨k, hk⟩, -⟩ := upsertFeature_upserted h
  refine ⟨?_, named, f, found, by simp [text], generation.trans hg⟩
  rw [after]
  exact Option.isSome_of_eq_some hk

theorem Given.given (h : Given w.catalog category name texts) (clear : w.Clear "upsert_feature")
    (document : Json) : Given (w.perform (.upsertFeature category name document)).2.catalog
      category name (texts ++ [document.write]) := by
  obtain ⟨k, hk⟩ := Option.isSome_iff_exists.mp h.owned
  obtain ⟨f, c', done⟩ := upsertFeature_total document hk h.named
  have performed : (w.perform (.upsertFeature category name document)).2.catalog = c' := by
    have ready := takeFault_clear.mpr clear
    simp only [perform, CatalogOp.name, ready, CatalogOp.carryOut, CatalogOp.perform, done,
      CatalogOp.unreadable?]
  obtain ⟨g, found, last, generation⟩ := h.counted
  rw [performed]
  refine .upserted done ?_
  rw [changes_concat last]
  simp only [generationWith, found, generation, eq_comm (a := g.document)]
  split <;> omega

theorem Given.passed {op : CatalogOp} (h : Given w.catalog category name texts)
    (ho : op.Concerns category name → ∃ e, (w.perform op).1 = .error e) :
    Given (w.perform op).2.catalog category name texts := by
  have performed {a : op.Answer} (done : op.perform w.catalog = .ok (a, (w.perform op).2.catalog))
      (hn : ¬op.Concerns category name) : Given (w.perform op).2.catalog category name texts :=
    ⟨perform_category done hn h.owned, h.named, (perform_elsewhere done hn).symm ▸ h.counted⟩
  rcases perform_cases op w with ⟨e, -, erred⟩ | ⟨a, ok, -, done, -⟩
  · cases erred with
    | failed untouched => exact untouched.catalog ▸ h
    | unread done unread =>
      refine performed done fun hc => ?_
      have := hc.legible
      cases (CatalogOp.plain _).symm.trans unread
  · refine performed done fun hc => ?_
    obtain ⟨e, failed⟩ := ho hc
    cases failed.symm.trans ok

theorem Given.course (h : Given w.catalog category name texts)
    (hc : Course category name w later w₁) : Given w₁.catalog category name (texts ++ later) := by
  induction hc with
  | start => simpa using h
  | given _ clear document ih => simpa using ih.given clear document
  | passed _ op ho ih => exact ih.passed ho
  | arranged _ hc ih => exact hc ▸ ih

def give (text : String) : CatalogOp := .upsertFeature "motor" "avg1" (.text text)

end World

end Historian
