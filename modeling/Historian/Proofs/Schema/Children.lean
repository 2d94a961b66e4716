import Historian.Proofs.Catalog.Operations
import Historian.Proofs.Schema.Sync

namespace Historian.Synchronizer

open Engine World Schema

variable {w w' w'' : World Service} {policy : RetryPolicy} {k : CategoryKey}

-- What provisioning may do for a category: tables come to be, and the rows of assets change.
structure Furnished (k : CategoryKey) (w w' : World Service) : Prop extends Later w w' where
  steps : Steps k w.engine.tables w'.engine.tables
  catalog : ∃ assets serial, w'.catalog =
    { w.catalog with assets, next := { w.catalog.next with asset := serial } }

namespace Furnished

theorem of_moved (h : Moved k w w') : Furnished k w w' :=
  ⟨h.toLater, h.steps, w.catalog.assets, w.catalog.next.asset, h.catalog⟩

theorem of_untouched (h : w.Untouched w') : Furnished k w w' :=
  of_moved (.of_unmoved h.asked.toUnmoved)

theorem of_catalog (he : w'.engine = w.engine) (hf : w'.catalogFaults.Sublist w.catalogFaults)
    (hc : ∃ assets serial, w'.catalog =
      { w.catalog with assets, next := { w.catalog.next with asset := serial } }) :
    Furnished k w w' :=
  ⟨.of_engine he hf, he ▸ .refl, hc⟩

theorem trans (h₁ : Furnished k w w') (h₂ : Furnished k w' w'') : Furnished k w w'' := by
  obtain ⟨assets, serial, h₁c⟩ := h₁.catalog
  obtain ⟨assets', serial', h₂c⟩ := h₂.catalog
  exact ⟨h₁.toLater.trans h₂.toLater, h₁.steps.trans h₂.steps, assets', serial', by rw [h₂c, h₁c]⟩

end Furnished

theorem requireSuperTable_ensures :
    Ensures (requireSuperTable policy k) w (fun _ w' => w.Asked w') (fun _ w' => w.Asked w') := by
  refine describe_ensures.step (fun s w' ⟨_, ha⟩ => ?_) (fun _ _ h => h.1)
  cases s with
  | none => exact .throw ha
  | some s => exact .pure ha

theorem ensureChildTableLocked_ensures {asset : String} {id : Int} :
    Ensures (ensureChildTableLocked policy k asset id) w (fun _ w' => Moved k w w')
      (fun _ w' => Moved k w w') := by
  refine checked_ensures.step (fun text _ ⟨ht, he⟩ => ?_) (fun _ _ ⟨he, _⟩ => he ▸ .refl _)
  subst he
  have moved {w₁ w₂} (h : World.Asked w₁ w₂) : Moved k w₁ w₂ := .of_unmoved h.toUnmoved
  refine requireSuperTable_ensures.step (fun _ w₁ h₁ => ?_) (fun _ _ h => moved h)
  refine describe_ensures.step (fun s w₂ ⟨hs, h₂⟩ => ?_) (fun _ _ h => moved (h₁.trans h.1))
  have h₁₂ := moved (h₁.trans h₂)
  cases s with
  | some s => exact .pure h₁₂
  | none =>
    refine mustExecute_ensures.mono (fun _ w₃ h₃ => ?_) (fun _ _ h => h₁₂.trans (.of_unmoved h))
    refine h₁₂.trans (h₃.moved fun t h => ?_)
    obtain ⟨s, hp, ht'⟩ := Tables.run_ok h
    obtain ⟨tags, rfl⟩ := childTableStatement_parse ht hp
    exact .bind asset (h₂.tables ▸ hs.symm) tags ht'

theorem ensureChildTable_ensures {category asset : String} {id : Int} :
    Ensures (ensureChildTable policy category asset id) w (fun _ w' => Touched category w w')
      (fun _ w' => Touched category w w') := by
  refine .holding fun w₁ h₁ => loadCategory_ensures.step (fun k w₂ ⟨hk, h₂⟩ => ?_)
    (fun _ _ h _ h₃ => .between h₁ (.nothing h.1) h₃)
  rw [h₁.catalog] at hk
  have touched {w₃ w₄} (hm : Moved k.toCategoryKey w₂ w₃) (h₄ : World.Untouched w₃ w₄) :
      Touched category w w₄ := by
    have h := (Moved.of_unmoved (h₁.trans h₂).asked.toUnmoved).trans hm
    exact .moved hk (h.trans (.of_unmoved h₄.asked.toUnmoved))
  exact ensureChildTableLocked_ensures.mono (fun _ _ h _ h₃ => touched h h₃)
    (fun _ _ h _ h₃ => touched h h₃)

theorem claimAsset_ensures {spec : AssetSpec} :
    Ensures (claimAsset policy spec) w (fun _ w' => Furnished k w w')
      (fun _ w' => Furnished k w w') := by
  refine .lift ?_
  rw [run_catalog]
  have ends := perform_cases (.createAsset spec) w
  generalize w.perform (.createAsset spec) = r at ends
  obtain ⟨_, w₁⟩ := r
  rcases ends with ⟨e, rfl, ⟨hu, -⟩ | ⟨ho, hr, he, hf⟩⟩ | ⟨a, rfl, -, ho, he, hf⟩
  case inr => exact .pure (.of_catalog he hf (Catalog.createAsset_ok ho))
  case inl.unread =>
    obtain ⟨column, rfl⟩ := CatalogOp.unreadable?_error hr
    exact .throw (.of_catalog he hf (Catalog.createAsset_ok ho))
  simp only at hu ⊢
  cases e with
  | assetExists code =>
    refine (reads_ensures rfl).step (fun found w₂ ⟨_, _, h₂⟩ => ?_)
      (fun _ _ h => .of_untouched (hu.trans h.1))
    have hu : Furnished k w w₂ := .of_untouched (hu.trans h₂)
    cases found with
    | none => exact .throw hu
    | some a =>
      simp only
      split
      · exact .pure hu
      · exact .throw hu
  | _ => exact .throw (.of_untouched hu)

-- What a call that provisions for a category may have done, however it ends.
inductive Provisioned (code : String) (w w' : World Service) : Prop
  | nothing (h : w.Untouched w')
  | furnished {k : CategoryInfo} (hk : w.catalog.getCategory code = some k)
    (h : Furnished k.toCategoryKey w w')

theorem provision_ensures {spec : AssetSpec} :
    Ensures (provision policy spec) w (fun _ w' => Provisioned spec.category w w')
      (fun _ w' => Provisioned spec.category w w') := by
  refine .holding fun w₁ h₁ => loadCategory_ensures.step (fun k w₂ ⟨hk, h₂⟩ => ?_)
    (fun _ _ h _ h₃ => .nothing ((h₁.trans h.1).trans h₃))
  rw [h₁.catalog] at hk
  have done {w₃ w₄} (h : Furnished k.toCategoryKey w₂ w₃) (h₄ : World.Untouched w₃ w₄) :
      Provisioned spec.category w w₄ :=
    .furnished hk (((Furnished.of_untouched (h₁.trans h₂)).trans h).trans (.of_untouched h₄))
  refine Ensures.mono (Q := fun _ w' => Furnished k.toCategoryKey w₂ w')
    (E := fun _ w' => Furnished k.toCategoryKey w₂ w') ?_ (fun _ _ h _ => done h)
      (fun _ _ h _ => done h)
  have start : Furnished k.toCategoryKey w₂ w₂ := .of_untouched (.refl _)
  have asked {w'} (h : World.Asked w₂ w') : Furnished k.toCategoryKey w₂ w' :=
    .of_moved (.of_unmoved h.toUnmoved)
  refine .guard (fun _ => start) fun _ => ?_
  refine checked_ensures.step (fun _ _ ⟨_, he⟩ => ?_) (fun _ _ ⟨he, _⟩ => he ▸ start)
  subst he
  refine .guard (fun _ => start) fun _ => ?_
  refine requireSuperTable_ensures.step (fun _ w₃ h₃ => ?_) (fun _ _ h => asked h)
  refine claimAsset_ensures.step (fun a w₄ h₄ => ?_) (fun _ _ h => (asked h₃).trans h)
  have h₄ := (asked h₃).trans h₄
  refine ensureChildTableLocked_ensures.step (fun _ w₅ h₅ => ?_)
    (fun _ _ h => h₄.trans (.of_moved h))
  have h₅ := h₄.trans (.of_moved h₅)
  refine (catalog_ensures).step (fun _ w₆ ⟨ho, he, hf⟩ => ?_)
    (fun _ _ h => h₅.trans (.of_untouched h.1))
  obtain ⟨assets, hc⟩ := Catalog.changeAsset_ok ho
  have h₆ := h₅.trans (.of_catalog he hf ⟨assets, w₅.catalog.next.asset, hc⟩)
  refine (reads_ensures rfl).step (fun found w₇ ⟨_, _, h₇⟩ => ?_)
    (fun _ _ h => h₆.trans (.of_untouched h.1))
  have h₇ := h₆.trans (.of_untouched h₇)
  cases found with
  | none => exact .throw h₇
  | some a => exact .pure h₇

end Historian.Synchronizer
