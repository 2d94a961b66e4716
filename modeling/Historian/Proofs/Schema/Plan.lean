import Historian.Proofs.Schema.Accounting
import Historian.Proofs.Schema.Resumption

namespace Historian

open World Schema

namespace Catalog

variable {c c' : Catalog} {a b : String} {d d' : Option String}

-- A digest went on record, if there is one.
def Marked (code : String) (c c' : Catalog) : Option String → Prop
  | none => c' = c
  | some digest => ∃ time, c' = c.stamped code digest time

end Catalog

namespace Synchronizer

variable {w w' : World Engine.Service} {policy : RetryPolicy} {c c' : Catalog} {code text : String}

-- What the catalog asks of a synchronization, before the engine is called.
inductive Plan
  | refuse (e : SyncError)
  | skip (r : SyncReport)
  | work (k : CategoryKey) (signals : List SignalSpec) (text : String)

def plan (code : String) (c : Catalog) : Plan :=
  match c.getCategory code with
  | none => .refuse (.categoryMissing code)
  | some k =>
    if !k.isActive then .refuse (.categoryInactive code)
    else
      let signals := (c.listSignals code).map (·.toSignalSpec)
      match superTableStatement k.toCategoryKey signals with
      | .error fault => .refuse (.invalid fault)
      | .ok text =>
        if k.fingerprint == some (fingerprint text) then .skip (blank code k.toCategoryKey text)
        else .work k.toCategoryKey signals text

theorem plan_work (h : plan code c = .work k signals text) :
    (∃ info, c.getCategory code = some info ∧ info.toCategoryKey = k) ∧
      superTableStatement k signals = .ok text := by
  unfold plan at h
  split at h
  case h_1 => cases h
  case h_2 info found =>
    split at h
    case isTrue => cases h
    dsimp only at h
    split at h
    case h_1 => cases h
    case h_2 text' ht =>
      split at h <;> cases h
      exact ⟨⟨info, found, rfl⟩, ht⟩

-- Bringing the engine to what a category asks for.
def bring (policy : RetryPolicy) (category : String) (k : CategoryKey) (signals : List SignalSpec)
    (text : String) (r : SyncReport) : Action SyncReport := do
  match ← describe policy category k.superTable with
  | none => create policy k signals text r
  | some S => alter policy k (diff S signals) r

-- All of a synchronization but that the digest of the statement goes on record.
def survey (policy : RetryPolicy) (code : String) : Action (SyncReport × Option String) := do
  let k ← loadCategory policy code
  if !k.isActive then throw (.categoryInactive code)
  let signals := (← catalog policy (.listSignals code)).map (·.toSignalSpec)
  let text ← checked (superTableStatement k.toCategoryKey signals)
  let report := blank code k.toCategoryKey text
  if k.fingerprint == some (fingerprint text) then return (report, none)
  return (← bring policy code k.toCategoryKey signals text report, some text)

-- Which it does if nothing was rejected.
def finish (policy : RetryPolicy) (code : String) : SyncReport × Option String → Action SyncReport
  | (r, none) => return r
  | (r, some text) => do
    if r.rejected.isEmpty then
      catalog policy (.recordCategorySync code (fingerprint text) (← Program.now))
    return r

theorem ite_eq_bind {p q : Prop} [Decidable p] [Decidable q] {f : α → Action β} {a b : Action α}
    {x y : Action β} (h : p ↔ q) (hx : p → x = a >>= f) (hy : ¬p → y = b >>= f) :
    (if p then x else y) = (if q then a else b) >>= f := by
  by_cases hp : p
  · rw [if_pos hp, if_pos (h.mp hp), hx hp]
  · rw [if_neg hp, if_neg (mt h.mpr hp), hy hp]

theorem syncLocked_eq :
    syncLocked policy code false = survey policy code >>= finish policy code := by
  simp only [syncLocked, survey, bring, bind_assoc]
  refine congrArg (Bind.bind _) (funext fun k => ite_eq_bind .rfl (fun _ => rfl) fun _ => ?_)
  refine (congrArg (Bind.bind _) (funext fun listed => ?_)).trans (bind_assoc ..).symm
  refine (congrArg (Bind.bind _) (funext fun text => ?_)).trans (bind_assoc ..).symm
  refine ite_eq_bind (by simp) (fun _ => rfl) fun _ => ?_
  refine (congrArg (Bind.bind _) (funext fun found => ?_)).trans (bind_assoc ..).symm
  refine Eq.trans ?_ (bind_assoc ..).symm
  cases found <;> rfl

-- A synchronization follows the plan.
theorem survey_planned {Q : SyncReport × Option String → World Engine.Service → Prop}
    {E : SyncError → World Engine.Service → Prop} (hc : w.SoundCatalog)
    (refuse : ∀ e w', plan code w.catalog = .refuse e → w.Untouched w' → E e w')
    (skip : ∀ r w', plan code w.catalog = .skip r → w.Untouched w' → Q (r, none) w')
    (work : ∀ k signals text w', plan code w.catalog = .work k signals text → w.Untouched w' →
      Ensures (bring policy code k signals text (blank code k text)) w'
        (fun r w'' => Q (r, some text) w'') E) :
    Ensures (survey policy code) w Q E := by
  refine (loadCategory_finds hc).step (fun k w₁ ⟨hk, h₁⟩ => ?_) ?_
  case refine_2 =>
    rintro e w₁ ⟨missing, rfl, h₁⟩
    exact refuse _ _ (by simp [plan, missing]) h₁
  refine .guard (fun inactive => refuse _ _ (by simp [plan, hk, inactive]) h₁) fun active => ?_
  refine (read_ensures rfl).step (fun listed w₂ ⟨hs, h₂⟩ => ?_)
    (fun _ _ h => absurd (hc.later h₁.asked.toLater) h.2)
  have hu := h₁.trans h₂
  rw [hs, h₁.catalog]
  refine checked_fails.step (fun text w₃ ⟨ht, he⟩ => ?_) ?_
  case refine_2 =>
    rintro e w₃ ⟨fault, hf, rfl, rfl⟩
    exact refuse _ _ (by simp [plan, hk, active, hf]) hu
  subst he
  dsimp only
  split
  case isTrue same =>
    have same : k.fingerprint = some (fingerprint text) := by simpa using same
    exact .pure (skip _ _ (by simp [plan, hk, active, ht, same]) hu)
  case isFalse differs =>
    have differs : k.fingerprint ≠ some (fingerprint text) := by simpa using differs
    have planned : plan code w.catalog = .work k.toCategoryKey
        ((w.catalog.listSignals code).map (·.toSignalSpec)) text := by
      simp [plan, hk, active, ht, differs]
    exact (work _ _ _ _ planned hu).step (fun _ _ h => .pure h) fun _ _ h => h

theorem finish_marks {info : CategoryInfo} {r : SyncReport}
    (hk : w.catalog.getCategory code = some info) (hc : w.SoundCatalog) :
    Ensures (finish policy code (r, some text)) w
      (fun r' w' => r' = r ∧ w'.engine = w.engine ∧ w.Later w' ∧
        Catalog.Marked code w.catalog w'.catalog
          (if r.rejected.isEmpty then some (fingerprint text) else none))
      (fun _ _ => False) := by
  simp only [finish]
  split
  case isTrue =>
    refine .lift <| (catalog_ensures).step (fun _ w' ⟨ho, he, hf⟩ => ?_) fun _ w' ⟨_, e, failed⟩ => ?_
    · exact .pure ⟨rfl, he, .of_engine he hf, w.clock, (Catalog.changeCategory_ok ho).2⟩
    · obtain ⟨k, hk, -⟩ := Option.map_eq_some_iff.mp hk
      cases hk.symm.trans (Catalog.changeCategory_error (failed.refused_of_sound hc))
  case isFalse => exact .pure ⟨rfl, rfl, .refl w, rfl⟩

end Synchronizer

end Historian
