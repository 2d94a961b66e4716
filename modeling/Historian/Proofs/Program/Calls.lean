import Historian.Proofs.Catalog.Operations
import Historian.Proofs.Engine.Execution
import Historian.World

namespace Historian

open Engine

namespace World

variable {w w₁ w₂ w₃ : World Service}

-- The circumstances of a later world: what was arranged for calls is used up bit by bit.
structure Later (w₁ w₂ : World Service) : Prop where
  latency : w₂.engine.latency = w₁.engine.latency
  faults : w₂.engine.faults <:+ w₁.engine.faults
  catalogFaults : w₂.catalogFaults.Sublist w₁.catalogFaults

-- Nothing has taken effect since.
structure Unmoved (w₁ w₂ : World Service) : Prop extends Later w₁ w₂ where
  catalog : w₂.catalog = w₁.catalog
  tables : w₂.engine.tables = w₁.engine.tables

-- Nor has any statement been issued.
structure Asked (w₁ w₂ : World Service) : Prop extends Unmoved w₁ w₂ where
  statements : w₂.engine.statements = w₁.engine.statements

-- Nor has the engine been called at all.
structure Untouched (w₁ w₂ : World Service) : Prop where
  engine : w₂.engine = w₁.engine
  catalog : w₂.catalog = w₁.catalog
  catalogFaults : w₂.catalogFaults.Sublist w₁.catalogFaults

theorem Later.refl (w : World Service) : w.Later w :=
  ⟨rfl, List.suffix_rfl, .refl _⟩

theorem Later.trans (h₁ : w₁.Later w₂) (h₂ : w₂.Later w₃) : w₁.Later w₃ where
  latency := h₂.latency.trans h₁.latency
  faults := h₂.faults.trans h₁.faults
  catalogFaults := h₂.catalogFaults.trans h₁.catalogFaults

theorem Later.of_engine (he : w₂.engine = w₁.engine)
    (hf : w₂.catalogFaults.Sublist w₁.catalogFaults) : w₁.Later w₂ :=
  ⟨he ▸ rfl, he ▸ List.suffix_rfl, hf⟩

theorem Unmoved.refl (w : World Service) : w.Unmoved w :=
  ⟨.refl w, rfl, rfl⟩

theorem Unmoved.trans (h₁ : w₁.Unmoved w₂) (h₂ : w₂.Unmoved w₃) : w₁.Unmoved w₃ :=
  ⟨h₁.toLater.trans h₂.toLater, h₂.catalog.trans h₁.catalog, h₂.tables.trans h₁.tables⟩

theorem Unmoved.wait (h : w₁.Unmoved w₂) : w₁.Unmoved ((Program.wait n).run w₂).2 :=
  ⟨⟨h.latency, h.faults, h.catalogFaults⟩, h.catalog, h.tables⟩

theorem Asked.refl (w : World Service) : w.Asked w :=
  ⟨.refl w, rfl⟩

theorem Asked.trans (h₁ : w₁.Asked w₂) (h₂ : w₂.Asked w₃) : w₁.Asked w₃ :=
  ⟨h₁.toUnmoved.trans h₂.toUnmoved, h₂.statements.trans h₁.statements⟩

theorem Asked.wait (h : w₁.Asked w₂) : w₁.Asked ((Program.wait n).run w₂).2 :=
  ⟨h.toUnmoved.wait, h.statements⟩

theorem Untouched.refl (w : World Service) : w.Untouched w :=
  ⟨rfl, rfl, .refl _⟩

theorem Untouched.trans (h₁ : w₁.Untouched w₂) (h₂ : w₂.Untouched w₃) : w₁.Untouched w₃ :=
  ⟨h₂.engine.trans h₁.engine, h₂.catalog.trans h₁.catalog, h₂.catalogFaults.trans h₁.catalogFaults⟩

theorem Untouched.wait (h : w₁.Untouched w₂) : w₁.Untouched ((Program.wait n).run w₂).2 :=
  ⟨h.engine, h.catalog, h.catalogFaults⟩

theorem Untouched.asked (h : w₁.Untouched w₂) : w₁.Asked w₂ :=
  ⟨⟨.of_engine h.engine h.catalogFaults, h.catalog, h.engine ▸ rfl⟩, h.engine ▸ rfl⟩

-- Every engine error that is arranged is of some kind.
def Meets (P : EngineError → Prop) (w : World Service) : Prop :=
  ∀ e, some e ∈ w.engine.faults → P e

theorem Meets.later (h : w₁.Meets P) (hl : w₁.Later w₂) : w₂.Meets P :=
  fun e he => h e (hl.faults.subset he)

-- Operations of the catalog meet no errors but their own.
def SoundCatalog (w : World Service) : Prop := w.catalogFaults = []

theorem SoundCatalog.mono (h : w₁.SoundCatalog)
    (hs : w₂.catalogFaults.Sublist w₁.catalogFaults) : w₂.SoundCatalog :=
  List.sublist_nil.mp (h ▸ hs)

theorem SoundCatalog.later (h : w₁.SoundCatalog) (hl : w₁.Later w₂) : w₂.SoundCatalog :=
  h.mono hl.catalogFaults

-- Calls reach the engine in time and come back.
structure SoundEngine (policy : RetryPolicy) (w : World Service) : Prop where
  meets : w.Meets fun _ => False
  latency : w.engine.latency ≤ policy.attemptTimeout

theorem SoundEngine.later (h : w₁.SoundEngine policy) (hl : w₁.Later w₂) : w₂.SoundEngine policy :=
  ⟨h.meets.later hl, hl.latency ▸ h.latency⟩

-- Why an engine call did not get through.
inductive Missed (policy : RetryPolicy) (w : World Service) : EngineError → Prop
  | arranged (h : some e ∈ w.engine.faults) : Missed policy w e
  | late (h : policy.attemptTimeout < w.engine.latency) (operation : String) :
    Missed policy w (.timeout operation policy.attemptTimeout)

theorem SoundEngine.not_missed (h : w.SoundEngine policy) : ¬Missed policy w e
  | .arranged hf => h.meets _ hf
  | .late hl _ => Nat.not_lt.mpr h.latency hl

-- Why a statement failed.
inductive Refused (policy : RetryPolicy) (w : World Service) (sql : String) : EngineError → Prop
  | missed (h : Missed policy w e) : Refused policy w sql e
  | refusal (h : w.engine.tables.run sql = .error r) : Refused policy w sql r.error

-- Why an operation of the catalog failed.
inductive Failed (w : World Service) (op : CatalogOp) (e : CatalogError) : Prop
  | arranged (name : String) (h : (name, e) ∈ w.catalogFaults)
  | refused (h : op.perform w.catalog = .error e)

theorem Failed.refused_of_sound (h : Failed w op e) (hc : w.SoundCatalog) :
    op.perform w.catalog = .error e := by
  cases h with
  | arranged name hm => exact absurd (hc ▸ hm) List.not_mem_nil
  | refused h => exact h

-- How an operation of the catalog ends in an error: it fails, or it takes effect and what it is to
-- answer cannot be read.
inductive Erred (w : World Service) (op : CatalogOp) (w' : World Service) (e : CatalogError) : Prop
  | failed (hu : w.Untouched w') (h : Failed w op e)
  | unread (ho : op.perform w.catalog = .ok (a, w'.catalog)) (hr : op.unreadable? a = some e)
    (he : w'.engine = w.engine) (hf : w'.catalogFaults.Sublist w.catalogFaults)

theorem Erred.earlier (h : Erred w₁ op w₂ e) (hu : w.Untouched w₁) : Erred w op w₂ e := by
  cases h with
  | failed hu' h =>
    refine .failed (hu.trans hu') ?_
    cases h with
    | arranged name hm => exact .arranged name (hu.catalogFaults.subset hm)
    | refused hr => exact .refused (hu.catalog ▸ hr)
  | unread ho hr he hf =>
    exact .unread (hu.catalog ▸ ho) hr (he.trans hu.engine) (hf.trans hu.catalogFaults)

theorem Erred.of_legible {op : CatalogOp} [op.Legible] (h : Erred w op w' e) :
    w.Untouched w' ∧ Failed w op e := by
  cases h with
  | failed hu h => exact ⟨hu, h⟩
  | unread _ hr _ _ => cases (CatalogOp.plain _).symm.trans hr

-- Nothing is read again.
theorem Erred.untouched (h : Erred w op w' e) (ht : isTransient e) : w.Untouched w' := by
  cases h with
  | failed hu _ => exact hu
  | unread _ hr _ _ =>
    obtain ⟨column, rfl⟩ := CatalogOp.unreadable?_error hr
    cases ht

-- The world after an operation of the catalog by itself.
def edit (w : World Service) (op : CatalogOp) : World Service :=
  match op.perform w.catalog with
  | .ok (_, catalog) => { w with catalog }
  | .error _ => w

-- What holds after a success, and what after a failure.
def Ends (Q : α → World Service → Prop) (E : σ → World Service → Prop) :
    Except σ α × World Service → Prop
  | (.ok a, w) => Q a w
  | (.error e, w) => E e w

theorem Ends.mono {Q Q' : α → World Service → Prop} {E E' : σ → World Service → Prop}
    (h : Ends Q E r) (hq : ∀ a w, Q a w → Q' a w) (he : ∀ e w, E e w → E' e w) : Ends Q' E' r := by
  obtain ⟨_ | _, _⟩ := r
  · exact he _ _ h
  · exact hq _ _ h

end World

open World

-- What is so before every attempt is so before the next one, and what the call comes to is what one
-- of its attempts came to.
theorem RetryPolicy.retryFrom_run [Transient ε] {attempt : Program (Option (Except ε α))}
    {I : World Service → Prop} {Q : α → World Service → Prop} {E : ε → World Service → Prop}
    (hw : ∀ n w, I w → I ((Program.wait n).run w).2)
    (ha : ∀ w, I w → Ends Q (fun e w' => E e w' ∧ (isTransient e → I w'))
      ((attempt.run w).1.getD (.error (Transient.timedOut operation p.attemptTimeout)),
        (attempt.run w).2))
    (made left : Nat) (w : World Service) (h : I w) :
    Ends Q (fun f => E f.error)
      ((retryFrom p operation attempt Program.wait made left).run w) := by
  induction left generalizing made w with
  | zero =>
    have first := ha w h
    unfold retryFrom
    rw [Program.run_bind]
    cases hr : (attempt.run w).1.getD (.error (Transient.timedOut operation p.attemptTimeout)) with
    | ok a => simpa [hr, Ends] using first
    | error e =>
      simp only [hr, Ends] at first
      cases ht : isTransient e <;> simpa [hr, ht, Ends] using first.1
  | succ left ih =>
    have first := ha w h
    unfold retryFrom
    rw [Program.run_bind]
    cases hr : (attempt.run w).1.getD (.error (Transient.timedOut operation p.attemptTimeout)) with
    | ok a => simpa [hr, Ends] using first
    | error e =>
      cases ht : isTransient e with
      | false =>
        simp only [hr, Ends] at first
        simpa [hr, ht, Ends] using first.1
      | true =>
        simp only [hr, ht, Ends] at first ⊢
        exact ih _ _ (hw _ _ (first.2 trivial))

namespace World

-- Statements.

theorem run_execute (limit : Nat) (sql : String) (w : World Service) :
    (Program.execute limit sql).run w = ((w.engine.execute (some limit) sql).1,
      { w with engine := (w.engine.execute (some limit) sql).2, clock := w.afterCall limit }) :=
  rfl

theorem execute_cases (limit : Nat) (sql : String) (w : World Service) :
    let r := (Program.execute limit sql).run w
    (r.1 = none ∧ limit < w.engine.latency ∧ w.Unmoved r.2) ∨
    (∃ e, r.1 = some (.error e) ∧ some e ∈ w.engine.faults ∧ w.Unmoved r.2) ∨
    (∃ e, r.1 = some (.error e.error) ∧ w.engine.tables.run sql = .error e ∧ w.Unmoved r.2) ∨
    (r.1 = some (.ok ()) ∧ w.engine.tables.run sql = .ok r.2.engine.tables ∧
      r.2.catalog = w.catalog ∧ w.Later r.2) := by
  have rest := List.tail_suffix w.engine.faults
  rw [run_execute]
  by_cases hl : limit < w.engine.latency
  case pos =>
    have he : w.engine.execute (some limit) sql = (none, w.engine) := by
      simp [Service.execute, Service.isLate, hl]
    rw [he]
    exact .inl ⟨rfl, hl, ⟨rfl, List.suffix_rfl, .refl _⟩, rfl, rfl⟩
  refine .inr ?_
  cases hf : w.engine.faults.head?.join with
  | some e =>
    have he : w.engine.execute (some limit) sql = (some (.error e), { w.engine with
        statements := w.engine.statements ++ [sql], faults := w.engine.faults.tail }) := by
      simp [Service.execute, Service.isLate, hl, Service.receive, Service.nextFault, hf]
    have hm := List.mem_of_mem_head? (Option.join_eq_some_iff.mp hf)
    rw [he]
    exact .inl ⟨e, rfl, hm, ⟨rfl, rest, .refl _⟩, rfl, rfl⟩
  | none =>
    cases hr : w.engine.tables.run sql with
    | error r =>
      have he : w.engine.execute (some limit) sql = (some (.error r.error), { w.engine with
          statements := w.engine.statements ++ [sql], faults := w.engine.faults.tail }) := by
        simp [Service.execute, Service.isLate, hl, Service.receive, Service.nextFault, hf, hr,
          Tables.apply_eq]
      rw [he]
      exact .inr (.inl ⟨r, rfl, rfl, ⟨rfl, rest, .refl _⟩, rfl, rfl⟩)
    | ok t =>
      have he : w.engine.execute (some limit) sql = (some (.ok ()), { w.engine with
          tables := t
          statements := w.engine.statements ++ [sql], faults := w.engine.faults.tail }) := by
        simp [Service.execute, Service.isLate, hl, Service.receive, Service.nextFault, hf, hr,
          Tables.apply_eq]
      rw [he]
      exact .inr (.inr ⟨rfl, rfl, rfl, rfl, rest, .refl _⟩)

-- A statement takes effect at most once: failed attempts leave everything as it was.
theorem retryExecute_run (policy : RetryPolicy) (operation sql : String) (w : World Service) :
    Ends
      (fun _ w' => w.engine.tables.run sql = .ok w'.engine.tables ∧ w'.catalog = w.catalog ∧
        w.Later w')
      (fun f w' => w.Unmoved w' ∧ Refused policy w sql f.error)
      ((Program.retryExecute policy operation sql).run w) := by
  refine RetryPolicy.retryFrom_run (I := w.Unmoved) (E := fun e w' => w.Unmoved w' ∧
    Refused policy w sql e) (fun _ _ h => h.wait) (fun w₁ h => ?_) _ _ _ (.refl w)
  rcases execute_cases policy.attemptTimeout sql w₁ with
    ⟨ha, hl, hu⟩ | ⟨e, ha, hf, hu⟩ | ⟨e, ha, hr, hu⟩ | ⟨ha, hr, hc, hl⟩
  · simp only [ha, Ends]
    exact ⟨⟨h.trans hu, .missed (.late (h.latency ▸ hl) _)⟩, fun _ => h.trans hu⟩
  · simp only [ha, Ends]
    exact ⟨⟨h.trans hu, .missed (.arranged (h.faults.subset hf))⟩, fun _ => h.trans hu⟩
  · simp only [ha, Ends]
    exact ⟨⟨h.trans hu, .refusal (h.tables ▸ hr)⟩, fun _ => h.trans hu⟩
  · simp only [ha, Ends]
    exact ⟨h.tables ▸ hr, hc.trans h.catalog, h.toLater.trans hl⟩

-- Descriptions.

theorem run_describe (limit : Nat) (table : TableName) (w : World Service) :
    (Program.describe limit table).run w = ((w.engine.describe (some limit) table).1,
      { w with engine := (w.engine.describe (some limit) table).2, clock := w.afterCall limit }) :=
  rfl

theorem describe_cases (limit : Nat) (table : TableName) (w : World Service) :
    let r := (Program.describe limit table).run w
    w.Asked r.2 ∧ (
      (r.1 = none ∧ limit < w.engine.latency) ∨
      (∃ e, r.1 = some (.error e) ∧ some e ∈ w.engine.faults) ∨
      r.1 = some (.ok (w.engine.tables.describe table))) := by
  have rest := List.tail_suffix w.engine.faults
  rw [run_describe]
  by_cases hl : limit < w.engine.latency
  case pos =>
    have he : w.engine.describe (some limit) table = (none, { w.engine with
        describeCalls := w.engine.describeCalls + 1 }) := by
      simp [Service.describe, Service.isLate, hl]
    rw [he]
    exact ⟨⟨⟨⟨rfl, List.suffix_rfl, .refl _⟩, rfl, rfl⟩, rfl⟩, .inl ⟨rfl, hl⟩⟩
  cases hf : w.engine.faults.head?.join with
  | some e =>
    have he : w.engine.describe (some limit) table = (some (.error e), { w.engine with
        describeCalls := w.engine.describeCalls + 1, faults := w.engine.faults.tail }) := by
      simp [Service.describe, Service.isLate, hl, Service.nextFault, hf]
    have hm := List.mem_of_mem_head? (Option.join_eq_some_iff.mp hf)
    rw [he]
    exact ⟨⟨⟨⟨rfl, rest, .refl _⟩, rfl, rfl⟩, rfl⟩, .inr (.inl ⟨e, rfl, hm⟩)⟩
  | none =>
    have he : w.engine.describe (some limit) table =
        (some (.ok (w.engine.tables.describe table)), { w.engine with
          describeCalls := w.engine.describeCalls + 1, faults := w.engine.faults.tail }) := by
      simp [Service.describe, Service.isLate, hl, Service.nextFault, hf]
    rw [he]
    exact ⟨⟨⟨⟨rfl, rest, .refl _⟩, rfl, rfl⟩, rfl⟩, .inr (.inr rfl)⟩

theorem retryDescribe_run (policy : RetryPolicy) (table : TableName) (w : World Service) :
    Ends
      (fun s w' => s = w.engine.tables.describe table ∧ w.Asked w')
      (fun f w' => w.Asked w' ∧ Missed policy w f.error)
      ((Program.retryDescribe policy table).run w) := by
  refine RetryPolicy.retryFrom_run (I := w.Asked) (E := fun e w' => w.Asked w' ∧
    Missed policy w e) (fun _ _ h => h.wait) (fun w₁ h => ?_) _ _ _ (.refl w)
  have ⟨ht, hr⟩ := describe_cases policy.attemptTimeout table w₁
  rcases hr with ⟨ha, hl⟩ | ⟨e, ha, hf⟩ | ha
  · simp only [ha, Ends]
    exact ⟨⟨h.trans ht, .late (h.latency ▸ hl) _⟩, fun _ => h.trans ht⟩
  · simp only [ha, Ends]
    exact ⟨⟨h.trans ht, .arranged (h.faults.subset hf)⟩, fun _ => h.trans ht⟩
  · simp only [ha, Ends]
    exact ⟨h.tables ▸ rfl, h.trans ht⟩

-- Operations of the catalog.

theorem run_catalog (op : CatalogOp) (w : World Service) :
    (Program.catalog op).run w = w.perform op :=
  rfl

theorem takeFault_some {r : CatalogError × List (String × CatalogError)}
    (h : takeFault name fs = some r) : r.2.Sublist fs ∧ (name, r.1) ∈ fs := by
  induction fs generalizing r with
  | nil => cases h
  | cons f fs ih =>
    unfold takeFault at h
    split at h
    case isTrue he =>
      cases h
      exact ⟨List.sublist_cons_self _ _, by simp [← he]⟩
    case isFalse =>
      obtain ⟨s, hs, rfl⟩ := Option.map_eq_some_iff.mp h
      exact ⟨(ih hs).1.cons_cons f, List.mem_cons_of_mem _ (ih hs).2⟩

theorem perform_cases (op : CatalogOp) (w : World Service) :
    let r := w.perform op
    (∃ e, r.1 = .error e ∧ Erred w op r.2 e) ∨
    (∃ a, r.1 = .ok a ∧ op.unreadable? a = none ∧ op.perform w.catalog = .ok (a, r.2.catalog) ∧
      r.2.engine = w.engine ∧ r.2.catalogFaults.Sublist w.catalogFaults) := by
  simp only [perform]
  cases hf : takeFault op.name w.catalogFaults with
  | some r =>
    have ⟨hs, hm⟩ := takeFault_some hf
    exact .inl ⟨r.1, rfl, .failed ⟨rfl, rfl, hs⟩ (.arranged _ hm)⟩
  | none =>
    rcases op.carryOut_cases w.catalog with ⟨e, ho, hr⟩ | ⟨a, c', ho, ⟨hn, hr⟩ | ⟨e, hs, hr⟩⟩
    · exact .inl ⟨e, by simp [hr], .failed ⟨rfl, by simp [hr], .refl _⟩ (.refused ho)⟩
    · exact .inr ⟨a, by simp [hr], hn, by simp [hr, ho], rfl, .refl _⟩
    · exact .inl ⟨e, by simp [hr], .unread (by simpa [hr] using ho) hs rfl (.refl _)⟩

theorem retryCatalog_run (policy : RetryPolicy) (op : CatalogOp) (w : World Service) :
    Ends
      (fun a w' => op.unreadable? a = none ∧ op.perform w.catalog = .ok (a, w'.catalog) ∧
        w'.engine = w.engine ∧ w'.catalogFaults.Sublist w.catalogFaults)
      (fun f w' => Erred w op w' f.error)
      ((Program.retryCatalog policy op).run w) := by
  refine RetryPolicy.retryFrom_run (I := w.Untouched) (E := fun e w' => Erred w op w' e)
    (fun _ _ h => h.wait) (fun w₁ h => ?_) _ _ _ (.refl w)
  rw [map_eq_pure_bind, Program.run_bind, run_catalog]
  rcases perform_cases op w₁ with ⟨e, ha, he⟩ | ⟨a, ha, hr, ho, he, hs⟩
  · simp only [ha, Program.run_pure, Option.getD_some, Ends]
    exact ⟨he.earlier h, fun ht => h.trans (he.untouched ht)⟩
  · simp only [ha, Program.run_pure, Option.getD_some, Ends]
    exact ⟨hr, h.catalog ▸ ho, he.trans h.engine, hs.trans h.catalogFaults⟩

end World

end Historian
