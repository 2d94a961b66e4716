import Historian.Proofs.Schema.Repair

namespace Historian

open Engine World Schema

namespace Synchronizer

variable {w w' : World Service} {policy : RetryPolicy} {k : CategoryKey} {r r' : SyncReport}

-- What became of a row of statements: some were issued, each with its text, and the others are
-- among the rejections.
inductive Issued (name : α → String) (statement : α → Except Invalid String) :
    List α → List α → List String → List Rejection → Prop
  | nil : Issued name statement [] [] [] []
  | sent (h : statement a = .ok text) (hs : Issued name statement as done texts rejected) :
    Issued name statement (a :: as) (a :: done) (text :: texts) rejected
  | refused (reason : String) (hs : Issued name statement as done texts rejected) :
    Issued name statement (a :: as) done texts (⟨name a, reason⟩ :: rejected)

namespace Issued

variable {name : α → String} {statement : α → Except Invalid String} {as done : List α}
  {texts : List String} {rejected : List Rejection}

theorem sublist (h : Issued name statement as done texts rejected) : done.Sublist as := by
  induction h with
  | nil => exact .slnil
  | sent _ _ ih => exact ih.cons_cons _
  | refused _ _ ih => exact ih.cons _

theorem statements (h : Issued name statement as done texts rejected) :
    texts.map .ok = done.map statement := by
  induction h with
  | nil => rfl
  | sent h _ ih => simp [h, ih]
  | refused _ _ ih => exact ih

theorem names (h : Issued name statement as done texts rejected) :
    (done.map name ++ rejected.map (·.signal)).Perm (as.map name) := by
  induction h with
  | nil => exact .nil
  | sent _ _ ih => exact ih.cons _
  | refused _ _ ih => exact List.perm_middle.trans (ih.cons _)

end Issued

theorem Executed.catalog (h : Executed policy text w w' x) : w'.catalog = w.catalog := by
  cases h with
  | done _ hc _ => exact hc
  | present hu _ _ => exact hu.catalog
  | failed hu _ _ => exact hu.catalog

theorem Executed.later (h : Executed policy text w w' x) : w.Later w' := by
  cases h with
  | done _ _ hl => exact hl
  | present hu _ _ => exact hu.toLater
  | failed hu _ _ => exact hu.toLater

section Issue

variable {category operation : String} {name : α → String} {statement : α → Except Invalid String}
  {note : α → String → SyncReport → SyncReport} {as : List α}

-- `added` and `widened` say what the report notes of one that was issued.
theorem issue_accounts (added widened : α → List String)
    (noted : ∀ a text r, note a text r = { r with
      added := r.added ++ added a, widened := r.widened ++ widened a
      statements := r.statements ++ [text] }) :
    Ensures (issue policy category operation name statement note as r) w
      (fun r' w' => w'.catalog = w.catalog ∧ ∃ done texts rejected,
        Issued name statement as done texts rejected ∧
        r' = { r with
          added := r.added ++ done.flatMap added, widened := r.widened ++ done.flatMap widened
          rejected := r.rejected ++ rejected, statements := r.statements ++ texts })
      (fun _ w' => w'.catalog = w.catalog) := by
  induction as generalizing r w with
  | nil => exact .pure ⟨rfl, [], [], [], .nil, by simp⟩
  | cons a as ih =>
    refine checked_ensures.step (fun text _ ⟨ht, he⟩ => ?_) (fun _ _ ⟨he, _⟩ => he ▸ rfl)
    subst he
    refine execute_ensures.step (fun x w' hx => ?_) (fun _ _ h => h.elim)
    have same := hx.catalog
    cases x with
    | ok =>
      refine ih.mono ?_ (fun _ _ h => h.trans same)
      rintro r' w'' ⟨hc, done, texts, rejected, issued, rfl⟩
      exact ⟨hc.trans same, a :: done, text :: texts, rejected, .sent ht issued, by simp [noted]⟩
    | error f =>
      cases hf : f.isExhausted with
      | true => simpa [hf] using .throw same
      | false =>
        simp only [hf, Bool.false_eq_true, if_false]
        refine ih.mono ?_ (fun _ _ h => h.trans same)
        rintro r' w'' ⟨hc, done, texts, rejected, issued, rfl⟩
        exact ⟨hc.trans same, done, texts, _, .refused f.error.message issued, by simp⟩

end Issue

theorem addColumns_accounts {cs : List Column} :
    Ensures (addColumns policy k cs r) w
      (fun r' w' => w'.catalog = w.catalog ∧ ∃ done texts rejected,
        Issued (·.name) (addColumnStatement k) cs done texts rejected ∧
        r' = { r with
          added := r.added ++ done.map (·.name), rejected := r.rejected ++ rejected
          statements := r.statements ++ texts })
      (fun _ w' => w'.catalog = w.catalog) := by
  rw [addColumns_eq]
  refine (issue_accounts (fun c => [c.name]) (fun _ => []) ?_).mono ?_ ?_
  · simp
  · rintro r' w' ⟨hc, done, texts, rejected, issued, rfl⟩
    exact ⟨hc, done, texts, rejected, issued, by simp [List.map_eq_flatMap]⟩
  · exact fun _ _ h => h

theorem widenColumns_accounts {xs : List Widening} :
    Ensures (widenColumns policy k xs r) w
      (fun r' w' => w'.catalog = w.catalog ∧ ∃ done texts rejected,
        Issued (·.name) (fun x => modifyColumnStatement k x.column) xs done texts rejected ∧
        r' = { r with
          widened := r.widened ++ done.map (·.name), rejected := r.rejected ++ rejected
          statements := r.statements ++ texts })
      (fun _ w' => w'.catalog = w.catalog) := by
  rw [widenColumns_eq]
  refine (issue_accounts (fun _ => []) (fun x => [x.name]) ?_).mono ?_ ?_
  · simp
  · rintro r' w' ⟨hc, done, texts, rejected, issued, rfl⟩
    exact ⟨hc, done, texts, rejected, issued, by simp [List.map_eq_flatMap]⟩
  · exact fun _ _ h => h

-- A report that accounts for every column of a difference: each was added, widened or rejected, and
-- the statements are those of the columns that were added and then of those that were widened.
structure Accounts (k : CategoryKey) (d : Diff) (r : SyncReport) : Prop where
  names : (r.added ++ r.widened ++ r.rejected.map (·.signal)).Perm
    (d.missing.map (·.name) ++ d.widenings.map (·.name) ++ d.conflicts.map (·.1))
  statements : ∃ (cs : List Column) (xs : List Widening),
    cs.Sublist d.missing ∧ xs.Sublist d.widenings ∧
    r.added = cs.map (·.name) ∧ r.widened = xs.map (·.name) ∧
    r.statements.map .ok =
      cs.map (addColumnStatement k) ++ xs.map fun x => modifyColumnStatement k x.column

theorem alter_accounts {d : Diff} {code text : String} :
    Ensures (alter policy k d (blank code k text)) w
      (fun r' w' => w'.catalog = w.catalog ∧ r'.fingerprint = fingerprint text ∧ Accounts k d r')
      (fun _ w' => w'.catalog = w.catalog) := by
  refine addColumns_accounts.step ?_ (fun _ _ h => h)
  rintro _ w₁ ⟨hc₁, cs, texts, refused, added, rfl⟩
  refine widenColumns_accounts.step ?_ (fun _ _ h => h.trans hc₁)
  rintro _ w₂ ⟨hc₂, xs, texts', refused', widened, rfl⟩
  refine .pure ⟨hc₂.trans hc₁, rfl, ?_, cs, xs, added.sublist, widened.sublist, ?_⟩
  · rw [List.perm_iff_count]
    intro name
    have missing := added.names.count_eq name
    have narrow := widened.names.count_eq name
    simp only [List.count_append] at missing narrow
    simp [conclude, blank, List.count_append, Function.comp_def]
    omega
  · simp [conclude, blank, added.statements, widened.statements]

end Synchronizer

-- The digest of a synchronization on record, and when that was.
def Catalog.stamped (c : Catalog) (code digest : String) (time : Int) : Catalog :=
  { c with
    categories := c.categories.map fun k =>
      if k.code = code then { k with fingerprint := some digest, lastSyncedAt := some time }
      else k }

namespace Synchronizer

theorem record_stamps {code text : String} :
    Ensures (do
        catalog policy (.recordCategorySync code (fingerprint text) (← Program.now))
        return r) w
      (fun r' w' => r' = r ∧ w'.catalog = w.catalog.stamped code (fingerprint text) w.clock)
      (fun _ w' => w'.catalog = w.catalog) := by
  refine .lift <| (catalog_ensures).step (fun _ w' ⟨ho, _, _⟩ => .pure ⟨rfl, ?_⟩)
    (fun _ _ h => h.1.catalog)
  exact (Catalog.changeCategory_ok ho).2

-- A synchronization that was not short-circuited accounts for every column if there was a table.
-- It goes on record if it rejected nothing, and otherwise leaves the catalog as it was.
def Accounted (code : String) (inspect : Bool) (w w' : World Service) (r : SyncReport) : Prop :=
  ∃ k signals text, Prepared w code k signals text ∧ r.fingerprint = fingerprint text ∧
    if inspect = false ∧ k.fingerprint = some r.fingerprint then w'.catalog = w.catalog
    else
      (∀ S, w.engine.tables.describe k.superTable = some S →
        Accounts k.toCategoryKey (diff S signals) r) ∧
      if r.rejected = [] then
        ∃ time, w.clock ≤ time ∧ time ≤ w'.clock ∧
          w'.catalog = w.catalog.stamped code r.fingerprint time
      else w'.catalog = w.catalog

theorem Accounted.between {w₁ w₂ : World Service} (h₁ : w.Untouched w₁) (t₁ : w₁.clock = w.clock)
    (h : Accounted code inspect w₁ w₂ r) (h₂ : w₂.Untouched w') (t₂ : w'.clock = w₂.clock) :
    Accounted code inspect w w' r := by
  obtain ⟨k, signals, text, prepared, digest, h⟩ := h
  refine ⟨k, signals, text, prepared.earlier h₁, digest, ?_⟩
  simp only [h₁.catalog, h₁.engine, t₁] at h
  simpa only [h₂.catalog, t₂] using h

theorem Accounted.catalog (h : Accounted code inspect w w' r) :
    w'.catalog = w.catalog ∨ ∃ digest time, w'.catalog = w.catalog.stamped code digest time := by
  obtain ⟨k, signals, text, -, -, h⟩ := h
  split at h
  case isTrue => exact .inl h
  case isFalse =>
    split at h
    case isTrue =>
      obtain ⟨-, time, -, -, hc⟩ := h
      exact .inr ⟨_, time, hc⟩
    case isFalse => exact .inl h.2

theorem bring_accounts {code category : String} {f : SyncReport → Action SyncReport}
    {Q : SyncReport → World Service → Prop} {E : SyncError → World Service → Prop}
    (ht : superTableStatement k signals = .ok text)
    (hf : ∀ r w', w'.catalog = w.catalog → w.clock ≤ w'.clock → r.fingerprint = fingerprint text →
      (∀ S, w.engine.tables.describe k.superTable = some S → Accounts k (diff S signals) r) →
      Ensures (f r) w' Q E)
    (he : ∀ e w', w'.catalog = w.catalog → E e w') :
    Ensures (describe policy category k.superTable >>= fun
        | none => create policy k signals text (blank code k text) >>= f
        | some S => alter policy k (diff S signals) (blank code k text) >>= f) w Q E := by
  refine describe_ensures.clock.step (fun S w₁ ⟨⟨hS, h₁⟩, t₁⟩ => ?_)
    (fun _ _ h => he _ _ h.1.catalog)
  rw [← h₁.tables] at hS
  cases S with
  | none =>
    refine (create_ensures ht hS.symm).clock.step (fun r w₂ ⟨made, t₂⟩ => ?_)
      (fun _ _ h => he _ _ (h.catalog.trans h₁.catalog))
    refine hf r w₂ (made.moved.catalog.trans h₁.catalog) (Int.le_trans t₁ t₂) ?_ fun S there => ?_
    · cases made
      rfl
    · rw [← h₁.tables, ← hS] at there
      cases there
  | some S =>
    refine alter_accounts.clock.step (fun r w₂ ⟨⟨hc, digest, accounts⟩, t₂⟩ => ?_)
      (fun _ _ h => he _ _ (h.trans h₁.catalog))
    refine hf r w₂ (hc.trans h₁.catalog) (Int.le_trans t₁ t₂) digest fun S' there => ?_
    rw [← h₁.tables, ← hS] at there
    cases there
    exact accounts

theorem syncLocked_accounts {code : String} {inspect : Bool} :
    Ensures (syncLocked policy code inspect) w (fun r w' => Accounted code inspect w w' r)
      (fun _ w' => w'.catalog = w.catalog) := by
  refine loadCategory_ensures.clock.step (fun k w₁ ⟨⟨hk, h₁⟩, t₁⟩ => ?_) (fun _ _ h => h.1.catalog)
  refine .guard (fun _ => h₁.catalog) fun active => ?_
  refine (read_ensures rfl).clock.step (fun listed w₂ ⟨⟨hs, h₂⟩, t₂⟩ => ?_)
    (fun _ _ h => (h₁.trans h.1).catalog)
  subst hs
  have hu := h₁.trans h₂
  have since := Int.le_trans t₁ t₂
  refine checked_ensures.step (fun text w₃ ⟨ht, he⟩ => ?_) (fun _ _ ⟨he, _⟩ => he ▸ hu.catalog)
  subst he
  rw [h₁.catalog] at ht ⊢
  have prepared : Prepared w code k _ text := ⟨hk, by simpa using active, rfl, ht⟩
  dsimp only
  split
  case isTrue same =>
    simp only [Bool.and_eq_true, Bool.not_eq_true', beq_iff_eq] at same
    exact .pure ⟨k, _, text, prepared, rfl, by rw [if_pos same]; exact hu.catalog⟩
  case isFalse differs =>
    have differs : ¬(inspect = false ∧ k.fingerprint = some (fingerprint text)) := by
      simpa using differs
    refine bring_accounts ht (fun r w₄ hc t₄ digest accounts => ?_)
      (fun _ _ h => h.trans hu.catalog)
    have catalog := hc.trans hu.catalog
    rw [hu.engine] at accounts
    have finish {w'} (h : if r.rejected = [] then ∃ time, w.clock ≤ time ∧ time ≤ w'.clock ∧
          w'.catalog = w.catalog.stamped code r.fingerprint time
        else w'.catalog = w.catalog) : Accounted code inspect w w' r :=
      ⟨k, _, text, prepared, digest, by rw [digest, if_neg differs, ← digest]; exact ⟨accounts, h⟩⟩
    split
    case isTrue clean =>
      refine record_stamps.clock.mono ?_ (fun _ _ h => h.trans catalog)
      rintro _ w₅ ⟨⟨rfl, hc₅⟩, t₅⟩
      refine finish ?_
      rw [if_pos (List.isEmpty_iff.mp clean)]
      exact ⟨w₄.clock, Int.le_trans since t₄, t₅, by rw [hc₅, catalog, digest]⟩
    case isFalse unclean =>
      refine .pure (finish ?_)
      rw [if_neg (mt List.isEmpty_iff.mpr unclean)]
      exact catalog

theorem holding_accounts {code : String} {inspect : Bool} :
    Ensures (holding code (syncLocked policy code inspect)) w
      (fun r w' => Accounted code inspect w w' r) (fun _ w' => w'.catalog = w.catalog) := by
  refine .holding_timed fun w₁ h₁ t₁ => syncLocked_accounts.mono ?_ ?_
  · exact fun r w₂ h w₃ h₃ t₃ => h.between h₁ t₁ h₃ t₃
  · exact fun _ w₂ h w₃ h₃ _ => by rw [h₃.catalog, h, h₁.catalog]

-- A synchronization of either kind accounts for what it did, whatever the engine answers on the
-- way, and one that fails leaves the catalog as it was.
theorem sync_accounts (policy : RetryPolicy) (code : String) (inspect : Bool) (w : World Service) :
    Ensures (if inspect then resync policy code else sync policy code) w
      (fun r w' => Accounted code inspect w w' r) (fun _ w' => w'.catalog = w.catalog) := by
  cases inspect with
  | false => exact holding_accounts
  | true => exact holding_accounts

end Synchronizer

end Historian
