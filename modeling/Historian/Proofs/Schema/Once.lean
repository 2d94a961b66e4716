import Historian.Proofs.Program.Serial
import Historian.Proofs.Schema.Timeless

namespace Historian

open Engine World

-- The report of a synchronization of the same category that finds nothing left to do.
def SyncReport.idle (r : SyncReport) : SyncReport :=
  { r with action := .unchanged, added := [], widened := [], rejected := [], statements := [] }

namespace Synchronizer

open Schema

variable {w w' : World Service} {policy : RetryPolicy} {code text : String} {r : SyncReport}

-- What a synchronization knows before the record.

theorem Brought.idle {k : CategoryKey} {r' : SyncReport} (h : Brought k signals w w' r r') :
    r'.idle = r.idle := by
  cases h with
  | created h =>
    cases h
    rfl
  | mended h =>
    cases h
    rfl

theorem bring_idle {k : CategoryKey} (ht : superTableStatement k signals = .ok text)
    (category : String) (r : SyncReport) :
    Ensures (bring policy category k signals text r) w
      (fun r' w' => w'.catalog = w.catalog ∧ r'.idle = r.idle) (fun _ _ => True) := by
  refine describe_ensures.step (fun found w₁ ⟨hf, asked⟩ => ?_) (fun _ _ _ => trivial)
  have brought {r' w'} (h : Brought k signals w₁ w' r r') :
      w'.catalog = w.catalog ∧ r'.idle = r.idle :=
    ⟨h.moved.catalog.trans asked.catalog, h.idle⟩
  rw [← asked.tables] at hf
  cases found with
  | none =>
    exact (create_ensures ht hf.symm).mono (fun _ _ h => brought (.created h)) fun _ _ _ => trivial
  | some S =>
    exact (alter_ensures hf.symm).mono (fun _ _ h => brought (.mended h)) fun _ _ _ => trivial

theorem Prepared.of_catalog {k : CategoryInfo} (h : Prepared w code k signals text)
    (hc : w'.catalog = w.catalog) : Prepared w' code k signals text :=
  ⟨hc ▸ h.category, h.active, hc ▸ h.listed, h.statement⟩

inductive Surveyed (code : String) (w : World Service) : SyncReport × Option String → Prop
  | current {k : CategoryInfo} {text : String} (hp : Prepared w code k signals text)
    (hf : k.fingerprint = some (fingerprint text)) :
    Surveyed code w (blank code k.toCategoryKey text, none)
  | brought {k : CategoryInfo} {text : String} {r : SyncReport}
    (hp : Prepared w code k signals text) (hr : r.idle = blank code k.toCategoryKey text) :
    Surveyed code w (r, some text)

theorem survey_ensures :
    Ensures (survey policy code) w (fun x w' => Surveyed code w' x) (fun _ _ => True) := by
  refine loadCategory_ensures.step (fun k w₁ ⟨hk, h₁⟩ => ?_) (fun _ _ _ => trivial)
  refine .guard (fun _ => trivial) fun active => ?_
  refine (read_ensures rfl).step (fun listed w₂ ⟨hs, h₂⟩ => ?_) (fun _ _ _ => trivial)
  subst hs
  refine checked_ensures.step (fun text w₃ ⟨ht, he⟩ => ?_) (fun _ _ _ => trivial)
  subst he
  have prepared : Prepared w₁ code k _ text :=
    ⟨h₁.catalog ▸ hk, by simpa using active, rfl, ht⟩
  dsimp only
  split
  case isTrue same => exact .pure (.current (prepared.of_catalog h₂.catalog) (by simpa using same))
  case isFalse =>
    refine (bring_idle ht code _).step (fun r w₄ ⟨hc, idle⟩ => .pure ?_) fun _ _ _ => trivial
    exact .brought (prepared.of_catalog (hc.trans h₂.catalog)) idle

-- After a call that reads the catalog, nothing is arranged for calls that read it again.
def Readable (w : World Service) : Prop := w.Clear "get_category" ∧ w.Clear "list_signals"

theorem Readable.like (h : Readable w) (hl : w.Like w') : Readable w' :=
  have faults : w'.catalogFaults.Sublist w.catalogFaults := by rw [hl.catalogFaults]
  ⟨h.1.mono faults, h.2.mono faults⟩

theorem catalog_clears {op : CatalogOp} :
    Ensures (catalog policy op) w (fun _ w' => w'.Clear op.name) (fun _ _ => True) :=
  .clears

-- As every synchronization does.
theorem readable_of_reads {f : CategoryInfo → List Signal → Action α} :
    Ensures (do
        let k ← loadCategory policy code
        if !k.isActive then throw (.categoryInactive code)
        f k (← catalog policy (.listSignals code))) w
      (fun _ w' => Readable w') (fun _ _ => True) := by
  have loaded : Ensures (loadCategory policy code) w (fun _ w' => w'.Clear "get_category")
      (fun _ _ => True) := by
    refine catalog_clears.step (fun found w' h => ?_) fun _ _ _ => trivial
    cases found with
    | none => exact .throw trivial
    | some k => exact .pure h
  refine loaded.step (fun k w₁ h₁ => .guard (fun _ => trivial) fun _ => ?_) fun _ _ _ => trivial
  refine (Ensures.and (.stays_clear h₁) catalog_clears).step (fun _ w₂ h => ?_) fun _ _ _ => trivial
  exact (Ensures.and (.stays_clear h.1) (.stays_clear h.2)).mono (fun _ _ h => h)
    fun _ _ _ => trivial

theorem survey_readable :
    Ensures (survey policy code) w (fun _ w' => Readable w') (fun _ _ => True) :=
  readable_of_reads

-- A category whose digest is on record, and the report of a call that finds it there.
structure Quiet (code : String) (r : SyncReport) (w : World Service) : Prop where
  current : ∃ k signals text, Prepared w code k signals text ∧
    k.fingerprint = some (fingerprint text) ∧ blank code k.toCategoryKey text = r
  readable : Readable w

theorem Quiet.like (h : Quiet code r w) (hl : w.Like w') : Quiet code r w' := by
  obtain ⟨⟨k, signals, text, prepared, same, report⟩, readable⟩ := h
  exact ⟨⟨k, signals, text, prepared.of_catalog hl.catalog, same, report⟩, readable.like hl⟩

theorem Quiet.surveyed (h : Quiet code r w) :
    Ensures (survey policy code) w (fun x w' => x = (r, none) ∧ w' = w) (fun _ _ => False) := by
  obtain ⟨⟨k, signals, text, prepared, same, rfl⟩, category, listed⟩ := h
  have loaded : Ensures (loadCategory policy code) w (fun k' w' => k' = k ∧ w' = w)
      (fun _ _ => False) := by
    refine Ensures.step (.clear_read category rfl) (fun found w' ⟨hf, he⟩ => ?_) fun _ _ h => h
    rw [hf, prepared.category]
    exact .pure ⟨rfl, he⟩
  refine loaded.step (fun k' w₁ ⟨hk, h₁⟩ => ?_) fun _ _ h => h
  subst hk h₁
  refine .guard (fun inactive => by simp [prepared.active] at inactive) fun _ => ?_
  refine Ensures.step (.clear_read listed rfl) (fun found w₂ ⟨hs, h₂⟩ => ?_) fun _ _ h => h
  subst hs h₂
  have statement : superTableStatement k'.toCategoryKey
      ((w₂.catalog.listSignals code).map (·.toSignalSpec)) = .ok text :=
    prepared.listed ▸ prepared.statement
  refine checked_ensures.step (fun text' w₃ ⟨ht, h₃⟩ => ?_) fun _ _ h => h.2 _ statement
  subst h₃
  obtain rfl : text = text' := Except.ok.inj (statement.symm.trans ht)
  dsimp only
  rw [if_pos (by simp [same])]
  exact .pure ⟨rfl, rfl⟩

-- The record makes a category quiet.

theorem Prepared.stamped {k : CategoryInfo} (hp : Prepared w code k signals text)
    (hr : r.idle = blank code k.toCategoryKey text)
    (ho : w.catalog.recordCategorySync code (fingerprint text) time = .ok ((), w'.catalog))
    (readable : Readable w') : Quiet code r.idle w' := by
  have stamped := Catalog.category?_changeCategory ho fun _ => rfl
  obtain ⟨-, catalog⟩ := Catalog.changeCategory_ok ho
  obtain ⟨category, found, info⟩ := Option.map_eq_some_iff.mp hp.category
  let k' : CategoryInfo := w'.catalog.info
    { category with fingerprint := some (fingerprint text), lastSyncedAt := some time }
  have now : w'.catalog.getCategory code = some k' := by
    rw [Catalog.getCategory, stamped, found]
    rfl
  have key : k'.toCategoryKey = k.toCategoryKey := by rw [← info]; rfl
  have listed : w'.catalog.listSignals code = w.catalog.listSignals code := by rw [catalog]; rfl
  have active : k'.isActive := (info ▸ hp.active : (w.catalog.info category).isActive)
  have prepared : Prepared w' code k' signals text :=
    ⟨now, active, listed ▸ hp.listed, key ▸ hp.statement⟩
  exact ⟨⟨k', signals, text, prepared, rfl, by rw [hr, key]⟩, readable⟩

theorem mark_quiets {k : CategoryInfo} (hp : Prepared w code k signals text)
    (hr : r.idle = blank code k.toCategoryKey text) (readable : Readable w) (time : Int) :
    Ensures (mark policy code text r time) w
      (fun r' w' => r' = r ∧ w'.engine = w.engine ∧ Quiet code r.idle w') (fun _ _ => True) :=
  (catalog_ensures).step (fun _ _ ⟨ho, he, faults⟩ => .pure ⟨rfl, he, hp.stamped hr ho
    ⟨readable.1.mono faults, readable.2.mono faults⟩⟩) fun _ _ _ => trivial

-- The first call does what it would do alone.

theorem finish_alone {v v' : World Service} {r' : SyncReport} {digest : Option String}
    {a : Except SyncError SyncReport} (surveyed : Surveyed code v (r', digest))
    (readable : Readable v) (like : v.Like w) (clean : r.rejected = [])
    (single : (finish policy code (r', digest)).run.run v = (.ok r, v'))
    (h : (finish policy code (r', digest)).run.Runs w a w') :
    a = .ok r ∧ w'.engine = v'.engine ∧ Quiet code r.idle w' := by
  cases surveyed with
  | current hp hf =>
    cases single
    cases h with
    | done after =>
      have quiet := Quiet.mk ⟨_, _, _, hp, hf, rfl⟩ readable
      exact ⟨rfl, after.engine.trans like.engine, quiet.like (like.trans after)⟩
  | @brought _ _ text _ hp hr =>
    cases rejected : r'.rejected with
    | cons first others =>
      simp only [finish, rejected, List.isEmpty_cons, Bool.false_eq_true, if_false] at single
      cases single
      cases rejected.symm.trans clean
    | nil =>
      have record {w : World Service} (time : Int) (hl : v.Like w) :
          Ensures (mark policy code text r' time) w _ _ :=
        mark_quiets (hp.of_catalog hl.catalog) hr (readable.like hl) time
      obtain ⟨time, race⟩ := finish_runs rejected h
      obtain ⟨result, after⟩ := race.eq_run (Timeless.mark code text r' time)
      have alone := (finish_run rejected v).symm.trans single
      obtain ⟨rfl, engine, -⟩ := (record _ (.refl v)).of_ok alone
      have ran : ((mark policy code text r time).run.run w).1 = .ok r :=
        (mark_agree like v.clock time).trans (congrArg Prod.fst alone)
      obtain ⟨-, engine', quiet⟩ := (record time like).of_ok (Prod.ext ran rfl)
      refine ⟨result.trans ran, ?_, quiet.like after⟩
      rw [after.engine, engine', like.engine, engine]

theorem syncLocked_alone {v v' : World Service} {a : Except SyncError SyncReport} (hl : v.Like w)
    (single : (syncLocked policy code false).run.run v = (.ok r, v')) (clean : r.rejected = [])
    (h : (syncLocked policy code false).run.Runs w a w') :
    a = .ok r ∧ w'.engine = v'.engine ∧ Quiet code r.idle w' := by
  rw [syncLocked_eq, ExceptT.run_bind] at single h
  rw [Program.run_bind] at single
  obtain ⟨x, w₁, first, rest⟩ := h.bind
  have timeless : Timeless (survey policy code) := Timeless.survey code
  obtain ⟨result, like⟩ := first.eq_run timeless
  obtain ⟨same, like'⟩ := Program.run_like timeless hl
  rw [same] at result
  have facts : Ensures (survey policy code) v _ _ := survey_ensures.and survey_readable
  cases hv : ((survey policy code).run.run v).1 with
  | error e =>
    rw [hv] at single
    cases single
  | ok y =>
    rw [hv] at single result
    subst result
    obtain ⟨surveyed, readable⟩ := facts.of_ok (Prod.ext hv rfl)
    exact finish_alone surveyed readable (like'.trans like) clean single rest

-- A call for a quiet category changes nothing.
theorem Quiet.runs {a : Except SyncError SyncReport} (h : Quiet code r w)
    (hr : (syncLocked policy code false).run.Runs w a w') : a = .ok r ∧ w.Like w' := by
  rw [syncLocked_eq, ExceptT.run_bind] at hr
  obtain ⟨x, w₁, first, rest⟩ := hr.bind
  obtain ⟨result, like⟩ := first.eq_run (Timeless.survey code)
  have quiet : Ensures (survey policy code) w _ _ := h.surveyed
  obtain ⟨x', w₂, ran, rfl, rfl⟩ := quiet.exists_ok
  rw [ran] at result like
  subst result
  cases rest with
  | done after => exact ⟨rfl, like.trans after⟩

-- Calls one after another: the first does all the work.
theorem chain_once {n : Nat} {v v' : World Service} {log : List (Nat × Except SyncError SyncReport)}
    (hl : v.Like w) (single : (syncLocked policy code false).run.run v = (.ok r, v'))
    (clean : r.rejected = [])
    (h : Race.Chain (List.replicate n (syncLocked policy code false).run) w log w') :
    (log = [] ∧ w' = w) ∨ ∃ i rest, log = (i, .ok r) :: rest ∧ i < n ∧
      (∀ x ∈ rest, x.2 = .ok r.idle) ∧ w'.engine = v'.engine ∧ Quiet code r.idle w' := by
  induction h with
  | nil => exact .inl ⟨rfl, rfl⟩
  | @snoc _ _ i _ _ _ h hp _ hr ih =>
    obtain ⟨hi, rfl⟩ := List.getElem?_eq_some_iff.mp hp
    simp only [List.getElem_replicate] at hr
    have hi : i < n := by simpa using hi
    rcases ih with ⟨rfl, rfl⟩ | ⟨i, rest, rfl, first, idle, engine, quiet⟩
    · obtain ⟨rfl, done⟩ := syncLocked_alone hl single clean hr
      exact .inr ⟨_, [], rfl, hi, nofun, done⟩
    · obtain ⟨rfl, like⟩ := quiet.runs hr
      refine .inr ⟨i, rest ++ [_], rfl, first, ?_, like.engine.trans engine, quiet.like like⟩
      simp only [List.mem_append, List.mem_singleton]
      rintro x (hx | rfl)
      · exact idle x hx
      · rfl

theorem sync_alone (h : (sync policy code).run.run w = (.ok r, w')) :
    ∃ v v', v.Like w ∧ (syncLocked policy code false).run.run v = (.ok r, v') ∧
      w'.engine = v'.engine := by
  let v := (w.answer (.acquire (.schema code))).2
  have steps : (sync policy code).run.run w =
      (((syncLocked policy code false).run >>= fun x => .ask (.release w.nextTicket) fun _ =>
        .done x).run v) := rfl
  rw [steps, Program.run_bind] at h
  generalize hv : (syncLocked policy code false).run.run v = ran at h
  obtain ⟨x, v'⟩ := ran
  cases h
  exact ⟨v, v', ⟨rfl, rfl, rfl⟩, hv, rfl⟩

-- However many calls synchronize a category at once, together they do what one of them would have
-- done alone, if that rejects nothing: one of them does it and reports it, and the others find
-- nothing left to do.
theorem syncs_once {policy : RetryPolicy} {code : String} {n : Nat} {w w' : World Service}
    {r : SyncReport} {R : Race Service (Except SyncError SyncReport)} (hn : 0 < n)
    (free : w.locks.requests = []) (single : (sync policy code).run.run w = (.ok r, w'))
    (clean : r.rejected = [])
    (reached : (Race.together w (List.replicate n (sync policy code).run)).Reaches R) :
    R.Ends fun R => R.world.engine.statements = w'.engine.statements ∧
      ∃ i < n, R.results = (List.replicate n (some (.ok r.idle))).set i (some (.ok r)) := by
  obtain ⟨v, v', like, alone, engine⟩ := sync_alone single
  have begun : List.replicate n (sync policy code).run =
      (List.replicate n (syncLocked policy code false).run).map (.holding (.schema code)) := by
    rw [List.map_replicate]
    rfl
  rw [begun] at reached
  refine Race.serializes (fun p hp => ?_) free reached fun R log w₁ chain same length results => ?_
  · rw [List.eq_of_mem_replicate hp]
    exact syncLocked_lockless
  simp only [List.length_replicate] at length results
  rcases chain_once like alone clean chain with ⟨rfl, -⟩ | ⟨i, rest, rfl, hi, idle, done, -⟩
  · obtain ⟨a, -, logged⟩ := results 0 hn
    cases (logged a).mpr rfl
  refine ⟨by rw [same.engine, done, engine], i, hi, List.ext_getElem? fun j => ?_⟩
  by_cases hj : j < n
  case neg => simp [length, hj]
  obtain ⟨a, result, logged⟩ := results j hj
  rw [result]
  by_cases first : j = i
  · subst first
    obtain rfl := (logged (.ok r)).mp List.mem_cons_self
    simp [hj]
  · rcases List.mem_cons.mp ((logged a).mpr rfl) with worked | waited
    · cases worked
      exact absurd rfl first
    · have found : a = .ok r.idle := idle _ waited
      simp [Ne.symm first, hj, found]

-- Three calls for a new category, all of which have looked for its lock in vain.

def workshop : World Service :=
  (Event.run [
    .edit (.createCategory { code := "motor", database := "plant", name := "Motor" }),
    .edit (.addSignal (.stored "motor" "current" .numeric))]).2

def latecomers : Race Service (Except SyncError SyncReport) where
  world := workshop
  callers := List.replicate 3
    (.missing (.schema "motor") (syncLocked {} "motor" false).run.leaving)

theorem run_workshop :
    workshop.locks.requests.isEmpty ∧ workshop.locks.epochs.isEmpty ∧
      ((sync {} "motor").run.run workshop).1.toOption.map
        (fun r => (r.action, r.rejected, r.statements.length)) = some (.created, [], 2) := by
  decide +kernel

theorem latecomers_reached :
    (Race.together workshop (List.replicate 3 (sync {} "motor").run)).Reaches latecomers := by
  have unknown : workshop.locks.epochs.lookup (.schema "motor") = none := by
    rw [List.isEmpty_iff.mp run_workshop.2.1]
    rfl
  have misses {callers : List (Caller (Except SyncError SyncReport))} (i : Nat)
      (hi : callers[i]? = some (.thread (.running (sync {} "motor").run))) :
      Race.Move ⟨workshop, callers⟩ ⟨workshop, callers.set i
        (.missing (.schema "motor") (syncLocked {} "motor" false).run.leaving)⟩ :=
    .mk i hi (.miss unknown)
  exact ((Race.Reaches.refl.move (misses 0 rfl)).move (misses 1 rfl)).move (misses 2 rfl)

theorem syncs_once_latecomers :
    ∃ r w', (sync {} "motor").run.run workshop = (.ok r, w') ∧ r.action = .created ∧
      r.statements.length = 2 ∧
      (Race.together workshop (List.replicate 3 (sync {} "motor").run)).Reaches latecomers ∧
      latecomers.Ends fun R => R.world.engine.statements = w'.engine.statements ∧
        ∃ i < 3, R.results = (List.replicate 3 (some (.ok r.idle))).set i (some (.ok r)) := by
  obtain ⟨free, -, made⟩ := run_workshop
  generalize ran : (sync {} "motor").run.run workshop = result at made
  obtain ⟨_ | r, w'⟩ := result
  · cases made
  simp only [Except.toOption, Option.map_some, Option.some.injEq, Prod.mk.injEq] at made
  obtain ⟨action, clean, two⟩ := made
  exact ⟨r, w', rfl, action, two, latecomers_reached,
    syncs_once (by decide) (List.isEmpty_iff.mp free) ran clean latecomers_reached⟩

end Synchronizer

end Historian
