import Historian.Proofs.Schema.Rendering
import Historian.Proofs.Schema.Repair

namespace Historian

open Engine Text

namespace Schema

open Synchronizer

variable {signals : List SignalSpec} {catalog : Catalog} {spec : CategorySpec} {t : Tables}
  {S : TableSchema} {cs ds : List Column} {name : String} {type : ColumnType}

-- No two stored signals have codes that differ in letter case only.
def Separate (signals : List SignalSpec) : Prop :=
  (signals.filter (·.isStored)).Pairwise fun s s' => ¬sameIgnoringCase s.code s'.code

instance : Decidable (Separate signals) :=
  inferInstanceAs (Decidable (List.Pairwise _ _))

theorem stored_coded (coded : ∀ s ∈ signals, s.isStored → requireSignalCode s.code = .ok ()) :
    ∀ s ∈ storedSignals signals, requireSignalCode s.code = .ok () := by
  intro s hs
  obtain ⟨hm, stored⟩ := List.mem_filter.mp (List.mem_mergeSort.mp hs)
  exact coded s hm stored

theorem accepted_valid (h : catalog.createCategory spec = .ok made) : spec.toCategoryKey.Valid := by
  obtain ⟨info, catalog'⟩ := made
  exact CategorySpec.valid (Catalog.createCategory_ok h).1

-- A super-table that is made.

theorem not_reserved (coded : ∀ s ∈ storedSignals signals, requireSignalCode s.code = .ok ()) :
    ∀ c ∈ signalColumns signals, Identifier.isReserved c.name = false := by
  simp only [signalColumns, List.forall_mem_map]
  exact fun s hs => (requireSignalCode_ok.mp (coded s hs)).2

-- The time and the tags come with types that are in order, so that only two names can be at fault.
theorem requireWellFormed_refused (mixed : ¬Distinct (signalColumns signals)) :
    ∃ name, Tables.requireWellFormed (desired signals) = .error (.duplicateColumn name) := by
  cases h : firstDuplicate [] ((desired signals).columns ++ (desired signals).tags) with
  | none =>
    have distinct := (List.pairwise_append.mp (distinct_of_firstDuplicate h).1).1
    exact absurd (List.pairwise_cons.mp distinct).2 mixed
  | some name =>
    refine ⟨name, ?_⟩
    simp only [Tables.requireWellFormed, h]
    rfl

-- Where there is the database and no super-table yet, the statement makes what the stored signals
-- ask for, and if two of them come under one name it makes nothing.
theorem superTableStatement_makes (accepted : catalog.createCategory spec = .ok made)
    (coded : ∀ s ∈ signals, s.isStored → requireSignalCode s.code = .ok ())
    (database : t.databases.contains spec.database)
    (fresh : t.superTables[spec.superTable]? = none) :
    ∃ text, superTableStatement spec.toCategoryKey signals = .ok text ∧
      (Separate signals → t.apply text =
        (.ok (), { t with superTables := t.superTables.insert spec.superTable (desired signals) })) ∧
      (¬Separate signals → ∃ refusal, t.apply text = (.error refusal, t) ∧
        refusal.code = EngineCode.syntaxError) := by
  have stored := stored_coded coded
  obtain ⟨text, written⟩ : ∃ text, superTableStatement spec.toCategoryKey signals = .ok text :=
    ⟨_, superTableStatement_ok.mpr ⟨accepted_valid accepted, stored, rfl⟩⟩
  have run : t.run text = t.createSuperTable true spec.superTable (desired signals) :=
    Tables.run_eq (superTableStatement_parse written)
  refine ⟨text, written, fun separate => ?_, fun mixed => ?_⟩
  · have wellFormed := requireWellFormed_desired (distinct_signalColumns.mpr separate)
      (not_reserved stored)
    rw [Tables.apply_eq, run, Tables.createSuperTable_eq database fresh wellFormed]
    rfl
  · obtain ⟨name, fault⟩ := requireWellFormed_refused (mt distinct_signalColumns.mp mixed)
    have refused : t.run text = .error (.duplicateColumn name) := by
      have there : t.databases.contains spec.superTable.database := database
      simp only [run, Tables.createSuperTable, Tables.requireDatabase, there, if_true, fault]
      rfl
    exact ⟨_, by rw [Tables.apply_eq, refused], rfl⟩

def pump : CategorySpec := { code := "pump", database := "plant", name := "Pump" }

theorem pump_accepted : ∃ made, ({} : Catalog).createCategory pump = .ok made := by
  have accepted : (({} : Catalog).createCategory pump).toOption.isSome := by decide +kernel
  obtain ⟨made, h⟩ := Option.isSome_iff_exists.mp accepted
  exact ⟨made, toOption_eq_some.mp h⟩

def plant : Tables := { databases := {"plant"} }

-- To the engine, codes that differ in letter case only are one name.
def speeds (code : String) : List SignalSpec :=
  [.stored "pump" "rpm" .integer, .stored "pump" code .numeric]

theorem superTableStatement_makes_pump :
    (∃ text, superTableStatement pump.toCategoryKey (speeds "flow") = .ok text ∧
      plant.apply text = (.ok (), { plant with
        superTables := plant.superTables.insert pump.superTable (desired (speeds "flow")) })) ∧
    ∃ text, superTableStatement pump.toCategoryKey (speeds "RPM") = .ok text ∧
      ∃ refusal, plant.apply text = (.error refusal, plant) ∧
        refusal.code = EngineCode.syntaxError := by
  obtain ⟨made, accepted⟩ := pump_accepted
  have database : plant.databases.contains pump.database := by decide +kernel
  have fresh : plant.superTables[pump.superTable]? = none := by decide +kernel
  have coded (code : String) (h : requireSignalCode code = .ok ()) :
      ∀ s ∈ speeds code, s.isStored → requireSignalCode s.code = .ok () :=
    List.forall_mem_cons.mpr ⟨fun _ => by cbv, List.forall_mem_singleton.mpr fun _ => h⟩
  constructor
  · obtain ⟨text, written, makes, -⟩ :=
      superTableStatement_makes accepted (coded "flow" (by cbv)) database fresh
    exact ⟨text, written, makes (by decide +kernel)⟩
  · obtain ⟨text, written, -, refused⟩ :=
      superTableStatement_makes accepted (coded "RPM" (by cbv)) database fresh
    have same : sameIgnoringCase "rpm" "RPM" := by cbv
    have mixed : ¬Separate (speeds "RPM") := by simp [Separate, speeds, SignalSpec.stored, same]
    exact ⟨text, written, refused mixed⟩

-- A super-table that is altered.

-- A column under its name, and of its type if none of the columns that were widened has its name.
def Kept (ds : List Column) (c c' : Column) : Prop :=
  c'.name = c.name ∧ ((∀ d ∈ ds, ¬sameIgnoringCase d.name c.name) → c'.type = c.type)

theorem kept_refl (cs : List Column) : List.Forall₂ (Kept ds) cs cs :=
  List.forall₂_same.mpr fun _ _ => ⟨rfl, fun _ => rfl⟩

theorem Kept.trans {a b c : Column} (h : Kept [d] a b) (h' : Kept ds b c) : Kept (d :: ds) a c := by
  refine ⟨h'.1.trans h.1, fun none => ?_⟩
  obtain ⟨hd, hds⟩ := List.forall_mem_cons.mp none
  exact (h'.2 (h.1 ▸ hds)).trans (h.2 (List.forall_mem_singleton.mpr hd))

theorem kept_trans {as bs : List Column} (h : List.Forall₂ (Kept [d]) as bs)
    (h' : List.Forall₂ (Kept ds) bs cs) : List.Forall₂ (Kept (d :: ds)) as cs := by
  induction h generalizing cs with
  | nil => cases h'; exact .nil
  | cons hab _ ih =>
    cases h' with
    | cons hbc rest => exact .cons (hab.trans hbc) (ih rest)

theorem retype_kept (cs : List Column) (d : Column) :
    List.Forall₂ (Kept [d]) cs (retype d.name d.type cs) := by
  induction cs with
  | nil => exact .nil
  | cons c cs ih =>
    unfold retype
    split
    case isFalse => exact .cons ⟨rfl, fun _ => rfl⟩ ih
    case isTrue hc =>
      refine .cons ⟨rfl, fun none => ?_⟩ (kept_refl cs)
      exact absurd (sameIgnoringCase_symm hc) (none d (.head _))

theorem retype_append (h : ∀ d ∈ ds, ¬sameIgnoringCase d.name name) :
    retype name type (cs ++ ds) = retype name type cs ++ ds := by
  induction cs with
  | cons c cs ih =>
    simp only [List.cons_append, retype, ih]
    split <;> rfl
  | nil =>
    induction ds with
    | nil => rfl
    | cons d ds ih =>
      obtain ⟨hd, hds⟩ := List.forall_mem_cons.mp h
      have rest : retype name type ds = ds := ih hds
      simp [retype, hd, rest]

-- What is widened among the columns that there were leaves alone what came after them.
theorem foldl_retype {ws : List Column} (cs : List Column)
    (h : ∀ w ∈ ws, ∀ d ∈ ds, ¬sameIgnoringCase d.name w.name) :
    ∃ kept, ws.foldl (fun all w => retype w.name w.type all) (cs ++ ds) = kept ++ ds ∧
      List.Forall₂ (Kept ws) cs kept := by
  induction ws generalizing cs with
  | nil => exact ⟨cs, rfl, kept_refl cs⟩
  | cons w ws ih =>
    obtain ⟨hw, hws⟩ := List.forall_mem_cons.mp h
    obtain ⟨kept, same, all⟩ := ih (retype w.name w.type cs) hws
    exact ⟨kept, by rw [List.foldl_cons, retype_append hw, same], kept_trans (retype_kept cs w) all⟩

theorem mended_columns (hcs : Distinct cs) :
    ∃ kept, (mended cs S).columns = kept ++ lacking S cs ∧
      List.Forall₂ (Kept (narrow S cs)) S.columns kept := by
  refine foldl_retype S.columns fun w hw d hd => ?_
  obtain ⟨hw, wide⟩ := List.mem_filter.mp hw
  obtain ⟨hd, absent⟩ := List.mem_filter.mp hd
  refine hcs.not_same hd hw fun same => ?_
  subst same
  simp [of_decide_eq_true absent, Lack.isWidth] at wide

theorem ofColumns_full (hl : lacking S cs = []) (hn : narrow S cs = []) :
    Diff.ofColumns S cs = { conflicts := (Diff.ofColumns S cs).conflicts } := by
  have none : (Diff.ofColumns S cs).widenings = [] :=
    List.map_eq_nil_iff.mp (widenings_column.trans hn)
  have added : (Diff.ofColumns S cs).missing = [] := hl
  rw [← none, ← added]

end Schema

namespace Engine

-- An engine that carries out statements one after another, without refusing any.
inductive Tables.Performs : Tables → List String → Tables → Prop
  | nil (t : Tables) : Performs t [] t
  | cons {t t' t'' : Tables} (first : t.apply text = (.ok (), t')) (rest : Performs t' texts t'') :
    Performs t (text :: texts) t''

theorem Tables.Performs.append {t t' t'' : Tables} (h : Performs t texts t')
    (h' : Performs t' texts' t'') : Performs t (texts ++ texts') t'' := by
  induction h with
  | nil => exact h'
  | cons first _ ih => exact .cons first (ih h')

end Engine

namespace Schema

open Synchronizer

variable {signals : List SignalSpec} {catalog : Catalog} {spec : CategorySpec} {t : Tables}
  {S : TableSchema} {cs : List Column}

-- The statements that a difference asks for: first the new columns, then the wider types.
def alterations (k : CategoryKey) (d : Diff) : Except Invalid (List String) := do
  let additions ← d.missing.mapM (addColumnStatement k)
  let widenings ← d.widenings.mapM fun w => modifyColumnStatement k w.column
  return additions ++ widenings

-- A row of statements is carried out if each can be written when its turn comes and then takes the
-- table a step on. `Left` says what is left to be done for a table.
theorem performs_row {statement : α → Except Invalid String} (Left : List α → TableSchema → Prop)
    (ready : ∀ a as S, Left (a :: as) S → ∃ text S', statement a = .ok text ∧ Left as S' ∧
      ∀ t : Tables, t.superTables[n]? = some S → t.run text = .ok (t.given n S'))
    (held : t.superTables[n]? = some S) (left : Left as S) :
    ∃ texts S', as.mapM statement = .ok texts ∧ t.Performs texts (t.given n S') ∧ Left [] S' := by
  induction as generalizing t S with
  | nil => exact ⟨[], S, rfl, (Tables.given_self held).symm ▸ .nil t, left⟩
  | cons a as ih =>
    obtain ⟨text, S₁, made, left₁, run⟩ := ready a as S left
    obtain ⟨texts, S', rest, performs, done⟩ :=
      ih (t := t.given n S₁) Tables.getElem?_given left₁
    refine ⟨text :: texts, S', by simp [made, rest], ?_, done⟩
    rw [Tables.given_given] at performs
    refine .cons ?_ performs
    rw [Tables.apply_eq, run t held]

theorem additions_perform {k : CategoryKey} (ho : Orderly k cs)
    (held : t.superTables[k.superTable]? = some S) :
    ∃ texts S', (lacking S cs).mapM (addColumnStatement k) = .ok texts ∧
      t.Performs texts (t.given k.superTable S') ∧
      lacking S' cs = [] ∧ narrow S' cs = narrow S cs ∧ Underway cs S S' := by
  let Left (rest : List Column) (S' : TableSchema) : Prop :=
    lacking S' cs = rest ∧ narrow S' cs = narrow S cs ∧ Underway cs S S'
  refine performs_row Left (fun c rest S₁ ⟨hl, hn, hu⟩ => ?_) held ⟨rfl, rfl, .refl S⟩
  obtain ⟨hc, lack⟩ := mem_lacking hl
  obtain ⟨text, made, run⟩ := ho.add hc
  obtain ⟨left, same, underway⟩ := underway_add ho.distinct hl
  exact ⟨text, _, made, ⟨left, same.trans hn, hu.trans underway⟩,
    fun t ht => (run t).trans (Tables.addColumn_lacking ht lack)⟩

theorem widenings_perform {k : CategoryKey} (ho : Orderly k cs) {xs : List Widening}
    (held : t.superTables[k.superTable]? = some S) (hl : lacking S cs = [])
    (hn : narrow S cs = xs.map (·.column)) :
    ∃ texts S', xs.mapM (fun x => modifyColumnStatement k x.column) = .ok texts ∧
      t.Performs texts (t.given k.superTable S') ∧
      lacking S' cs = [] ∧ narrow S' cs = [] ∧ Underway cs S S' := by
  let Left (xs : List Widening) (S' : TableSchema) : Prop :=
    lacking S' cs = [] ∧ narrow S' cs = xs.map (·.column) ∧ Underway cs S S'
  refine performs_row Left (fun x xs S₁ ⟨hl, hn, hu⟩ => ?_) held ⟨hl, hn, .refl S⟩
  obtain ⟨hc, old, lack⟩ := mem_narrow hn
  obtain ⟨text, made, run⟩ := ho.modify hc
  obtain ⟨none, left, underway⟩ := underway_retype ho.distinct hl hn
  exact ⟨text, _, made, ⟨none, left, hu.trans underway⟩,
    fun t ht => (run t).trans (Tables.modifyColumn_narrow ht lack)⟩

-- The statements that a difference asks for are carried out every one, and afterwards nothing is
-- asked for that can be had. No column is lost or moved, and none is new but the missing ones.
theorem alterations_mend (accepted : catalog.createCategory spec = .ok made)
    (coded : ∀ s ∈ signals, s.isStored → requireSignalCode s.code = .ok ())
    (separate : Separate signals) (held : t.superTables[spec.superTable]? = some S) :
    let d := diff S signals
    ∃ texts S', alterations spec.toCategoryKey d = .ok texts ∧
      t.Performs texts { t with superTables := t.superTables.insert spec.superTable S' } ∧
      diff S' signals = { conflicts := d.conflicts } ∧ S'.tags = S.tags ∧
      ∃ kept, S'.columns = kept ++ d.missing ∧
        List.Forall₂ (Kept (d.widenings.map (·.column))) S.columns kept := by
  have ho : Orderly spec.toCategoryKey (signalColumns signals) := by
    refine ⟨accepted_valid accepted, distinct_signalColumns.mpr separate, ?_, ?_⟩ <;>
      simp only [signalColumns, List.forall_mem_map]
    · exact stored_coded coded
    · exact fun s _ => s.dataType.writable
  intro d
  have missing : d.missing = lacking S (signalColumns signals) := rfl
  have widened : d.widenings.map (·.column) = narrow S (signalColumns signals) := widenings_column
  obtain ⟨additions, S₁, added, adds, lacks, narrows, underway⟩ := additions_perform ho held
  obtain ⟨widenings, S₂, wider, widens, full, wide, underway'⟩ :=
    widenings_perform (t := t.given spec.superTable S₁) ho Tables.getElem?_given lacks
      (narrows.trans widened.symm)
  rw [Tables.given_given] at widens
  have mended : S₂ = mended (signalColumns signals) S :=
    (mended_eq_self full wide).symm.trans (underway.trans underway').mended
  refine ⟨additions ++ widenings, S₂, ?_, adds.append widens, ?_, mended ▸ rfl, ?_⟩
  · rw [← missing] at added
    simp only [alterations, added, wider]
    rfl
  · rw [diff, ofColumns_full full wide, (underway.trans underway').conflicts]
    rfl
  · rw [mended, widened]
    exact mended_columns ho.distinct

-- A table that somebody made before: a column is named in other letters and holds whole numbers
-- only, one is of no concern to any signal, and a tag has the name of a signal.
def older : Tables :=
  (["CREATE DATABASE `plant`",
    "CREATE STABLE `plant`.`raw_pump` (`ts` TIMESTAMP, `Flow` BIGINT, `extra` BOOL) " ++
      "TAGS (`place` VARCHAR(8))"].foldlM Tables.run {}).toOption.getD {}

def wanted : List SignalSpec :=
  [.stored "pump" "flow" .numeric, .stored "pump" "place" .string, .stored "pump" "rpm" .integer]

def olderSchema : TableSchema where
  columns := [⟨"ts", .timestamp⟩, ⟨"Flow", .bigint⟩, ⟨"extra", .bool⟩]
  tags := [⟨"place", .varchar 8⟩]

def olderDiff : Diff where
  missing := [⟨"rpm", .bigint⟩]
  widenings := [⟨"flow", .bigint, .double⟩]
  conflicts := [("place", .isTag)]

theorem older_superTable : older.superTables[pump.superTable]? = some olderSchema := by
  decide +kernel

theorem diff_older : diff olderSchema wanted = olderDiff := by
  have columns : signalColumns wanted =
      [⟨"flow", .double⟩, ⟨"place", .varchar 256⟩, ⟨"rpm", .bigint⟩] := by cbv
  have flow : lackOf olderSchema ⟨"flow", .double⟩ = .width .bigint := by
    have time : sameIgnoringCase "ts" "flow" = false := by cbv
    have same : sameIgnoringCase "Flow" "flow" := by cbv
    have column : olderSchema.column? "flow" = some ⟨"Flow", .bigint⟩ := by
      simp [olderSchema, TableSchema.column?, findColumn, time, same]
    exact lackOf_eq_width.mpr ⟨by cbv, _, column, rfl, by decide, by decide⟩
  have place : lackOf olderSchema ⟨"place", .varchar 256⟩ = .conflict .isTag := by cbv
  have rpm : lackOf olderSchema ⟨"rpm", .bigint⟩ = .column := by cbv
  simp [diff, Diff.ofColumns, columns, flow, place, rpm, olderDiff]

theorem alterations_mend_older :
    ∃ texts S', alterations pump.toCategoryKey olderDiff = .ok texts ∧
      older.Performs texts { older with
        superTables := older.superTables.insert pump.superTable S' } ∧
      diff S' wanted = { conflicts := olderDiff.conflicts } ∧ S'.tags = [⟨"place", .varchar 8⟩] := by
  obtain ⟨made, accepted⟩ := pump_accepted
  have coded : ∀ s ∈ wanted, s.isStored → requireSignalCode s.code = .ok () := by
    simp only [wanted, List.forall_mem_cons]
    exact ⟨fun _ => by cbv, fun _ => by cbv, fun _ => by cbv, List.forall_mem_nil _⟩
  obtain ⟨texts, S', written, performs, rest, tags, -⟩ :=
    alterations_mend accepted coded (by decide +kernel) older_superTable
  rw [diff_older] at written rest
  exact ⟨texts, S', written, performs, rest, tags⟩

end Schema

end Historian
