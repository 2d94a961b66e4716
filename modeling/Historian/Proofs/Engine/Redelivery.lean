import Historian.Proofs.Engine.Execution
import Historian.Proofs.Engine.Schemas
import Historian.Proofs.Stream.Statement

namespace Historian

open Engine Sql Lexer

namespace Sql

namespace Reading

variable {α β : Type} {P : α → Prop}

-- Whatever is read is of some kind.
def Gives (P : α → Prop) (r : Reading α) : Prop :=
  ∀ ts a rest, r ts = .ok (a, rest) → P a

theorem Gives.bind {r : Reading β} {f : β → Reading α} (h : ∀ b, Gives P (f b)) :
    Gives P (r >>= f) := by
  intro ts a rest hr
  have ⟨b, middle, _, hf⟩ := bind_eq_ok hr
  exact h b middle a rest hf

theorem gives_pure (h : P a) : Gives P (pure a) := by
  intro ts b rest hr
  cases hr
  exact h

theorem gives_throw : Gives P (throw fault) := by
  intro ts a rest hr
  cases hr

end Reading

-- All statements but the one that drops a stream and insists that it is there.
def Statement.Repeatable : Statement → Prop
  | .dropStream ifExists _ => ifExists
  | _ => True

namespace Reading

theorem create_repeatable : Gives Statement.Repeatable create := by
  unfold create
  refine .bind fun database => ?_
  split
  · exact .bind fun _ => .bind fun _ => gives_pure trivial
  refine .bind fun superTable => ?_
  split
  · exact .bind fun _ => .bind fun _ => .bind fun _ => .bind fun _ => .bind fun _ => .bind fun _ =>
      gives_pure trivial
  refine .bind fun childTable => ?_
  split
  · exact .bind fun _ => .bind fun _ => .bind fun _ => .bind fun _ => .bind fun _ => .bind fun _ =>
      .bind fun _ => gives_pure trivial
  refine .bind fun stream => ?_
  split
  · exact .bind fun _ => .bind fun _ => .bind fun _ => .bind fun _ => .bind fun _ => .bind fun _ =>
      .bind fun _ => .bind fun _ => gives_pure trivial
  · exact gives_throw

theorem alterSuperTable_repeatable : Gives Statement.Repeatable alterSuperTable := by
  refine .bind fun table => .bind fun adds => ?_
  have column {f : Column → Statement} (h : ∀ c, (f c).Repeatable) : Gives Statement.Repeatable (do
      keyword "COLUMN"
      let c ← column
      finish
      return f c) :=
    .bind fun _ => .bind fun c => .bind fun _ => gives_pure (h c)
  cases adds with
  | true => exact column fun _ => trivial
  | false =>
    refine .bind fun modifies => ?_
    split
    · exact .bind fun _ => column fun _ => trivial
    · exact column fun _ => trivial

end Reading

namespace Statement

-- A text that begins to make or to alter something drops nothing.
theorem parse_repeatable {text : String} {rest : List Char} (first : String)
    (hf : first ∈ ["CREATE", "ALTER"])
    (ht : text.toList = phrase [first] ++ rest) (hp : parse text = .ok s) : s.Repeatable := by
  have word : isPlainWord first := by
    simp only [List.mem_cons, List.not_mem_nil, or_false] at hf
    obtain rfl | rfl := hf <;> decide
  obtain ⟨us, left, hs⟩ := parse_ok ht (.phrase (by simpa using word)) hp
  simp only [List.mem_cons, List.not_mem_nil, or_false] at hf
  obtain rfl | rfl := hf
  case inl =>
    have dispatch (ts) : Reading.statement text (.word "CREATE" :: ts) = Reading.create ts := by cbv
    exact Reading.create_repeatable _ _ _ ((dispatch us).symm.trans hs)
  case inr =>
    have dispatch (ts) : Reading.statement text (.word "ALTER" :: ts) =
        (Reading.keyword "STABLE" >>= fun _ => Reading.alterSuperTable) ts := by cbv
    have alters : Reading.Gives Repeatable
        (Reading.keyword "STABLE" >>= fun _ => Reading.alterSuperTable) :=
      .bind fun _ => Reading.alterSuperTable_repeatable
    exact alters _ _ _ ((dispatch us).symm.trans hs)

end Statement

end Sql

namespace Engine.Tables

variable {t t' : Tables} {name : String}

-- A statement leaves the tables alone, and if it is refused, its object is there already.
def Spares (t : Tables) (r : Except Refusal Tables) : Prop :=
  r = .ok t ∨ ∃ refusal, r = .error refusal ∧ refusal.error.isAlreadyExists

-- Every statement, executed once more.

theorem createDatabase_again (h : t.createDatabase ifNotExists name = .ok t') :
    t'.Spares (t'.createDatabase ifNotExists name) := by
  have there : t'.databases.contains name := by
    unfold createDatabase at h
    split at h
    case isTrue hc => cases ifNotExists <;> cases h; exact hc
    case isFalse => cases h; simp
  unfold createDatabase
  rw [if_pos there]
  cases ifNotExists with
  | true => exact .inl rfl
  | false => exact .inr ⟨_, rfl, rfl⟩

theorem createSuperTable_again {name : TableName}
    (h : t.createSuperTable ifNotExists name schema = .ok t') :
    t'.Spares (t'.createSuperTable ifNotExists name schema) := by
  simp only [createSuperTable, bind_unit_eq_ok] at h
  obtain ⟨hd, hw, h⟩ := h
  have there : t'.superTables.contains name ∧ t'.databases = t.databases := by
    split at h
    case isTrue hc => cases ifNotExists <;> cases h; exact ⟨hc, rfl⟩
    case isFalse => cases h; simp
  have database : t'.requireDatabase name.database = .ok () := by
    simpa only [requireDatabase, there.2] using hd
  simp only [createSuperTable, database, hw, ok_bind, there.1, if_true]
  cases ifNotExists with
  | true => exact .inl rfl
  | false => exact .inr ⟨_, rfl, rfl⟩

theorem addColumn_again {name : TableName} {column : Column}
    (h : t.addColumn name column = .ok t') : t'.Spares (t'.addColumn name column) := by
  obtain ⟨schema, -, -, -, rfl⟩ := addColumn_ok h
  refine .inr ⟨.columnExists column.name, ?_, rfl⟩
  simp [addColumn, superTable, TableSchema.column?_add]

theorem retype_retype {name : String} {columns : List Column} :
    retype name type (retype name type columns) = retype name type columns := by
  induction columns with
  | nil => rfl
  | cons c cs ih => by_cases hc : Text.sameIgnoringCase c.name name <;> simp [retype, hc, ih]

theorem modifyColumn_again {name : TableName} {column : Column}
    (h : t.modifyColumn name column = .ok t') : t'.Spares (t'.modifyColumn name column) := by
  obtain ⟨schema, old, -, ho, -, rfl⟩ := modifyColumn_ok h
  refine .inl ?_
  simp [modifyColumn, superTable, TableSchema.column?_retype, ho, retype_retype, insert_insert]

theorem createChildTable_again {name superTable : TableName} {tags : List String}
    (h : t.createChildTable ifNotExists name superTable tags = .ok t') :
    t'.Spares (t'.createChildTable ifNotExists name superTable tags) := by
  simp only [createChildTable, bind_unit_eq_ok] at h
  obtain ⟨hd, h⟩ := h
  obtain ⟨schema, hs, h⟩ := bind_eq_ok.mp h
  split at h
  case isTrue => cases h
  case isFalse hn =>
    have there : t'.childTables.contains name ∧ t'.databases = t.databases ∧
        t'.superTables = t.superTables := by
      split at h
      case isTrue hc => cases ifNotExists <;> cases h; exact ⟨hc, rfl, rfl⟩
      case isFalse => cases h; simp
    have database : t'.requireDatabase name.database = .ok () := by
      simpa only [requireDatabase, there.2.1] using hd
    have found : t'.superTable superTable = .ok schema := by
      simpa only [Tables.superTable, there.2.2] using hs
    simp only [createChildTable, database, found, ok_bind, if_neg hn, there.1, if_true]
    cases ifNotExists with
    | true => exact .inl rfl
    | false => exact .inr ⟨_, rfl, rfl⟩

theorem createStream_again {target source : TableName}
    (h : t.createStream sql ifNotExists name target source = .ok t') :
    t'.Spares (t'.createStream sql ifNotExists name target source) := by
  simp only [createStream, bind_unit_eq_ok] at h
  obtain ⟨hd, h⟩ := h
  split at h
  case isTrue => cases h
  case isFalse hn =>
    simp only [Bool.not_eq_true, Bool.not_eq_false'] at hn
    have there : t'.streams.contains name ∧ t'.databases = t.databases ∧ t'.hasTable source := by
      split at h
      case isTrue hc => cases ifNotExists <;> cases h; exact ⟨hc, rfl, hn⟩
      case isFalse =>
        cases h
        refine ⟨by simp, rfl, ?_⟩
        simp only [hasTable, Bool.or_eq_true] at hn ⊢
        refine hn.imp_right fun hm => ?_
        simp [hm]
    have database : t'.requireDatabase target.database = .ok () := by
      simpa only [requireDatabase, there.2.1] using hd
    simp only [createStream, database, ok_bind, there.2.2, Bool.not_true, Bool.false_eq_true,
      if_false, there.1, if_true]
    cases ifNotExists with
    | true => exact .inl rfl
    | false => exact .inr ⟨_, rfl, rfl⟩

theorem setPaused_again (h : t.setPaused ifExists name paused = .ok t') :
    t'.Spares (t'.setPaused ifExists name paused) := by
  refine .inl ?_
  unfold setPaused at h
  split at h
  case h_1 => cases h; simp [setPaused, insert_insert]
  case h_2 hn => cases ifExists <;> cases h; simp [setPaused, hn]

theorem dropStream_again (h : t.dropStream true name = .ok t') :
    t'.Spares (t'.dropStream true name) := by
  have gone := (dropStream_ok h).here
  have missing : t'.streams.contains name = false := Bool.eq_false_iff.mpr (by simpa using gone)
  exact .inl (by simp [dropStream, missing])

theorem perform_again {s : Statement} (h : t.perform sql s = .ok t') (hs : s.Repeatable) :
    t'.Spares (t'.perform sql s) := by
  cases s with
  | createDatabase => exact createDatabase_again h
  | createSuperTable => exact createSuperTable_again h
  | addColumn => exact addColumn_again h
  | modifyColumn => exact modifyColumn_again h
  | createChildTable => exact createChildTable_again h
  | createStream => exact createStream_again h
  | setPaused => exact setPaused_again h
  | dropStream ifExists =>
    obtain rfl : ifExists = true := hs
    exact dropStream_again h

theorem run_again (h : t.run text = .ok t')
    (hs : ∀ s, Statement.parse text = .ok s → s.Repeatable) :
    t'.Spares (t'.run text) := by
  obtain ⟨s, hp, ht⟩ := run_ok h
  rw [run_eq hp]
  exact perform_again ht (hs s hp)

end Engine.Tables

namespace Engine

-- The texts that are sent to the engine: those of the schema, those of compiled streams, and those
-- that control a stream of a checked name.
inductive Sent : String → Prop
  | database (h : Schema.databaseStatement database = .ok text) : Sent text
  | superTable (h : Schema.superTableStatement k signals = .ok text) : Sent text
  | childTable {id : Int} (h : Schema.childTableStatement k asset id = .ok text) : Sent text
  | addColumn {c : Column} (h : Schema.addColumnStatement k c = .ok text) : Sent text
  | modifyColumn {c : Column} (h : Schema.modifyColumnStatement k c = .ok text) : Sent text
  | stream {c : FeatureConfig} (h : CompiledStream.ofFeature k c generation = .ok s) : Sent s.sql
  | control {t : StreamTask} {action : StreamAction}
    (h : Identifier.Valid Identifier.tableLimit t.streamName) :
    Sent (StreamManager.controlStatement t action)

theorem Sent.repeatable (h : Sent text) : ∀ s, Statement.parse text = .ok s → s.Repeatable := by
  intro s hp
  cases h with
  | database h =>
    cases (Schema.databaseStatement_parse h).symm.trans hp
    trivial
  | superTable h =>
    cases (Schema.superTableStatement_parse h).symm.trans hp
    trivial
  | childTable h =>
    obtain ⟨tags, rfl⟩ := Schema.childTableStatement_parse h hp
    trivial
  | addColumn h =>
    simp only [Schema.addColumnStatement, bind_unit_eq_ok, pure_eq_ok] at h
    obtain ⟨-, -, rfl⟩ := h
    exact Statement.parse_repeatable "ALTER" (by simp) (by simp [phrase, toString_text]; rfl) hp
  | modifyColumn h =>
    simp only [Schema.modifyColumnStatement, bind_unit_eq_ok, pure_eq_ok] at h
    obtain ⟨-, -, rfl⟩ := h
    exact Statement.parse_repeatable "ALTER" (by simp) (by simp [phrase, toString_text]; rfl) hp
  | stream h =>
    obtain ⟨-, -, -, -, source, hs⟩ := CompiledStream.ofFeature_ok h
    rw [hs] at hp
    obtain ⟨rest, he⟩ := CompiledStream.statement_front _ _ _ source _
    exact Statement.parse_repeatable "CREATE" (by simp) (by rw [he]; simp [phrase]; rfl) hp
  | @control t action h =>
    have backtick := h.no_backtick
    have drop (hp : Statement.parse (StreamManager.dropStatement t) = .ok s) : s.Repeatable := by
      cases (StreamManager.dropStatement_parse backtick).symm.trans hp
      rfl
    cases action with
    | pause =>
      cases (StreamManager.pauseStatement_parse backtick).symm.trans hp
      trivial
    | resume =>
      cases (StreamManager.resumeStatement_parse backtick).symm.trans hp
      trivial
    | deploy | stop | acknowledge | delete => exact drop hp

namespace Service

variable {e : Service} {limit : Option Nat} {text : String}

-- Whether a call arrives does not depend on the calls before it.
theorem execute_latency : (e.execute limit text).2.latency = e.latency := by
  unfold execute receive nextFault
  split
  · rfl
  · cases e.faults.head?.join with
    | some fault => rfl
    | none => rfl

theorem execute_late (h : e.isLate limit = true) : e.execute limit text = (none, e) := by
  simp [execute, h]

-- What is accepted has been run.
theorem execute_accepted (h : (e.execute limit text).1 = some (.ok ())) :
    e.isLate limit = false ∧
      ∃ t, e.tables.run text = .ok t ∧ (e.execute limit text).2.tables = t := by
  cases hl : e.isLate limit with
  | true => simp [execute_late hl] at h
  | false =>
    refine ⟨rfl, ?_⟩
    unfold execute receive nextFault at h ⊢
    simp only [hl, Bool.false_eq_true, if_false] at h ⊢
    cases hf : e.faults.head?.join with
    | some fault => simp [hf] at h
    | none =>
      simp only [Tables.apply_eq] at h ⊢
      cases he : e.tables.run text <;> simp_all

-- An engine on which a statement changes nothing any more, whatever error is arranged for it.
theorem execute_spared (hl : e.isLate limit = false) (h : e.tables.Spares (e.tables.run text)) :
    (e.execute limit text).2.tables = e.tables ∧
    (e.execute limit text).2.faults = e.faults.tail ∧
    ∃ answer, (e.execute limit text).1 = some answer ∧
      (answer = .ok () ∨ ∃ error, answer = .error error ∧
        (error.isAlreadyExists ∨ some error ∈ e.faults)) := by
  unfold execute receive nextFault
  simp only [hl, Bool.false_eq_true, if_false]
  cases hf : e.faults.head?.join with
  | some fault =>
    have arranged : some fault ∈ e.faults := List.mem_of_head? (Option.join_eq_some_iff.mp hf)
    exact ⟨rfl, rfl, _, rfl, .inr ⟨fault, rfl, .inr arranged⟩⟩
  | none =>
    simp only [Tables.apply_eq]
    rcases h with h | ⟨refusal, h, there⟩
    · simp [h]
    · simp [h, there]

-- The engine after a text has been sent to it so many times.
def deliver (limit : Option Nat) (text : String) (e : Service) : Nat → Service
  | 0 => e
  | n + 1 => ((e.deliver limit text n).execute limit text).2

theorem deliver_spared (hl : e.isLate limit = false) (h : e.tables.Spares (e.tables.run text)) :
    (e.deliver limit text n).tables = e.tables ∧ (e.deliver limit text n).latency = e.latency ∧
      (e.deliver limit text n).faults = e.faults.drop n := by
  induction n with
  | zero => exact ⟨rfl, rfl, rfl⟩
  | succ n ih =>
    obtain ⟨tables, latency, faults⟩ := ih
    have arrives : (e.deliver limit text n).isLate limit = false := by
      simpa only [isLate, latency] using hl
    obtain ⟨same, left, -⟩ := execute_spared arrives (by rwa [tables])
    exact ⟨same.trans tables, execute_latency.trans latency, by simp [deliver, left, faults]⟩

-- A statement that succeeded can be delivered again and again.
theorem execute_redelivered (h : Sent text) (done : (e.execute limit text).1 = some (.ok ()))
    (n : Nat) :
    let first := (e.execute limit text).2
    let later := first.deliver limit text n
    later.tables = first.tables ∧ ∃ answer, (later.execute limit text).1 = some answer ∧
      (answer = .ok () ∨ ∃ error, answer = .error error ∧
        (error.isAlreadyExists ∨ some error ∈ first.faults)) := by
  obtain ⟨inTime, t, ran, settled⟩ := execute_accepted done
  have spares : t.Spares (t.run text) := Tables.run_again ran h.repeatable
  intro first later
  have arrives : first.isLate limit = false := by
    simpa only [isLate, first, execute_latency] using inTime
  obtain ⟨tables, latency, faults⟩ := deliver_spared (n := n) arrives (by rwa [settled])
  have arrives : later.isLate limit = false := by simpa only [isLate, later, latency] using arrives
  obtain ⟨-, -, answer, answered, good⟩ := execute_spared arrives (by rwa [tables, settled])
  refine ⟨tables, answer, answered, good.imp_right ?_⟩
  rintro ⟨error, is, there | arranged⟩
  · exact ⟨error, is, .inl there⟩
  · exact ⟨error, is, .inr (List.mem_of_mem_drop (faults ▸ arranged))⟩

-- A super-table without the column that a text adds to it, which is refused when it comes again.
def bare : Service :=
  let statements := ["CREATE DATABASE `plant`",
    "CREATE STABLE `plant`.`raw_motor` (`ts` TIMESTAMP) TAGS (`place` VARCHAR(8))"]
  { tables := (statements.foldlM Tables.run {}).toOption.getD {} }

theorem execute_redelivered_column :
    let text := "ALTER STABLE `plant`.`raw_motor` ADD COLUMN `speed` DOUBLE"
    let first := (bare.execute none text).2
    let later := first.deliver none text 2
    Sent text ∧ (bare.execute none text).1 = some (.ok ()) ∧ later.tables = first.tables ∧
      ∃ error, (later.execute none text).1 = some (.error error) ∧ error.isAlreadyExists := by
  intro text first later
  have statement : (Schema.addColumnStatement ⟨"motor", "plant", "raw"⟩
      ⟨"speed", .double⟩).toOption = some text := by
    decide +kernel
  have sent : Sent text := .addColumn (toOption_eq_some.mp statement)
  have accepted : (bare.execute none text).1.map (·.toOption) = some (some ()) := by decide +kernel
  have refused : (later.execute none text).1.map (·.toOption) = some none := by decide +kernel
  obtain ⟨⟨⟩ | ⟨⟩, done, ok⟩ := Option.map_eq_some_iff.mp accepted
  case error => cases ok
  obtain ⟨same, answer, answered, rfl | ⟨error, rfl, there⟩⟩ := execute_redelivered sent done 2
  case inl => simp [later, first, answered, Except.toOption] at refused
  case inr =>
    have arranged : first.faults = [] := by decide +kernel
    exact ⟨sent, done, same, error, answered, by simpa [first, arranged] using there⟩

end Service

end Engine

end Historian
