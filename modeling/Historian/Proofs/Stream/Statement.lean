import Historian.Proofs.Engine.Streams
import Historian.Proofs.Schema.Calls
import Historian.Stream.Manager

namespace Historian

open Engine Sql Lexer

namespace CompiledStream

theorem ofFeature_ok {c : FeatureConfig} {n : Int} (h : ofFeature k c n = .ok s) :
    s.streamName = nameOf k.code c.name n ∧ s.targetTable = targetOf k.code c.name ∧
      Identifier.Valid Identifier.tableLimit s.streamName ∧
      Identifier.Valid Identifier.tableLimit s.targetTable ∧
      ∃ source, s.sql = statement k.database s.streamName s.targetTable source c := by
  unfold ofFeature at h
  split at h
  case isTrue => cases h
  simp only [bind_unit_eq_ok, requireTableName_ok, pure_eq_ok] at h
  obtain ⟨hn, ht, -, rfl⟩ := h
  exact ⟨rfl, rfl, hn, ht, _, rfl⟩

-- Stated by itself because the equation that unfolding looks for evaluates the text.
theorem statement_eq (database stream target source : String) (c : FeatureConfig) :
    statement database stream target source c =
      "CREATE STREAM IF NOT EXISTS " ++ Sql.name stream ++ " TRIGGER WINDOW_CLOSE INTO " ++
        Sql.qualified database target ++ " AS SELECT _wstart AS ts, " ++
        c.function.sqlName ++ "(" ++ Sql.name c.signal ++ ") AS " ++ Sql.name c.name ++
        " FROM " ++ Sql.qualified database source ++ writeCondition c.filters ++
        " PARTITION BY " ++ ", ".intercalate ((FeatureConfig.groupTag :: c.groupBy).map Sql.name) ++
        " INTERVAL(" ++ c.window.write ++ ") SLIDING(" ++ c.slide.write ++ ")" :=
  rfl

theorem statement_front (database stream target source : String) (c : FeatureConfig) :
    ∃ rest, statement database stream target source c =
      "CREATE STREAM IF NOT EXISTS " ++ Sql.name stream ++ " TRIGGER WINDOW_CLOSE INTO " ++
        Sql.qualified database target ++ (" AS SELECT _wstart AS ts, " ++ rest) := by
  simp only [statement_eq, String.append_assoc]
  exact ⟨_, rfl⟩

-- The engine reads from the front of a compiled stream what it is called and which table it writes.
theorem statement_parse {c : FeatureConfig} (hs : '`' ∉ stream.toList)
    (ht : (TableName.mk database target).Quotable)
    (hp : Statement.parse (statement database stream target source c) = .ok s) :
    ∃ source, s = .createStream true stream ⟨database, target⟩ source := by
  have ⟨tail, he⟩ := statement_front database stream target source c
  have into (rest) : Reads (phrase ["TRIGGER", "WINDOW_CLOSE", "INTO"])
      [.word "TRIGGER", .word "WINDOW_CLOSE", .word "INTO"] rest :=
    .words ["TRIGGER", "WINDOW_CLOSE", "INTO"]
  have table (rest) : Reads (TableName.write ⟨database, target⟩).toList
      (tableTokens ⟨database, target⟩)
      (' ' :: rest) := .table ht (by simp)
  have named (rest) := (Reads.name hs (by simp)).append
    (Reads.append .blank ((into _).append (table rest)))
  have front (rest) : Reads _ (Reading.makeTokens "STREAM" ++ _) (' ' :: rest) :=
    (Reads.words ["CREATE", "STREAM", "IF", "NOT", "EXISTS"]).append (named rest)
  have front := front ("AS SELECT _wstart AS ts, " ++ tail).toList
  obtain ⟨us, left, hr⟩ := Statement.parse_ok (by rw [he]; simp [phrase, TableName.write]) front hp
  exact Reading.createStream_tokens (by simpa [Reading.makeTokens] using hr)

end CompiledStream

namespace StreamManager

theorem pauseStatement_parse {t : StreamTask} (h : '`' ∉ t.streamName.toList) :
    Statement.parse (controlStatement t .pause) = .ok (.setPaused false t.streamName true) := by
  have eq : controlStatement t .pause = "PAUSE STREAM " ++ Sql.name t.streamName := rfl
  have quoted : Reads (Sql.name t.streamName).toList [.quoted t.streamName] [] := .name h (by simp)
  have all := (Reads.words ["PAUSE", "STREAM"]).append quoted
  refine Statement.parse_eq ?_ Reading.pauseStream_tokens
  simpa [eq, phrase] using all

theorem resumeStatement_parse {t : StreamTask} (h : '`' ∉ t.streamName.toList) :
    Statement.parse (controlStatement t .resume) = .ok (.setPaused false t.streamName false) := by
  have eq : controlStatement t .resume = "RESUME STREAM " ++ Sql.name t.streamName := rfl
  have quoted : Reads (Sql.name t.streamName).toList [.quoted t.streamName] [] := .name h (by simp)
  have all := (Reads.words ["RESUME", "STREAM"]).append quoted
  refine Statement.parse_eq ?_ Reading.resumeStream_tokens
  simpa [eq, phrase] using all

theorem dropStatement_parse {t : StreamTask} (h : '`' ∉ t.streamName.toList) :
    Statement.parse (dropStatement t) = .ok (.dropStream true t.streamName) := by
  have eq : dropStatement t = "DROP STREAM IF EXISTS " ++ Sql.name t.streamName := rfl
  have quoted : Reads (Sql.name t.streamName).toList [.quoted t.streamName] [] := .name h (by simp)
  have all := (Reads.words ["DROP", "STREAM", "IF", "EXISTS"]).append quoted
  refine Statement.parse_eq ?_ Reading.dropStream_tokens
  simpa [eq, phrase] using all

-- The statement that an action issues.
def issued (t : StreamTask) : StreamAction → String
  | .deploy => t.sql
  | action => controlStatement t action

-- The database of a category in whose names the statement of a task is written.
structure Compiled (keys : List CategoryKey) (t : TaskSpec) (k : CategoryKey) : Prop where
  mem : k ∈ keys
  category : k.code = t.category
  name : Identifier.Valid Identifier.tableLimit t.streamName
  reads : ∀ s, Statement.parse t.sql = .ok s →
    ∃ source, s = .createStream true t.streamName ⟨k.database, t.targetTable⟩ source

-- What an accepted statement leaves under the name of the stream: making a stream leaves alone one
-- that is there.
inductive Issued (t : StreamTask) (before : Option Stream) : StreamAction → Option Stream → Prop
  | found (h : before = some s) : Issued t before .deploy (some s)
  | made (h : before = none)
    (hp : Statement.parse t.sql = .ok (.createStream true t.streamName target source)) :
    Issued t before .deploy (some ⟨t.sql, target, source, false⟩)
  | paused (h : before = some s) : Issued t before .pause (some { s with paused := true })
  | resumed (h : before = some s) : Issued t before .resume (some { s with paused := false })
  | dropped (h : action ∈ [.stop, .acknowledge, .delete]) : Issued t before action none

theorem Compiled.run {t : StreamTask} {e e' : Tables} (h : Compiled keys t.toTaskSpec k)
    (hr : e.run (issued t action) = .ok e') :
    ∃ after, Issued t e.streams[t.streamName]? action after ∧ e.Puts t.streamName after e' := by
  have backtick := h.name.no_backtick
  have drop (ha : action ∈ [.stop, .acknowledge, .delete]) (hr : e.run (dropStatement t) = .ok e') :
      ∃ after, Issued t e.streams[t.streamName]? action after ∧ e.Puts t.streamName after e' := by
    rw [Tables.run_eq (dropStatement_parse backtick)] at hr
    exact ⟨_, .dropped ha, Tables.dropStream_ok hr⟩
  cases action with
  | deploy =>
    obtain ⟨s, hp, hr⟩ := Tables.run_ok hr
    obtain ⟨source, rfl⟩ := h.reads s hp
    rcases Tables.createStream_ok hr with ⟨s, hs, puts⟩ | ⟨hn, puts⟩
    · exact ⟨_, .found hs, puts⟩
    · exact ⟨_, .made hn hp, puts⟩
  | pause =>
    change e.run (controlStatement t .pause) = .ok e' at hr
    rw [Tables.run_eq (pauseStatement_parse backtick)] at hr
    obtain ⟨s, hs, puts⟩ := Tables.setPaused_ok hr
    exact ⟨_, .paused hs, puts⟩
  | resume =>
    change e.run (controlStatement t .resume) = .ok e' at hr
    rw [Tables.run_eq (resumeStatement_parse backtick)] at hr
    obtain ⟨s, hs, puts⟩ := Tables.setPaused_ok hr
    exact ⟨_, .resumed hs, puts⟩
  | stop | acknowledge | delete => exact drop (by decide) hr

-- A task that was made of a feature of its category.
theorem Compiled.of_feature {c : FeatureConfig} {n : Int} {spec : TaskSpec} (hk : k ∈ keys)
    (hv : k.Valid)
    (hc : k.code = spec.category) (hs : CompiledStream.ofFeature k c n = .ok s)
    (hn : spec.streamName = s.streamName) (ht : spec.targetTable = s.targetTable)
    (hq : spec.sql = s.sql) : Compiled keys spec k := by
  obtain ⟨-, -, name, target, source, sql⟩ := CompiledStream.ofFeature_ok hs
  refine ⟨hk, hc, hn ▸ name, fun p hp => ?_⟩
  rw [hq, sql] at hp
  rw [hn, ht]
  exact CompiledStream.statement_parse name.no_backtick
    ⟨hv.database.no_backtick, target.no_backtick⟩ hp

theorem Compiled.mono (h : Compiled keys spec k) (hk : keys ⊆ keys') : Compiled keys' spec k :=
  ⟨hk h.mem, h.category, h.name, h.reads⟩

end StreamManager

end Historian
