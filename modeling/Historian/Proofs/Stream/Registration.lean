import Historian.Proofs.Schema.Rendering

namespace Historian

open Engine Sql

namespace CompiledStream

variable {database stream target source : String} {c : FeatureConfig}

-- Nothing of what is selected is taken for the keyword in front of the source, whatever the signal
-- and the feature are called: only bare words are keywords.
theorem past_select (c : FeatureConfig) (ts : List Token) :
    Reading.past "FROM" .noSource (c.selectTokens.drop 2 ++ ts) = .ok ((), ts) := by
  cases c with | mk name signal function => cases function <;> cbv

theorem tokens_read : Reading.statement text (tokens database stream target source c) =
    .ok (.createStream true stream ⟨database, target⟩ ⟨database, source⟩,
      c.conditionTokens ++ c.windowTokens) := by
  have dispatch (ts) : Reading.statement text (.word "CREATE" :: .word "STREAM" :: ts) =
      Reading.createStream ts := by cbv
  have into (ts) : Reading.past "INTO" .noTarget
      (.word "TRIGGER" :: .word "WINDOW_CLOSE" :: .word "INTO" :: ts) = .ok ((), ts) := by cbv
  have select : c.selectTokens = .word "AS" :: .word "SELECT" :: c.selectTokens.drop 2 := rfl
  rw [tokens, select]
  simp [Reading.makeTokens, dispatch, Reading.createStream, Reading.bind_apply,
    Reading.ifNotExists_tokens, Reading.name_quoted, into, Reading.tableName_tokens,
    Reading.keyword_cons, past_select, Reading.map_apply]

theorem statement_read (h : Quotable database stream target source c) :
    Statement.parse (statement database stream target source c) =
      .ok (.createStream true stream ⟨database, target⟩ ⟨database, source⟩) := by
  simp [Statement.parse, tokenize_statement h, tokens_read]

end CompiledStream

theorem Engine.Tables.createStream_new {t : Tables} {target source : TableName}
    (database : t.databases.contains target.database) (there : t.hasTable source)
    (new : ¬t.streams.contains n) :
    t.createStream sql true n target source = .ok { t with
      derived := t.derived.insert target
      streams := t.streams.insert n ⟨sql, target, source, false⟩ } := by
  simp only [createStream, requireDatabase, database, there, new]
  rfl

namespace CompiledStream

-- Every feature of an accepted category compiles, and where its database and its source are there
-- the engine makes of the text the stream that was meant, and nothing else.
theorem statement_registers {catalog : Catalog} {spec : CategorySpec} {c : FeatureConfig} {n : Int}
    (hk : catalog.createCategory spec = .ok made) (hc : FeatureConfig.read raw = .ok c)
    (positive : 1 ≤ n) (bounded : n < 2 ^ 63) :
    ∃ s, ofFeature spec.toCategoryKey c n = .ok s ∧
      ∀ t : Tables,
        let target : TableName := ⟨spec.database, s.targetTable⟩
        let source : TableName := ⟨spec.database, c.sourceTable.getD spec.superTableName⟩
        t.databases.contains spec.database → t.hasTable source →
        ¬t.streams.contains s.streamName →
        t.apply s.sql = (.ok (), { t with
          streams := t.streams.insert s.streamName { sql := s.sql, target, source, paused := false }
          derived := t.derived.insert target }) := by
  obtain ⟨made, catalog'⟩ := made
  have valid := CategorySpec.valid (Catalog.createCategory_ok hk).1
  obtain ⟨s, hs⟩ := ofFeature_of_read valid hc positive bounded
  refine ⟨s, hs, ?_⟩
  intro t target source database there new
  have quotable := quotable_of_read valid hc hs
  obtain ⟨-, -, -, -, rfl⟩ := ofFeature_eq_ok.mp hs
  rw [Tables.apply_eq, Tables.run_eq (statement_read quotable), Tables.perform,
    Tables.createStream_new database there new]

-- A category and a feature whose names are all keywords, with a text that looks like a query.

def into : CategorySpec := { code := "into", database := "from", stem := "stream", name := "Into" }

def keywordDocument : Json :=
  .object [
    ("filters", .list [.object [("field", .text "select"), ("op", .text "<>"),
      ("value", .text "x' FROM `y`.`z")]]),
    ("function", .text "last"), ("name", .text "from"), ("source_signal", .text "into"),
    ("source_table", .text "as"), ("window", .text "1h")]

def keywordConfig : FeatureConfig where
  name := "from"
  signal := "into"
  function := .last
  window := FeatureConfig.settled.window
  slide := FeatureConfig.settled.window
  filters := [⟨"select", .ne, .text "x' FROM `y`.`z"⟩]
  sourceTable := some "as"

theorem read_keywords : FeatureConfig.read keywordDocument = .ok keywordConfig := by
  have listed : Filter.listOfJson ((keywordDocument.member? "filters").getD .null) =
      .ok keywordConfig.filters :=
    toOption_eq_some.mp (by cbv)
  refine FeatureConfig.read_eq_ok.mpr ⟨⟨_, rfl, by decide +kernel⟩, rfl, rfl, rfl, rfl,
    ⟨_, rfl, FeatureConfig.readFunction_name .last⟩, ⟨_, rfl, ?_⟩, ⟨none, rfl, rfl⟩, by decide,
    ?_, rfl, rfl, rfl, rfl⟩
  · exact FeatureConfig.readDuration_eq_ok.mpr (toOption_eq_some.mp (by decide +kernel))
  · exact Filter.readAll_eq_ok.mpr ⟨_, listed, List.forall_mem_singleton.mpr rfl,
      Filter.canonical_singleton _⟩

-- The table that the feature reads is one that a stream has written.
theorem statement_registers_keywords : ∃ made s,
    ({} : Catalog).createCategory into = .ok made ∧
      FeatureConfig.read keywordDocument = .ok keywordConfig ∧
      ofFeature into.toCategoryKey keywordConfig 1 = .ok s ∧
      let t : Tables := { databases := {"from"}, derived := {⟨"from", "as"⟩} }
      t.databases.contains "from" ∧ t.hasTable ⟨"from", "as"⟩ ∧
        ¬t.streams.contains s.streamName ∧ (t.apply s.sql).1 = .ok () ∧
        (t.apply s.sql).2.streams[s.streamName]? =
          some ⟨s.sql, ⟨"from", "feat_into_from"⟩, ⟨"from", "as"⟩, false⟩ := by
  have accepted : (({} : Catalog).createCategory into).toOption.isSome := by decide +kernel
  obtain ⟨made, hk⟩ := Option.isSome_iff_exists.mp accepted
  have hk := toOption_eq_some.mp hk
  obtain ⟨s, hs, registers⟩ := statement_registers hk read_keywords (n := 1) (by decide) (by decide)
  have target : s.targetTable = "feat_into_from" := (ofFeature_ok hs).2.1
  let t : Tables := { databases := {"from"}, derived := {⟨"from", "as"⟩} }
  have database : t.databases.contains "from" := by simp [t]
  have there : t.hasTable ⟨"from", "as"⟩ := by simp [t, Tables.hasTable]
  have new : ¬t.streams.contains s.streamName := by simp [t]
  refine ⟨made, s, hk, read_keywords, hs, database, there, new, ?_⟩
  rw [registers t database there new, target]
  refine ⟨rfl, ?_⟩
  simp
  exact ⟨rfl, rfl⟩

end CompiledStream

end Historian
