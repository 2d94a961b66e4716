import Historian.Proofs.Engine.ChildTables
import Historian.Proofs.Schema.Calls
import Historian.Proofs.Sql.Values

namespace Historian

open Engine Sql Lexer

namespace Sql

-- The sign of a number is a token of its own.
theorem Lexer.Reads.negative (n : Nat) (hr : ∀ c ∈ rest.head?, isWordPart c = false ∧ c ≠ '.') :
    Reads ('-' :: (toString n).toList) [.punct '-', .number (toString n)] rest := by
  have digit : ∀ c ∈ ((toString n).toList ++ rest).head?, c.isDigit := by
    have front : (toString n).toList = Nat.toDigits 10 n := by simp
    obtain ⟨d, ds, hd⟩ := List.exists_cons_of_ne_nil (Nat.toDigits_ne_nil (n := n) (b := 10))
    have member : d ∈ Nat.toDigits 10 n := hd ▸ List.mem_cons_self
    have first : d.isDigit := Nat.isDigit_of_mem_toDigits (by decide) (by decide) member
    simpa [front, hd] using first
  simpa using (Reads.minus digit).append (Reads.numeral n hr)

namespace Reading

theorem commaList_error {item : Reading α} {takes : Takes item} (h : item ts = .error fault) :
    commaList item takes ts = .error fault := by
  unfold commaList
  split <;> simp_all

-- The values of tags are texts and numbers without a sign.
theorem createChildTable_signed :
    statement text (makeTokens "TABLE" ++ (tableTokens t ++ .word "USING" ::
      (tableTokens superTable ++ .word "TAGS" :: .punct '(' :: .punct '-' :: rest))) =
      .error (.noLiteral (some (.punct '-'))) := by
  have dispatch (ts) : statement text (.word "CREATE" :: .word "TABLE" :: ts) =
      createChildTable ts := by cbv
  have values : commaList tagValue takes_tagValue (.punct '-' :: rest) =
      .error (.noLiteral (some (.punct '-'))) := commaList_error rfl
  simp [makeTokens, dispatch, createChildTable, tagValues, bind_apply, ifNotExists_tokens,
    tableName_tokens, keyword_cons, mark_cons, values]

end Reading

theorem Statement.parse_error {text : String} (h : Reads text.toList ts [])
    (hs : Reading.statement text ts = .error fault) : parse text = .error fault := by
  simp [parse, h.tokenize_eq, hs]

end Sql

theorem Engine.Tables.createChildTable_new {t : Tables} {n m : TableName} {tags : List String}
    (database : t.databases.contains n.database) (held : t.superTables[m]? = some S)
    (count : S.tags.length = tags.length) (new : t.childTables[n]? = none) :
    t.createChildTable true n m tags =
      .ok { t with childTables := t.childTables.insert n ⟨m.table, tags⟩ } := by
  have absent : n ∉ t.childTables := by simpa using new
  simp [createChildTable, requireDatabase, database, superTable_eq_ok.mpr held, count, absent]

namespace Schema

variable {k : CategoryKey} {id : Int} {asset text : String}

theorem childTableStatement_signed (h : childTableStatement k asset id = .ok text) (neg : id < 0) :
    Statement.parse text = .error (.noLiteral (some (.punct '-'))) := by
  obtain ⟨hk, -, hc, ht⟩ := childTableStatement_ok.mp h
  obtain ⟨n, rfl⟩ := Int.eq_negSucc_of_lt_zero neg
  have opened {rest} : Reads ['('] [.punct '('] rest := .mark (by simp)
  have digits : toString (Int.negSucc n) = "-" ++ toString (n + 1) := rfl
  have values := opened.append
    ((Reads.negative (n + 1) (by simp; decide)).append (assetCode_reads asset))
  have tokens : Reads text.toList (Reading.makeTokens "TABLE" ++
      (tableTokens (k.childTable asset) ++ Token.word "USING" :: (tableTokens k.superTable ++
        Token.word "TAGS" :: Token.punct '(' :: Token.punct '-' ::
          [.number (toString (n + 1)), .punct ',', .text asset, .punct ')']))) [] := by
    rw [← ht]
    simpa [phrase, toString_text, digits] using childTable_reads hk hc values
  exact Statement.parse_error tokens Reading.createChildTable_signed

theorem childTableStatement_refused (written : childTableStatement k asset id = .ok text)
    (t : Tables) (neg : id < 0) :
    t.apply text = (.error (.syntaxFault (.noLiteral (some (.punct '-')))), t) := by
  rw [Tables.apply_eq, Tables.run, childTableStatement_signed written neg]

-- A child table is made and bound for exactly the identifiers without a sign; at the others the
-- engine cannot read the statement that the program writes.
theorem childTableStatement_binds_iff (written : childTableStatement k asset id = .ok text)
    (texts : List String) :
    let t := ({} : Tables).applyAll texts
    let child : ChildTable := ⟨k.superTableName, [toString id, asset]⟩
    ∀ S, t.superTables[k.superTable]? = some S → S.tags.length = 2 →
      t.childTables[k.childTable asset]? = none →
        (t.apply text =
            (.ok (), { t with childTables := t.childTables.insert (k.childTable asset) child }) ↔
          0 ≤ id) ∧
        (id < 0 →
          t.apply text = (.error (.syntaxFault (.noLiteral (some (.punct '-')))), t)) := by
  intro t child S held count new
  have refused := childTableStatement_refused written t
  refine ⟨⟨fun bound => ?_, fun natural => ?_⟩, refused⟩
  · by_contra neg
    rw [refused (Int.not_le.mp neg)] at bound
    cases bound
  · obtain ⟨n, rfl⟩ := Int.eq_ofNat_of_zero_le natural
    have database : (k.childTable asset).database ∈ t.databases :=
      (Tables.sound_applyAll texts).database k.superTable S held
    have made : t.createChildTable true (k.childTable asset) k.superTable [toString n, asset] =
        .ok { t with childTables := t.childTables.insert (k.childTable asset)
                      ⟨k.superTableName, [toString n, asset]⟩ } :=
      Tables.createChildTable_new (by simpa using database) held count new
    rw [Tables.apply_eq, Tables.run_eq (childTableStatement_reads written), Tables.perform, made]
    rfl

-- The super-table of the category `motor` and its child for the asset `M1`.
def motorKey : CategoryKey := { code := "motor", database := "plant" }

def motorStatements : List String :=
  ["CREATE DATABASE plant",
    "CREATE STABLE plant.raw_motor (ts TIMESTAMP) TAGS (asset_id BIGINT, asset_code VARCHAR(64))"]

def bindsMotor (id : Int) : String :=
  "CREATE TABLE IF NOT EXISTS `plant`.`raw_motor_M1` USING `plant`.`raw_motor` TAGS (" ++
    toString id ++ ", 'M1')"

theorem bindsMotor_written : ∀ id ∈ [(9223372036854775807 : Int), -1],
    childTableStatement motorKey "M1" id = .ok (bindsMotor id) := by
  have written : ∀ id ∈ [(9223372036854775807 : Int), -1],
      (childTableStatement motorKey "M1" id).toOption = some (bindsMotor id) := by
    decide +kernel
  exact fun id h => toOption_eq_some.mp (written id h)

theorem motorStatements_held :
    let t := ({} : Tables).applyAll motorStatements
    (t.superTables[motorKey.superTable]?).map (·.tags.length) = some 2 ∧
      t.childTables[motorKey.childTable "M1"]? = none := by
  rw [Tables.applyAll_characters]
  decide +kernel

theorem childTableStatement_binds_iff_motor :
    let t := ({} : Tables).applyAll motorStatements
    (t.apply (bindsMotor 9223372036854775807)).2.childTables[motorKey.childTable "M1"]? =
        some ⟨"raw_motor", ["9223372036854775807", "M1"]⟩ ∧
      (t.apply (bindsMotor (-1))).2 = t := by
  intro t
  obtain ⟨held, new⟩ := motorStatements_held
  obtain ⟨S, there, count⟩ := Option.map_eq_some_iff.mp held
  have large := childTableStatement_binds_iff
    (bindsMotor_written 9223372036854775807 (by decide)) motorStatements S there count new
  have signed := childTableStatement_binds_iff
    (bindsMotor_written (-1) (by decide)) motorStatements S there count new
  constructor
  · have names : motorKey.superTableName = "raw_motor" ∧
        toString (9223372036854775807 : Int) = "9223372036854775807" := by decide +kernel
    rw [large.1.mpr (by decide), ← names.1, ← names.2]
    simp
  · rw [signed.2 (by decide)]

-- No child table is made for an asset of a negative identifier.
theorem childTableStatement_unbound :
    let t := ({} : Tables).applyAll motorStatements
    childTableStatement motorKey "M1" (-1) = .ok (bindsMotor (-1)) ∧
      (t.superTables[motorKey.superTable]?).map (·.tags.length) = some 2 ∧
      t.childTables[motorKey.childTable "M1"]? = none ∧
      (t.apply (bindsMotor (-1))).1.toOption = none ∧
      (t.apply (bindsMotor (-1))).2.childTables[motorKey.childTable "M1"]? = none := by
  obtain ⟨held, new⟩ := motorStatements_held
  have written := bindsMotor_written (-1) (by decide)
  have refused := childTableStatement_refused written
    (({} : Tables).applyAll motorStatements) (by decide)
  refine ⟨written, held, new, ?_, ?_⟩
  · rw [refused]
    rfl
  · rw [refused]
    exact new

end Schema

end Historian
