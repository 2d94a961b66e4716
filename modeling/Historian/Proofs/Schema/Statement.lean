import Historian.Proofs.Basic
import Historian.Proofs.Sql.Reading
import Historian.Schema.Statement

namespace Historian

open Sql Lexer

namespace Identifier

theorem Valid.no_backtick {s : String} (h : Valid limit s) : '`' ∉ s.toList := by
  have ⟨c, cs, hs, hc, hcs, _⟩ := h
  rw [hs]
  rintro (_ | ⟨_, hm⟩)
  · simp [isStart] at hc
  · simpa [isPart] using hcs '`' hm

end Identifier

theorem requireIdentifier_ok :
    requireIdentifier kind s = .ok () ↔ Identifier.Valid Identifier.codeLimit s := by
  rw [← Identifier.check_eq_ok_iff, requireIdentifier]
  cases Identifier.check Identifier.codeLimit s <;> simp

theorem requireTableName_ok :
    requireTableName s = .ok () ↔ Identifier.Valid Identifier.tableLimit s := by
  rw [← Identifier.check_eq_ok_iff, requireTableName]
  cases Identifier.check Identifier.tableLimit s <;> simp

-- Names and columns are read back as they were written.

-- A table whose names can stand between backticks.
def TableName.Quotable (t : TableName) : Prop := '`' ∉ t.database.toList ∧ '`' ∉ t.table.toList

-- A column that statements can define.
structure Column.Definable (c : Column) : Prop where
  name : '`' ∉ c.name.toList
  type : c.type.Writable

namespace Sql.Lexer.Reads

theorem table {t : TableName} (h : t.Quotable) (hr : rest.head? ≠ some '`') :
    Reads t.write.toList (tableTokens t) rest := by
  have name : Sql.name t.table = "`" ++ t.table ++ "`" := rfl
  have point : Reads ['.'] [.punct '.'] ((Sql.name t.table).toList ++ rest) := by
    refine .point ?_
    simp [name]
  have := (Reads.name h.1 (by simp)).append (point.append (Reads.name h.2 hr))
  simpa [TableName.write, Sql.qualified, tableTokens] using this

theorem type {t : ColumnType} (hr : Stops rest) : Reads t.write.toList (typeTokens t) rest := by
  cases t with
  | varchar n =>
    have close : Reads [')'] [.punct ')'] rest := .mark (by simp)
    have number : Reads n.repr.toList [.number n.repr] (')' :: rest) := .numeral n (by simp; decide)
    have opened {rest} : Reads ['('] [.punct '('] rest := .mark (by simp)
    have word {rest} : Reads "VARCHAR".toList [.word "VARCHAR"] ('(' :: rest) := .word .cons
    have := word.append (opened.append (number.append close))
    simpa [ColumnType.write, typeTokens, toString_text] using this
  | _ => exact .word hr

theorem column {c : Column} (h : c.Definable) (hr : Stops rest) :
    Reads (Schema.writeColumn c).toList (columnTokens c) rest := by
  have blank := Reads.append .blank (Reads.type (t := c.type) hr)
  have := (Reads.name h.name (by simp)).append blank
  simpa [Schema.writeColumn, columnTokens, toString_text] using this

theorem columns {cs : List Column} (h : ∀ c ∈ cs, c.Definable) :
    Reads (Schema.writeColumns cs).toList ([.punct ','].intercalate (cs.map columnTokens))
      (')' :: rest) := by
  induction cs with
  | nil => exact .nil
  | cons c cs ih =>
    have ⟨hc, hcs⟩ := List.forall_mem_cons.mp h
    cases cs with
    | nil => simpa [Schema.writeColumns] using column hc .cons
    | cons d ds =>
      have comma {rest} : Reads [','] [.punct ','] rest := .mark (by simp)
      have := (column hc .cons).append (comma.append (Reads.append .blank (ih hcs)))
      simpa [Schema.writeColumns] using this

end Sql.Lexer.Reads

-- The names of a category that its statements check.
structure CategoryKey.Valid (k : CategoryKey) : Prop where
  code : Identifier.Valid Identifier.codeLimit k.code
  database : Identifier.Valid Identifier.codeLimit k.database
  stem : Identifier.Valid Identifier.codeLimit k.stem
  superTable : Identifier.Valid Identifier.tableLimit k.superTableName

theorem CategoryKey.check_ok {k : CategoryKey} : k.check = .ok () ↔ k.Valid := by
  simp only [check, bind_unit_eq_ok, requireIdentifier_ok, requireTableName_ok]
  exact ⟨fun ⟨h₁, h₂, h₃, h₄⟩ => ⟨h₁, h₂, h₃, h₄⟩,
    fun h => ⟨h.code, h.database, h.stem, h.superTable⟩⟩

theorem CategoryKey.Valid.quotable {k : CategoryKey} (h : k.Valid) : k.superTable.Quotable :=
  ⟨h.database.no_backtick, h.superTable.no_backtick⟩

theorem requireSignalCode_ok :
    requireSignalCode s = .ok () ↔
      Identifier.Valid Identifier.codeLimit s ∧ Identifier.isReserved s = false := by
  simp only [requireSignalCode, bind_unit_eq_ok, requireIdentifier_ok]
  cases Identifier.isReserved s <;>
    simp [pure, Except.pure, throw, throwThe, MonadExceptOf.throw]

theorem DataType.writable (t : DataType) : t.columnType.Writable := by
  cases t <;> simp [columnType, ColumnType.Writable, ColumnType.maxLength]

namespace Schema

theorem definable {c : Column} (h : requireSignalCode c.name = .ok ()) (ht : c.type.Writable) :
    c.Definable :=
  ⟨(requireSignalCode_ok.mp h).1.no_backtick, ht⟩

theorem superTableStatement_ok :
    superTableStatement k signals = .ok text ↔ k.Valid ∧
      (∀ s ∈ storedSignals signals, requireSignalCode s.code = .ok ()) ∧
      superTableText k.superTable (desired signals) = text := by
  simp only [superTableStatement, bind_unit_eq_ok, CategoryKey.check_ok, List.forM_eq_forM,
    forM_eq_ok, pure_eq_ok]

theorem desired_definable (h : ∀ s ∈ storedSignals signals, requireSignalCode s.code = .ok ()) :
    (∀ c ∈ (desired signals).columns, c.Definable) ∧ ∀ c ∈ (desired signals).tags, c.Definable := by
  constructor
  · simp only [desired, signalColumns, List.forall_mem_cons, List.forall_mem_map]
    exact ⟨⟨by decide, trivial⟩, fun s hs => definable (h s hs) s.dataType.writable⟩
  · simp only [desired, assetTags, List.forall_mem_cons]
    exact ⟨⟨by decide, trivial⟩, ⟨by decide, by decide, by decide⟩, nofun⟩

-- What the engine understands by the statements of a category.

-- Stated by itself because the equation that unfolding looks for evaluates the text.
theorem superTableText_eq :
    superTableText t schema = "CREATE STABLE IF NOT EXISTS " ++ t.write ++ " (" ++
      writeColumns schema.columns ++ ") TAGS (" ++ writeColumns schema.tags ++ ")" :=
  rfl

theorem superTableText_parse {t : TableName} {schema : TableSchema} (ht : t.Quotable)
    (hc : schema.columns ≠ []) (hcs : ∀ c ∈ schema.columns, c.Definable)
    (hg : schema.tags ≠ []) (hgs : ∀ c ∈ schema.tags, c.Definable) :
    Statement.parse (superTableText t schema) = .ok (.createSuperTable true t schema) := by
  have front {rest} : Reads (phrase ["CREATE", "STABLE", "IF", "NOT", "EXISTS"])
      (Reading.makeTokens "STABLE") rest := .words ["CREATE", "STABLE", "IF", "NOT", "EXISTS"]
  have opened {rest} : Reads ['('] [.punct '('] rest := .mark (by simp)
  have closed {rest} : Reads [')'] [.punct ')'] rest := .mark (by simp)
  have tags : Reads ("(" ++ writeColumns schema.tags ++ ")").toList
      (columnsTokens schema.tags) [] := by
    simpa [columnsTokens] using opened.append ((Reads.columns hgs).append closed)
  have tags := Reads.append .blank ((Reads.words ["TAGS"]).append tags)
  have columns := opened.append ((Reads.columns hcs).append (closed.append tags))
  have all := front.append ((Reads.table ht (by simp)).append (Reads.append .blank columns))
  refine Statement.parse_eq ?_ (Reading.createSuperTable_tokens hc (fun c hm => (hcs c hm).type)
    hg (fun c hm => (hgs c hm).type))
  simpa [superTableText_eq, phrase, columnsTokens] using all

theorem superTableStatement_parse (h : superTableStatement k signals = .ok text) :
    Statement.parse text = .ok (.createSuperTable true k.superTable (desired signals)) := by
  have ⟨hk, hs, ht⟩ := superTableStatement_ok.mp h
  have ⟨columns, tags⟩ := desired_definable hs
  rw [← ht]
  exact superTableText_parse hk.quotable nofun columns nofun tags

theorem superTableStatement_columns (h : superTableStatement k signals = .ok text)
    (h' : superTableStatement k' signals' = .ok text) :
    signalColumns signals = signalColumns signals' := by
  have same := (superTableStatement_parse h).symm.trans (superTableStatement_parse h')
  simp only [Except.ok.injEq, Statement.createSuperTable.injEq, desired, TableSchema.mk.injEq,
    List.cons.injEq] at same
  exact same.2.2.1.2

theorem databaseStatement_parse (h : databaseStatement database = .ok text) :
    Statement.parse text = .ok (.createDatabase true database) := by
  simp only [databaseStatement, bind_unit_eq_ok, requireIdentifier_ok, pure_eq_ok] at h
  have ⟨hd, ht⟩ := h
  have front {rest} : Reads (phrase ["CREATE", "DATABASE", "IF", "NOT", "EXISTS"])
      (Reading.makeTokens "DATABASE") rest :=
    .words ["CREATE", "DATABASE", "IF", "NOT", "EXISTS"]
  have quoted : (literal "ms").toList = ['\'', 'm', 's', '\''] := by decide
  have ms : Reads (literal "ms").toList [.text "ms"] [] := .literal nofun
  have precision := Reads.append .blank ((Reads.words ["PRECISION"]).append ms)
  have all := front.append ((Reads.name hd.no_backtick (by simp)).append precision)
  have tokens : Reads text.toList (Reading.makeTokens "DATABASE" ++
      .quoted database :: [.word "PRECISION", .text "ms"]) [] := by
    rw [← ht]
    simpa [phrase, toString_text, quoted] using all
  exact Statement.parse_eq tokens Reading.createDatabase_tokens

theorem addColumnStatement_parse {c : Column} (h : addColumnStatement k c = .ok text)
    (hc : c.type.Writable) : Statement.parse text = .ok (.addColumn k.superTable c) := by
  simp only [addColumnStatement, bind_unit_eq_ok, CategoryKey.check_ok, pure_eq_ok] at h
  have ⟨hk, hs, ht⟩ := h
  have column : Reads (writeColumn c).toList (columnTokens c) [] := .column (definable hs hc) .nil
  have add := Reads.append .blank ((Reads.words ["ADD", "COLUMN"]).append column)
  have all := (Reads.words ["ALTER", "STABLE"]).append
      ((Reads.table hk.quotable (by simp)).append add)
  refine Statement.parse_eq ?_ (Reading.addColumn_tokens hc)
  rw [← ht]
  simpa [phrase, toString_text] using all

theorem modifyColumnStatement_parse {c : Column} (h : modifyColumnStatement k c = .ok text)
    (hc : c.type.Writable) : Statement.parse text = .ok (.modifyColumn k.superTable c) := by
  simp only [modifyColumnStatement, bind_unit_eq_ok, CategoryKey.check_ok, pure_eq_ok] at h
  have ⟨hk, hs, ht⟩ := h
  have column : Reads (writeColumn c).toList (columnTokens c) [] := .column (definable hs hc) .nil
  have modify := Reads.append .blank ((Reads.words ["MODIFY", "COLUMN"]).append column)
  have all := (Reads.words ["ALTER", "STABLE"]).append
    ((Reads.table hk.quotable (by simp)).append modify)
  refine Statement.parse_eq ?_ (Reading.modifyColumn_tokens hc)
  rw [← ht]
  simpa [phrase, toString_text] using all

theorem childTableStatement_ok {id : Int} : childTableStatement k asset id = .ok text ↔ k.Valid ∧
    Identifier.Valid Identifier.codeLimit asset ∧
    Identifier.Valid Identifier.tableLimit (k.childTableName asset) ∧
    "CREATE TABLE IF NOT EXISTS " ++ (k.childTable asset).write ++ " USING " ++
      k.superTable.write ++ " TAGS (" ++ toString id ++ ", " ++ literal asset ++ ")" = text := by
  simp only [childTableStatement, bind_unit_eq_ok, CategoryKey.check_ok, requireIdentifier_ok,
    requireTableName_ok, pure_eq_ok]

-- The statement that makes a child table, up to the values of its tags.
theorem childTable_reads {k : CategoryKey} (hk : k.Valid)
    (hc : Identifier.Valid Identifier.tableLimit (k.childTableName asset)) (h : Reads cs ts rest) :
    Reads (phrase ["CREATE", "TABLE", "IF", "NOT", "EXISTS"] ++
        ((k.childTable asset).write.toList ++ ' ' :: (phrase ["USING"] ++
          (k.superTable.write.toList ++ ' ' :: (phrase ["TAGS"] ++ cs)))))
      (Reading.makeTokens "TABLE" ++ (tableTokens (k.childTable asset) ++ .word "USING" ::
        (tableTokens k.superTable ++ .word "TAGS" :: ts))) rest := by
  have child : (k.childTable asset).Quotable := ⟨hk.database.no_backtick, hc.no_backtick⟩
  have tags := Reads.append .blank ((Reads.words ["TAGS"]).append h)
  have bound := Reads.append .blank ((Reads.words ["USING"]).append
    ((Reads.table hk.quotable (by simp)).append tags))
  have all := (Reads.words ["CREATE", "TABLE", "IF", "NOT", "EXISTS"]).append
    ((Reads.table child (by simp)).append bound)
  simpa [Reading.makeTokens] using all

theorem assetCode_reads (asset : String) :
    Reads (',' :: ' ' :: ((literal asset).toList ++ [')']))
      [.punct ',', .text asset, .punct ')'] [] := by
  have comma {rest} : Reads [','] [.punct ','] rest := .mark (by simp)
  have closed : Reads [')'] [.punct ')'] [] := .mark (by simp)
  have code := Reads.append .blank ((Reads.literal (s := asset) (by simp)).append closed)
  exact comma.append code

theorem childTableStatement_reads {id : Nat} (h : childTableStatement k asset id = .ok text) :
    Statement.parse text =
      .ok (.createChildTable true (k.childTable asset) k.superTable [toString id, asset]) := by
  have ⟨hk, _, hc, ht⟩ := childTableStatement_ok.mp h
  have opened {rest} : Reads ['('] [.punct '('] rest := .mark (by simp)
  have values := opened.append ((Reads.numeral id (by simp; decide)).append (assetCode_reads asset))
  have digits : toString (id : Int) = id.repr := rfl
  refine Statement.parse_eq ?_ Reading.createChildTable_values
  rw [← ht]
  simpa [phrase, toString_text, digits] using childTable_reads hk hc values

-- The values of the tags are not looked at here: a negative number among them makes the engine
-- refuse the statement.
theorem childTableStatement_parse {id : Int} (h : childTableStatement k asset id = .ok text)
    (hp : Statement.parse text = .ok s) :
    ∃ tags, s = .createChildTable true (k.childTable asset) k.superTable tags := by
  have ⟨hk, _, hc, ht⟩ := childTableStatement_ok.mp h
  let values := '(' :: ((toString id).toList ++ (", ".toList ++ ((literal asset).toList ++ [')'])))
  have front : Reads _ _ values := childTable_reads hk hc .nil
  obtain ⟨us, left, hs⟩ := Statement.parse_ok (by rw [← ht]; simp [phrase, values]) front hp
  exact Reading.createChildTable_tokens (by simpa using hs)

end Schema

end Historian
