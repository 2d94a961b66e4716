import Historian.Proofs.Basic
import Historian.Proofs.Sql.Lexing
import Historian.Sql.Statement

namespace Historian

namespace ColumnType

-- The types that columns of statements can have.
def Writable : ColumnType → Prop
  | .varchar n => 0 < n ∧ n ≤ maxLength
  | _ => True

theorem ofParts?_varchar (h : n ≤ maxLength) : ofParts? "VARCHAR" n = some (.varchar n) := by
  have hu : "VARCHAR".toUpper = "VARCHAR" := by cbv
  simp [ofParts?, hu, h]

end ColumnType

namespace Sql

open Lexer

-- The tokens of tables, types and columns as statements write them.

def tableTokens (t : TableName) : List Token := [.quoted t.database, .punct '.', .quoted t.table]

def typeTokens : ColumnType → List Token
  | .timestamp => [.word "TIMESTAMP"]
  | .double => [.word "DOUBLE"]
  | .bigint => [.word "BIGINT"]
  | .bool => [.word "BOOL"]
  | .varchar n => [.word "VARCHAR", .punct '(', .number n.repr, .punct ')']

def columnTokens (c : Column) : List Token := .quoted c.name :: typeTokens c.type

def columnsTokens (cs : List Column) : List Token :=
  .punct '(' :: ([.punct ','].intercalate (cs.map columnTokens) ++ [.punct ')'])

namespace Reading

theorem bind_apply {r : Reading α} {f : α → Reading β} :
    (r >>= f) ts = match r ts with
      | .ok (a, rest) => f a rest
      | .error fault => .error fault := by
  simp only [bind, StateT.bind, Except.bind]
  cases r ts <;> rfl

theorem pure_apply : (pure a : Reading α) ts = .ok (a, ts) :=
  rfl

theorem map_apply {r : Reading α} {f : α → β} :
    (f <$> r) ts = match r ts with
      | .ok (a, rest) => .ok (f a, rest)
      | .error fault => .error fault := by
  rw [map_eq_pure_bind, bind_apply]
  rfl

theorem name_quoted : name (.quoted s :: ts) = .ok (s, ts) :=
  rfl

theorem mark_cons : mark c (.punct c :: ts) = .ok ((), ts) := by
  simp [mark]

theorem mark?_cons : mark? c (.punct c :: ts) = .ok (true, ts) := by
  simp [mark?]

theorem mark?_of_ne (h : ts.head? ≠ some (.punct c)) : mark? c ts = .ok (false, ts) := by
  cases ts <;> simp_all [mark?]

theorem keyword_cons : keyword s (.word s :: ts) = .ok ((), ts) := by
  simp [keyword, Token.isKeyword]

theorem finish_nil : finish [] = .ok ((), []) :=
  rfl

theorem tableName_tokens (t : TableName) : tableName (tableTokens t ++ rest) = .ok (t, rest) :=
  rfl

theorem length_numeral (h : n < wordEnd) : length (.number n.repr :: rest) = .ok (n, rest) := by
  have digits : ∀ d ∈ Nat.toDigits 10 n, d.isDigit := fun d hd =>
    Nat.isDigit_of_mem_toDigits (by decide) (by decide) hd
  have value : Numeral.read (Nat.toDigits 10 n) = n := Numeral.read_write n
  have hr : Numeral.read? n.repr.toList = some n := by
    simpa [Numeral.read?, value] using digits
  unfold length
  simp only [hr, h, if_true]

-- A type is read to its end if no length can follow.
theorem columnType_tokens {t : ColumnType} (h : t.Writable) (hr : rest.head? ≠ some (.punct '(')) :
    columnType (typeTokens t ++ rest) = .ok (t, rest) := by
  have bare : lengthInParentheses rest = .ok (0, rest) := by
    simp [lengthInParentheses, bind_apply, mark?_of_ne hr, pure_apply]
  cases t with
  | varchar n =>
    have hl : length (.number n.repr :: .punct ')' :: rest) = .ok (n, .punct ')' :: rest) :=
      length_numeral <| Nat.lt_of_le_of_lt h.2 (by decide)
    have hn : n ≠ 0 := Nat.pos_iff_ne_zero.mp h.1
    simp [columnType, typeTokens, bind_apply, name, lengthInParentheses, mark?_cons, hl, map_apply,
      mark_cons, ColumnType.ofParts?_varchar h.2, hn, pure_apply]
  | timestamp =>
    have : ColumnType.ofParts? "TIMESTAMP" 0 = some .timestamp := by cbv
    simp [columnType, typeTokens, bind_apply, name, bare, this, pure_apply]
  | double =>
    have : ColumnType.ofParts? "DOUBLE" 0 = some .double := by cbv
    simp [columnType, typeTokens, bind_apply, name, bare, this, pure_apply]
  | bigint =>
    have : ColumnType.ofParts? "BIGINT" 0 = some .bigint := by cbv
    simp [columnType, typeTokens, bind_apply, name, bare, this, pure_apply]
  | bool =>
    have : ColumnType.ofParts? "BOOL" 0 = some .bool := by cbv
    simp [columnType, typeTokens, bind_apply, name, bare, this, pure_apply]

theorem column_tokens {c : Column} (h : c.type.Writable) (rest : List Token)
    (hr : rest.head? ≠ some (.punct '(')) : column (columnTokens c ++ rest) = .ok (c, rest) := by
  simp [column, columnTokens, bind_apply, map_apply, name_quoted, columnType_tokens h hr]

variable {item : Reading α} {takes : Takes item}

theorem commaList_last (h : item ts = .ok (a, rest)) (hr : rest.head? ≠ some (.punct ',')) :
    commaList item takes ts = .ok ([a], rest) := by
  unfold commaList
  split <;> grind

theorem commaList_cons (h : item ts = .ok (a, .punct ',' :: rest)) :
    commaList item takes ts = (commaList item takes rest).map fun r => (a :: r.1, r.2) := by
  conv => lhs; unfold commaList
  split <;> simp_all

theorem commaList_tokens {tokens : α → List Token} {as : List α} (hn : as ≠ [])
    (h : ∀ a ∈ as, ∀ rest, rest.head? ≠ some (.punct '(') → item (tokens a ++ rest) = .ok (a, rest))
    (ho : rest.head? ≠ some (.punct '(')) (hc : rest.head? ≠ some (.punct ',')) :
    commaList item takes ([.punct ','].intercalate (as.map tokens) ++ rest) = .ok (as, rest) := by
  induction as with
  | nil => contradiction
  | cons a as ih =>
    have ha := h a List.mem_cons_self
    cases as with
    | nil => simpa using commaList_last (ha _ ho) hc
    | cons b as =>
      have hs := ih (by simp) fun c hm => h c (List.mem_cons_of_mem _ hm)
      simp only [List.map_cons, List.intercalate_cons_cons, List.append_assoc, List.cons_append,
        List.nil_append] at hs ⊢
      rw [commaList_cons (ha _ (by simp)), hs]
      rfl

theorem columns_tokens {cs : List Column} (hc : cs ≠ []) (h : ∀ c ∈ cs, c.type.Writable)
    (rest : List Token) : columns (columnsTokens cs ++ rest) = .ok (cs, rest) := by
  have list : commaList column takes_column
      ([.punct ','].intercalate (cs.map columnTokens) ++ .punct ')' :: rest) =
        .ok (cs, .punct ')' :: rest) :=
    commaList_tokens hc (fun c hm => column_tokens (h c hm)) (by simp) (by simp)
  simp [columns, columnsTokens, bind_apply, map_apply, mark_cons, list]

-- The statements.

theorem ifNotExists_tokens :
    keywords? ["IF", "NOT", "EXISTS"] (.word "IF" :: .word "NOT" :: .word "EXISTS" :: ts) =
      .ok (true, ts) := by
  simp [keywords?, afterKeywords?, Token.isKeyword]

theorem ifExists_tokens :
    keywords? ["IF", "EXISTS"] (.word "IF" :: .word "EXISTS" :: ts) = .ok (true, ts) := by
  simp [keywords?, afterKeywords?, Token.isKeyword]

theorem ifExists_quoted : keywords? ["IF", "EXISTS"] (.quoted s :: ts) =
    .ok (false, .quoted s :: ts) := by
  simp [keywords?, afterKeywords?, Token.isKeyword]

-- The front of the statements that make something; what is there already is left alone.
def makeTokens (kind : String) : List Token :=
  [.word "CREATE", .word kind, .word "IF", .word "NOT", .word "EXISTS"]

theorem createDatabase_tokens :
    statement text (makeTokens "DATABASE" ++ .quoted s :: rest) =
      .ok (.createDatabase true s, rest) := by
  have dispatch (ts) : statement text (.word "CREATE" :: .word "DATABASE" :: ts) =
      createDatabase ts := by cbv
  simp [makeTokens, dispatch, createDatabase, bind_apply, ifNotExists_tokens,
    map_apply, name_quoted]

theorem createSuperTable_tokens {cs tags : List Column} (hc : cs ≠ [])
    (hcs : ∀ c ∈ cs, c.type.Writable) (ht : tags ≠ []) (hts : ∀ c ∈ tags, c.type.Writable) :
    statement text (makeTokens "STABLE" ++ (tableTokens t ++ (columnsTokens cs ++
      .word "TAGS" :: columnsTokens tags))) = .ok (.createSuperTable true t ⟨cs, tags⟩, []) := by
  have dispatch (ts) : statement text (.word "CREATE" :: .word "STABLE" :: ts) =
      createSuperTable ts := by cbv
  have columns {rest} : columns (columnsTokens cs ++ rest) = .ok (cs, rest) :=
    columns_tokens hc hcs _
  have tags : Reading.columns (columnsTokens tags) = .ok (tags, []) := by
    simpa using columns_tokens ht hts []
  simp [makeTokens, dispatch, createSuperTable, bind_apply, ifNotExists_tokens, tableName_tokens,
    columns, keyword_cons, tags, finish_nil, map_apply]

-- What an accepted statement that binds a child table does is known from its front.
theorem createChildTable_tokens (h : statement text (makeTokens "TABLE" ++ (tableTokens t ++
      .word "USING" :: (tableTokens superTable ++ .word "TAGS" :: rest))) = .ok (s, left)) :
    ∃ tags, s = .createChildTable true t superTable tags := by
  have dispatch (ts) : statement text (.word "CREATE" :: .word "TABLE" :: ts) =
      createChildTable ts := by cbv
  simp [makeTokens, dispatch, createChildTable, bind_apply, ifNotExists_tokens, tableName_tokens,
    keyword_cons, map_apply] at h
  split at h <;> try contradiction
  split at h <;> simp_all
  exact ⟨_, h.1.symm⟩

-- All of it is known if the values are a number and a text.
theorem createChildTable_values :
    statement text (makeTokens "TABLE" ++ (tableTokens t ++ .word "USING" ::
      (tableTokens superTable ++ .word "TAGS" ::
        [.punct '(', .number n, .punct ',', .text s, .punct ')']))) =
      .ok (.createChildTable true t superTable [n, s], []) := by
  have dispatch (ts) : statement text (.word "CREATE" :: .word "TABLE" :: ts) =
      createChildTable ts := by cbv
  have number (ts) : tagValue (.number n :: ts) = .ok (n, ts) := rfl
  have last (ts) : tagValue (.text s :: ts) = .ok (s, ts) := rfl
  have values : commaList tagValue takes_tagValue [.number n, .punct ',', .text s, .punct ')'] =
      .ok ([n, s], [.punct ')']) := by
    rw [commaList_cons (number _), commaList_last (last _) (by simp)]
    rfl
  simp [makeTokens, dispatch, createChildTable, tagValues, bind_apply, ifNotExists_tokens,
    tableName_tokens, keyword_cons, mark_cons, values, finish_nil, map_apply]

-- What an accepted statement that makes a stream does is known as well, up to the table that the
-- stream reads.
theorem createStream_tokens (h : statement text (makeTokens "STREAM" ++ .quoted stream ::
      .word "TRIGGER" :: .word "WINDOW_CLOSE" :: .word "INTO" :: (tableTokens target ++ rest)) =
      .ok (s, left)) :
    ∃ source, s = .createStream true stream target source := by
  have dispatch (ts) : statement text (.word "CREATE" :: .word "STREAM" :: ts) =
      createStream ts := by cbv
  have into (ts) : past "INTO" .noTarget
      (.word "TRIGGER" :: .word "WINDOW_CLOSE" :: .word "INTO" :: ts) = .ok ((), ts) := by cbv
  simp [makeTokens, dispatch, createStream, bind_apply, ifNotExists_tokens, name_quoted, into,
    tableName_tokens, map_apply] at h
  split at h <;> try contradiction
  split at h <;> try contradiction
  split at h <;> try contradiction
  split at h <;> simp_all
  exact ⟨_, h.1.symm⟩

theorem alter_tokens :
    statement text (.word "ALTER" :: .word "STABLE" :: ts) = alterSuperTable ts := by
  cbv

theorem addColumn_tokens {c : Column} (h : c.type.Writable) :
    statement text (.word "ALTER" :: .word "STABLE" :: (tableTokens t ++
      .word "ADD" :: .word "COLUMN" :: columnTokens c)) = .ok (.addColumn t c, []) := by
  have column : column (columnTokens c) = .ok (c, []) := by
    simpa using column_tokens h [] nofun
  have add (ts) : keyword? "ADD" (.word "ADD" :: ts) = .ok (true, ts) := by
    simp [keyword?, Token.isKeyword]
  simp [alter_tokens, alterSuperTable, bind_apply, tableName_tokens, add, keyword_cons, column,
    finish_nil, map_apply]

theorem modifyColumn_tokens {c : Column} (h : c.type.Writable) :
    statement text (.word "ALTER" :: .word "STABLE" :: (tableTokens t ++
      .word "MODIFY" :: .word "COLUMN" :: columnTokens c)) = .ok (.modifyColumn t c, []) := by
  have column : column (columnTokens c) = .ok (c, []) := by
    simpa using column_tokens h [] nofun
  have notAdd (ts) : keyword? "ADD" (.word "MODIFY" :: ts) = .ok (false, .word "MODIFY" :: ts) := by
    cbv
  have modify (ts) : keyword? "MODIFY" (.word "MODIFY" :: ts) = .ok (true, ts) := by
    simp [keyword?, Token.isKeyword]
  simp [alter_tokens, alterSuperTable, bind_apply, tableName_tokens, notAdd, modify, keyword_cons,
    column, finish_nil, map_apply]

theorem setPaused_tokens (paused : Bool) :
    setPaused paused [.quoted s] = .ok (.setPaused false s paused, []) := by
  have ignore : keywords? ["IGNORE", "UNTREATED"] [.quoted s] = .ok (false, [.quoted s]) := by
    simp [keywords?, afterKeywords?, Token.isKeyword]
  simp [setPaused, bind_apply, ifExists_quoted, ignore, name_quoted, finish_nil, map_apply]

theorem pauseStream_tokens :
    statement text [.word "PAUSE", .word "STREAM", .quoted s] =
    .ok (.setPaused false s true, []) := by
  have dispatch (ts) : statement text (.word "PAUSE" :: .word "STREAM" :: ts) =
      setPaused true ts := by cbv
  rw [dispatch, setPaused_tokens]

theorem resumeStream_tokens :
    statement text [.word "RESUME", .word "STREAM", .quoted s] =
      .ok (.setPaused false s false, []) := by
  have dispatch (ts) : statement text (.word "RESUME" :: .word "STREAM" :: ts) =
      setPaused false ts := by cbv
  rw [dispatch, setPaused_tokens]

theorem dropStream_tokens :
    statement text [.word "DROP", .word "STREAM", .word "IF", .word "EXISTS", .quoted s] =
      .ok (.dropStream true s, []) := by
  have dispatch (ts) : statement text (.word "DROP" :: .word "STREAM" :: ts) = dropStream ts := by
    cbv
  simp [dispatch, dropStream, bind_apply, ifExists_tokens, name_quoted, finish_nil, map_apply]

end Reading

namespace Statement

-- A text that is read as the tokens of a statement is that statement.
theorem parse_eq {text : String} (h : Reads text.toList ts [])
    (hs : Reading.statement text ts = .ok (s, rest)) : parse text = .ok s := by
  simp [parse, h.tokenize_eq, bind, Except.bind, hs, pure, Except.pure]

-- What the front of an accepted text is read as stands in front of all its tokens.
theorem parse_ok {text : String} (ht : text.toList = cs ++ rest) (h : Reads cs ts rest)
    (hs : parse text = .ok s) :
    ∃ us left, Reading.statement text (ts ++ us) = .ok (s, left) := by
  cases hu : tokenize text with
  | error fault => simp [parse, hu, bind, Except.bind] at hs
  | ok us =>
    obtain ⟨vs, -, rfl⟩ := h.tokenize_ok ht hu
    refine ⟨vs, ?_⟩
    simp only [parse, hu, ok_mapError, bind, Except.bind, pure, Except.pure] at hs
    cases hr : Reading.statement text (ts ++ vs) <;> simp_all
    exact ⟨_, by rw [← hs]⟩

end Statement

end Sql

end Historian
