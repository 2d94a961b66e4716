import Historian.Proofs.Catalog.Operations
import Historian.Proofs.Feature.Canonical
import Historian.Proofs.Sql.Values
import Historian.Proofs.Stream.Statement

namespace Historian

open Sql Lexer

-- The tokens of a compiled stream, part by part.

def FilterValue.tokens : FilterValue → List Token
  | .bool b => [.word (if b then "true" else "false")]
  | .number x => numberTokens x.write
  | .text s => [.text s]

def Filter.tokens (f : Filter) : List Token := .quoted f.field :: opToken f.op :: f.value.tokens

namespace FeatureConfig

def selectTokens (c : FeatureConfig) : List Token :=
  [.word "AS", .word "SELECT", .word "_wstart", .word "AS", .word "ts", .punct ',',
    .word c.function.sqlName, .punct '(', .quoted c.signal, .punct ')', .word "AS", .quoted c.name,
    .word "FROM"]

def conditionTokens (c : FeatureConfig) : List Token :=
  if c.filters.isEmpty then []
  else .word "WHERE" :: [.word "AND"].intercalate (c.filters.map Filter.tokens)

def windowTokens (c : FeatureConfig) : List Token :=
  [.word "PARTITION", .word "BY"] ++
    ([.punct ','].intercalate ((groupTag :: c.groupBy).map fun key => [.quoted key]) ++
    [.word "INTERVAL", .punct '(', .word c.window.write, .punct ')',
      .word "SLIDING", .punct '(', .word c.slide.write, .punct ')'])

end FeatureConfig

def CompiledStream.tokens (database stream target source : String) (c : FeatureConfig) :
    List Token :=
  (Reading.makeTokens "STREAM" ++ .quoted stream ::
    ([.word "TRIGGER", .word "WINDOW_CLOSE", .word "INTO"] ++ tableTokens ⟨database, target⟩)) ++
    (c.selectTokens ++ (tableTokens ⟨database, source⟩ ++ (c.conditionTokens ++ c.windowTokens)))

namespace Sql.Lexer.Reads

-- Items with something between them, which each of them can end at.
theorem separated (Ends : List Char → Prop) {text : α → String} {tokens : α → List Token}
    {xs : List α} {sep : String}
    (item : ∀ x ∈ xs, ∀ rest, Ends rest → Reads (text x).toList (tokens x) rest)
    (between : ∀ rest, Reads sep.toList us rest) (ends : ∀ rest, Ends (sep.toList ++ rest))
    (hr : Ends rest) :
    Reads (sep.intercalate (xs.map text)).toList (us.intercalate (xs.map tokens)) rest := by
  induction xs with
  | nil => exact .nil
  | cons x xs ih =>
    have ⟨hx, hxs⟩ := List.forall_mem_cons.mp item
    cases xs with
    | nil => simpa using hx rest hr
    | cons y ys =>
      have tail := (between _).append (ih hxs)
      have head : Reads (text x).toList (tokens x)
          (sep.toList ++ (sep.intercalate ((y :: ys).map text)).toList ++ rest) := by
        rw [List.append_assoc]
        exact hx _ (ends _)
      simpa [String.intercalate_cons_cons] using head.append tail

theorem value (v : FilterValue) : Reads v.write.toList v.tokens (' ' :: rest) := by
  cases v with
  | bool b => cases b <;> exact .word .cons
  | number x => exact .jsonNumber x
  | text s => exact .literal (by simp)

theorem filter {f : Filter} (h : '`' ∉ f.field.toList) :
    Reads (CompiledStream.writeFilter f).toList f.tokens (' ' :: rest) := by
  have value : Reads f.value.write.toList f.value.tokens (' ' :: rest) := .value f.value
  have compared := (Reads.op f.op).append (Reads.append .blank value)
  have := (Reads.name h (by simp)).append (Reads.append .blank compared)
  simpa [CompiledStream.writeFilter, Filter.tokens, toString_text] using this

theorem condition {c : FeatureConfig} (h : ∀ f ∈ c.filters, '`' ∉ f.field.toList) :
    Reads (CompiledStream.writeCondition c.filters).toList c.conditionTokens (' ' :: rest) := by
  unfold CompiledStream.writeCondition FeatureConfig.conditionTokens
  split
  case isTrue => exact .nil
  case isFalse =>
    have between (rest) : Reads " AND ".toList [.word "AND"] rest :=
      Reads.append .blank (.words ["AND"])
    have filter : ∀ f ∈ c.filters, ∀ rest, rest.head? = some ' ' →
        Reads (CompiledStream.writeFilter f).toList f.tokens rest := by
      intro f hf rest hr
      obtain ⟨ds, rfl⟩ : ∃ ds, rest = ' ' :: ds := by cases rest <;> simp_all
      exact .filter (h f hf)
    have filters : Reads _ _ (' ' :: rest) :=
      separated (fun rest => rest.head? = some ' ') filter between (by simp) rfl
    have := Reads.append .blank ((Reads.words ["WHERE"]).append filters)
    simpa [Lexer.phrase] using this

theorem keys {keys : List String} (h : ∀ key ∈ keys, '`' ∉ key.toList) :
    Reads (", ".intercalate (keys.map Sql.name)).toList
      ([.punct ','].intercalate (keys.map fun key => [.quoted key])) (' ' :: rest) := by
  have between (rest) : Reads ", ".toList [.punct ','] rest :=
    Reads.append (.mark (c := ',') (by simp)) .blank
  exact separated (fun rest => rest.head? ≠ some '`')
    (fun key hk rest hr => .name (h key hk) hr) between (by simp) (by simp)

theorem parenthesized {w : String} (hw : isPlainWord w) (h : Reads cs ts (')' :: rest)) :
    Reads (w.toList ++ '(' :: (cs ++ [')'])) (.word w :: .punct '(' :: (ts ++ [.punct ')']))
      rest := by
  have opened {rest} : Reads ['('] [.punct '('] rest := .mark (by simp)
  have closed : Reads [')'] [.punct ')'] rest := .mark (by simp)
  have word {rest} : Reads w.toList [.word w] ('(' :: rest) := .word .cons hw
  simpa using word.append (opened.append (h.append closed))

theorem window {c : FeatureConfig} (h : ∀ key ∈ c.groupBy, '`' ∉ key.toList) :
    Reads (' ' :: ("PARTITION BY " ++
      ", ".intercalate ((FeatureConfig.groupTag :: c.groupBy).map Sql.name) ++
        " INTERVAL(" ++ c.window.write ++ ") SLIDING(" ++ c.slide.write ++ ")").toList)
      c.windowTokens [] := by
  have quotable : ∀ key ∈ FeatureConfig.groupTag :: c.groupBy, '`' ∉ key.toList :=
    List.forall_mem_cons.mpr ⟨by decide, h⟩
  have keys (rest) : Reads _ _ (' ' :: rest) := .keys quotable
  have slide : Reads _ _ [] :=
    .parenthesized (w := "SLIDING") (by decide) (.duration c.slide .cons)
  have window (rest) : Reads _ _ rest :=
    .parenthesized (w := "INTERVAL") (by decide) (.duration c.window .cons)
  have := Reads.append .blank ((Reads.words ["PARTITION", "BY"]).append
    ((keys _).append (Reads.append .blank ((window _).append (Reads.append .blank slide)))))
  simpa [Lexer.phrase, FeatureConfig.windowTokens] using this

theorem select {c : FeatureConfig} (hs : '`' ∉ c.signal.toList) (hn : '`' ∉ c.name.toList) :
    Reads (' ' :: ("AS SELECT _wstart AS ts, " ++ c.function.sqlName ++ "(" ++ Sql.name c.signal ++
      ") AS " ++ Sql.name c.name ++ " FROM ").toList) c.selectTokens rest := by
  have plain : isPlainWord c.function.sqlName := by cases c.function <;> decide +kernel
  have comma {rest} : Reads [','] [.punct ','] rest := .mark (by simp)
  have ts {rest} : Reads "ts".toList [.word "ts"] (',' :: rest) := .word .cons
  have signal (rest) : Reads _ _ rest := .parenthesized plain (.name hs (by simp))
  have table : Reads _ _ rest := .words ["FROM"]
  have named := (Reads.words ["AS"]).append ((Reads.name hn (by simp)).append
    (Reads.append .blank table))
  have aggregate := (signal _).append (Reads.append .blank named)
  have := Reads.append .blank ((Reads.words ["AS", "SELECT", "_wstart", "AS"]).append
    (ts.append (comma.append (Reads.append .blank aggregate))))
  simpa [Lexer.phrase, FeatureConfig.selectTokens] using this

theorem made (hs : '`' ∉ stream.toList) (ht : (TableName.mk database target).Quotable) :
    Reads ("CREATE STREAM IF NOT EXISTS " ++ Sql.name stream ++ " TRIGGER WINDOW_CLOSE INTO " ++
      Sql.qualified database target).toList
      (Reading.makeTokens "STREAM" ++ .quoted stream ::
        ([.word "TRIGGER", .word "WINDOW_CLOSE", .word "INTO"] ++ tableTokens ⟨database, target⟩))
      (' ' :: rest) := by
  have table : Reads _ _ (' ' :: rest) := .table ht (by simp)
  have into := (Reads.words ["TRIGGER", "WINDOW_CLOSE", "INTO"]).append table
  have := (Reads.words ["CREATE", "STREAM", "IF", "NOT", "EXISTS"]).append
    ((Reads.name hs (by simp)).append (Reads.append .blank into))
  simpa [Lexer.phrase, Reading.makeTokens, TableName.write] using this

end Sql.Lexer.Reads

namespace CompiledStream

theorem ofFeature_eq_ok {c : FeatureConfig} {n : Int} : ofFeature k c n = .ok s ↔
    1 ≤ n ∧ Identifier.Valid Identifier.tableLimit (nameOf k.code c.name n) ∧
      Identifier.Valid Identifier.tableLimit (targetOf k.code c.name) ∧
      Identifier.Valid Identifier.tableLimit (c.sourceTable.getD k.superTableName) ∧
      ⟨nameOf k.code c.name n, targetOf k.code c.name, n,
        statement k.database (nameOf k.code c.name n) (targetOf k.code c.name)
          (c.sourceTable.getD k.superTableName) c⟩ = s := by
  unfold ofFeature
  split
  case isTrue h => simp; omega
  case isFalse h =>
    simp only [bind_unit_eq_ok, requireTableName_ok, pure_eq_ok]
    simp; omega

-- The names that a statement puts between backticks.
structure Quotable (database stream target source : String) (c : FeatureConfig) : Prop where
  stream : '`' ∉ stream.toList
  target : TableName.Quotable ⟨database, target⟩
  source : TableName.Quotable ⟨database, source⟩
  signal : '`' ∉ c.signal.toList
  name : '`' ∉ c.name.toList
  fields : ∀ f ∈ c.filters, '`' ∉ f.field.toList
  keys : ∀ key ∈ c.groupBy, '`' ∉ key.toList

theorem tokenize_statement {c : FeatureConfig} (h : Quotable database stream target source c) :
    tokenize (statement database stream target source c) =
      .ok (tokens database stream target source c) := by
  have condition (rest) : Reads _ _ (' ' :: rest) := .condition h.fields
  have source {rest : List Char} (hr : rest.head? ≠ some '`') := Reads.table h.source hr
  have made (rest) : Reads _ _ (' ' :: rest) := .made h.stream h.target
  have select (rest) : Reads _ _ rest := .select h.signal h.name
  refine Reads.tokenize_eq ?_
  have := (made _).append ((select _).append ((source ?_).append
    ((condition _).append (Reads.window h.keys))))
  · simpa [statement_eq, tokens, TableName.write] using this
  · unfold writeCondition
    split <;> simp

-- What a document asks for has names that need no escape, in a category that was accepted.
theorem quotable_of_read {k : CategoryKey} {c : FeatureConfig} {n : Int} (hk : k.Valid)
    (hc : FeatureConfig.read raw = .ok c) (hs : ofFeature k c n = .ok s) :
    Quotable k.database s.streamName s.targetTable (c.sourceTable.getD k.superTableName) c := by
  obtain ⟨-, stream, target, source, rfl⟩ := ofFeature_eq_ok.mp hs
  have reads := FeatureConfig.read_eq_ok.mp hc
  have database := hk.database.no_backtick
  refine ⟨stream.no_backtick, ⟨database, target.no_backtick⟩, ⟨database, source.no_backtick⟩,
    (requireIdentifier_ok.mp reads.signalFits).no_backtick,
    (requireIdentifier_ok.mp reads.nameFits).no_backtick, fun f hf => ?_, fun key hkey => ?_⟩
  · obtain ⟨fs, -, fits, canonical⟩ := Filter.readAll_eq_ok.mp reads.filters
    have member : f ∈ fs := mem_of_mem_settle (canonical ▸ hf)
    exact (requireIdentifier_ok.mp (fits f member)).no_backtick
  · obtain ⟨keys, -, fits, canonical⟩ := FeatureConfig.readGroupBy_ok reads.groupBy
    have member : key ∈ keys := (List.mem_filter.mp (mem_of_mem_settle (canonical ▸ hkey))).1
    exact (requireIdentifier_ok.mp (fits key member)).no_backtick

end CompiledStream

-- Of all tokens of a statement, its names between backticks and its texts.

def Sql.Token.name? : Token → Option String
  | .quoted s => some s
  | _ => none

def Sql.Token.text? : Token → Option String
  | .text s => some s
  | _ => none

def FilterValue.text? : FilterValue → Option String
  | .text s => some s
  | _ => none

theorem numberTokens_plain : (numberTokens s).filterMap Token.name? = [] ∧
    (numberTokens s).filterMap Token.text? = [] := by
  unfold numberTokens
  split <;> simp [Token.name?, Token.text?]

theorem opToken_plain (op : FilterOp) : (opToken op).name? = none ∧ (opToken op).text? = none := by
  cases op <;> exact ⟨rfl, rfl⟩

theorem filterMap_intercalate {sep : List α} (f : α → Option β) (hs : sep.filterMap f = [])
    (xss : List (List α)) : (sep.intercalate xss).filterMap f = xss.flatMap (·.filterMap f) := by
  induction xss with
  | nil => rfl
  | cons xs xss ih => cases xss <;> simp_all

theorem intercalate_split (sep : List α) (xss : List (List α)) (ys : List α)
    (zss : List (List α)) : sep.intercalate (xss ++ ys :: zss) =
      xss.flatMap (· ++ sep) ++ (ys ++ zss.flatMap (sep ++ ·)) := by
  induction xss with
  | nil =>
    induction zss generalizing ys with
    | nil => simp
    | cons zs zss ih => simp_all
  | cons xs xss ih =>
    rw [List.cons_append, List.intercalate_cons_of_ne_nil (by simp), ih]
    simp

namespace Filter

theorem tokens_names (f : Filter) : f.tokens.filterMap Token.name? = [f.field] := by
  have op := (opToken_plain f.op).1
  have value : f.value.tokens.filterMap Token.name? = [] := by
    cases f.value with
    | number x => exact numberTokens_plain.1
    | _ => rfl
  simp only [tokens, List.filterMap_cons, op, value]
  rfl

theorem tokens_texts (f : Filter) :
    f.tokens.filterMap Token.text? = f.value.text?.toList := by
  have op := (opToken_plain f.op).2
  have value : f.value.tokens.filterMap Token.text? = f.value.text?.toList := by
    cases f.value with
    | number x => exact numberTokens_plain.2
    | _ => rfl
  simp only [tokens, List.filterMap_cons, op, value]
  rfl

end Filter

namespace FeatureConfig

theorem conditionTokens_split {c : FeatureConfig} (h : c.filters = before ++ f :: after) :
    c.conditionTokens = .word "WHERE" :: before.flatMap (·.tokens ++ [.word "AND"]) ++
      (f.tokens ++ after.flatMap ([.word "AND"] ++ ·.tokens)) := by
  have some : c.filters.isEmpty = false := by simp [h]
  simp only [conditionTokens, some, Bool.false_eq_true, if_false]
  simp [h, intercalate_split, List.flatMap_map]

theorem conditionTokens_names (c : FeatureConfig) :
    c.conditionTokens.filterMap Token.name? = c.filters.map (·.field) := by
  unfold conditionTokens
  split
  case isTrue h => simp_all
  case isFalse =>
    change ([.word "AND"].intercalate (c.filters.map Filter.tokens)).filterMap Token.name? = _
    rw [filterMap_intercalate _ rfl, List.flatMap_map]
    simp only [Filter.tokens_names, List.map_eq_flatMap]

theorem conditionTokens_texts (c : FeatureConfig) :
    c.conditionTokens.filterMap Token.text? = c.filters.filterMap (·.value.text?) := by
  unfold conditionTokens
  split
  case isTrue h => simp_all
  case isFalse =>
    change ([.word "AND"].intercalate (c.filters.map Filter.tokens)).filterMap Token.text? = _
    rw [filterMap_intercalate _ rfl, List.flatMap_map]
    simp only [Filter.tokens_texts]
    exact (List.filterMap_eq_flatMap_toList _ _).symm

theorem windowTokens_names (c : FeatureConfig) :
    c.windowTokens.filterMap Token.name? = groupTag :: c.groupBy := by
  unfold windowTokens
  rw [List.filterMap_append, List.filterMap_append, filterMap_intercalate _ rfl, List.flatMap_map]
  change [] ++ ((groupTag :: c.groupBy).flatMap (fun key => [key]) ++ []) = _
  simp

theorem windowTokens_texts (c : FeatureConfig) : c.windowTokens.filterMap Token.text? = [] := by
  unfold windowTokens
  rw [List.filterMap_append, List.filterMap_append, filterMap_intercalate _ rfl, List.flatMap_map]
  change [] ++ ((groupTag :: c.groupBy).flatMap (fun _ => []) ++ []) = _
  simp

end FeatureConfig

namespace CompiledStream

theorem tokens_names (database stream target source : String) (c : FeatureConfig) :
    (tokens database stream target source c).filterMap Token.name? =
      [stream, database, target, c.signal, c.name, database, source] ++
        (c.filters.map (·.field) ++ FeatureConfig.groupTag :: c.groupBy) := by
  unfold tokens
  simp only [List.filterMap_append, c.conditionTokens_names, c.windowTokens_names]
  rfl

theorem tokens_texts (database stream target source : String) (c : FeatureConfig) :
    (tokens database stream target source c).filterMap Token.text? =
      c.filters.filterMap (·.value.text?) := by
  unfold tokens
  simp only [List.filterMap_append, c.conditionTokens_texts, c.windowTokens_texts, List.append_nil]
  rfl

-- A text among the filters has one place among the tokens. The others do not depend on it.
theorem tokens_replace (database stream target source : String) (c : FeatureConfig)
    (before after : List Filter) (field : String) (op : FilterOp) : ∃ us vs, ∀ text,
    tokens database stream target source
        { c with filters := before ++ ⟨field, op, .text text⟩ :: after } =
      us ++ .text text :: vs := by
  let front := Reading.makeTokens "STREAM" ++ .quoted stream ::
    ([.word "TRIGGER", .word "WINDOW_CLOSE", .word "INTO"] ++ tableTokens ⟨database, target⟩)
  let earlier := .word "WHERE" :: before.flatMap (·.tokens ++ [.word "AND"])
  refine ⟨front ++ (c.selectTokens ++ (tableTokens ⟨database, source⟩ ++
      (earlier ++ [.quoted field, opToken op]))),
    after.flatMap ([.word "AND"] ++ ·.tokens) ++ c.windowTokens, fun text => ?_⟩
  rw [tokens, FeatureConfig.conditionTokens_split rfl]
  simp [front, earlier, Filter.tokens, FilterValue.tokens, FeatureConfig.selectTokens,
    FeatureConfig.windowTokens]

-- A filter cannot change the structure of the query that it is part of. The tokens of a compiled
-- feature are known, every name and every text is one of them as it is, and another text in the
-- place of one is another token in that place.
theorem statement_structure {catalog : Catalog} {spec : CategorySpec} {c : FeatureConfig}
    {n : Int} (hk : catalog.createCategory spec = .ok made) (hc : FeatureConfig.read raw = .ok c)
    (hs : ofFeature spec.toCategoryKey c n = .ok s) :
    let source := c.sourceTable.getD spec.superTableName
    let ts := tokens spec.database s.streamName s.targetTable source c
    tokenize s.sql = .ok ts ∧
      ts.filterMap Token.name? =
        [s.streamName, spec.database, s.targetTable, c.signal, c.name, spec.database, source] ++
          (c.filters.map (·.field) ++ FeatureConfig.groupTag :: c.groupBy) ∧
      ts.filterMap Token.text? = c.filters.filterMap (·.value.text?) ∧
      ∀ before field op text after, c.filters = before ++ ⟨field, op, .text text⟩ :: after →
        ∃ us vs, ts = us ++ .text text :: vs ∧ ∀ other, ∃ s',
          ofFeature spec.toCategoryKey
            { c with filters := before ++ ⟨field, op, .text other⟩ :: after } n = .ok s' ∧
          tokenize s'.sql = .ok (us ++ .text other :: vs) := by
  intro source ts
  obtain ⟨made, catalog'⟩ := made
  have valid : spec.toCategoryKey.Valid := by
    have check := (Catalog.createCategory_ok hk).1
    simp only [CategorySpec.check, bind_unit_eq_ok] at check
    exact CategoryKey.check_ok.mp check.1
  have quotable := quotable_of_read valid hc hs
  obtain ⟨positive, stream, target, table, rfl⟩ := ofFeature_eq_ok.mp hs
  refine ⟨tokenize_statement quotable, tokens_names .., tokens_texts .., ?_⟩
  intro before field op text after hf
  obtain ⟨us, vs, replaced⟩ := tokens_replace spec.database (nameOf spec.code c.name n)
    (targetOf spec.code c.name) source c before after field op
  refine ⟨us, vs, ?_, fun other =>
    ⟨_, ofFeature_eq_ok.mpr ⟨positive, stream, target, table, rfl⟩, ?_⟩⟩
  · rw [← replaced text, ← hf]
  · rw [← replaced other]
    refine tokenize_statement ⟨quotable.stream, quotable.target, quotable.source, quotable.signal,
      quotable.name, fun f hm => ?_, quotable.keys⟩
    have fields := quotable.fields
    rw [hf] at fields
    rcases List.mem_append.mp hm with hm | hm
    · exact fields f (List.mem_append_left _ hm)
    · rcases List.mem_cons.mp hm with rfl | hm
      · exact fields ⟨field, op, .text text⟩ (List.mem_append_right _ List.mem_cons_self)
      · exact fields f (List.mem_append_right _ (List.mem_cons_of_mem _ hm))

-- A text that would end the literal and begin a comment if it could.

def motor : CategorySpec := { code := "motor", database := "plant", name := "Motor" }

def hostile : String := "\\' OR `x` = 'y'' -- \n\x00\\"

def hostileDocument : Json :=
  .object [("filters", .object [("place", .text hostile)]), ("function", .text "avg"),
    ("name", .text "avg1"), ("source_signal", .text "temp"), ("window", .text "1h")]

def hostileConfig : FeatureConfig where
  name := "avg1"
  signal := "temp"
  function := .avg
  window := FeatureConfig.settled.window
  slide := FeatureConfig.settled.window
  filters := [⟨"place", .eq, .text hostile⟩]

theorem read_hostile : FeatureConfig.read hostileDocument = .ok hostileConfig := by
  have listed : Filter.listOfJson ((hostileDocument.member? "filters").getD .null) =
      .ok hostileConfig.filters := rfl
  refine FeatureConfig.read_eq_ok.mpr ⟨⟨_, rfl, by decide +kernel⟩, rfl, rfl, rfl, rfl,
    ⟨_, rfl, FeatureConfig.readFunction_name .avg⟩, ⟨_, rfl, ?_⟩, ⟨none, rfl, rfl⟩, by decide,
    ?_, ?_, rfl, rfl, rfl⟩
  · exact FeatureConfig.readDuration_eq_ok.mpr (toOption_eq_some.mp (by decide +kernel))
  · exact Filter.readAll_eq_ok.mpr ⟨_, listed, List.forall_mem_singleton.mpr rfl,
      Filter.canonical_singleton _⟩
  · rfl

theorem statement_structure_hostile : ∃ made s,
    ({} : Catalog).createCategory motor = .ok made ∧
      FeatureConfig.read hostileDocument = .ok hostileConfig ∧
      ofFeature motor.toCategoryKey hostileConfig 1 = .ok s ∧
      ∃ ts, tokenize s.sql = .ok ts ∧ ts.filterMap Token.text? = [hostile] := by
  have accepted : (({} : Catalog).createCategory motor).toOption.isSome := by decide +kernel
  obtain ⟨made, hk⟩ := Option.isSome_iff_exists.mp accepted
  have hk := toOption_eq_some.mp hk
  have compiled : (ofFeature motor.toCategoryKey hostileConfig 1).toOption.isSome := by
    decide +kernel
  obtain ⟨s, hs⟩ := Option.isSome_iff_exists.mp compiled
  have hs := toOption_eq_some.mp hs
  obtain ⟨lexed, -, texts, -⟩ := statement_structure hk read_hostile hs
  exact ⟨made, s, hk, read_hostile, hs, _, lexed, texts⟩

end CompiledStream

end Historian
