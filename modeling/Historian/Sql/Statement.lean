import Historian.Engine.Column
import Historian.Engine.TableName
import Historian.Sql.Lexer

/-!
Statements that the engine understands: databases, super-tables and their columns, child tables, and
streams. A statement is read completely before anything is done, so a text with a fault anywhere in
it has no effect. What follows the parts of a stream or a database that matter is not looked at.
-/
namespace Historian.Sql

inductive Statement
  | createDatabase (ifNotExists : Bool) (name : String)
  | createSuperTable (ifNotExists : Bool) (name : TableName) (schema : TableSchema)
  | addColumn (superTable : TableName) (column : Column)
  | modifyColumn (superTable : TableName) (column : Column)
  | createChildTable (ifNotExists : Bool) (name superTable : TableName) (tags : List String)
  | createStream (ifNotExists : Bool) (name : String) (target source : TableName)
  | setPaused (ifExists : Bool) (name : String) (paused : Bool)
  | dropStream (ifExists : Bool) (name : String)
deriving DecidableEq, Repr

/-- Why a text is no statement. -/
inductive SyntaxFault
  | lexical (statement : String) (fault : LexFault)
  | unknownStatement (statement : String)
  | unknownCreate
  | noAlteration
  | noTarget
  | noSource
  | noKeyword (keyword : String) (found : Option Token)
  | noMark (mark : Char) (found : Option Token)
  | noName (found : Option Token)
  | noTable (database : String)
  | noLength (found : Option Token)
  | badLength (digits : String)
  | lengthMissing (type : String)
  | unknownType (type : String)
  | noLiteral (found : Option Token)
  | trailing (found : Token)
deriving Repr

def SyntaxFault.message : SyntaxFault → String
  | .lexical statement fault => fault.message statement.toList
  | .unknownStatement statement => s!"unsupported statement: {statement}"
  | .unknownCreate => "unsupported CREATE statement"
  | .noAlteration => "expected ADD or MODIFY"
  | .noTarget => "stream without INTO clause"
  | .noSource => "stream query without FROM clause"
  | .noKeyword keyword found => s!"expected {keyword} near {Token.display? found}"
  | .noMark mark found => s!"expected '{mark}' near {Token.display? found}"
  | .noName found => s!"expected a name, found {Token.display? found}"
  | .noTable database => s!"table name without database: {database}"
  | .noLength found => s!"expected a length, found {Token.display? found}"
  | .badLength digits => s!"bad length {digits}"
  | .lengthMissing type => s!"{type} needs a length"
  | .unknownType type => s!"unsupported type {type}"
  | .noLiteral found => s!"expected a literal, found {Token.display? found}"
  | .trailing found => s!"unexpected trailing token {found.display}"

/-- Reading from the tokens that are left. -/
abbrev Reading (α : Type) := StateT (List Token) (Except SyntaxFault) α

namespace Reading

/-- Whether a keyword comes next; if so it is taken. -/
def keyword? (keyword : String) : Reading Bool := fun ts =>
  match ts with
  | t :: rest => if t.isKeyword keyword then .ok (true, rest) else .ok (false, ts)
  | [] => .ok (false, [])

/-- What follows a row of keywords, if all of them come next. -/
def afterKeywords? : List String → List Token → Option (List Token)
  | [], ts => some ts
  | _ :: _, [] => none
  | k :: ks, t :: ts => if t.isKeyword k then afterKeywords? ks ts else none

/-- Whether a row of keywords comes next; only the whole row is taken. -/
def keywords? (keywords : List String) : Reading Bool := fun ts =>
  match afterKeywords? keywords ts with
  | some rest => .ok (true, rest)
  | none => .ok (false, ts)

def keyword (keyword : String) : Reading Unit := fun ts =>
  match ts with
  | t :: rest =>
    if t.isKeyword keyword then .ok ((), rest) else .error (.noKeyword keyword (some t))
  | [] => .error (.noKeyword keyword none)

/-- Whether a mark comes next; if so it is taken. -/
def mark? (c : Char) : Reading Bool := fun ts =>
  match ts with
  | t :: rest => if t = .punct c then .ok (true, rest) else .ok (false, ts)
  | [] => .ok (false, [])

def mark (c : Char) : Reading Unit := fun ts =>
  match ts with
  | t :: rest => if t = .punct c then .ok ((), rest) else .error (.noMark c (some t))
  | [] => .error (.noMark c none)

/-- Goes past the next occurrence of a keyword. -/
def past (keyword : String) (fault : SyntaxFault) : Reading Unit := fun ts =>
  match ts.dropWhile (!·.isKeyword keyword) with
  | _ :: rest => .ok ((), rest)
  | [] => .error fault

/-- A name, bare or between backticks. -/
def name : Reading String := fun ts =>
  match ts with
  | .word s :: rest => .ok (s, rest)
  | .quoted s :: rest => .ok (s, rest)
  | ts => .error (.noName ts.head?)

/-- A table with its database, which cannot be left out. -/
def tableName : Reading TableName := do
  let database ← name
  if ← mark? '.' then return ⟨database, ← name⟩
  throw (.noTable database)

/-- A length that fits 64 bits. -/
def length : Reading Nat := fun ts =>
  match ts with
  | .number s :: rest =>
    match Numeral.read? s.toList with
    | some n => if n < wordEnd then .ok (n, rest) else .error (.badLength s)
    | none => .error (.badLength s)
  | ts => .error (.noLength ts.head?)

/-- A length in parentheses; zero if there is none. -/
def lengthInParentheses : Reading Nat := do
  if ← mark? '(' then
    let n ← length
    mark ')'
    return n
  return 0

def columnType : Reading ColumnType := do
  let type ← name
  match ColumnType.ofParts? type (← lengthInParentheses) with
  | some (.varchar 0) => throw (.lengthMissing type)
  | some t => return t
  | none => throw (.unknownType type)

def column : Reading Column := do
  return ⟨← name, ← columnType⟩

/-- A text or number, as the value of a tag. -/
def tagValue : Reading String := fun ts =>
  match ts with
  | .text s :: rest => .ok (s, rest)
  | .number s :: rest => .ok (s, rest)
  | ts => .error (.noLiteral ts.head?)

/-- The end of the statement, perhaps after a semicolon. -/
def finish : Reading Unit := do
  let _ ← mark? ';'
  match ← get with
  | [] => return ()
  | t :: _ => throw (.trailing t)

-- Readings that never put tokens back, and readings that take at least one.

variable {α β : Type}

def Keeps (r : Reading α) : Prop :=
  ∀ ts a rest, r ts = .ok (a, rest) → rest.length ≤ ts.length

def Takes (r : Reading α) : Prop :=
  ∀ ts a rest, r ts = .ok (a, rest) → rest.length < ts.length

theorem Takes.keeps {r : Reading α} (h : Takes r) : Keeps r :=
  fun ts a rest hr => Nat.le_of_lt (h ts a rest hr)

theorem bind_eq_ok {r : Reading α} {f : α → Reading β} {ts rest : List Token} {b : β}
    (h : (r >>= f) ts = .ok (b, rest)) :
    ∃ a middle, r ts = .ok (a, middle) ∧ f a middle = .ok (b, rest) := by
  simp only [bind, StateT.bind, Except.bind] at h
  split at h
  · cases h
  · exact ⟨_, _, ‹_›, h⟩

theorem Keeps.bind {r : Reading α} {f : α → Reading β} (h : Keeps r) (hf : ∀ a, Keeps (f a)) :
    Keeps (r >>= f) := by
  intro ts b rest hr
  have ⟨a, middle, h₁, h₂⟩ := bind_eq_ok hr
  exact Nat.le_trans (hf _ _ _ _ h₂) (h _ _ _ h₁)

theorem Takes.bind {r : Reading α} {f : α → Reading β} (h : Takes r) (hf : ∀ a, Keeps (f a)) :
    Takes (r >>= f) := by
  intro ts b rest hr
  have ⟨a, middle, h₁, h₂⟩ := bind_eq_ok hr
  exact Nat.lt_of_le_of_lt (hf _ _ _ _ h₂) (h _ _ _ h₁)

theorem keeps_pure (a : α) : Keeps (pure a) := by
  intro ts b rest h
  cases h
  exact Nat.le_refl _

theorem keeps_throw (fault : SyntaxFault) : Keeps (throw fault : Reading α) := by
  intro ts b rest h
  cases h

theorem keeps_mark? (c : Char) : Keeps (mark? c) := by
  intro ts a rest h
  unfold mark? at h
  grind

theorem keeps_mark (c : Char) : Keeps (mark c) := by
  intro ts a rest h
  unfold mark at h
  grind

theorem takes_name : Takes name := by
  intro ts a rest h
  unfold name at h
  grind

theorem takes_length : Takes length := by
  intro ts a rest h
  unfold length at h
  grind

theorem takes_tagValue : Takes tagValue := by
  intro ts a rest h
  unfold tagValue at h
  grind

theorem keeps_lengthInParentheses : Keeps lengthInParentheses := by
  refine (keeps_mark? _).bind fun there => ?_
  cases there
  · exact keeps_pure _
  · exact takes_length.keeps.bind fun _ => (keeps_mark _).bind fun _ => keeps_pure _

theorem takes_columnType : Takes columnType := by
  refine takes_name.bind fun type => keeps_lengthInParentheses.bind fun length => ?_
  split
  · exact keeps_throw _
  · exact keeps_pure _
  · exact keeps_throw _

theorem takes_column : Takes column :=
  takes_name.bind fun _ => takes_columnType.keeps.bind fun _ => keeps_pure _

/-- One or more items with commas between them. -/
def commaList (item : Reading α) (takes : Takes item) (ts : List Token) :
    Except SyntaxFault (List α × List Token) :=
  match h : item ts with
  | .error fault => .error fault
  | .ok (a, .punct ',' :: rest) =>
    have : rest.length < ts.length := Nat.lt_of_succ_lt (takes _ _ _ h)
    (commaList item takes rest).map fun r => (a :: r.1, r.2)
  | .ok (a, rest) => .ok ([a], rest)
termination_by ts.length

/-- Columns in parentheses. -/
def columns : Reading (List Column) := do
  mark '('
  let columns ← commaList column takes_column
  mark ')'
  return columns

/-- Values of tags in parentheses. -/
def tagValues : Reading (List String) := do
  mark '('
  let values ← commaList tagValue takes_tagValue
  mark ')'
  return values

-- The statements, each after the keywords that say which it is.

def createDatabase : Reading Statement := do
  let ifNotExists ← keywords? ["IF", "NOT", "EXISTS"]
  return .createDatabase ifNotExists (← name)

def createSuperTable : Reading Statement := do
  let ifNotExists ← keywords? ["IF", "NOT", "EXISTS"]
  let table ← tableName
  let columns ← columns
  keyword "TAGS"
  let tags ← Reading.columns
  finish
  return .createSuperTable ifNotExists table ⟨columns, tags⟩

def createChildTable : Reading Statement := do
  let ifNotExists ← keywords? ["IF", "NOT", "EXISTS"]
  let table ← tableName
  keyword "USING"
  let superTable ← tableName
  keyword "TAGS"
  let values ← tagValues
  finish
  return .createChildTable ifNotExists table superTable values

def createStream : Reading Statement := do
  let ifNotExists ← keywords? ["IF", "NOT", "EXISTS"]
  let stream ← name
  past "INTO" .noTarget
  let target ← tableName
  keyword "AS"
  keyword "SELECT"
  past "FROM" .noSource
  return .createStream ifNotExists stream target (← tableName)

def alterSuperTable : Reading Statement := do
  let table ← tableName
  let adds ← keyword? "ADD"
  if !adds then
    if !(← keyword? "MODIFY") then throw .noAlteration
  keyword "COLUMN"
  let column ← column
  finish
  return if adds then .addColumn table column else .modifyColumn table column

def setPaused (paused : Bool) : Reading Statement := do
  let ifExists ← keywords? ["IF", "EXISTS"]
  let _ ← keywords? ["IGNORE", "UNTREATED"]
  let stream ← name
  finish
  return .setPaused ifExists stream paused

def dropStream : Reading Statement := do
  let ifExists ← keywords? ["IF", "EXISTS"]
  let stream ← name
  finish
  return .dropStream ifExists stream

def create : Reading Statement := do
  if ← keyword? "DATABASE" then createDatabase
  else if ← keyword? "STABLE" then createSuperTable
  else if ← keyword? "TABLE" then createChildTable
  else if ← keyword? "STREAM" then createStream
  else throw .unknownCreate

/-- A statement; `text` is the whole of it, for the message that it is not known. -/
def statement (text : String) : Reading Statement := do
  if ← keyword? "CREATE" then create
  else if ← keyword? "ALTER" then keyword "STABLE"; alterSuperTable
  else if ← keyword? "PAUSE" then keyword "STREAM"; setPaused true
  else if ← keyword? "RESUME" then keyword "STREAM"; setPaused false
  else if ← keyword? "DROP" then keyword "STREAM"; dropStream
  else throw (.unknownStatement text)

end Reading

namespace Statement

/-- Reads the text of a statement. -/
def parse (text : String) : Except SyntaxFault Statement := do
  let ts ← (tokenize text).mapError (.lexical text)
  return (← Reading.statement text ts).1

end Statement

end Historian.Sql
