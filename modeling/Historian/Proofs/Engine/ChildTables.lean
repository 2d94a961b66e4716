import Historian.Proofs.Engine.Growth
import Historian.Proofs.Sql.Lexing

namespace Historian.Engine.Tables

variable {t t' : Tables} {n m child parent : TableName} {c : ChildTable} {tags : List String}

-- What an engine holds after a row of statements, some of which it may refuse.
def applyAll (t : Tables) (texts : List String) : Tables :=
  texts.foldl (fun t text => (t.apply text).2) t

-- The tables alone, as they are computed best.
theorem applyAll_characters (t : Tables) (texts : List String) :
    t.applyAll texts = texts.foldl (fun t text =>
      match Sql.Lexer.scan (Text.characters text) with
      | .ok ts => ((Execution.statement text ts).run t).2
      | .error _ => t) t := by
  unfold applyAll
  congr
  funext t text
  rw [apply, Sql.tokenize, ← Text.characters_eq]
  cases Sql.Lexer.scan (Text.characters text) <;> rfl

theorem applyAll_append (t : Tables) (early late : List String) :
    t.applyAll (early ++ late) = (t.applyAll early).applyAll late :=
  List.foldl_append

theorem applyAll_extendsTo (t : Tables) (texts : List String) : t.ExtendsTo (t.applyAll texts) := by
  induction texts generalizing t with
  | nil => exact .refl t
  | cons text texts ih => exact (t.apply_changed text).extendsTo.trans (ih _)

theorem sound_applyAll (texts : List String) : (({} : Tables).applyAll texts).Sound := by
  have preserved (t : Tables) (ht : t.Sound) : (t.applyAll texts).Sound := by
    induction texts generalizing t with
    | nil => exact ht
    | cons text texts ih => exact ih _ ((t.apply_changed text).sound ht)
  refine preserved {} ?_
  constructor <;> intro n S h <;> simp at h

-- Whatever child table there was is bound as it was.
def Keeps (t t' : Tables) : Prop :=
  ∀ (n : TableName) c, t.childTables[n]? = some c → t'.childTables[n]? = some c

theorem keeps_of_eq (h : t'.childTables = t.childTables) : t.Keeps t' :=
  fun _ _ hn => h ▸ hn

-- Only one of the statements has to do with child tables.

theorem createDatabase_keeps (h : t.createDatabase ifNotExists d = .ok t') : t.Keeps t' := by
  unfold createDatabase at h
  split at h
  case isTrue => cases ifNotExists <;> cases h; exact keeps_of_eq rfl
  case isFalse => cases h; exact keeps_of_eq rfl

theorem createSuperTable_keeps {S : TableSchema}
    (h : t.createSuperTable ifNotExists n S = .ok t') : t.Keeps t' := by
  simp only [createSuperTable, bind_unit_eq_ok] at h
  obtain ⟨-, -, h⟩ := h
  split at h
  case isTrue => cases ifNotExists <;> cases h; exact keeps_of_eq rfl
  case isFalse => cases h; exact keeps_of_eq rfl

theorem addColumn_keeps {column : Column} (h : t.addColumn n column = .ok t') : t.Keeps t' := by
  obtain ⟨_, -, -, -, rfl⟩ := addColumn_ok h
  exact keeps_of_eq rfl

theorem modifyColumn_keeps {column : Column} (h : t.modifyColumn n column = .ok t') :
    t.Keeps t' := by
  obtain ⟨_, _, -, -, -, rfl⟩ := modifyColumn_ok h
  exact keeps_of_eq rfl

-- A child table is bound to a super-table that is there, with a value for each of its tags, and one
-- that is there already is not bound anew.
theorem createChildTable_eq_ok (h : t.createChildTable ifNotExists n m tags = .ok t') :
    ∃ S, t.superTables[m]? = some S ∧ tags.length = S.tags.length ∧
      ((t.childTables[n]?).isSome ∧ t' = t ∨
        t.childTables[n]? = none ∧
          t' = { t with childTables := t.childTables.insert n ⟨m.table, tags⟩ }) := by
  simp only [createChildTable, bind_eq_ok, superTable_eq_ok] at h
  obtain ⟨-, -, S, hS, h⟩ := h
  split at h
  case isTrue => cases h
  case isFalse count =>
    refine ⟨S, hS, (Decidable.not_not.mp count).symm, ?_⟩
    split at h
    case isTrue there =>
      cases ifNotExists <;> cases h
      exact .inl ⟨by simpa using there, rfl⟩
    case isFalse absent =>
      cases h
      exact .inr ⟨by simpa using absent, rfl⟩

theorem createChildTable_keeps (h : t.createChildTable ifNotExists n m tags = .ok t') :
    t.Keeps t' := by
  obtain ⟨-, -, -, ⟨-, rfl⟩ | ⟨absent, rfl⟩⟩ := createChildTable_eq_ok h
  · exact keeps_of_eq rfl
  · intro n' c hc
    have other : n ≠ n' := by
      rintro rfl
      simp [absent] at hc
    simpa [Std.ExtTreeMap.getElem?_insert, other] using hc

theorem createStream_keeps {target source : TableName}
    (h : t.createStream sql ifNotExists d target source = .ok t') : t.Keeps t' := by
  simp only [createStream, bind_eq_ok] at h
  obtain ⟨-, -, h⟩ := h
  split at h
  case isTrue => cases h
  split at h
  case isTrue => cases ifNotExists <;> cases h; exact keeps_of_eq rfl
  case isFalse => cases h; exact keeps_of_eq rfl

theorem setPaused_keeps (h : t.setPaused ifExists d paused = .ok t') : t.Keeps t' := by
  unfold setPaused at h
  split at h
  case h_1 => cases h; exact keeps_of_eq rfl
  case h_2 => cases ifExists <;> cases h; exact keeps_of_eq rfl

theorem dropStream_keeps (h : t.dropStream ifExists d = .ok t') : t.Keeps t' := by
  unfold dropStream at h
  split at h
  case isTrue => cases h; exact keeps_of_eq rfl
  case isFalse => cases ifExists <;> cases h; exact keeps_of_eq rfl

theorem run_keeps (h : t.run sql = .ok t') : t.Keeps t' := by
  unfold run at h
  split at h
  case h_2 => cases h
  case h_1 statement _ =>
    cases statement with
    | createDatabase => exact createDatabase_keeps h
    | createSuperTable => exact createSuperTable_keeps h
    | addColumn => exact addColumn_keeps h
    | modifyColumn => exact modifyColumn_keeps h
    | createChildTable => exact createChildTable_keeps h
    | createStream => exact createStream_keeps h
    | setPaused => exact setPaused_keeps h
    | dropStream => exact dropStream_keeps h

theorem applyAll_keeps (t : Tables) (texts : List String) : t.Keeps (t.applyAll texts) := by
  induction texts generalizing t with
  | nil => exact keeps_of_eq rfl
  | cons text texts ih =>
    have first : t.Keeps (t.apply text).2 := by
      obtain ⟨_, refused⟩ | ⟨_, accepted, run⟩ := t.apply_cases text
      · rw [refused]
        exact keeps_of_eq rfl
      · rw [accepted]
        exact run_keeps run
    exact fun n c hc => ih _ n c (first n c hc)

-- A super-table of the child's own name comes before the child, and the super-table behind the
-- child is looked for where the child is.
theorem describe_child (bound : t.childTables[n]? = some c) :
    t.describe n =
      (t.superTables[n]?).or (t.superTables[TableName.mk n.database c.superTable]?) := by
  unfold describe
  cases t.superTables[n]? <;> simp [bound]

-- An accepted statement that makes a new child table.
structure Creates (t : Tables) (text : String) (child parent : TableName) (tags : List String) :
    Prop where
  parse : ∃ ifNotExists,
    Sql.Statement.parse text = .ok (.createChildTable ifNotExists child parent tags)
  accepted : (t.apply text).1 = .ok ()
  new : t.childTables[child]? = none

theorem Creates.bound (h : t.Creates text child parent tags) :
    ∃ S, t.superTables[parent]? = some S ∧ tags.length = S.tags.length ∧
      (t.apply text).2.superTables = t.superTables ∧
      (t.apply text).2.childTables[child]? = some ⟨parent.table, tags⟩ := by
  obtain ⟨ifNotExists, parse⟩ := h.parse
  obtain ⟨_, refused⟩ | ⟨t', accepted, run⟩ := t.apply_cases text
  · have contradictory := h.accepted
    rw [refused] at contradictory
    cases contradictory
  · simp only [Tables.run, parse, perform] at run
    obtain ⟨S, hS, count, ⟨there, -⟩ | ⟨-, rfl⟩⟩ := createChildTable_eq_ok run
    · simp [h.new] at there
    · exact ⟨S, hS, count, by rw [accepted], by rw [accepted]; simp⟩

-- Once made, a child table stays bound to its super-table, with a value for each of its tags, and
-- is described as that super-table, except in two cases: there is a super-table of the child's own
-- name, with another schema, or the super-table is in another database, and in the child's own the
-- name does not stand for a super-table of the same schema.
theorem child_describes_iff {early : List String}
    (creates : (({} : Tables).applyAll early).Creates text child parent tags) (late : List String) :
    let t := ({} : Tables).applyAll (early ++ text :: late)
    ∃ S, t.describe parent = some S ∧
      t.childTables[child]? = some ⟨parent.table, tags⟩ ∧ tags.length = S.tags.length ∧
      (t.describe child ≠ t.describe parent ↔
        (∃ S', t.superTables[child]? = some S' ∧ S' ≠ S) ∨
        t.superTables[child]? = none ∧ child.database ≠ parent.database ∧
          t.superTables[TableName.mk child.database parent.table]? ≠ some S) := by
  intro t
  obtain ⟨S₀, held, count, same, bound⟩ := creates.bound
  have course : t = (((({} : Tables).applyAll early).apply text).2).applyAll late :=
    applyAll_append {} early (text :: late)
  obtain ⟨S, there, grown⟩ : ∃ S, t.superTables[parent]? = some S ∧ S₀.ExtendsTo S := by
    rw [course]
    exact (applyAll_extendsTo _ late).superTables parent S₀ (same ▸ held)
  have still : t.childTables[child]? = some ⟨parent.table, tags⟩ := by
    rw [course]
    exact applyAll_keeps _ late child _ bound
  refine ⟨S, describe_superTable there, still, grown.tags ▸ count, ?_⟩
  rw [describe_superTable there, describe_child still]
  cases own : t.superTables[child]? with
  | some S' => simp
  | none =>
    have home (same : child.database = parent.database) :
        t.superTables[TableName.mk child.database parent.table]? = some S := by
      rw [same]
      exact there
    simp only [Option.none_or, reduceCtorEq, false_and, exists_false, true_and, false_or]
    exact ⟨fun other => ⟨fun same => other (home same), other⟩, fun ⟨_, other⟩ => other⟩

-- An engine with a super-table in one of its two databases.
def twoDatabases : List String :=
  ["CREATE DATABASE plant", "CREATE DATABASE archive",
    "CREATE STABLE plant.motors (ts TIMESTAMP, rpm BIGINT) TAGS (id BIGINT)"]

def plantMotors : TableName := ⟨"plant", "motors"⟩

def bindsIn (database : String) : String :=
  "CREATE TABLE " ++ database ++ ".m1 USING plant.motors TAGS (7)"

theorem twoDatabases_creates : ∀ database ∈ ["plant", "archive"],
    (({} : Tables).applyAll twoDatabases).Creates (bindsIn database) ⟨database, "m1"⟩ plantMotors
      ["7"] := by
  have facts : ∀ database ∈ ["plant", "archive"],
      (Sql.Statement.parse (bindsIn database)).toOption =
        some (.createChildTable false ⟨database, "m1"⟩ plantMotors ["7"]) ∧
      ((({} : Tables).applyAll twoDatabases).apply (bindsIn database)).1.toOption = some () ∧
      (({} : Tables).applyAll twoDatabases).childTables[TableName.mk database "m1"]? = none := by
    rw [applyAll_characters]
    decide +kernel
  intro database h
  obtain ⟨parsed, accepted, new⟩ := facts database h
  exact ⟨⟨false, toOption_eq_some.mp parsed⟩, toOption_eq_some.mp accepted, new⟩

-- The child follows its super-table until there is another super-table of the child's name.
theorem child_describes_iff_shadowed :
    let child : TableName := ⟨"plant", "m1"⟩
    let later := ({} : Tables).applyAll
      (twoDatabases ++ bindsIn "plant" :: ["ALTER STABLE plant.motors ADD COLUMN load DOUBLE"])
    let shadowed := ({} : Tables).applyAll
      (twoDatabases ++ bindsIn "plant" :: ["CREATE STABLE plant.m1 (ts TIMESTAMP) TAGS (id BOOL)"])
    (({} : Tables).applyAll twoDatabases).Creates (bindsIn "plant") child plantMotors ["7"] ∧
      later.describe child = later.describe plantMotors ∧
      shadowed.describe child ≠ shadowed.describe plantMotors := by
  intro child later shadowed
  have creates := twoDatabases_creates "plant" (by decide)
  refine ⟨creates, ?_, ?_⟩
  · obtain ⟨S, -, -, -, differs⟩ := child_describes_iff creates
      ["ALTER STABLE plant.motors ADD COLUMN load DOUBLE"]
    have absent : later.superTables[child]? = none := by
      simp only [later, applyAll_characters]
      decide +kernel
    refine Classical.not_not.mp (mt differs.mp ?_)
    rintro (⟨_, own, -⟩ | ⟨-, apart, -⟩)
    · cases absent.symm.trans own
    · exact apart rfl
  · obtain ⟨S, there, -, -, differs⟩ := child_describes_iff creates
      ["CREATE STABLE plant.m1 (ts TIMESTAMP) TAGS (id BOOL)"]
    have ⟨own, columns⟩ :
        shadowed.superTables[child]? = some ⟨[⟨"ts", .timestamp⟩], [⟨"id", .bool⟩]⟩ ∧
          (shadowed.describe plantMotors).map (·.columns.length) = some 2 := by
      simp only [shadowed, applyAll_characters]
      decide +kernel
    refine differs.mpr (.inl ⟨_, own, ?_⟩)
    rintro rfl
    rw [there] at columns
    cases columns

-- A child in another database than its super-table, of which nothing is described.
theorem child_undescribed :
    let child : TableName := ⟨"archive", "m1"⟩
    let t := ({} : Tables).applyAll (twoDatabases ++ [bindsIn "archive"])
    (({} : Tables).applyAll twoDatabases).Creates (bindsIn "archive") child plantMotors ["7"] ∧
      t.childTables[child]? = some ⟨"motors", ["7"]⟩ ∧ t.describe child = none ∧
      t.describe plantMotors =
        some ⟨[⟨"ts", .timestamp⟩, ⟨"rpm", .bigint⟩], [⟨"id", .bigint⟩]⟩ :=
  ⟨twoDatabases_creates "archive" (by decide), by
    rw [applyAll_characters]
    decide +kernel⟩

end Historian.Engine.Tables
