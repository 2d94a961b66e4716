import Historian.Engine.Describe
import Historian.Proofs.Schema.Classification

namespace Historian

open Text

namespace ColumnType

-- The types that columns are known to have: fixed ones by their names, and texts of a length that
-- is not over the greatest.
def Known (name : String) (length : Nat) : Prop :=
  name.toUpper ∈ ["TIMESTAMP", "DOUBLE", "BIGINT", "BOOL"] ∨
    name.toUpper ∈ ["VARCHAR", "BINARY", "NCHAR"] ∧ length ≤ maxLength

instance (name : String) (length : Nat) : Decidable (Known name length) :=
  inferInstanceAs (Decidable (_ ∨ _))

theorem ofParts?_isSome {name : String} {length : Nat} :
    (ofParts? name length).isSome ↔ Known name length := by
  unfold ofParts? Known
  split <;> simp_all

end ColumnType

namespace TableSchema

variable {s S : TableSchema} {row : List Json} {rows before after : List (List Json)}
  {field type : String} {c : Column}

-- A row that describes a data column.
structure DataRow (row : List Json) (field type : String) : Prop where
  field : row[0]?.bind Json.text? = some field
  type : row[1]?.bind Json.text? = some type
  note : ¬(row[3]?.bind Json.text?).any (sameIgnoringCase · "TAG")

def rowLength (row : List Json) : Nat := (row[2]?.bind Json.nat64?).getD 0

theorem DataRow.known (h : DataRow row field type) (hk : ColumnType.Known type (rowLength row)) :
    ∃ c, c.name = field ∧ rowColumn row = .ok (false, c) := by
  obtain ⟨t, ht⟩ := Option.isSome_iff_exists.mp (ColumnType.ofParts?_isSome.mpr hk)
  refine ⟨⟨field, t⟩, rfl, ?_⟩
  unfold rowLength at ht
  simp [rowColumn, h.field, h.type, h.note, ht]

theorem DataRow.unknown (h : DataRow row field type)
    (hk : ¬ColumnType.Known type (rowLength row)) :
    rowColumn row = .error (.unsupportedType type field) := by
  have ht : ColumnType.ofParts? type (rowLength row) = none := by
    simpa [← ColumnType.ofParts?_isSome] using hk
  unfold rowLength at ht
  simp [rowColumn, h.field, h.type, ht]

-- The tags among the columns that rows describe, or the others.
def part (tags : Bool) (cs : List (Bool × Column)) : List Column :=
  (cs.filter (·.1 = tags)).map (·.2)

theorem push_eq (s : TableSchema) (isTag : Bool) (c : Column) :
    s.push isTag c = ⟨s.columns ++ part false [(isTag, c)], s.tags ++ part true [(isTag, c)]⟩ := by
  cases isTag <;> simp [push, part]

theorem part_cons (tags : Bool) (p : Bool × Column) (cs : List (Bool × Column)) :
    part tags (p :: cs) = part tags [p] ++ part tags cs := by
  simp [part, ← List.map_append, ← List.filter_append]

-- The schema with what one more row describes.
def add (s : TableSchema) (row : List Json) : Except AnswerFault TableSchema := do
  let described ← rowColumn row
  return s.push described.1 described.2

theorem ofRows_eq_foldlM : ofRows rows = rows.foldlM add {} :=
  rfl

theorem foldlM_add (s : TableSchema) : rows.foldlM add s =
    (rows.mapM rowColumn).map fun cs => ⟨s.columns ++ part false cs, s.tags ++ part true cs⟩ := by
  induction rows generalizing s with
  | nil => simp [part, Except.map, pure, Except.pure]
  | cons row rows ih =>
    cases read : rowColumn row with
    | error fault => simp [add, read, Except.map]
    | ok p =>
      simp only [List.foldlM_cons, List.mapM_cons, add, read, ok_bind, pure_bind]
      rw [ih, push_eq]
      cases rows.mapM rowColumn with
      | error => rfl
      | ok cs => simp [Except.map, part_cons _ p cs, pure, Except.pure]

-- Rows are read one by one, and what they describe is then put apart.
theorem ofRows_eq :
    ofRows rows = (rows.mapM rowColumn).map fun cs => ⟨part false cs, part true cs⟩ :=
  ofRows_eq_foldlM.trans (foldlM_add {})

theorem ofRows_ok : ofRows rows = .ok S ↔
    ∃ cs, rows.mapM rowColumn = .ok cs ∧ ⟨part false cs, part true cs⟩ = S := by
  rw [ofRows_eq]
  cases rows.mapM rowColumn <;> simp [Except.map]

theorem ofRows_insert (h : ofRows (before ++ after) = .ok S)
    (hr : rowColumn row = .ok (false, c)) :
    ∃ front back, S.columns = front ++ back ∧
      ofRows (before ++ row :: after) = .ok { S with columns := front ++ c :: back } := by
  obtain ⟨cs, read, rfl⟩ := ofRows_ok.mp h
  simp only [List.mapM_append, bind_eq_ok, pure_eq_ok] at read
  obtain ⟨xs, early, ys, late, rfl⟩ := read
  refine ⟨part false xs, part false ys, by simp [part],
    ofRows_ok.mpr ⟨xs ++ (false, c) :: ys, ?_, ?_⟩⟩
  · simp [List.mapM_append, early, hr, late]
  · simp [part]

-- The first row that cannot be read decides.
theorem ofRows_refused (h : ofRows (before ++ after) = .ok S) (hr : rowColumn row = .error fault) :
    ofRows (before ++ row :: after) = .error fault := by
  obtain ⟨cs, read, -⟩ := ofRows_ok.mp h
  simp only [List.mapM_append, bind_eq_ok] at read
  obtain ⟨xs, early, -⟩ := read
  simp [ofRows_eq, List.mapM_append, early, hr, Except.map]

end TableSchema

namespace Schema

open FeatureConfig TableSchema

variable {S : TableSchema} {signals : List SignalSpec} {row : List Json}
  {before after : List (List Json)} {front back : List Column} {c : Column} {field type : String}

theorem diff_insert (hs : S.columns = front ++ back)
    (foreign : ∀ s ∈ signals, s.isStored → ¬sameIgnoringCase c.name s.code) :
    diff { S with columns := front ++ c :: back } signals = diff S signals := by
  refine ofColumns_congr fun d hd => ?_
  obtain ⟨s, asked, rfl⟩ := List.mem_map.mp hd
  obtain ⟨hm, stored⟩ := List.mem_filter.mp (List.mem_mergeSort.mp asked)
  exact lackOf_insert hs (foreign s hm stored)

-- A data column that no stored signal asks for changes nothing if it is of a known type, and if it
-- is not, nothing is made of the rows at all.
theorem diff_foreign_row (accepted : ofRows (before ++ after) = .ok S)
    (described : DataRow row field type)
    (foreign : ∀ s ∈ signals, s.isStored → ¬sameIgnoringCase field s.code) :
    (ColumnType.Known type (rowLength row) →
      ∃ S', ofRows (before ++ row :: after) = .ok S' ∧ diff S' signals = diff S signals) ∧
    (¬ColumnType.Known type (rowLength row) →
      ofRows (before ++ row :: after) = .error (.unsupportedType type field)) := by
  constructor
  · intro known
    obtain ⟨c, rfl, read⟩ := described.known known
    obtain ⟨front, back, apart, extended⟩ := ofRows_insert accepted read
    exact ⟨_, extended, diff_insert apart foreign⟩
  · exact fun unknown => ofRows_refused accepted (described.unknown unknown)

-- What the engine reports of a table, to which a column `legacy` may be added.

def dataRow (field type : String) (length : Int) : List Json :=
  [.text field, .text type, .int length, .text ""]

theorem dataRow_describes (field type : String) (length : Int) :
    DataRow (dataRow field type length) field type :=
  ⟨rfl, rfl, by simp [dataRow, Json.text?, sameIgnoringCase_eq]⟩

def timeRow : List Json := dataRow "ts" "TIMESTAMP" 8

def rpmRow : List Json := dataRow "rpm" "bigint" 8

def motorTable : TableSchema := ⟨[timeColumn, ⟨"rpm", .bigint⟩], []⟩

def rpmSignals : List SignalSpec := [.stored "motor" "RPM" .numeric]

theorem motorTable_reported : ofRows ([timeRow] ++ [rpmRow]) = .ok motorTable := by
  have reported : (ofRows ([timeRow] ++ [rpmRow])).toOption = some motorTable := by decide +kernel
  exact toOption_eq_some.mp reported

theorem rpmSignals_spare_legacy :
    ∀ s ∈ rpmSignals, s.isStored → ¬sameIgnoringCase "legacy" s.code := by
  simp only [sameIgnoringCase_eq]
  decide

theorem diff_foreign_row_legacy :
    (∃ S', ofRows ([timeRow] ++ dataRow "legacy" "nchar" 65535 :: [rpmRow]) = .ok S' ∧
      diff S' rpmSignals = diff motorTable rpmSignals) ∧
    ofRows ([timeRow] ++ dataRow "legacy" "nchar" 65536 :: [rpmRow]) =
      .error (.unsupportedType "nchar" "legacy") :=
  ⟨(diff_foreign_row motorTable_reported (dataRow_describes "legacy" "nchar" 65535)
      rpmSignals_spare_legacy).1 (by decide +kernel),
    (diff_foreign_row motorTable_reported (dataRow_describes "legacy" "nchar" 65536)
      rpmSignals_spare_legacy).2 (by decide +kernel)⟩

-- Nothing is made of the rows because of a column that no signal asks for.
theorem foreign_row_refused :
    ofRows ([timeRow] ++ [rpmRow]) = .ok motorTable ∧
      DataRow (dataRow "legacy" "INT" 4) "legacy" "INT" ∧
      (∀ s ∈ rpmSignals, s.isStored → ¬sameIgnoringCase "legacy" s.code) ∧
      ofRows ([timeRow] ++ dataRow "legacy" "INT" 4 :: [rpmRow]) =
        .error (.unsupportedType "INT" "legacy") := by
  have described := dataRow_describes "legacy" "INT" 4
  exact ⟨motorTable_reported, described, rpmSignals_spare_legacy,
    ofRows_refused motorTable_reported (described.unknown (by decide +kernel))⟩

end Schema

end Historian
