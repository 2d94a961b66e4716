import Historian.Catalog.Record
import Historian.Engine.Column

/-!
The super-table that a category's signals ask for: a time, a column for every stored signal in a
fixed order, and the two tags that name the asset. The order does not depend on how the signals are
listed.
-/
namespace Historian

/-- The type of the column of a signal's values. -/
def DataType.columnType : DataType → ColumnType
  | .numeric => .double
  | .integer => .bigint
  | .boolean => .bool
  | .string => .varchar 256
  | .timestamp => .timestamp

namespace Schema

/-- The stored signals in their order. -/
def storedSignals (signals : List SignalSpec) : List SignalSpec :=
  (signals.filter (·.isStored)).mergeSort SignalSpec.precedes

/-- The column of a signal. -/
def signalColumn (s : SignalSpec) : Column := ⟨s.code, s.dataType.columnType⟩

/-- The columns of the stored signals. -/
def signalColumns (signals : List SignalSpec) : List Column :=
  (storedSignals signals).map signalColumn

def timeColumn : Column := ⟨"ts", .timestamp⟩

/-- The tags of every super-table: the number and the code of the asset. -/
def assetTags : List Column := [⟨"asset_id", .bigint⟩, ⟨"asset_code", .varchar 64⟩]

/-- The super-table that the signals ask for. -/
def desired (signals : List SignalSpec) : TableSchema :=
  ⟨timeColumn :: signalColumns signals, assetTags⟩

end Schema

end Historian
