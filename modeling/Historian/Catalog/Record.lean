import Historian.Json.Value
import Historian.Signal.DataType
import Historian.Stream.Status

/-!
What the catalog keeps: categories of assets, the signals and assets of a category, the features
made of its signals, and the stream tasks that compute features, with their logs. A `Spec` is what a
row is made of by whoever creates it; the row adds what the catalog gives it.
-/
namespace Historian

/-- The names that say where the tables of a category are. -/
structure CategoryKey where
  code : String
  database : String
  /-- What the name of the super-table begins with. -/
  stem : String := "raw"
deriving DecidableEq, Repr, Inhabited

structure CategorySpec extends CategoryKey where
  name : String
  industry : Option String := none
deriving DecidableEq, Repr, Inhabited

/-- A family of assets that share one set of signals and one super-table. -/
structure Category extends CategorySpec where
  isActive : Bool := true
  /-- The digest of the super-table that the engine was last brought to. -/
  fingerprint : Option String := none
  lastSyncedAt : Option Int := none
deriving DecidableEq, Repr, Inhabited

namespace Category

def isSynced (c : Category) : Bool := c.lastSyncedAt.isSome

end Category

/-- A category together with the number of its assets. -/
structure CategoryInfo extends Category where
  assetCount : Nat
deriving DecidableEq, Repr, Inhabited

structure SignalSpec where
  category : String
  code : String
  name : String
  dataType : DataType
  unit : Option String := none
  isStored : Bool := true
  isRealtime : Bool := false
  isFeature : Bool := false
  least : Option Binary64 := none
  greatest : Option Binary64 := none
  rule : Option Json := none
  order : Int32 := 0
deriving Repr

/-- The specification of a stored signal of that type, named by its code. -/
def SignalSpec.stored (category code : String) (dataType : DataType) : SignalSpec :=
  { category, code, name := code, dataType }

/-- Whether a signal stands before or with another: by their order and then by code. -/
def SignalSpec.precedes (a b : SignalSpec) : Bool :=
  ((compare a.order b.order).then (compare a.code b.code)).isLE

/-- A measured quantity of a category; if it is stored, it has a column in the super-table. -/
structure Signal extends SignalSpec where
  id : Nat
deriving Repr

inductive AssetStatus
  | active | inactive | maintenance | retired
deriving DecidableEq, Repr

namespace AssetStatus

def all : List AssetStatus := [.active, .inactive, .maintenance, .retired]

def name : AssetStatus → String
  | .active => "active"
  | .inactive => "inactive"
  | .maintenance => "maintenance"
  | .retired => "retired"

/-- The status of exactly that name. -/
def ofName? (s : String) : Option AssetStatus := all.find? (·.name == s)

end AssetStatus

structure AssetSpec where
  category : String
  code : String
  name : String
  attributes : List (String × Json) := []
  status : AssetStatus := .active
deriving Repr

/-- A device, with the child table that its measurements go into once there is one. -/
structure Asset extends AssetSpec where
  id : Nat
  childTable : Option String := none
deriving Repr

/-- The text of a feature's document and the number of changes it went through. -/
structure Feature where
  id : Nat
  category : String
  name : String
  document : String
  generation : Int
deriving DecidableEq, Repr

structure TaskSpec where
  category : String
  feature : String
  generation : Int
  streamName : String
  targetTable : String
  sql : String
deriving DecidableEq, Repr

/-- A compiled query and where it is in its life. -/
structure StreamTask extends TaskSpec where
  id : String
  status : StreamStatus := .created
  lastError : Option String := none
deriving DecidableEq, Repr

/-- A line of a task's log. -/
structure LogLine where
  id : Nat
  task : String
  level : LogLevel
  message : String
deriving DecidableEq, Repr

end Historian
