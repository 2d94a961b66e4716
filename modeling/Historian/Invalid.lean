import Historian.Duration
import Historian.Feature.Aggregate
import Historian.Identifier
import Historian.Json.Printer

/-!
What can be wrong with an input by itself. Such a fault is found before anything is written or sent;
it never goes away by trying again.
-/
namespace Historian

/-- What is wrong with the value of a field. -/
inductive FieldFault
  | blank
  | notText
  | notObject
  | notPositive
  | rangeInverted (least greatest : Binary64)
  | unknownName (kind text : String)
  | filtersShape
  | filterNotObject
  | operatorNotText
  | unknownOperator (text : String)
  | filterValue (value : Json)
  | notNameList
  | entryNotText
deriving Repr

def FieldFault.message : FieldFault → String
  | .blank => "must not be empty"
  | .notText => "must be a string"
  | .notObject => "must be a JSON object"
  | .notPositive => "must be a positive counter"
  | .rangeInverted least greatest =>
    let plain (x : Binary64) := Decimal.plainLayout.write x
    s!"min_value {plain least} exceeds max_value {plain greatest}"
  | .unknownName kind text => s!"unknown {kind} '{text}'"
  | .filtersShape =>
    "expected a list of \x7bfield, op, value\x7d objects or a \x7bfield: value\x7d object"
  | .filterNotObject => "each filter must be an object"
  | .operatorNotText => "operator must be a string"
  | .unknownOperator text => s!"unsupported operator '{text}'"
  | .filterValue value => s!"value must be a number, string or boolean, got {value.write}"
  | .notNameList => "must be a list of column names"
  | .entryNotText => "entries must be strings"

/-- What is wrong with an input. -/
inductive Invalid
  | missingField (field : String)
  | unknownField (field : String)
  | badField (field : String) (fault : FieldFault)
  | badIdentifier (kind value : String) (fault : IdentifierFault)
  | reservedName (kind value : String)
  | functionNotAllowed (text : String)
  | badDuration (field value : String) (fault : DurationFault)
  | slideExceedsWindow (window slide : Duration)
  | unknownSignal (category signal : String)
  | signalNotStored (category signal : String)
  | functionUnsuited (function : Aggregate) (signal : String) (type : DataType)
  | retypeNotWidening (signal : String) (old new : DataType)
deriving Repr

def Invalid.message : Invalid → String
  | .missingField field => s!"Missing required field: {field}"
  | .unknownField field => s!"Unknown field: {field}"
  | .badField field fault => s!"Invalid field {field}: {fault.message}"
  | .badIdentifier kind value fault => s!"Invalid {kind} identifier '{value}': {fault.message}"
  | .reservedName kind value => s!"{kind} '{value}' collides with a reserved column name"
  | .functionNotAllowed text => s!"Aggregation function not allowed: {text}"
  | .badDuration field value fault => s!"Invalid duration for {field} ('{value}'): {fault.message}"
  | .slideExceedsWindow window slide =>
    s!"Slide interval {slide.write} exceeds window {window.write}"
  | .unknownSignal category signal => s!"Unknown signal {category}/{signal}"
  | .signalNotStored category signal =>
    s!"Signal {category}/{signal} is not stored and cannot feed a feature"
  | .functionUnsuited function signal type =>
    s!"Function {function.name} cannot aggregate {type.name} signal {signal}"
  | .retypeNotWidening signal old new =>
    s!"Signal {signal} cannot be retyped from {old.name} to {new.name}: only widening is allowed"

/-- Refuses a text of blanks only. -/
def requireText (field value : String) : Except Invalid Unit :=
  if Text.isBlankText value then .error (.badField field .blank) else .ok ()

/-- Refuses a text that is no identifier; the kind of name goes into the fault. -/
def requireIdentifier (kind value : String) : Except Invalid Unit :=
  (Identifier.check Identifier.codeLimit value).mapError (.badIdentifier kind value)

/-- Refuses a text that is no name for a table. -/
def requireTableName (value : String) : Except Invalid Unit :=
  (Identifier.check Identifier.tableLimit value).mapError (.badIdentifier "table" value)

/-- Refuses a text that is no code for a signal: an identifier that no super-table column has. -/
def requireSignalCode (value : String) : Except Invalid Unit := do
  requireIdentifier "signal" value
  if Identifier.isReserved value then throw (.reservedName "signal" value)

end Historian
