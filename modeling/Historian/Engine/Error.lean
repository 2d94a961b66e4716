import Historian.Engine.Column
import Historian.Retry

/-!
Failures of the engine. The engine answers a statement it refuses with a code; some codes say only
that the object is there already, some that it is not there, and one that the engine cannot be
reached just now.
-/
namespace Historian

/-- The status code of a refused statement. -/
structure EngineCode where
  value : Int32
deriving DecidableEq, Repr

namespace EngineCode

def networkUnavailable : EngineCode := ⟨0x000B⟩
def superTableExists : EngineCode := ⟨0x0360⟩
def superTableMissing : EngineCode := ⟨0x0362⟩
def columnExists : EngineCode := ⟨0x0371⟩
def columnMissing : EngineCode := ⟨0x0372⟩
def databaseMissing : EngineCode := ⟨0x0388⟩
def databaseExists : EngineCode := ⟨0x0396⟩
def streamExists : EngineCode := ⟨0x03F0⟩
def streamMissing : EngineCode := ⟨0x03F1⟩
def tableExists : EngineCode := ⟨0x0604⟩
def syntaxError : EngineCode := ⟨0x2600⟩
def invalidAlter : EngineCode := ⟨0x2651⟩
def tableMissing : EngineCode := ⟨0x2662⟩

/-- The codes that say the object is there already. -/
def isAlreadyExists (c : EngineCode) : Bool :=
  c ∈ [databaseExists, superTableExists, tableExists, streamExists, columnExists]

/-- The codes that say a database, table or stream is not there. -/
def isNotFound (c : EngineCode) : Bool :=
  c ∈ [databaseMissing, superTableMissing, tableMissing, streamMissing]

/-- The 32 bits of the code in hexadecimal, at least four digits. -/
def write (c : EngineCode) : String :=
  "0x" ++ String.ofList (Numeral.writeHex c.value.toUInt32.toNat 4)

end EngineCode

/-- What is wrong with an answer of the engine. -/
inductive AnswerFault
  | columnType (fault : ColumnType.ReadFault)
  | rowWithoutField
  | rowWithoutType
  | unsupportedType (type column : String)
  /-- A body that is no envelope, with the status it came with. -/
  | notEnvelope (status : String)
  /-- A fault with a text of its own. -/
  | other (text : String)
deriving DecidableEq, Repr

def AnswerFault.message : AnswerFault → String
  | .columnType fault => fault.message
  | .rowWithoutField => "DESCRIBE row without field"
  | .rowWithoutType => "DESCRIBE row without type"
  | .unsupportedType type column => s!"unsupported type '{type}' for column '{column}'"
  | .notEnvelope status => s!"status {status}"
  | .other text => text

/-- Why an engine call failed. -/
inductive EngineError
  | transport (text : String)
  | timeout (operation : String) (after : Nat)
  | rejected (code : EngineCode) (text : String)
  | badAnswer (fault : AnswerFault)
  | config (text : String)
deriving DecidableEq, Repr

namespace EngineError

def message : EngineError → String
  | .transport text => s!"Transport error: {text}"
  | .timeout operation after => s!"Engine call {operation} timed out after {after}ms"
  | .rejected code text => s!"Engine rejected statement [{code.write}]: {text}"
  | .badAnswer fault => s!"Invalid engine response: {fault.message}"
  | .config text => s!"Configuration error: {text}"

/-- Lost connections, missed deadlines and an engine that cannot be reached may go away. -/
instance : Transient EngineError where
  isTransient
    | .transport _ | .timeout .. => true
    | .rejected code _ => code == .networkUnavailable
    | .badAnswer _ | .config _ => false
  timedOut := .timeout

def code? : EngineError → Option EngineCode
  | .rejected code _ => some code
  | _ => none

def isAlreadyExists (e : EngineError) : Bool := e.code?.any (·.isAlreadyExists)

def isNotFound (e : EngineError) : Bool := e.code?.any (·.isNotFound)

end EngineError

end Historian
