import Historian.Digest.Base64
import Historian.Engine.Describe
import Historian.Engine.TableName
import Historian.Json.Members
import Historian.Wire.Record

/-!
The engine behind an HTTP endpoint. A statement is sent as the body of a request with the user's
name and password; the answer is an envelope, a JSON object with a status code, a description of
what went wrong, rows of data and the number of rows affected.
-/
namespace Historian.Engine.Rest

/-- Where the engine is and who talks to it. -/
structure Endpoint where
  url : String
  user : String := "root"
  password : String := "taosdata"
deriving DecidableEq, Repr

/-- One statement on its way. -/
structure Request where
  url : String
  authorization : String
  body : String
deriving DecidableEq, Repr

/-- What came back: a status with a body, a broken connection, or nothing in time. -/
inductive Response
  | status (code : Nat) (body : String)
  | closed
  | timedOut
deriving DecidableEq, Repr

/-- The text without the given character at its end. -/
def dropTrailing (c : Char) (s : String) : String :=
  String.ofList (s.toList.reverse.dropWhile (· == c)).reverse

/-- The request for a statement. -/
def request (e : Endpoint) (sql : String) : Request where
  url := dropTrailing '/' e.url ++ "/rest/sql"
  authorization := "Basic " ++ Base64.encodeText (e.user ++ ":" ++ e.password)
  body := sql

/-- The envelope of an answer. -/
structure Envelope where
  code : Int32
  description : Option String := none
  rows : List (List Json) := []
  affected : Option Nat := none

namespace Envelope

def fieldNames : List String := ["code", "desc", "data", "rows"]

/-- Whether one of the fields is given twice. -/
def repeatsField : Json → Bool
  | .object members => fieldNames.any fun name => 1 < members.countP (·.1 == name)
  | _ => false

/-- Reads the body of an answer; an envelope that gives a field twice is refused. Members that are
no fields have to be well-formed only. -/
def read? (body : String) : Option Envelope := do
  let raw ← Json.readMembers? fieldNames body
  if repeatsField raw then none
  let r ← Wire.Record.ofJson? fieldNames raw.normalize
  return {
    code := ← r.required "code" Wire.int32?
    description := ← r.withDefault "desc" (Wire.Record.nullable Json.text?) none
    rows := ← r.withDefault "data" (Wire.listOf (Wire.listOf Wire.any)) []
    affected := ← r.withDefault "rows" (Wire.Record.nullable Json.nat64?) none }

end Envelope

/-- The usual reasons of statuses. -/
def reason? (status : Nat) : Option String :=
  [(100, "Continue"), (101, "Switching Protocols"), (102, "Processing"), (200, "OK"),
    (201, "Created"), (202, "Accepted"), (203, "Non Authoritative Information"),
    (204, "No Content"), (205, "Reset Content"), (206, "Partial Content"), (207, "Multi-Status"),
    (208, "Already Reported"), (226, "IM Used"), (300, "Multiple Choices"),
    (301, "Moved Permanently"), (302, "Found"), (303, "See Other"), (304, "Not Modified"),
    (305, "Use Proxy"), (307, "Temporary Redirect"), (308, "Permanent Redirect"),
    (400, "Bad Request"), (401, "Unauthorized"), (402, "Payment Required"), (403, "Forbidden"),
    (404, "Not Found"), (405, "Method Not Allowed"), (406, "Not Acceptable"),
    (407, "Proxy Authentication Required"), (408, "Request Timeout"), (409, "Conflict"),
    (410, "Gone"), (411, "Length Required"), (412, "Precondition Failed"),
    (413, "Payload Too Large"), (414, "URI Too Long"), (415, "Unsupported Media Type"),
    (416, "Range Not Satisfiable"), (417, "Expectation Failed"), (418, "I'm a teapot"),
    (421, "Misdirected Request"), (422, "Unprocessable Entity"), (423, "Locked"),
    (424, "Failed Dependency"), (425, "Too Early"), (426, "Upgrade Required"),
    (428, "Precondition Required"), (429, "Too Many Requests"),
    (431, "Request Header Fields Too Large"), (451, "Unavailable For Legal Reasons"),
    (500, "Internal Server Error"), (501, "Not Implemented"), (502, "Bad Gateway"),
    (503, "Service Unavailable"), (504, "Gateway Timeout"), (505, "HTTP Version Not Supported"),
    (506, "Variant Also Negotiates"), (507, "Insufficient Storage"), (508, "Loop Detected"),
    (510, "Not Extended"), (511, "Network Authentication Required")].lookup status

/-- A status and its reason. -/
def writeStatus (status : Nat) : String :=
  let reason := (reason? status).getD "<unknown status code>"
  s!"{status} {reason}"

def isServerFault (status : Nat) : Bool := 500 ≤ status && status < 600

/-- The envelope of a response, or the error that it stands for. A server fault without an envelope
comes from a gateway, so it may go away. -/
def receive : Response → Except EngineError Envelope
  | .closed => .error (.transport "error sending request")
  | .timedOut => .error (.timeout "http request" 0)
  | .status status body =>
    match Envelope.read? body with
    | some e =>
      if e.code = 0 then .ok e
      else .error (.rejected ⟨e.code⟩ (e.description.getD "no description"))
    | none =>
      if isServerFault status then
        .error (.transport s!"engine endpoint returned {writeStatus status}")
      else .error (.badAnswer (.notEnvelope (writeStatus status)))

/-- The number of rows that a statement affected. -/
def affected (r : Response) : Except EngineError Nat :=
  (receive r).map (·.affected.getD 0)

/-- The statement that asks for a description. -/
def describeStatement (table : TableName) : String := "DESCRIBE " ++ table.write

/-- The schema of a table; none if the engine says there is no such table or database. -/
def described (r : Response) : Except EngineError (Option TableSchema) :=
  match receive r with
  | .ok e => ((TableSchema.ofRows e.rows).mapError .badAnswer).map some
  | .error e => if e.isNotFound then .ok none else .error e

end Historian.Engine.Rest
