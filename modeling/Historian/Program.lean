import Historian.Catalog.Operation
import Historian.Engine.Service
import Historian.Locks

/-!
Programs that work on the catalog and the engine. A program is a tree of requests: it either is done
or asks for one thing and goes on with the answer. What a request does to the world is said once, so
that one program can be run alone or together with others, one request at a time.
-/
namespace Historian

/-- What a lock protects: the schema of a category, the streams of a name, a task, or the live
generations of a feature. -/
inductive LockKey
  | schema (category : String)
  | stream (key : String)
deriving DecidableEq, Repr

/-- What a program can ask for. Engine calls have a limit in milliseconds. -/
inductive Request
  /-- The lock of a key; the answer is the ticket to give it back with. -/
  | acquire (key : LockKey)
  | release (ticket : Nat)
  | forget (key : LockKey)
  | catalog (op : CatalogOp)
  | execute (limit : Nat) (sql : String)
  | describe (limit : Nat) (table : TableName)
  | wait (millis : Nat)
  | now

/-- What a request is answered with. -/
def Request.Answer : Request → Type
  | .acquire _ => Nat
  | .release _ | .forget _ | .wait _ => Unit
  | .catalog op => Except CatalogError op.Answer
  | .execute .. => Option (Except EngineError Unit)
  | .describe .. => Option (Except EngineError (Option TableSchema))
  | .now => Int

/-- A program with a result. -/
inductive Program (α : Type)
  | done (result : α)
  | ask (request : Request) (next : request.Answer → Program α)

namespace Program

/-- Goes on with another program. -/
def bind (p : Program α) (f : α → Program β) : Program β :=
  match p with
  | .done a => f a
  | .ask request next => .ask request fun answer => (next answer).bind f

instance : Monad Program where
  pure := .done
  bind := bind

theorem bind_done (p : Program α) : p.bind .done = p := by
  induction p with
  | done => rfl
  | ask request next ih => simp only [bind]; exact congrArg _ (funext ih)

theorem bind_assoc (p : Program α) (f : α → Program β) (g : β → Program γ) :
    (p.bind f).bind g = p.bind fun a => (f a).bind g := by
  induction p with
  | done => rfl
  | ask request next ih => simp only [bind]; exact congrArg _ (funext ih)

instance : LawfulMonad Program :=
  LawfulMonad.mk' Program bind_done (fun _ _ => rfl) bind_assoc

/-- One request. -/
def request (r : Request) : Program r.Answer := .ask r .done

def acquire (key : LockKey) : Program Nat := request (.acquire key)

def release (ticket : Nat) : Program Unit := request (.release ticket)

def forget (key : LockKey) : Program Unit := request (.forget key)

def catalog (op : CatalogOp) : Program (Except CatalogError op.Answer) := request (.catalog op)

def execute (limit : Nat) (sql : String) : Program (Option (Except EngineError Unit)) :=
  request (.execute limit sql)

def describe (limit : Nat) (table : TableName) :
    Program (Option (Except EngineError (Option TableSchema))) :=
  request (.describe limit table)

def wait (millis : Nat) : Program Unit := request (.wait millis)

def now : Program Int := request .now

/-- Runs a program while holding a lock. -/
def holding (key : LockKey) (p : Program α) : Program α := do
  let ticket ← acquire key
  let a ← p
  release ticket
  return a

-- Calls that are tried again as a policy says.

/-- An operation of the catalog, tried again under its name. -/
def retryCatalog (policy : RetryPolicy) (op : CatalogOp) :
    Program (Except (RetryFailure CatalogError) op.Answer) :=
  policy.retry op.name (some <$> catalog op) wait

/-- A statement, tried again. -/
def retryExecute (policy : RetryPolicy) (operation sql : String) :
    Program (Except (RetryFailure EngineError) Unit) :=
  policy.retry operation (execute policy.attemptTimeout sql) wait

/-- A description of a table, tried again. -/
def retryDescribe (policy : RetryPolicy) (table : TableName) :
    Program (Except (RetryFailure EngineError) (Option TableSchema)) :=
  policy.retry "engine describe" (describe policy.attemptTimeout table) wait

end Program

end Historian
