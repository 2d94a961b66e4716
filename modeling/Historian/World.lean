import Historian.Program

/-!
What programs work on: the catalog, an engine, the locks, and a clock. `World.answer` says what one
request does. `Program.run` runs one program alone; a `Pool` runs several together, one request at a
time, in any order that the locks allow.
-/
namespace Historian

structure World (ε : Type) where
  engine : ε
  catalog : Catalog := {}
  /-- Errors that are arranged for operations of the catalog, each for the next one of its name. -/
  catalogFaults : List (String × CatalogError) := []
  locks : KeyedLocks LockKey Nat := {}
  nextTicket : Nat := 0
  /-- Milliseconds since the epoch. -/
  clock : Int := 0

namespace World

variable {ε : Type}

/-- The error arranged for the next operation of that name, and the errors that are left. -/
def takeFault (name : String) :
    List (String × CatalogError) → Option (CatalogError × List (String × CatalogError))
  | [] => none
  | f :: fs =>
    if f.1 = name then some (f.2, fs) else (takeFault name fs).map fun r => (r.1, f :: r.2)

/-- Carries out an operation of the catalog, unless an error is arranged for it. -/
def perform (w : World ε) (op : CatalogOp) : Except CatalogError op.Answer × World ε :=
  match takeFault op.name w.catalogFaults with
  | some (e, catalogFaults) => (.error e, { w with catalogFaults })
  | none =>
    let (answer, catalog) := op.carryOut w.catalog
    (answer, { w with catalog })

/-- The clock after an engine call with a limit. -/
def afterCall [Engine.Endpoint ε] (w : World ε) (limit : Nat) : Int :=
  w.clock + min limit (Engine.Endpoint.latency w.engine)

/-- What a request is answered with, and the world after it. A request for a lock only stands in
line; whoever made it goes on when it holds the lock. -/
def answer [Engine.Endpoint ε] (w : World ε) : (r : Request) → r.Answer × World ε
  | .acquire key =>
    (w.nextTicket,
      { w with locks := w.locks.request w.nextTicket key, nextTicket := w.nextTicket + 1 })
  | .release ticket => ((), { w with locks := w.locks.leave ticket })
  | .forget key => ((), { w with locks := w.locks.forget key })
  | .catalog op => w.perform op
  | .execute limit sql =>
    let (a, engine) := Engine.Endpoint.execute w.engine (some limit) sql
    (a, { w with engine, clock := w.afterCall limit })
  | .describe limit table =>
    let (a, engine) := Engine.Endpoint.describe w.engine (some limit) table
    (a, { w with engine, clock := w.afterCall limit })
  | .wait millis => ((), { w with clock := w.clock + millis })
  | .now => (w.clock, w)

end World

namespace Program

variable {ε α : Type} [Engine.Endpoint ε]

/-- Runs a program alone, so that every lock is free. -/
def run : Program α → World ε → α × World ε
  | .done a, w => (a, w)
  | .ask r next, w =>
    let (a, w) := w.answer r
    (next a).run w

@[simp] theorem run_pure (a : α) (w : World ε) : (pure a : Program α).run w = (a, w) := rfl

theorem run_bind {β : Type} (p : Program α) (f : α → Program β) (w : World ε) :
    (p >>= f).run w = (f (p.run w).1).run (p.run w).2 := by
  induction p generalizing w with
  | done a => rfl
  | ask r next ih => exact ih ..

end Program

/-- A program on its way: it runs, or it stands in line for a lock. -/
inductive Thread (α : Type)
  | running (program : Program α)
  | waiting (ticket : Nat) (next : Nat → Program α)

/-- Programs that share a world. -/
structure Pool (ε α : Type) where
  world : World ε
  threads : List (Thread α)

namespace Thread

variable {ε α : Type} [Engine.Endpoint ε]

/-- The next step of a thread, if it is not done and not kept waiting. -/
def step (t : Thread α) (w : World ε) : Option (Thread α × World ε) :=
  match t with
  | .running (.done _) => none
  | .running (.ask (.acquire key) next) =>
    let (ticket, w) := w.answer (.acquire key)
    some (.waiting ticket next, w)
  | .running (.ask r next) =>
    let (a, w) := w.answer r
    some (.running (next a), w)
  | .waiting ticket next =>
    if w.locks.holds ticket then some (.running (next ticket), w) else none

/-- The result of a thread that is done. -/
def result? : Thread α → Option α
  | .running (.done a) => some a
  | _ => none

end Thread

namespace Pool

variable {ε α : Type} [Engine.Endpoint ε]

/-- The pool after the next step of the thread in that place. -/
def step (p : Pool ε α) (i : Nat) : Option (Pool ε α) := do
  let t ← p.threads[i]?
  let (t, world) ← t.step p.world
  return { world, threads := p.threads.set i t }

/-- One step of any thread that can take one. -/
inductive Step (p p' : Pool ε α) : Prop
  | mk (i : Nat) (h : p.step i = some p')

/-- Any number of steps. -/
inductive Steps (p : Pool ε α) : Pool ε α → Prop
  | refl : Steps p p
  | tail {p' p'' : Pool ε α} : Steps p p' → Step p' p'' → Steps p p''

end Pool

end Historian
