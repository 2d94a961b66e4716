/-!
Locks by key. Requests for one key stand in a line; the first in line holds the lock and the others
wait in the order of their arrival. Forgetting a key lets the next request for it begin a new line,
while whoever stands in the old one stays there.
-/
namespace Historian

/-- A request for the lock of a key. Requests in one line have the same key and epoch. -/
structure LockRequest (κ ρ : Type) where
  owner : ρ
  key : κ
  epoch : Nat
deriving DecidableEq, Repr

/-- The requests in the order of their arrival, and the keys that are known, each with the epoch of
its present line. -/
structure KeyedLocks (κ ρ : Type) where
  requests : List (LockRequest κ ρ) := []
  epochs : List (κ × Nat) := []
  nextEpoch : Nat := 0
deriving Repr

namespace KeyedLocks

variable {κ ρ : Type} [DecidableEq κ] [DecidableEq ρ]

/-- The number of keys known. -/
def size (l : KeyedLocks κ ρ) : Nat := l.epochs.length

def isEmpty (l : KeyedLocks κ ρ) : Bool := l.epochs.isEmpty

/-- Queues a request; an unknown key becomes known and begins a line. -/
def request (l : KeyedLocks κ ρ) (owner : ρ) (key : κ) : KeyedLocks κ ρ :=
  match l.epochs.lookup key with
  | some epoch => { l with requests := l.requests ++ [⟨owner, key, epoch⟩] }
  | none =>
    { requests := l.requests ++ [⟨owner, key, l.nextEpoch⟩]
      epochs := l.epochs ++ [(key, l.nextEpoch)]
      nextEpoch := l.nextEpoch + 1 }

/-- Takes the owner's request out of its line, whether it holds the lock or waits for it. -/
def leave (l : KeyedLocks κ ρ) (owner : ρ) : KeyedLocks κ ρ :=
  { l with requests := l.requests.filter (·.owner ≠ owner) }

/-- Forgets a key. -/
def forget (l : KeyedLocks κ ρ) (key : κ) : KeyedLocks κ ρ :=
  { l with epochs := l.epochs.filter (·.1 ≠ key) }

/-- Whether two requests stand in one line. -/
def sameLine (a b : LockRequest κ ρ) : Bool := a.key = b.key && a.epoch = b.epoch

/-- Splits requests into the first of every line and the rest, `seen` being those before them. -/
def split (seen : List (LockRequest κ ρ)) :
    List (LockRequest κ ρ) → List (LockRequest κ ρ) × List (LockRequest κ ρ)
  | [] => ([], [])
  | r :: rs =>
    let (first, later) := split (seen ++ [r]) rs
    if seen.any (sameLine r) then (first, r :: later) else (r :: first, later)

/-- The requests that hold their lock. -/
def holding (l : KeyedLocks κ ρ) : List (LockRequest κ ρ) := (split [] l.requests).1

/-- The requests that wait, in the order of their arrival. -/
def waiting (l : KeyedLocks κ ρ) : List (LockRequest κ ρ) := (split [] l.requests).2

/-- Whether the owner holds a lock. -/
def holds (l : KeyedLocks κ ρ) (owner : ρ) : Bool := l.holding.any (·.owner = owner)

end KeyedLocks

end Historian
