import Historian.Decimal.Binary64

/-!
Trying again. An operation is attempted until it succeeds, fails for good, or the attempts are used
up; every attempt has a deadline, and before each further one there is a wait that grows by a factor
up to a bound. `retry` runs in any monad, so that one loop serves a timeline of scripted outcomes
and the programs that talk to the catalog and the engine.
-/
namespace Historian

/-- Failures that may go away when the operation is tried again. -/
class Transient (ε : Type) where
  isTransient : ε → Bool
  /-- The failure of an attempt that was cut off at its deadline. -/
  timedOut : (operation : String) → (after : Nat) → ε

export Transient (isTransient)

/-- How often and how patiently an operation is tried; times are in milliseconds. -/
structure RetryPolicy where
  maxAttempts : Nat := 3
  initialBackoff : Nat := 200
  maxBackoff : Nat := 5000
  multiplier : Binary64 := .ofNat 2
  attemptTimeout : Nat := 10000
deriving Repr

/-- The last error of an operation that was given up, and how many attempts were made. -/
structure RetryFailure (ε : Type) where
  attempts : Nat
  error : ε
deriving Repr

/-- Whether the operation was given up only because the attempts were used up. -/
def RetryFailure.isExhausted {ε : Type} [Transient ε] (f : RetryFailure ε) : Bool :=
  isTransient f.error

namespace RetryPolicy

/-- The number of attempts allowed; there is always one. -/
def attempts (p : RetryPolicy) : Nat := max 1 p.maxAttempts

/-- `r * a ^ n` by repeated squaring, rounding after every product. -/
def scaleByPower (r a : Float) (n : Nat) : Float :=
  if n = 0 then r
  else
    let r := if n % 2 = 1 then r * a else r
    if n / 2 = 0 then r else scaleByPower r (a * a) (n / 2)
termination_by n

/-- `a ^ n`; negative powers are reciprocals. -/
def power (a : Float) (n : Int) : Float :=
  let r := scaleByPower 1 a n.natAbs
  if n < 0 then 1 / r else r

/-- The wait after a failed attempt, attempts being counted from zero and taken as 32-bit integers:
the initial wait times a power of the multiplier, cut to whole milliseconds and to the bound. -/
def backoff (p : RetryPolicy) (attempt : Nat) : Nat :=
  let factor := power (Float.ofBits p.multiplier.toBits) (Int.bmod attempt 0x100000000)
  let wait := Float.ofBits (Binary64.ofNat p.initialBackoff).toBits * factor
  min wait.toUInt64.toNat p.maxBackoff

variable {m : Type → Type} [Monad m] {ε α : Type} [Transient ε]

/-- The attempts that remain after `made` of them, `left` further ones being allowed after the next.
An attempt without an answer was cut off at its deadline. -/
def retryFrom (p : RetryPolicy) (operation : String) (attempt : m (Option (Except ε α)))
    (wait : Nat → m Unit) (made left : Nat) : m (Except (RetryFailure ε) α) := do
  let answer ← attempt
  match answer.getD (.error (Transient.timedOut operation p.attemptTimeout)) with
  | .ok a => return .ok a
  | .error e =>
    if !isTransient e then return .error ⟨made + 1, e⟩
    match left with
    | 0 => return .error ⟨made + 1, e⟩
    | left + 1 =>
      wait (p.backoff made)
      retryFrom p operation attempt wait (made + 1) left

/-- Attempts an operation as often as the policy allows. -/
def retry (p : RetryPolicy) (operation : String) (attempt : m (Option (Except ε α)))
    (wait : Nat → m Unit) : m (Except (RetryFailure ε) α) :=
  retryFrom p operation attempt wait 0 (p.attempts - 1)

end RetryPolicy

-- A timeline plays scripted outcomes and adds up the time.

/-- What an attempt comes to, and after how long. -/
structure Outcome (ε α : Type) where
  delay : Nat := 0
  result : Except ε α

/-- The attempts made so far and the milliseconds that have passed. -/
structure Timeline where
  calls : Nat := 0
  elapsed : Nat := 0
deriving DecidableEq, Repr

namespace Timeline

variable {ε α : Type}

/-- The next attempt has the outcome of its number, unless that comes after the deadline. -/
def attempt (script : Nat → Outcome ε α) (deadline : Nat) :
    StateM Timeline (Option (Except ε α)) := fun t =>
  let o := script t.calls
  let answer := if o.delay ≤ deadline then some o.result else none
  (answer, ⟨t.calls + 1, t.elapsed + min o.delay deadline⟩)

def wait (millis : Nat) : StateM Timeline Unit := fun t =>
  ((), { t with elapsed := t.elapsed + millis })

/-- Retries the scripted operation from time zero. -/
def retry [Transient ε] (p : RetryPolicy) (operation : String) (script : Nat → Outcome ε α) :
    Except (RetryFailure ε) α × Timeline :=
  (p.retry operation (attempt script p.attemptTimeout) wait : StateM Timeline _).run {}

end Timeline

end Historian
