import Historian.Proofs.Program.Race
import Historian.Stream.Manager

namespace Historian.StreamManager

variable {P : Request → Prop} {policy : RetryPolicy} {t : StreamTask} {id category feature : String}

-- All requests of an action are of some kind.
abbrev Within (P : Request → Prop) (a : Action α) : Prop := a.run.Asks P

-- Locks are taken by the calls alone. What is done under them asks for operations of the catalog,
-- for the engine to do something, and for waits between the attempts.

theorem Within.step {a : Action α} {f : α → Action β} (h : Within P a) (hf : ∀ x, Within P (f x)) :
    Within P (a >>= f) :=
  Program.Asks.exceptBind h hf

theorem Within.lift {p : Program α} {f : α → Action β} (h : p.Asks P) (hf : ∀ x, Within P (f x)) :
    Within P (liftM p >>= f) :=
  Within.step (Program.Asks.bind h fun _ => trivial) hf

theorem checked_within {x : Except Invalid α} : Within P (checked x) :=
  trivial

theorem transition_within : Within P (transition t action) := by
  unfold transition
  split <;> trivial

section

variable (waits : ∀ millis, P (.wait millis))
include waits

theorem retryExecute_asks (executes : ∀ limit sql, P (.execute limit sql)) :
    (Program.retryExecute policy operation sql).Asks P :=
  .retry (.request (executes _ _)) waits

theorem dropStream_within (executes : ∀ limit sql, P (.execute limit sql)) :
    Within P (dropStream policy t action) :=
  .lift (retryExecute_asks waits executes) fun r => by cases r <;> trivial

variable (reads : ∀ op, P (.catalog op))
include reads

theorem retryCatalog_asks (op : CatalogOp) : (Program.retryCatalog policy op).Asks P :=
  .retry (Program.Asks.bind (.request (reads op)) fun _ => trivial) waits

theorem catalog_within (op : CatalogOp) : Within P (catalog policy op) :=
  Program.Asks.bind (retryCatalog_asks waits reads op) fun _ => trivial

theorem log_within : Within P (log policy id level message) :=
  .lift (retryCatalog_asks waits reads _) fun _ => trivial

theorem loadCategory_within : Within P (loadCategory policy category) :=
  (catalog_within waits reads _).step fun k => by cases k <;> trivial

theorem loadTask_within : Within P (loadTask policy id) :=
  (catalog_within waits reads _).step fun t => by cases t <;> trivial

theorem checkSignals_within {c : FeatureConfig} : Within P (checkSignals policy category c) :=
  (catalog_within waits reads _).step fun _ => checked_within

theorem register_within {document : Json} : Within P (register policy category document) := by
  have validated : Within P (validated policy category document) :=
    (loadCategory_within waits reads).step fun _ => checked_within.step fun _ =>
      (checkSignals_within waits reads).step fun _ => trivial
  exact validated.step fun _ => catalog_within waits reads _

theorem compile_within : Within P (compile policy category feature) := by
  refine (loadCategory_within waits reads).step fun k => ?_
  refine (catalog_within waits reads _).step fun found => ?_
  cases found with
  | none => trivial
  | some f =>
    exact checked_within.step fun _ =>
      (checkSignals_within waits reads).step fun _ => checked_within

theorem createTask_within {s : CompiledStream} :
    Within P (createTask policy category feature s) := by
  refine (catalog_within waits reads _).step fun tasks => ?_
  split
  · trivial
  · exact (catalog_within waits reads _).step fun _ => (log_within waits reads).step fun _ => trivial

theorem requireNoLiveGeneration_within : Within P (requireNoLiveGeneration policy t) := by
  refine (catalog_within waits reads _).step fun tasks => ?_
  split <;> trivial

theorem runTransition_within (executes : ∀ limit sql, P (.execute limit sql)) :
    Within P (runTransition policy t action sql) := by
  have noted {level message} {e : StreamError} :
      Within P (log policy t.id level message >>= fun _ => (throw e : Action StreamTask)) :=
    (log_within waits reads).step fun _ => trivial
  refine transition_within.step fun next => ?_
  refine .lift (retryExecute_asks waits executes) fun r => ?_
  cases r with
  | ok =>
    exact (catalog_within waits reads _).step fun _ => (log_within waits reads).step fun _ => trivial
  | error f =>
    dsimp only
    split
    case isTrue => exact noted
    case isFalse =>
      split
      case isTrue => exact (catalog_within waits reads _).step fun _ => noted
      case isFalse => exact noted

end

end Historian.StreamManager
