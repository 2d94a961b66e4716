import Historian.Feature.Query
import Historian.Program
import Historian.Stream.Error

/-!
Features and the stream tasks that compute them. A call loads what it is about, checks that it is
allowed, asks the engine, and only then records what has changed. Calls on one task run one after
another, and so do deployments of one feature, because its generations write the same table.
-/
namespace Historian.StreamManager

/-- A program that can fail with an error of the stream manager. -/
abbrev Action (α : Type) := ExceptT StreamError Program α

/-- A check of an input. -/
def checked (r : Except Invalid α) : Action α := ExceptT.mk (pure (r.mapError StreamError.invalid))

def catalog (policy : RetryPolicy) (op : CatalogOp) : Action op.Answer :=
  ExceptT.mk do return (← Program.retryCatalog policy op).mapError (StreamError.ofCatalog op.name)

/-- Does something under a lock. -/
def holding (key : String) (a : Action α) : Action α :=
  ExceptT.mk (Program.holding (.stream key) a.run)

/-- The lock that deployments of a feature share. -/
def featureKey (category feature : String) : String := s!"feature:{category}/{feature}"

/-- Adds a line to a task's log. That it cannot be written is no failure of the action. -/
def log (policy : RetryPolicy) (task : String) (level : LogLevel) (message : String) :
    Action Unit := do
  let _ ← (Program.retryCatalog policy (.appendLog task level message) : Program _)
  return ()

def loadCategory (policy : RetryPolicy) (code : String) : Action CategoryInfo := do
  match ← catalog policy (.getCategory code) with
  | some k => return k
  | none => throw (.categoryMissing code)

def loadTask (policy : RetryPolicy) (id : String) : Action StreamTask := do
  match ← catalog policy (.getTask id) with
  | some t => return t
  | none => throw (.taskMissing id)

def setStatus (policy : RetryPolicy) (id : String) (status : StreamStatus)
    (lastError : Option String) : Action StreamTask :=
  catalog policy (.setTaskStatus id status lastError)

-- Features.

/-- Checks a feature against the signals of its category. -/
def checkSignals (policy : RetryPolicy) (category : String) (c : FeatureConfig) : Action Unit := do
  let signals ← catalog policy (.listSignals category)
  checked (c.check category (signals.map (·.toSignalSpec)))

/-- The category and the feature that a document describes, if the feature can be computed there. -/
def validated (policy : RetryPolicy) (category : String) (document : Json) :
    Action (CategoryInfo × FeatureConfig) := do
  let k ← loadCategory policy category
  let c ← checked (FeatureConfig.read document)
  checkSignals policy k.code c
  return (k, c)

/-- The document of a feature as a value. -/
def documentOf (f : Feature) : Json := (Json.read? f.document).getD .null

/-- Keeps the canonical document of a feature. -/
def register (policy : RetryPolicy) (category : String) (document : Json) : Action Feature := do
  let (k, c) ← validated policy category document
  catalog policy (.upsertFeature k.code c.name c.toJson)

/-- The stream that a feature would get if it were registered now. -/
def preview (policy : RetryPolicy) (category : String) (document : Json) :
    Action CompiledStream := do
  let (k, c) ← validated policy category document
  let generation : Int :=
    match ← catalog policy (.getFeature k.code c.name) with
    | some f => if (documentOf f).same c.toJson then f.generation else f.generation + 1
    | none => 1
  checked (CompiledStream.ofFeature k.toCategoryKey c generation)

/-- The stream of a registered feature. -/
def compile (policy : RetryPolicy) (category feature : String) : Action CompiledStream := do
  let k ← loadCategory policy category
  match ← catalog policy (.getFeature category feature) with
  | none => throw (.featureMissing category feature)
  | some f =>
    let c ← checked (FeatureConfig.read (documentOf f))
    checkSignals policy k.code c
    checked (CompiledStream.ofFeature k.toCategoryKey c f.generation)

-- Tasks.

/-- Makes a task for a stream, unless one that is not stopped has its name. -/
def createTask (policy : RetryPolicy) (category feature : String) (s : CompiledStream) :
    Action StreamTask := do
  let tasks ← catalog policy (.listTasks (some category))
  match tasks.find? fun t => t.streamName == s.streamName && t.status != .stopped with
  | some t => throw (.streamTaken s.streamName t.id)
  | none => pure ()
  let task ← catalog policy (.createTask
    { category, feature, generation := s.generation, streamName := s.streamName
      targetTable := s.targetTable, sql := s.sql })
  log policy task.id .info
    s!"Created from feature {task.feature} generation {task.generation}"
  return task

/-- Compiles a feature and makes a task for it. -/
def create (policy : RetryPolicy) (category feature : String) : Action StreamTask := do
  let s ← compile policy category feature
  holding s.streamName (createTask policy category feature s)

/-- The status that an action leads a task to; it must be valid. -/
def transition (t : StreamTask) (action : StreamAction) : Action StreamStatus :=
  match action.next? t.status with
  | some next => return next
  | none => throw (.conflict t.id t.status action)

/-- Issues the statement of an action and records what came of it. If only the attempts ran out, the
task stays as it is; if the engine refused, the task goes into the error status. -/
def runTransition (policy : RetryPolicy) (t : StreamTask) (action : StreamAction) (sql : String) :
    Action StreamTask := do
  let next ← transition t action
  match ← Program.retryExecute policy action.name sql with
  | .ok () =>
    let updated ← setStatus policy t.id next none
    log policy t.id .info s!"{action.name}: {t.status.name} -> {next.name}"
    return updated
  | .error f =>
    let cause := f.error.message
    if f.isExhausted then
      log policy t.id .warn s!"{action.name} failed after {f.attempts} attempts: {cause}"
    else
      if action.failsIntoError then
        let _ ← setStatus policy t.id .error (some cause)
      log policy t.id .error s!"{action.name} rejected by engine: {cause}"
    throw (StreamError.ofEngine t.id t.streamName action f)

/-- Refuses to go on while another generation of the feature is live. -/
def requireNoLiveGeneration (policy : RetryPolicy) (t : StreamTask) : Action Unit := do
  let tasks ← catalog policy (.listTasks (some t.category))
  match tasks.find? fun o => o.id != t.id && o.feature == t.feature && o.status.isLive with
  | some live => throw (.generationLive t.id live.id live.generation)
  | none => return ()

/-- Starts the stream of a task; the answer says whether it was not running already. -/
def deploy (policy : RetryPolicy) (id : String) : Action Bool :=
  holding id do
    let t ← loadTask policy id
    if t.status == .running then return false
    let _ ← transition t .deploy
    holding (featureKey t.category t.feature) do
      requireNoLiveGeneration policy t
      let _ ← runTransition policy t .deploy t.sql
      return true

def dropStatement (t : StreamTask) : String := s!"DROP STREAM IF EXISTS {Sql.name t.streamName}"

/-- The statement that controls the stream of a task. -/
def controlStatement (t : StreamTask) : StreamAction → String
  | .pause => s!"PAUSE STREAM {Sql.name t.streamName}"
  | .resume => s!"RESUME STREAM {Sql.name t.streamName}"
  | _ => dropStatement t

def control (policy : RetryPolicy) (action : StreamAction) (id : String) : Action StreamTask :=
  holding id do
    let t ← loadTask policy id
    let _ ← transition t action
    runTransition policy t action (controlStatement t action)

def pause (policy : RetryPolicy) : String → Action StreamTask := control policy .pause

def resume (policy : RetryPolicy) : String → Action StreamTask := control policy .resume

def stop (policy : RetryPolicy) : String → Action StreamTask := control policy .stop

/-- Drops what a failed task may have left in the engine. -/
def dropStream (policy : RetryPolicy) (t : StreamTask) (action : StreamAction) : Action Unit := do
  match ← Program.retryExecute policy "drop stream" (dropStatement t) with
  | .ok () => return ()
  | .error f => throw (StreamError.ofEngine t.id t.streamName action f)

/-- Takes a task out of the error status. -/
def acknowledge (policy : RetryPolicy) (id : String) : Action StreamTask :=
  holding id do
    let t ← loadTask policy id
    let _ ← transition t .acknowledge
    dropStream policy t .acknowledge
    let updated ← setStatus policy t.id .created none
    log policy t.id .info "Error acknowledged; ready to redeploy"
    return updated

/-- Deletes a task that is not live. -/
def delete (policy : RetryPolicy) (id : String) : Action Unit :=
  holding id do
    let t ← loadTask policy id
    let _ ← transition t .delete
    if t.status == .error then dropStream policy t .delete
    catalog policy (.deleteTask id)
    ExceptT.lift (Program.forget (.stream id))

def logs (policy : RetryPolicy) (id : String) : Action (List LogLine) := do
  let _ ← loadTask policy id
  catalog policy (.listLogs id)

def list (policy : RetryPolicy) (category : Option String) : Action (List StreamTask) :=
  catalog policy (.listTasks category)

end Historian.StreamManager
