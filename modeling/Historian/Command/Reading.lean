import Historian.Command.Arguments
import Historian.Command.Basic
import Historian.Decimal.Reading

/-!
Reading calls of the tool from their arguments: options of the tool itself, a group, a command of
the group, and the command's own arguments. Arguments that fit no command are refused as a whole.
-/
namespace Historian.Command

/-- A path is not empty. -/
def path? (s : String) : Option String := if s.isEmpty then none else some s

/-- A number of 32 bits. -/
def order? (s : String) : Option Int32 := do
  let n ← Numeral.readInt? s.toList
  if -signedHalfEnd ≤ n ∧ n < signedHalfEnd then some (Int32.ofInt n) else none

namespace Arguments

/-- The value of an option, which must be readable if it is given. -/
def read (a : Arguments) (name : String) (read : String → Option α) : Option (Option α) :=
  match a.option? name with
  | none => some none
  | some s => (read s).map some

end Arguments

/-- The form of commands that take values only. -/
def plain (places : Nat) : Form := ⟨places, []⟩

def createForm : Form where
  places := 1
  options := [
    { name := "name", short := 'n' },
    { name := "database", short := 'd' },
    { name := "industry", short := 'i' },
    { name := "prefix" }]

def syncForm : Form where
  places := 1
  options := [{ name := "all", arity := .flag }, { name := "force", arity := .flag }]

/-- A synchronization names one category or asks for all, but not for both. -/
def sync? (a : Arguments) : Option Command :=
  match a.value? 0, a.has "all", a.has "force" with
  | none, true, false => some .syncAll
  | some code, false, force => some (.syncCategory code force)
  | _, _, _ => none

def ofCategoryGroup? (name : String) (args : List String) : Option Command := do
  match name with
  | "create" =>
    let a ← Arguments.read? createForm args
    return .createCategory {
      code := ← a.value? 0
      name := ← a.option? "name"
      industry := a.option? "industry"
      database := ← a.option? "database"
      stem := (a.option? "prefix").getD "raw" }
  | "show" => return .showCategory (← (← Arguments.read? (plain 1) args).value? 0)
  | "list" =>
    let _ ← Arguments.read? (plain 0) args
    return .listCategories
  | "sync" => sync? (← Arguments.read? syncForm args)
  | "disable" => return .setCategoryActive (← (← Arguments.read? (plain 1) args).value? 0) false
  | "enable" => return .setCategoryActive (← (← Arguments.read? (plain 1) args).value? 0) true
  | "delete" => return .deleteCategory (← (← Arguments.read? (plain 1) args).value? 0)
  | _ => none

def addForm : Form where
  places := 2
  options := [
    { name := "type", short := 't' },
    { name := "name", short := 'n' },
    { name := "unit", short := 'u' },
    { name := "not-stored", arity := .flag },
    { name := "realtime", arity := .flag },
    { name := "feature", arity := .flag },
    { name := "min" },
    { name := "max" },
    { name := "order" }]

def ofSignalGroup? (name : String) (args : List String) : Option Command := do
  match name with
  | "add" =>
    let a ← Arguments.read? addForm args
    let code ← a.value? 1
    return .addSignal {
      category := ← a.value? 0
      code
      name := (a.option? "name").getD code
      dataType := ← a.option? "type" >>= DataType.ofSynonym?
      unit := a.option? "unit"
      isStored := !a.has "not-stored"
      isRealtime := a.has "realtime"
      isFeature := a.has "feature"
      least := ← a.read "min" Binary64.read?
      greatest := ← a.read "max" Binary64.read?
      order := (← a.read "order" order?).getD 0 }
  | "list" => return .listSignals (← (← Arguments.read? (plain 1) args).value? 0)
  | _ => none

def assetForm : Form where
  places := 2
  options := [{ name := "name", short := 'n' }, { name := "attr", short := 'a', arity := .many }]

def ofAssetGroup? (name : String) (args : List String) : Option Command := do
  match name with
  | "create" =>
    let a ← Arguments.read? assetForm args
    let code ← a.value? 1
    return .createAsset (← a.value? 0) code ((a.option? "name").getD code) (a.all "attr")
  | "list" => return .listAssets (← (← Arguments.read? (plain 1) args).value? 0)
  | _ => none

/-- A compilation names a registered feature or a file, but not both. -/
def compile? (a : Arguments) : Option Command := do
  let category ← a.value? 0
  match a.value? 1, ← a.read "file" path? with
  | some name, none => return .compileFeature category name
  | none, some path => return .previewFeature category (.ofPath path)
  | _, _ => none

def ofFeatureGroup? (name : String) (args : List String) : Option Command := do
  match name with
  | "register" =>
    let a ← Arguments.read? (plain 2) args
    return .registerFeature (← a.value? 0) (.ofPath (← a.value? 1 >>= path?))
  | "list" => return .listFeatures (← (← Arguments.read? (plain 1) args).value? 0)
  | "compile" => compile? (← Arguments.read? ⟨2, [{ name := "file" }]⟩ args)
  | _ => none

def ofStreamGroup? (name : String) (args : List String) : Option Command := do
  match name with
  | "create" =>
    let a ← Arguments.read? (plain 2) args
    return .createStream (← a.value? 0) (← a.value? 1)
  | "list" =>
    let a ← Arguments.read? ⟨0, [{ name := "category", short := 'c' }]⟩ args
    return .listStreams (a.option? "category")
  | _ =>
    let command ← match name with
      | "deploy" => some Command.deployStream
      | "pause" => some .pauseStream
      | "resume" => some .resumeStream
      | "stop" => some .stopStream
      | "ack" => some .acknowledgeStream
      | "delete" => some .deleteStream
      | "status" => some .streamStatus
      | "logs" => some .streamLogs
      | _ => none
    return command (← (← Arguments.read? (plain 1) args).value? 0)

/-- The groups of commands. -/
def groups : List (String × (String → List String → Option Command)) := [
  ("category", ofCategoryGroup?), ("signal", ofSignalGroup?), ("asset", ofAssetGroup?),
  ("feature", ofFeatureGroup?), ("stream", ofStreamGroup?)]

/-- Reads a group and a command of it. -/
def read? : List String → Option Command
  | group :: name :: args => do (← groups.lookup group) name args
  | _ => none

/-- Reads what is to be done: something about the settings, or a command. -/
def Purpose.read? : List String → Option Purpose
  | "config" :: name :: args => do
    let _ ← Arguments.read? (plain 0) args
    match name with
    | "show" => some .showSettings
    | "init" => some .writeSettings
    | _ => none
  | args => (Command.read? args).map .run

/-- The options of the tool itself. -/
def toolForm : Form := ⟨0, [{ name := "config", short := 'c' }]⟩

/-- Reads a call: the tool's own options come before the group. -/
def Invocation.read? (args : List String) : Option Invocation := do
  let (own, args) ← Arguments.takeOptions? toolForm {} args
  return ⟨← own.read "config" path?, ← Purpose.read? args⟩

end Historian.Command
