import Historian.Engine.Execution
import Historian.Proofs.Basic

namespace Historian.Engine

open Sql

namespace Execution

-- The steps that do to the whole state what `f` says, or refuse and leave it alone.
def commit (f : Tables → Except Refusal Tables) : Execution Unit := fun ts t =>
  match f t with
  | .ok t' => (.ok ((), ts), t')
  | .error refusal => (.error refusal, t)

theorem reads_pure (a : α) : reads (pure a) = pure a := rfl

theorem reads_throw (fault : SyntaxFault) :
    reads (throw fault : Reading α) = throw (.syntaxFault fault) := rfl

theorem reads_bind (r : Reading α) (f : α → Reading β) :
    reads (r >>= f) = reads r >>= fun a => reads (f a) := by
  funext ts
  simp only [reads, bind, StateT.bind, Except.bind]
  cases r ts <;> rfl

section

variable {ts : List Token} {t : Tables}

@[simp] theorem pure_at (a : α) : (pure a : Execution α) ts t = (.ok (a, ts), t) := rfl

@[simp] theorem throw_at (r : Refusal) : (throw r : Execution α) ts t = (.error r, t) := rfl

@[simp] theorem update_at (f : Tables → Tables) : update f ts t = (.ok ((), ts), f t) := rfl

@[simp] theorem tables_bind_at (f : Tables → Execution α) : (tables >>= f) ts t = f t ts t := rfl

@[simp] theorem update_bind_at (g : Tables → Tables) (f : Unit → Execution α) :
    (update g >>= f) ts t = f () ts (g t) := rfl

theorem throw_bind (r : Refusal) (f : α → Execution β) : (throw r >>= f) = throw r := rfl

@[simp] theorem require_bind_at (check : Tables → Except Refusal α) (f : α → Execution β) :
    (require check >>= f) ts t =
      match check t with
      | .ok a => f a ts t
      | .error r => (.error r, t) := by
  simp only [require, bind_assoc, tables_bind_at]
  cases check t <;> rfl

-- What is left of a statement once it has been read.
theorem reads_bind_at (r : Reading α) (f : α → Execution β) :
    (reads r >>= f) ts t = match r ts with
      | .ok (a, rest) => f a rest t
      | .error fault => (.error (.syntaxFault fault), t) := by
  simp only [reads, bind, StateT.bind]
  cases r ts <;> rfl

end

-- A change that the answer then takes back has not been one.

theorem insert_contained {s : Std.ExtTreeSet String} (h : s.contains n) : s.insert n = s := by
  refine Std.ExtTreeSet.ext_mem fun m => ?_
  simp only [Std.ExtTreeSet.mem_insert]
  grind

theorem erase_absent {s : Std.ExtTreeMap String Stream} (h : s.contains n = false) :
    s.erase n = s := by
  refine Std.ExtTreeMap.ext_getElem? fun m => ?_
  simp only [Std.ExtTreeMap.getElem?_erase]
  grind

-- Every statement is read completely, and what it then does is done in whole or not at all.

-- A database is put in before it is known whether it was there.
theorem createDatabase_eq :
    createDatabase = reads .createDatabase >>= fun s => commit (·.perform sql s) := by
  simp only [createDatabase, Reading.createDatabase, reads_bind, reads_pure, bind_assoc, pure_bind,
    Tables.perform]
  refine bind_congr fun ifNotExists => bind_congr fun name => ?_
  funext ts t
  simp only [insertDatabase, bind_assoc, tables_bind_at, update_bind_at, pure_bind, commit,
    Tables.createDatabase]
  cases h : t.databases.contains name <;> cases ifNotExists <;> simp [insert_contained, h]

theorem createSuperTable_eq :
    createSuperTable = reads .createSuperTable >>= fun s => commit (·.perform sql s) := by
  simp only [createSuperTable, Reading.createSuperTable, reads_bind, reads_pure, bind_assoc,
    pure_bind, Tables.perform]
  refine bind_congr fun ifNotExists => bind_congr fun name => bind_congr fun columns =>
    bind_congr fun _ => bind_congr fun tags => bind_congr fun _ => ?_
  funext ts t
  simp only [require_bind_at, tables_bind_at, commit, Tables.createSuperTable]
  cases t.requireDatabase name.database
  case error => rfl
  cases Tables.requireWellFormed ⟨columns, tags⟩
  case error => rfl
  cases t.superTables.contains name <;> cases ifNotExists <;> simp [putSchema, throw_bind]

theorem alterSuperTable_eq :
    alterSuperTable = reads .alterSuperTable >>= fun s => commit (·.perform sql s) := by
  simp only [alterSuperTable, Reading.alterSuperTable, reads_bind, bind_assoc]
  refine bind_congr fun name => bind_congr fun adds => ?_
  cases adds with
  | true =>
    simp only [Bool.not_true, Bool.false_eq_true, if_false, if_true, reads_pure, reads_bind,
      pure_bind, bind_assoc, Tables.perform]
    refine bind_congr fun _ => bind_congr fun column => bind_congr fun _ => ?_
    funext ts t
    simp only [require_bind_at, commit, Tables.addColumn]
    cases t.superTable name with
    | error => rfl
    | ok schema =>
      simp only [ok_bind]
      split <;> rfl
  | false =>
    simp only [Bool.not_false, Bool.false_eq_true, if_false, if_true, reads_bind, bind_assoc]
    refine bind_congr fun modifies => ?_
    cases modifies with
    | false => simp only [Bool.not_false, if_true, reads_bind, reads_throw, throw_bind]
    | true =>
      simp only [Bool.not_true, Bool.false_eq_true, if_false, reads_pure, reads_bind, pure_bind,
        bind_assoc, Tables.perform]
      refine bind_congr fun _ => bind_congr fun column => bind_congr fun _ => ?_
      funext ts t
      simp only [require_bind_at, commit, Tables.modifyColumn]
      cases t.superTable name with
      | error => rfl
      | ok schema =>
        simp only [ok_bind]
        cases schema.column? column.name with
        | none => rfl
        | some old => cases h : old.type.widens column.type <;> simp [putSchema, throw_bind, h]

theorem createChildTable_eq :
    createChildTable = reads .createChildTable >>= fun s => commit (·.perform sql s) := by
  simp only [createChildTable, Reading.createChildTable, reads_bind, reads_pure, bind_assoc,
    pure_bind, Tables.perform]
  refine bind_congr fun ifNotExists => bind_congr fun name => bind_congr fun _ =>
    bind_congr fun superTable => bind_congr fun _ => bind_congr fun tags => bind_congr fun _ => ?_
  funext ts t
  simp only [require_bind_at, commit, Tables.createChildTable]
  cases t.requireDatabase name.database
  case error => rfl
  cases t.superTable superTable with
  | error => rfl
  | ok schema =>
    simp only [ok_bind]
    split
    case isTrue => rfl
    simp only [tables_bind_at]
    cases t.childTables.contains name <;> cases ifNotExists <;> rfl

theorem createStream_eq :
    createStream sql = reads .createStream >>= fun s => commit (·.perform sql s) := by
  simp only [createStream, Reading.createStream, reads_bind, reads_pure, bind_assoc, pure_bind,
    Tables.perform]
  refine bind_congr fun ifNotExists => bind_congr fun name => bind_congr fun _ =>
    bind_congr fun target => bind_congr fun _ => bind_congr fun _ => bind_congr fun _ =>
    bind_congr fun source => ?_
  funext ts t
  simp only [require_bind_at, tables_bind_at, commit, Tables.createStream]
  cases t.requireDatabase target.database
  case error => rfl
  cases t.hasTable source
  case false => rfl
  simp only [Bool.not_true, Bool.false_eq_true, if_false, tables_bind_at, ok_bind]
  cases t.streams.contains name <;> cases ifNotExists <;> rfl

theorem setPaused_eq :
    setPaused paused = reads (.setPaused paused) >>= fun s => commit (·.perform sql s) := by
  simp only [setPaused, Reading.setPaused, reads_bind, reads_pure, bind_assoc, pure_bind,
    Tables.perform]
  refine bind_congr fun ifExists => bind_congr fun _ => bind_congr fun name =>
    bind_congr fun _ => ?_
  funext ts t
  simp only [tables_bind_at, commit, Tables.setPaused]
  cases t.streams[name]? <;> cases ifExists <;> rfl

-- A stream is taken away before it is known whether it was there.
theorem dropStream_eq :
    dropStream = reads .dropStream >>= fun s => commit (·.perform sql s) := by
  simp only [dropStream, Reading.dropStream, reads_bind, reads_pure, bind_assoc, pure_bind,
    Tables.perform]
  refine bind_congr fun ifExists => bind_congr fun name => bind_congr fun _ => ?_
  funext ts t
  simp only [removeStream, bind_assoc, tables_bind_at, update_bind_at, pure_bind, commit,
    Tables.dropStream]
  cases h : t.streams.contains name <;> cases ifExists <;> simp [erase_absent, h]

-- Which statement it is.

theorem reads_branch {x y : Execution β} {p q : Reading α} {g : α → Execution β}
    (hx : x = reads p >>= g) (hy : y = reads q >>= g) (r : Reading Bool) :
    (reads r >>= fun b => if b then x else y) =
      reads (r >>= fun b => if b then p else q) >>= g := by
  simp only [reads_bind, bind_assoc]
  refine bind_congr fun b => ?_
  cases b with
  | true => exact hx
  | false => exact hy

theorem reads_after {x : Execution β} {p : Reading α} {g : α → Execution β}
    (hx : x = reads p >>= g) (r : Reading Unit) :
    (reads r >>= fun _ => x) = reads (r >>= fun _ => p) >>= g := by
  simp only [reads_bind, bind_assoc, hx]

theorem create_eq : create sql = reads .create >>= fun s => commit (·.perform sql s) := by
  unfold create Reading.create
  refine reads_branch createDatabase_eq ?_ _
  refine reads_branch createSuperTable_eq ?_ _
  refine reads_branch createChildTable_eq ?_ _
  refine reads_branch createStream_eq ?_ _
  rw [reads_throw, throw_bind]

theorem statement_eq :
    statement sql = reads (.statement sql) >>= fun s => commit (·.perform sql s) := by
  unfold statement Reading.statement
  refine reads_branch create_eq ?_ _
  refine reads_branch (reads_after alterSuperTable_eq _) ?_ _
  refine reads_branch (reads_after setPaused_eq _) ?_ _
  refine reads_branch (reads_after setPaused_eq _) ?_ _
  refine reads_branch (reads_after dropStream_eq _) ?_ _
  rw [reads_throw, throw_bind]

end Execution

-- What is done in place is what the statement does to the whole state.
theorem Tables.apply_eq (t : Tables) (sql : String) :
    t.apply sql = match t.run sql with
      | .ok t' => (.ok (), t')
      | .error refusal => (.error refusal, t) := by
  unfold apply run Statement.parse
  cases tokenize sql with
  | error => rfl
  | ok ts =>
    simp only [Execution.statement_eq, ExceptT.run, Execution.reads_bind_at, ok_mapError, ok_bind]
    cases Reading.statement sql ts with
    | error => rfl
    | ok p =>
      simp only [ok_bind, pure_except, Execution.commit]
      cases t.perform sql p.1 <;> rfl

-- What an engine holds is as it was after every statement that it refuses.
theorem Tables.apply_refused {t : Tables} {refusal : Refusal}
    (h : (t.apply sql).1 = .error refusal) : (t.apply sql).2 = t := by
  rw [apply_eq] at h ⊢
  cases ran : t.run sql <;> simp_all

-- Refused by the engine that put the database in first, and by the lexer.
theorem Tables.apply_refused_plant :
    let t : Tables := { databases := {"plant"} }
    ∀ sql ∈ ["CREATE DATABASE plant", "DROP STREAM `plant"],
      (t.apply sql).1.toOption = none ∧ (t.apply sql).2 = t := by
  intro t sql hm
  have refused : ∀ sql ∈ ["CREATE DATABASE plant", "DROP STREAM `plant"],
      (t.apply sql).1.toOption = none := by
    decide +kernel
  refine ⟨refused sql hm, ?_⟩
  cases h : (t.apply sql).1 with
  | error refusal => exact apply_refused h
  | ok => simpa [h, Except.toOption] using refused sql hm

end Historian.Engine
