import Mathlib.Data.List.Sort
import Mathlib.Data.String.Basic
import Planipus.Library.Machine

/-!
# Migrations of the database

`runMigrations` (`server/src/database/migrate.ts`), called by `runMigrationsWithRetry`
(`server/src/database/startup.ts`), runs at the start of every process that uses the database, so several
of them may run it at once, from directories of different releases. Each runs statement by statement here.
A statement may fail, a connection may be lost, and a process may end between any two of them.

What a migration does to a schema is `exec`, which fails where PostgreSQL reports an error, and the
checksum of a file is `sha`. How long a process sleeps before it tries again does not matter here.
-/

namespace Planipus.Database

open Library

structure File where
  name : String
  body : String
deriving DecidableEq

/-- `/^\d{4}_[a-z0-9_]+\.sql$/u` -/
def isMigrationFile (name : String) : Bool :=
  let isWord (c : Char) : Bool := ('a' ≤ c && c ≤ 'z') || c.isDigit || c = '_'
  match name.toList with
  | a :: b :: c :: d :: '_' :: rest =>
    [a, b, c, d].all Char.isDigit && !(rest.takeWhile isWord).isEmpty &&
      rest.dropWhile isWord = ".sql".toList
  | _ => false

/-- The migrations of a directory, in the order of their names, which are ASCII. -/
def migrationFiles (directory : List File) : List File :=
  (directory.filter fun file => isMigrationFile file.name).insertionSort fun a b => a.name ≤ b.name

/-- A row of `server_schema_migrations`. -/
structure MigrationRow where
  name : String
  checksum : String
deriving DecidableEq

inductive MigrationError
  /-- `applied migration ${file} has changed` -/
  | changed (file : String)
  | database
deriving DecidableEq

/-- What a process does next. -/
inductive Stage (Schema : Type)
  /-- `pg_advisory_lock` -/
  | waiting
  /-- `create table if not exists` -/
  | creating
  /-- The row of the first file is looked up. -/
  | next (files : List File)
  /-- After `begin`: the body of the file runs. -/
  | running (file : File) (files : List File)
  /-- The row is inserted; only the transaction sees the new schema. -/
  | recording (file : File) (files : List File) (schema : Schema)
  | committing (file : File) (files : List File) (schema : Schema)
  /-- `pg_advisory_unlock`, after an error or at the end. -/
  | unlocking (error : Option MigrationError)
  /-- Between two attempts. -/
  | asleep
  | done
  /-- `MigrationStartupError` with its cause, or `none` for a process that ended. -/
  | stopped (cause : Option MigrationError)

structure Process (Schema : Type) where
  directory : List File
  attempts : Nat
  attempt : Nat
  stage : Stage Schema

abbrev ProcessId := Nat

structure State (Schema : Type) where
  schema : Schema
  /-- `server_schema_migrations`, where it exists. -/
  table : Option (List MigrationRow)
  lock : Option ProcessId
  processes : ProcessId → Option (Process Schema)

namespace State

variable {Schema : Type}

def rows (s : State Schema) : List MigrationRow := s.table.getD []

def setStage (s : State Schema) (p : ProcessId) (process : Process Schema) (stage : Stage Schema) :
    State Schema :=
  { s with processes := Function.update s.processes p (some { process with stage }) }

/-- The lock goes with the session that holds it. -/
def unlock (s : State Schema) (p : ProcessId) : State Schema :=
  { s with lock := if s.lock = some p then none else s.lock }

end State

section Statements

variable {Schema : Type} (exec : String → Schema → Option Schema) (sha : String → String)

def File.row (file : File) : MigrationRow := ⟨file.name, sha file.body⟩

/-- The next statement of a process. A failed one is rolled back, and what is left is to unlock. -/
def run (s : State Schema) (p : ProcessId) (process : Process Schema) : State Schema :=
  match process.stage with
  | .waiting =>
    if s.lock = none ∨ s.lock = some p then
      { s with lock := some p }.setStage p process .creating
    else s
  | .creating =>
    { s with table := some s.rows }.setStage p process (.next (migrationFiles process.directory))
  | .next [] => s.setStage p process (.unlocking none)
  | .next (file :: files) =>
    match s.rows.find? fun row => row.name = file.name with
    | some existing =>
      if existing.checksum ≠ sha file.body then
        s.setStage p process (.unlocking (some (.changed file.name)))
      else s.setStage p process (.next files)
    | none => s.setStage p process (.running file files)
  | .running file files =>
    match exec file.body s.schema with
    | none => s.setStage p process (.unlocking (some .database))
    | some schema => s.setStage p process (.recording file files schema)
  | .recording file files schema =>
    -- The name is the primary key.
    if s.rows.any fun row => row.name = file.name then
      s.setStage p process (.unlocking (some .database))
    else s.setStage p process (.committing file files schema)
  | .committing file files schema =>
    { s with schema, table := some (s.rows ++ [file.row sha]) }.setStage p process (.next files)
  | .unlocking none => (s.unlock p).setStage p process .done
  | .unlocking (some error) =>
    if process.attempt < process.attempts then (s.unlock p).setStage p process .asleep
    else (s.unlock p).setStage p process (.stopped (some error))
  | .asleep => s.setStage p { process with attempt := process.attempt + 1 } .waiting
  | .done | .stopped _ => s

/-- The statement of a process fails, with its session or without. -/
def fail (s : State Schema) (p : ProcessId) (process : Process Schema) (lost : Bool) : State Schema :=
  let s := if lost then s.unlock p else s
  match process.stage with
  | .waiting | .creating | .next _ | .running .. | .recording .. | .committing .. =>
    s.setStage p process (.unlocking (some .database))
  | .unlocking _ | .asleep | .done | .stopped _ => s

inductive Event
  | start (p : ProcessId) (directory : List File) (attempts : Nat)
  | run (p : ProcessId)
  | fail (p : ProcessId) (lost : Bool)
  | crash (p : ProcessId)

def step (s : State Schema) : Event → State Schema
  | .start p directory attempts =>
    match s.processes p with
    | none =>
      -- `migration attempts must be a positive safe integer`
      if attempts < 1 then s
      else { s with processes := Function.update s.processes p (some ⟨directory, attempts, 1, .waiting⟩) }
    | some _ => s
  | .run p =>
    match s.processes p with
    | none => s
    | some process => run exec sha s p process
  | .fail p lost =>
    match s.processes p with
    | none => s
    | some process => fail s p process lost
  | .crash p =>
    match s.processes p with
    | none => s
    | some process => (s.unlock p).setStage p process (.stopped none)

/-- An installation whose database starts without tables of this program. -/
def installation (initial : Schema) : Machine (State Schema) Event where
  Init s := s.schema = initial ∧ s.table = none ∧ s.lock = none ∧ s.processes = fun _ => none
  step := step exec sha

end Statements

end Planipus.Database
