import Mathlib.Data.List.Infix
import Mathlib.Data.List.Sort
import JobRelay.Model.Text
import JobRelay.Sessions.Table

/-! # The runner of the migrations

`run_migrations` and `rollback_migrations`, any number at once, each in its own session of the database. A step
executes the line at which a session is; a call may raise there, and the process may crash there. The changes of
a session are its own until it commits, and are lost with an error, a rollback or the end of the session, which
also releases the advisory lock.
-/

namespace JobRelay.Model.Migrations

open Sessions

/-- `text.rfind(c)` -/
def rfind (c : Char) (text : List Char) : Option ℕ :=
  (text.reverse.idxOf? c).map fun behind => text.length - 1 - behind

def DOWN_SUFFIX : String := ".down.sql"
def NON_TRANSACTIONAL_MARKER : String := "-- migration: non-transactional"
def NEXT_STATEMENT_MARKER : String := "-- migration: next-statement"

/-- A file of the directory of migrations. -/
structure File where
  name : String
  sql : String
deriving DecidableEq

namespace File

/-- `Path.stem`: a dot that begins or ends the name starts no suffix. -/
def stem (file : File) : String :=
  match rfind '.' file.name.toList with
  | some i => if 0 < i ∧ i < file.name.length - 1 then String.ofList (file.name.toList.take i) else file.name
  | none => file.name

/-- `glob("*.sql")` yields it; the asterisk matches the empty text too, and a leading dot. -/
def isSql (file : File) : Bool := decide (".sql".toList <:+ file.name.toList)

def isDown (file : File) : Bool := decide (DOWN_SUFFIX.toList <:+ file.name.toList)

def nonTransactional (file : File) : Bool := decide (NON_TRANSACTIONAL_MARKER.toList <:+: file.sql.toList)

end File

abbrev Directory := Table File.name

section Files

/-- The text of a line without its terminator. -/
def untermined (line : List Char) : List Char :=
  if line.getLast? = some '\n' then
    if line.dropLast.getLast? = some '\r' then line.dropLast.dropLast else line.dropLast
  else line

/-- The line that `NEXT_STATEMENT_PATTERN` matches: the marker, with tabs and spaces around it. -/
def isNextStatement (line : List Char) : Bool :=
  let blank (c : Char) : Bool := c = '\t' || c = ' '
  ((untermined line).dropWhile blank).rdropWhile blank = NEXT_STATEMENT_MARKER.toList

/-- `_non_transactional_statements`; a match of the pattern is always a whole line. -/
def nonTransactionalStatements (sql : String) : List String :=
  let lines := sql.toList.splitBy fun c _ => c != '\n'
  ((lines.splitOnP isNextStatement).map fun piece => String.ofList piece.flatten).filter
    fun statement => !(stripped isPythonSpace statement).isEmpty

variable (directory : Directory)

/-- The files up, in the order of their names. -/
def Directory.migrations : List File :=
  ((directory.rows.filter File.isSql).insertionSort fun file other => file.name ≤ other.name).filter
    fun file => !file.isDown

/-- `pending_migrations`, from the versions in the ledger -/
def pendingMigrations (applied : List String) : List File :=
  directory.migrations.filter fun file => file.stem ∉ applied

/-- `_applied_versions(conn)[-steps:]` in reverse, for the versions in the order of the database -/
def lastApplied (steps : ℤ) (applied : List String) : List String :=
  if 0 < steps then (applied.drop (applied.length - steps.toNat)).reverse else []

end Files

/-- Which way a file takes the schema. -/
inductive Direction where
  | up
  | down
deriving DecidableEq

inductive Command where
  | runMigrations
  | rollbackMigrations (steps : ℤ)
deriving DecidableEq

def Command.direction : Command → Direction
  | .runMigrations => .up
  | .rollbackMigrations _ => .down

/-- A version that was applied or reverted. -/
structure Step where
  direction : Direction
  version : String
deriving DecidableEq

/-- What a loop goes through: the files of `run_migrations`, the versions of `rollback_migrations`. -/
inductive Item where
  | up (file : File)
  | down (version : String)
deriving DecidableEq

def Item.version : Item → String
  | .up file => file.stem
  | .down version => version

def Item.file (directory : Directory) : Item → Option File
  | .up file => some file
  | .down version => directory.find? (version ++ DOWN_SUFFIX)

def Command.todo (directory : Directory) (applied : List String) : Command → List Item
  | .runMigrations => (pendingMigrations directory applied).map .up
  | .rollbackMigrations steps => (lastApplied steps applied).map .down

section Todo

variable (directory : Directory) (applied : List String)

theorem versions_runMigrations : (Command.runMigrations.todo directory applied).map Item.version =
    (pendingMigrations directory applied).map File.stem := List.map_map

theorem versions_rollbackMigrations (steps : ℤ) :
    ((Command.rollbackMigrations steps).todo directory applied).map Item.version = lastApplied steps applied :=
  List.map_map.trans (List.map_id _)

end Todo

section Database

/-- The rows of `schema_migrations`, of which `version` is the primary key. -/
structure Ledger where
  versions : List String
  unique : versions.Nodup
deriving DecidableEq

namespace Ledger

def empty : Ledger := ⟨[], List.nodup_nil⟩

def insert (ledger : Ledger) (version : String) : Ledger :=
  if present : version ∈ ledger.versions then ledger
  else
    { versions := ledger.versions ++ [version]
      unique := by
        rw [List.nodup_append]
        refine ⟨ledger.unique, by simp, ?_⟩
        rintro stored member _ single rfl
        exact present (List.mem_singleton.mp single ▸ member) }

def delete (ledger : Ledger) (version : String) : Ledger where
  versions := ledger.versions.filter (· ≠ version)
  unique := ledger.unique.filter _

end Ledger

variable (S : Type*)

/-- The ledger, once it exists, and the statements of migration files that made the schema. -/
structure Contents where
  ledger : Option Ledger
  schema : List S
deriving DecidableEq

/-- What a statement changes. -/
inductive Change where
  | createLedger
  | execute (statement : S)
  | insert (version : String)
  | delete (version : String)
deriving DecidableEq

variable {S}

namespace Contents

def versions (contents : Contents S) : List String := (contents.ledger.getD .empty).versions

def change (contents : Contents S) : Change S → Contents S
  | .createLedger => { contents with ledger := some (contents.ledger.getD .empty) }
  | .execute statement => { contents with schema := contents.schema ++ [statement] }
  | .insert version => { contents with ledger := some ((contents.ledger.getD .empty).insert version) }
  | .delete version => { contents with ledger := some ((contents.ledger.getD .empty).delete version) }

def view (contents : Contents S) (changes : List (Change S)) : Contents S := changes.foldl change contents

end Contents

/-- The statement that records a step in the ledger. -/
def Step.record (step : Step) : Change S :=
  match step.direction with
  | .up => .insert step.version
  | .down => .delete step.version

/-- The statement that records a step succeeds: the ledger exists, and an inserted version is new. -/
def Step.Recordable (step : Step) (contents : Contents S) : Prop :=
  contents.ledger.isSome ∧ (step.direction = .up → step.version ∉ contents.versions)

instance (step : Step) (contents : Contents S) : Decidable (step.Recordable contents) :=
  inferInstanceAs (Decidable (_ ∧ _))

end Database

section Sessions

variable (S : Type*)

/-- The lines of both functions and of their helpers, with what is left to do. -/
inductive Line where
  | lock
  | commitLock (locked : Bool)
  | ensureLedger
  | selectVersions
  | next (todo : List Item)
  | execute (version : String) (rest : List S) (todo : List Item)
  | commitFirst (version : String) (pieces : List (List S)) (todo : List Item)
  | autocommit (version : String) (pieces : List (List S)) (todo : List Item)
  | record (version : String) (todo : List Item)
  | commit (version : String) (todo : List Item)
  | append (version : String) (todo : List Item)
  | rollback
  | unlock (raised : Bool)
  | commitUnlock (raised : Bool)
  | close (raised : Bool)
  | ended (raised : Bool)
  | crashed
deriving DecidableEq

/-- A process in its call, with the changes it has not committed and the list that it will return. -/
structure Session where
  command : Command
  line : Line S
  changes : List (Change S)
  result : List String
deriving DecidableEq

/-- The database, the sessions in the order in which they connected, and the steps committed by each. -/
structure State where
  committed : Contents S
  lock : Option ℕ
  sessions : List (Session S)
  log : List (ℕ × Step)
deriving DecidableEq

end Sessions

variable {S : Type*}

def Session.step (session : Session S) (version : String) : Step := ⟨session.command.direction, version⟩

namespace State

def put (s : State S) (id : ℕ) (session : Session S) : State S :=
  { s with sessions := s.sessions.set id session }

def goto (s : State S) (id : ℕ) (session : Session S) (line : Line S) : State S :=
  s.put id { session with line }

def write (s : State S) (id : ℕ) (session : Session S) (change : Change S) (line : Line S) : State S :=
  s.put id { session with line, changes := session.changes ++ [change] }

/-- An error of the database aborts the transaction. -/
def abort (s : State S) (id : ℕ) (session : Session S) (line : Line S) : State S :=
  s.put id { session with line, changes := [] }

def commit (s : State S) (id : ℕ) (session : Session S) (line : Line S) : State S :=
  { s.abort id session line with committed := s.committed.view session.changes }

def release (s : State S) (id : ℕ) : State S :=
  { s with lock := if s.lock = some id then none else s.lock }

end State

/-- What happens at a line. -/
inductive Outcome where
  | done
  | error
deriving DecidableEq

section Step

variable (directory : Directory) (statements : String → List S) (collate : String → String → Bool)

/-- Where a loop goes on with an item. -/
def Item.begin (item : Item) (todo : List Item) : Line S :=
  match item.file directory with
  | none => .rollback
  | some file =>
      if file.nonTransactional then
        .commitFirst item.version ((nonTransactionalStatements file.sql).map statements) todo
      else .execute item.version (statements file.sql) todo

def advance (s : State S) (id : ℕ) (session : Session S) (outcome : Outcome) : Option (State S) :=
  match session.line, outcome with
  | .lock, .done =>
      if s.lock = none then some { s.goto id session (.commitLock true) with lock := some id }
      else some (s.goto id session (.commitLock false))
  | .commitLock locked, .done => some (s.commit id session (if locked then .ensureLedger else .lock))
  | .ensureLedger, .done => some (s.write id session .createLedger .selectVersions)
  | .selectVersions, .done =>
      let applied := (s.committed.view session.changes).versions.insertionSort fun a b => collate a b
      some (s.goto id session (.next (session.command.todo directory applied)))
  | .next [], .done => some (s.goto id session (.unlock false))
  | .next (item :: todo), .done => some (s.goto id session (item.begin directory statements todo))
  | .next (_ :: _), .error => some (s.goto id session .rollback)
  | .execute version [] todo, .done => some (s.goto id session (.record version todo))
  | .execute version (statement :: rest) todo, .done =>
      some (s.write id session (.execute statement) (.execute version rest todo))
  | .commitFirst version pieces todo, .done => some (s.commit id session (.autocommit version pieces todo))
  | .autocommit version [] todo, .done => some (s.goto id session (.record version todo))
  -- the statements of one piece are one transaction
  | .autocommit version (piece :: pieces) todo, .done =>
      some { s.goto id session (.autocommit version pieces todo) with
        committed := s.committed.view (piece.map .execute) }
  | .record version todo, .done =>
      let step := session.step version
      if step.Recordable (s.committed.view session.changes) then
        some (s.write id session step.record (.commit version todo))
      else none
  | .commit version todo, .done =>
      some { s.commit id session (.append version todo) with log := s.log ++ [(id, session.step version)] }
  | .append version todo, .done =>
      some (s.put id { session with line := .next todo, result := session.result ++ [version] })
  | .rollback, .done => some (s.abort id session (.unlock true))
  | .rollback, .error => some (s.goto id session (.unlock true))
  | .unlock raised, .done => some ((s.goto id session (.commitUnlock raised)).release id)
  | .commitUnlock raised, .done => some (s.commit id session (.close raised))
  | .lock, .error | .commitLock _, .error | .unlock _, .error | .commitUnlock _, .error =>
      some (s.abort id session (.close true))
  | .ensureLedger, .error | .selectVersions, .error | .execute _ (_ :: _) _, .error | .commitFirst _ _ _, .error
  | .autocommit _ (_ :: _) _, .error | .record _ _, .error | .commit _ _, .error =>
      some (s.abort id session .rollback)
  | .close raised, .done => some ((s.abort id session (.ended raised)).release id)
  | .close _, .error => some ((s.abort id session (.ended true)).release id)
  | _, _ => none

/-- A process starts, goes on, or crashes, with which its session ends. -/
inductive Action where
  | start (command : Command)
  | run (id : ℕ) (outcome : Outcome)
  | crash (id : ℕ)
deriving DecidableEq

def step (s : State S) : Action → Option (State S)
  | .start command => some { s with sessions := s.sessions ++ [⟨command, .lock, [], []⟩] }
  | .run id outcome => s.sessions[id]?.bind fun session => advance directory statements collate s id session outcome
  | .crash id => s.sessions[id]?.bind fun session =>
      match session.line with
      | .ended _ | .crashed => none
      | _ => some ((s.abort id session .crashed).release id)

end Step

/-- A database to which no runner is connected. -/
def initial (contents : Contents S) : State S := ⟨contents, none, [], []⟩

end JobRelay.Model.Migrations
