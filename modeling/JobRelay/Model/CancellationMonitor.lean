import JobRelay.Model.Processes
import JobRelay.Model.Supervision

/-! # The monitors of cancellation and their connections

The monitors of any number of attempts beside a run of the services. A monitor goes from line to line as in the
threads of an attempt; here a statement acts on its connection, and what a read finds is decided by the
committed row and by the notifications that the connection has received. A connection that was given back may be
handed out again with whatever it still has queued.
-/

namespace JobRelay.Model

/-- `SELECT status FROM jobs WHERE id = %s` finds a row that is cancelled. -/
def Store.cancelled (s : Store) (jobId : ℕ) : Bool :=
  decide ((s.job? jobId).map Job.status = some .cancelled)

namespace CancellationMonitor

open Sessions
open Supervision (monitorStep mainStep heartbeatStep)

/-- A session: what a `LISTEN` or `UNLISTEN` of its open transaction will make of the subscription to
`jobs_cancelled`, whether it is subscribed, and the payloads that it has received and nobody has read. -/
structure Connection where
  pending : Option Bool
  listening : Bool
  queue : List ℕ
deriving DecidableEq

/-- The payloads of the notifications on `jobs_cancelled`. -/
def payloads (news : List Notification) : List ℕ :=
  news.filterMap fun notification => if notification.channel = .jobsCancelled then some notification.payload else none

namespace Connection

def new : Connection := ⟨none, false, []⟩

/-- The end of a transaction. -/
def settle (conn : Connection) (commits : Bool) : Connection :=
  { conn with pending := none, listening := if commits then conn.pending.getD conn.listening else conn.listening }

def read (conn : Connection) (taken : ℕ) : Connection := { conn with queue := conn.queue.drop taken }

/-- Commits of others notify the session if it is subscribed. -/
def receive (conn : Connection) (news : List Notification) : Connection :=
  if conn.listening then { conn with queue := conn.queue ++ payloads news } else conn

end Connection

/-- What the outside decides in a step of a monitor: the connection that the pool hands out, how many notifications
a read takes, and whether a transaction that ends with an error was committed. -/
structure Choice where
  connection : ℕ
  taken : ℕ
  commits : Bool
deriving DecidableEq

/-- The lines of `_release_listen`. -/
inductive Release where
  | unlisten
  | commit
  | drain
deriving DecidableEq

/-- The threads of an attempt at a job, and the connection that its monitor has. -/
structure Attempt where
  jobId : ℕ
  threads : Supervision.State
  connection : Option ℕ
  release : Release
deriving DecidableEq

namespace Attempt

/-- What the line of the monitor does to its connection; `cancelled` is what the committed row says. -/
def act (attempt : Attempt) (cancelled : Bool) (conn : Connection) (outcome : Supervision.Outcome) (choice : Choice) :
    Option Connection :=
  match attempt.threads.monitor, outcome with
  | .disconnect _, _ => some (conn.settle choice.commits)
  | _, .raises _ => some ((conn.read choice.taken).settle choice.commits)
  | .listen, .done => some { conn with pending := some true }
  | .commitListen, .done | .commitStatus _, .done => some (conn.settle true)
  | .selectStatus, .answer found => if found = cancelled then some conn else none
  -- `_cancellation_arrived` reads up to the first payload of the job, and what it has fetched beyond is lost
  | .poll, .answer true =>
      if attempt.jobId ∈ conn.queue then some (conn.read (conn.queue.idxOf attempt.jobId + 1 + choice.taken)) else none
  | .poll, .answer false =>
      if attempt.jobId ∈ conn.queue.take choice.taken then none else some (conn.read choice.taken)
  | .releaseListen _, .done =>
      match attempt.release with
      | .unlisten => some { conn with pending := some false }
      | .commit => some (conn.settle true)
      | .drain => some (conn.read conn.queue.length)
  | _, _ => some conn

/-- The monitor goes on, after `_release_listen` has gone through its own lines. -/
def proceed (attempt : Attempt) (outcome : Supervision.Outcome) : Option Attempt :=
  match attempt.threads.monitor, outcome, attempt.release with
  | .releaseListen _, .done, .unlisten => some { attempt with release := .commit }
  | .releaseListen _, .done, .commit => some { attempt with release := .drain }
  | _, _, _ => (monitorStep attempt.threads outcome).map fun threads => { attempt with threads, release := .unlisten }

end Attempt

/-- The services, the connections of the pools, and the attempts. -/
structure State where
  world : Service
  connections : List Connection
  attempts : List Attempt

def initial (world : Service) : State := ⟨world, [], []⟩

namespace State

/-- No monitor has the connection. -/
def free (s : State) (connection : ℕ) : Bool := s.attempts.all fun attempt => attempt.connection ≠ some connection

def put (s : State) (id : ℕ) (attempt : Attempt) : State := { s with attempts := s.attempts.set id attempt }

/-- One step of the monitor of an attempt. -/
def monitor (s : State) (id : ℕ) (attempt : Attempt) (outcome : Supervision.Outcome) (choice : Choice) : Option State :=
  (attempt.proceed outcome).bind fun after =>
    match attempt.threads.monitor, outcome, attempt.connection with
    | .connect, .done, _ =>
        if s.free choice.connection ∧ choice.connection < s.connections.length then
          some (s.put id { after with connection := some choice.connection })
        else none
    | line, outcome, some connection => do
        let conn ← s.connections[connection]?
        let later ← attempt.act (s.world.state.cancelled attempt.jobId) conn outcome choice
        let left := match line with
          | .disconnect _ => none
          | _ => some connection
        some { s.put id { after with connection := left } with connections := s.connections.set connection later }
    | _, _, none => some (s.put id after)

end State

inductive Action where
  | service (action : Model.Step)
  /-- A pool opens a connection. -/
  | connect
  /-- Others use a free connection, and may lose what it has received. -/
  | use (connection : ℕ) (taken : ℕ)
  | begin (jobId : ℕ)
  | monitor (id : ℕ) (outcome : Supervision.Outcome) (choice : Choice)
  | main (id : ℕ) (outcome : Supervision.Outcome)
  | heartbeat (id : ℕ) (outcome : Supervision.Outcome)

def step (admits : Request → Bool) (s : State) : Action → Option State
  | .service action => do
      let next ← s.world.step (service admits) action
      let news := next.state.notified.drop s.world.state.notified.length
      some { s with world := next, connections := s.connections.map fun conn => conn.receive news }
  | .connect => some { s with connections := s.connections ++ [.new] }
  | .use connection taken => do
      let conn ← s.connections[connection]?
      if s.free connection then some { s with connections := s.connections.set connection (conn.read taken) } else none
  | .begin jobId => some { s with attempts := s.attempts ++ [⟨jobId, Supervision.initial, none, .unlisten⟩] }
  | .monitor id outcome choice => do
      let attempt ← s.attempts[id]?
      s.monitor id attempt outcome choice
  | .main id outcome => do
      let attempt ← s.attempts[id]?
      let threads ← mainStep attempt.jobId attempt.threads outcome
      some (s.put id { attempt with threads })
  | .heartbeat id outcome => do
      let attempt ← s.attempts[id]?
      let threads ← heartbeatStep attempt.threads outcome
      some (s.put id { attempt with threads })

end CancellationMonitor

end JobRelay.Model
