import JobRelay.Model.Processor

/-! # Requests and worker processes around one database

A client process runs requests one after another. A worker process is the loop of `main`: `drain`
calls `process_next` until it claims nothing, then `_next_poll_timeout` sets how long
`_wait_for_work` waits for a `jobs_queued` notification. Workers come, crash and reconnect at any
time; an exception that escapes `drain` ends the process.
-/

namespace JobRelay.Model

open Sessions

def POLL_FALLBACK : Micros := seconds 30

/-- The 0.05 s that `_next_poll_timeout` adds. -/
def POLL_MARGIN : Micros := 50000

/-- Where a process is between two calls. A worker keeps the number of notifications that were
delivered when its `LISTEN` session began or last woke it. -/
inductive Mode where
  | client
  | draining (heard : ℕ)
  | polling (heard : ℕ)
  | waiting (heard : ℕ) (timeout : Micros)
  | reconnecting
  | dead
deriving DecidableEq

inductive Call where
  | request (request : Request)
  | processNext
  | nextPollTimeout
deriving DecidableEq

inductive Return where
  | response (result : Except Exc Response)
  | processed (claimed : Bool)
  | timeout (timeout : Micros)
  | disconnected

/-- Time passes on the database server. -/
inductive Event where
  | advance (elapsed : ℕ)

def nextPollTimeout : Prog Micros :=
  connTransaction
    (do
      let pending ← Processor.secondsUntilNextAttempt
      return match pending with
        | none => POLL_FALLBACK
        | some pending => min POLL_FALLBACK (pending + POLL_MARGIN))
    (fun timeout => .polled timeout) (fun _ => .rolledBack)

/-- The program of a call. The API turns every exception into a response; `main` survives only an
`OperationalError` of the poll. -/
def code (pid : ℕ) : Call → Prog Return
  | .request request =>
      tryCatch (do return .response (.ok (← JobsService.handle request)))
        fun error => return .response (.error error)
  | .processNext => do return .processed (← Processor.processNext pid)
  | .nextPollTimeout =>
      tryCatch (do return .timeout (← nextPollTimeout))
        fun error =>
          match error with
          | .operational _ => return .disconnected
          | error => throw error

/-- A `jobs_queued` notification among those a listener has not consumed. -/
def pending (s : Store) (heard : ℕ) : Bool :=
  (s.notified.drop heard).any fun notification => decide (notification.channel = .jobsQueued)

namespace Mode

def after : Mode → Return → Mode
  | .draining heard, .processed true => .draining heard
  | .draining heard, .processed false => .polling heard
  | .polling heard, .timeout timeout => .waiting heard timeout
  | .polling _, .disconnected => .reconnecting
  | mode, _ => mode

def starts : Mode → Call → Bool
  | .client, .request _ => true
  | .draining _, .processNext => true
  | .polling _, .nextPollTimeout => true
  | _, _ => false

/-- Waking by notification or timeout, losing the listener's connection, and listening anew. -/
def moves (s : Store) : Mode → Mode → Bool
  | .waiting heard _, .draining heard' =>
      decide (heard' = heard) || (decide (heard < heard' ∧ heard' ≤ s.notified.length) && pending s heard)
  | .waiting _ _, .reconnecting => true
  | .reconnecting, .draining heard => decide (heard = s.notified.length)
  | _, _ => false

end Mode

/-- The requests and workers of a deployment whose clients send only requests of one kind. -/
def service (admits : Request → Bool) :
    Driver ℕ Mode Call Event Store Tx Sql Sql.Answer Choice Exc Label Return where
  toEngine := postgres
  spawns s mode := decide (mode = .client) || decide (mode = .draining s.notified.length)
  starts mode call :=
    mode.starts call &&
      match call with
      | .request request => admits request
      | _ => true
  code := code
  after := Mode.after
  moves := Mode.moves
  dead := .dead
  transient := Exc.fromDatabase
  environment
    | .advance elapsed, s => { s with clock := s.clock + elapsed }

abbrev Service := World ℕ Mode Call Store Tx Sql Sql.Answer Choice Exc Label Return

abbrev Step := Action ℕ Mode Call Event Choice Exc

/-- The request of a process and the answer it has. -/
def answer? (world : Service) (pid : ℕ) : Option (Request × Except Exc Response) :=
  (world.proc? pid).bind fun proc =>
    match proc.call, proc.program with
    | some (.request request), some (.ret (.response result)) => some (request, result)
    | _, _ => none

/-- A database without jobs: nothing refers to a job, and no process is connected. -/
structure Fresh (start : Service) : Prop where
  jobs : start.state.jobs.rows = []
  results : start.state.results.rows = []
  audits : start.state.audits.rows = []
  deadLetters : ∀ entry ∈ start.state.deadLetters.rows, entry.jobId = none
  history : start.state.history = []
  procs : start.procs.rows = []

end JobRelay.Model
