import JobRelay.Model.Processor
import JobRelay.Sessions.Machine

/-! # The threads of one attempt

`process_next` from its claim on, with the thread of `cancellation_monitor` and that of `lease_heartbeat`. Each
thread has the line it is at; a step executes it, and what a call, a wait or a join does there is the outcome
of the step. Any call may raise. A wait that times out may have been overtaken by what it waited for, and
closing the connection of the monitor only makes its calls raise.
-/

namespace JobRelay.Model.Supervision

/-- What is thrown: an `Exception`, or another `BaseException`, which no `except` of the source catches. -/
inductive Thrown where
  | exception (error : Exc)
  | exit
deriving DecidableEq

inductive Outcome where
  | done
  | answer (value : Bool)
  | timeout
  | raises (thrown : Thrown)
deriving DecidableEq

/-- The lines of `monitor`, with the status that was read and the exception in flight. -/
inductive Monitor where
  | unstarted
  | connect
  | listen
  | commitListen
  | selectStatus
  | commitStatus (cancelled : Bool)
  | setSetupSucceeded (cancelled : Bool)
  | checkStatus (cancelled : Bool)
  | setReady
  | checkToken
  | checkStopped
  | poll
  | trip
  | releaseListen (pending : Option Thrown)
  | disconnect (pending : Option Thrown)
  | recordError (error : Exc)
  | cancelToken
  | emit
  | setReadyAtEnd
  | ended
deriving DecidableEq

/-- The lines of `heartbeat_loop`, with the transient failures in a row. -/
inductive Heartbeat where
  | unstarted
  | wait (failures : ℕ)
  | renew (failures : ℕ)
  | appendError (error : Exc)
  | setError (error : Exc)
  | cancelToken
  | ended
deriving DecidableEq

/-- The lines of `stop_monitor`. -/
inductive Stop where
  | setStopped
  | join
  | checkAlive
  | close
  | joinAgain
  | checkAliveAgain
  | recordFatal
  | cancelToken
  | emit
deriving DecidableEq

/-- The lines of `process_next` and of the two context managers; what is thrown waits for their `finally`. -/
inductive Main where
  | startMonitor
  | awaitReady
  | recordTimeout
  | cancelToken
  | readError
  | checkSetup (monitorError : Option Exc)
  | bindToken
  | checkToken
  | startHeartbeat
  | execute
  | executing
  | setHeartbeatStopped (pending : Option Thrown)
  | joinHeartbeat (pending : Option Thrown)
  | checkErrors (pending : Option Thrown)
  | stopMonitor (line : Stop) (pending : Option Thrown)
  | checkAgain
  | finalize
  | finalizing
  | rollback (error : Exc)
  | acknowledge
  | acknowledging
  | readCause
  | recordFailure (error : Exc)
  | ended
deriving DecidableEq

/-- The transactions that the threads of an attempt call. -/
inductive DbCall where
  | execute
  | finalize
  | acknowledgeCancellation
  | recordFailure (error : Exc)
  | renewLease
deriving DecidableEq

/-- What the threads have done, in order. -/
inductive Mark where
  | listened
  | committed
  | statusRead
  /-- The status that was read, or a notification, says that the job is cancelled. -/
  | foundCancelled
  /-- Thrown at a line of the monitor, where nothing suppresses it. -/
  | monitorRaised (thrown : Thrown)
  /-- `raise_if_cancelled` found the token clear. -/
  | foundClear
  /-- `is_alive` found that the thread of the monitor had ended. -/
  | monitorStopped
  | renewed
  /-- Thrown out of `_renew_lease`. -/
  | renewalRaised (thrown : Thrown)
  | called (call : DbCall)
deriving DecidableEq

/-- The three threads, the events and the token, and the entries of `job`. -/
structure State where
  main : Main
  monitor : Monitor
  heartbeat : Heartbeat
  ready : Bool
  stopped : Bool
  setupSucceeded : Bool
  token : Bool
  heartbeatStopped : Bool
  /-- `job["cancel_token"]` is set. -/
  bound : Bool
  /-- The token that `lease_heartbeat` found in `job`. -/
  captured : Bool
  monitorError : Option Exc
  heartbeatError : Option Exc
  errors : List Exc
  marks : List Mark
deriving DecidableEq

def initial : State where
  main := .startMonitor
  monitor := .unstarted
  heartbeat := .unstarted
  ready := false
  stopped := false
  setupSucceeded := false
  token := false
  heartbeatStopped := false
  bound := false
  captured := false
  monitorError := none
  heartbeatError := none
  errors := []
  marks := []

namespace State

def mark (s : State) (mark : Mark) : State := { s with marks := s.marks ++ [mark] }

def markIf (s : State) (condition : Bool) (mark : Mark) : State :=
  { s with marks := s.marks ++ if condition then [mark] else [] }

/-- `job.setdefault("cancellation_monitor_error", exc)` -/
def recordError (s : State) (error : Exc) : State := { s with monitorError := s.monitorError.or (some error) }

end State

/-- The `except` of `monitor`. -/
def Monitor.caught : Thrown → Monitor
  | .exception error => .recordError error
  | .exit => .setReadyAtEnd

def monitorStep (s : State) (outcome : Outcome) : Option State :=
  match s.monitor, outcome with
  | .connect, .done => some { s with monitor := .listen }
  | .connect, .raises thrown => some ({ s with monitor := .caught thrown }.mark (.monitorRaised thrown))
  | .listen, .done => some ({ s with monitor := .commitListen }.mark .listened)
  | .commitListen, .done => some ({ s with monitor := .selectStatus }.mark .committed)
  | .selectStatus, .answer cancelled =>
      some (({ s with monitor := .commitStatus cancelled }.mark .statusRead).markIf cancelled .foundCancelled)
  | .commitStatus cancelled, .done => some ({ s with monitor := .setSetupSucceeded cancelled }.mark .committed)
  | .listen, .raises thrown | .commitListen, .raises thrown | .selectStatus, .raises thrown
  | .commitStatus _, .raises thrown | .poll, .raises thrown =>
      some ({ s with monitor := .releaseListen (some thrown) }.mark (.monitorRaised thrown))
  | .setSetupSucceeded cancelled, .done => some { s with setupSucceeded := true, monitor := .checkStatus cancelled }
  | .checkStatus cancelled, .done => some { s with token := s.token || cancelled, monitor := .setReady }
  | .setReady, .done => some { s with ready := true, monitor := .checkToken }
  | .checkToken, .done => some { s with monitor := if s.token then .releaseListen none else .checkStopped }
  | .checkStopped, .done => some { s with monitor := if s.stopped then .releaseListen none else .poll }
  | .poll, .answer arrived =>
      some ({ s with monitor := if arrived then .trip else .checkStopped }.markIf arrived .foundCancelled)
  | .trip, .done => some { s with token := true, monitor := .releaseListen none }
  -- `_release_listen` suppresses what its calls raise
  | .releaseListen pending, .done | .releaseListen pending, .raises (.exception _) =>
      some { s with monitor := .disconnect pending }
  | .releaseListen _, .raises .exit =>
      some ({ s with monitor := .disconnect (some .exit) }.mark (.monitorRaised .exit))
  | .disconnect pending, .done => some { s with monitor := pending.elim .setReadyAtEnd Monitor.caught }
  | .disconnect _, .raises thrown => some ({ s with monitor := .caught thrown }.mark (.monitorRaised thrown))
  | .recordError error, .done => some { s.recordError error with monitor := .cancelToken }
  | .cancelToken, .done => some { s with token := true, monitor := .emit }
  | .emit, .done => some { s with monitor := .setReadyAtEnd }
  | .emit, .raises thrown => some ({ s with monitor := .setReadyAtEnd }.mark (.monitorRaised thrown))
  | .setReadyAtEnd, .done => some { s with ready := true, monitor := .ended }
  | _, _ => none

def heartbeatStep (s : State) (outcome : Outcome) : Option State :=
  match s.heartbeat, outcome with
  | .wait _, .done => if s.heartbeatStopped then some { s with heartbeat := .ended } else none
  | .wait failures, .timeout => some ({ s with heartbeat := .renew failures }.mark (.called .renewLease))
  | .renew _, .done => some ({ s with heartbeat := .wait 0 }.mark .renewed)
  | .renew _, .raises (.exception (.leaseLost jobId)) =>
      some ({ s with heartbeat := .appendError (.leaseLost jobId) }.mark
        (.renewalRaised (.exception (.leaseLost jobId))))
  | .renew failures, .raises (.exception error) =>
      some ({ s with
        heartbeat :=
          if Processor.HEARTBEAT_MAX_FAILURES ≤ failures + 1 then .appendError error
          else .wait (failures + 1) }.mark (.renewalRaised (.exception error)))
  | .renew _, .raises .exit => some ({ s with heartbeat := .ended }.mark (.renewalRaised .exit))
  | .appendError error, .done => some { s with errors := s.errors ++ [error], heartbeat := .setError error }
  | .setError error, .done => some { s with heartbeatError := some error, heartbeat := .cancelToken }
  | .cancelToken, .done => some { s with token := s.token || s.captured, heartbeat := .ended }
  | _, _ => none

section Errors

variable (jobId : ℕ)

def monitorTimeoutError : Exc :=
  .python "CancellationMonitorTimeoutError"
    ("monitor de cancelamento do job " ++ toString jobId ++ " não ficou pronto dentro do timeout")

def monitorSetupError (cause : Option Exc) : Exc :=
  .python "CancellationMonitorSetupError"
    (match cause with
    | some error => "monitor de cancelamento do job " ++ toString jobId ++ " não iniciou: " ++ error.describe
    | none => "monitor de cancelamento do job " ++ toString jobId ++ " encerrou antes de ficar pronto")

def heartbeatFailed : Exc := .runtime ("heartbeat do job " ++ toString jobId ++ " falhou")

end Errors

/-- Where `process_next` goes on with what is thrown out of its `with` blocks. -/
def Main.caught : Thrown → Main
  | .exception error => .rollback error
  | .exit => .ended

def stopStep (jobId : ℕ) (s : State) (line : Stop) (pending : Option Thrown) (outcome : Outcome) : Option State :=
  let leave := pending.elim Main.checkAgain Main.caught
  match line, outcome with
  | .setStopped, .done => some { s with stopped := true, main := .stopMonitor .join pending }
  | .join, .done => if s.monitor = .ended then some { s with main := .stopMonitor .checkAlive pending } else none
  | .join, .timeout => some { s with main := .stopMonitor .checkAlive pending }
  | .checkAlive, .done =>
      if s.monitor = .ended then some ({ s with main := leave }.mark .monitorStopped)
      else some { s with main := .stopMonitor .close pending }
  | .close, .done | .close, .raises (.exception _) => some { s with main := .stopMonitor .joinAgain pending }
  | .close, .raises .exit => some { s with main := .caught .exit }
  | .joinAgain, .done =>
      if s.monitor = .ended then some { s with main := .stopMonitor .checkAliveAgain pending } else none
  | .joinAgain, .timeout => some { s with main := .stopMonitor .checkAliveAgain pending }
  | .checkAliveAgain, .done =>
      if s.monitor = .ended then some ({ s with main := leave }.mark .monitorStopped)
      else some { s with main := .stopMonitor .recordFatal pending }
  | .recordFatal, .done =>
      some { s.recordError (.fatalCancellationMonitor jobId) with main := .stopMonitor .cancelToken pending }
  | .cancelToken, .done => some { s with token := true, main := .stopMonitor .emit pending }
  | .emit, .done => some { s with main := .caught (.exception (.fatalCancellationMonitor jobId)) }
  | .emit, .raises thrown => some { s with main := .caught thrown }
  | _, _ => none

def mainStep (jobId : ℕ) (s : State) (outcome : Outcome) : Option State :=
  match s.main, outcome with
  | .startMonitor, .done => some { s with monitor := .connect, main := .awaitReady }
  | .startMonitor, .raises thrown => some { s with main := .caught thrown }
  | .awaitReady, .done => if s.ready then some { s with main := .readError } else none
  | .awaitReady, .timeout => some { s with main := .recordTimeout }
  | .recordTimeout, .done => some { s.recordError (monitorTimeoutError jobId) with main := .cancelToken }
  | .cancelToken, .done =>
      some { s with
        token := true
        main := .stopMonitor .setStopped
          (some (.exception (monitorSetupError jobId (some (monitorTimeoutError jobId))))) }
  | .readError, .done => some { s with main := .checkSetup s.monitorError }
  | .checkSetup monitorError, .done =>
      some { s with
        main :=
          if s.setupSucceeded then .bindToken
          else .stopMonitor .setStopped (some (.exception (monitorSetupError jobId monitorError))) }
  | .bindToken, .done => some { s with bound := true, main := .checkToken }
  | .checkToken, .done =>
      if s.token then some { s with main := .stopMonitor .setStopped (some (.exception .jobCancelled)) }
      else some ({ s with main := .startHeartbeat }.mark .foundClear)
  | .startHeartbeat, .done => some { s with captured := s.bound, heartbeat := .wait 0, main := .execute }
  | .startHeartbeat, .raises thrown => some { s with main := .stopMonitor .setStopped (some thrown) }
  | .execute, .done => some ({ s with main := .executing }.mark (.called .execute))
  | .executing, .done => some { s with main := .setHeartbeatStopped none }
  | .executing, .raises thrown => some { s with main := .setHeartbeatStopped (some thrown) }
  | .setHeartbeatStopped pending, .done =>
      some { s with heartbeatStopped := true, main := .joinHeartbeat pending }
  | .joinHeartbeat pending, .done =>
      if s.heartbeat = .ended then some { s with main := .checkErrors pending } else none
  | .checkErrors pending, .done =>
      let failed := if s.errors = [] then none else some (Thrown.exception (heartbeatFailed jobId))
      some { s with main := .stopMonitor .setStopped (pending.or failed) }
  | .stopMonitor line pending, outcome => stopStep jobId s line pending outcome
  | .checkAgain, .done =>
      some { s with main := if s.token then .caught (.exception .jobCancelled) else .finalize }
  | .finalize, .done => some ({ s with main := .finalizing }.mark (.called .finalize))
  | .finalizing, .done => some { s with main := .ended }
  | .finalizing, .raises thrown => some { s with main := .caught thrown }
  | .rollback error, .done => some { s with main := if error = .jobCancelled then .acknowledge else .recordFailure error }
  | .rollback _, .raises _ => some { s with main := .ended }
  | .acknowledge, .done => some ({ s with main := .acknowledging }.mark (.called .acknowledgeCancellation))
  | .acknowledging, .answer cancelled => some { s with main := if cancelled then .ended else .readCause }
  | .acknowledging, .raises _ => some { s with main := .ended }
  | .readCause, .done =>
      let cause := (s.heartbeatError.or s.monitorError).getD (.runtime "cancelamento sinalizado sem job cancelado")
      some { s with main := .recordFailure cause }
  | .recordFailure error, .done => some ({ s with main := .ended }.mark (.called (.recordFailure error)))
  | _, _ => none

/-- One step of one thread. -/
inductive Action where
  | main (outcome : Outcome)
  | monitor (outcome : Outcome)
  | heartbeat (outcome : Outcome)
deriving DecidableEq

def step (jobId : ℕ) (s : State) : Action → Option State
  | .main outcome => mainStep jobId s outcome
  | .monitor outcome => monitorStep s outcome
  | .heartbeat outcome => heartbeatStep s outcome

end JobRelay.Model.Supervision
