import JobRelay.Model.Processes

/-! # The main loop of a worker

`main` line by line: `drain`, `_next_poll_timeout`, the slices of `_wait_for_work`, `_reconnect_listener`, and the
shutdown flag that the signal handler sets at any moment and that the loops read. What a call makes of the database is
left to the deployment, in which `main` starts and finishes the calls of its process.
-/

namespace JobRelay.Model

open Sessions

def WAIT_SLICE : Micros := seconds 1

namespace WorkerMain

/-- The line that `main` is about to execute, or the call that it is in. -/
inductive Line where
  /-- `_connect_listener` before the first `drain`. -/
  | startup
  /-- The loop condition of `drain`. -/
  | drain
  /-- The body of `drain` before `process_next`: `connection_scope`. -/
  | entering
  | processing
  /-- The loop condition of `main`. -/
  | loop
  /-- The body of `main` before the query of `_next_poll_timeout`: `connection_scope`. -/
  | asking
  | polling
  /-- The loop condition of `_wait_for_work`. -/
  | wait (deadline : Micros)
  /-- The body of `_wait_for_work`. -/
  | slicing (deadline : Micros)
  /-- Before `wait_for_wakeup` with this timeout. -/
  | calling (deadline remaining : Micros)
  /-- In `wait_for_wakeup`, whose timeout ends at `slice`. -/
  | waiting (deadline slice : Micros)
  /-- The handler of the `OperationalError`. -/
  | disconnected
  /-- The loop condition of `_reconnect_listener`. -/
  | reconnect
  /-- `_connect_listener` in `_reconnect_listener`. -/
  | connecting
  | sleeping (slice : Micros)
  /-- After the `try` of `main`. -/
  | woken (byNotify : Bool)
  /-- After the loop of `main`. -/
  | leaving
  | exited
  /-- An exception has escaped `main`. -/
  | died
deriving DecidableEq

/-- What becomes of a line: nothing to be told of it, or what a call does. -/
inductive Outcome where
  | next
  | connected
  /-- The call raises an `OperationalError`. -/
  | operational
  /-- The call raises another exception. -/
  | raised
  /-- `wait_for_wakeup` returns `True`, having consumed so many notifications. -/
  | notified (heard : ℕ)
  /-- `wait_for_wakeup` returns `False`. -/
  | quiet
deriving DecidableEq

end WorkerMain

/-- A worker process: its line, the `shutdown` event, `time.monotonic()`, the notifications that the connection of the
listener has consumed, if it is open, and whether the pool is disposed. -/
structure WorkerMain where
  line : WorkerMain.Line
  shutdown : Bool
  monotonic : Micros
  listener : Option ℕ
  disposed : Bool

namespace WorkerMain

def start : WorkerMain := ⟨.startup, false, 0, none, false⟩

/-- `_request_shutdown` -/
def requestShutdown (main : WorkerMain) : WorkerMain := { main with shutdown := true }

def tick (main : WorkerMain) (elapsed : ℕ) : WorkerMain := { main with monotonic := main.monotonic + elapsed }

def goto (main : WorkerMain) (line : Line) : WorkerMain := { main with line }

def heard (main : WorkerMain) : ℕ := main.listener.getD 0

section Lines

variable (pid : ℕ) (s : Store)

/-- Where a call returns to, if it has returned. -/
def returns (main : WorkerMain) : Option (Except Exc Return) → Option WorkerMain
  | some (.ok (.processed claimed)) => some (main.goto (if claimed then .drain else .loop))
  | some (.ok (.timeout timeout)) => some (main.goto (.wait (main.monotonic + timeout)))
  | some (.ok .disconnected) => some (main.goto .disconnected)
  | some (.error _) => some (main.goto .died)
  | _ => none

/-- `_connect_listener`: the session hears what is notified from now on. -/
def connect (main : WorkerMain) (line : Line) : WorkerMain :=
  { main with line, listener := some s.notified.length }

/-- One line of `main`, given what the call of the process has returned: where `main` is after it, and what its process
does in the deployment. -/
def step (returned : Option (Except Exc Return)) (main : WorkerMain) (outcome : Outcome) : Option (WorkerMain × Option Step) :=
  match main.line, outcome with
  | .startup, .connected => some (main.connect s .drain, some (.spawn pid (.draining s.notified.length)))
  | .startup, .operational | .startup, .raised => some (main.goto .died, none)
  | .drain, .next => some (main.goto (if main.shutdown then .loop else .entering), none)
  | .entering, .next => some (main.goto .processing, some (.start pid .processNext))
  -- an exception of the pool; the handler of `main` sees an `OperationalError` as the poll's own
  | .entering, .operational | .entering, .raised | .asking, .raised => some (main.goto .died, some (.crash pid))
  | .processing, .next | .polling, .next => (main.returns returned).map fun after => (after, some (.finish pid))
  | .loop, .next => some (main.goto (if main.shutdown then .leaving else .asking), none)
  | .asking, .next => some (main.goto .polling, some (.start pid .nextPollTimeout))
  | .wait deadline, .next =>
      if main.shutdown then some (main.goto (.woken false), some (.move pid (.draining main.heard)))
      else some (main.goto (.slicing deadline), none)
  | .slicing deadline, .next =>
      let remaining := min WAIT_SLICE (deadline - main.monotonic)
      if remaining ≤ 0 then some (main.goto (.woken false), some (.move pid (.draining main.heard)))
      else some (main.goto (.calling deadline remaining), none)
  | .calling deadline remaining, .next => some (main.goto (.waiting deadline (main.monotonic + remaining)), none)
  | .waiting _ _, .notified heard =>
      if main.heard < heard ∧ heard ≤ s.notified.length ∧ pending s main.heard = true then
        some ({ main with line := .woken true, listener := some heard }, some (.move pid (.draining heard)))
      else none
  | .waiting deadline slice, .quiet => if slice ≤ main.monotonic then some (main.goto (.wait deadline), none) else none
  | .waiting _ _, .operational => some (main.goto .disconnected, some (.move pid .reconnecting))
  | .waiting _ _, .raised => some (main.goto .died, some (.crash pid))
  | .disconnected, .next =>
      some (if main.shutdown then main.goto .leaving else { main with line := .reconnect, listener := none }, none)
  | .reconnect, .next => some (main.goto (if main.shutdown then .leaving else .connecting), none)
  | .connecting, .connected => some (main.connect s (.woken false), some (.move pid (.draining s.notified.length)))
  | .connecting, .operational => some (main.goto (.sleeping (main.monotonic + WAIT_SLICE)), none)
  | .connecting, .raised => some (main.goto .died, some (.crash pid))
  | .sleeping slice, .next => if slice ≤ main.monotonic then some (main.goto .reconnect, none) else none
  | .woken _, .next => some (main.goto (if main.shutdown then .leaving else .drain), none)
  | .leaving, .next => some ({ main with line := .exited, listener := none, disposed := true }, some (.crash pid))
  | _, _ => none

end Lines

end WorkerMain

/-- What the call of a process has returned. -/
def returned? (world : Service) (pid : ℕ) : Option (Except Exc Return) :=
  (world.proc? pid).bind fun proc =>
    match proc.program with
    | some (.ret value) => some (.ok value)
    | some (.raise error) => some (.error error)
    | _ => none

/-- A deployment whose workers run `main`. -/
structure Fleet where
  world : Service
  mains : ℕ → Option WorkerMain

inductive FleetAction where
  | launch (pid : ℕ)
  | main (pid : ℕ) (outcome : WorkerMain.Outcome)
  | signal (pid : ℕ)
  | kill (pid : ℕ)
  | tick (pid elapsed : ℕ)
  | service (action : Step)

namespace Fleet

variable (admits : Request → Bool) (fleet : Fleet)

/-- What happens without `main`: clients act, calls go on, and time passes on the database server. -/
def free : Step → Bool
  | .exec .. | .fail .. | .lose .. | .environment _ => true
  | .spawn pid mode => (fleet.mains pid).isNone && decide (mode = .client)
  | .start pid _ | .finish pid | .move pid _ | .crash pid => (fleet.mains pid).isNone

def set (pid : ℕ) (main : WorkerMain) (world : Service) : Fleet := ⟨world, Function.update fleet.mains pid (some main)⟩

def step : FleetAction → Option Fleet
  | .launch pid =>
      if (fleet.mains pid).isNone && (fleet.world.proc? pid).isNone then some (fleet.set pid .start fleet.world) else none
  | .main pid outcome => do
      let main ← fleet.mains pid
      let (after, action) ← main.step pid fleet.world.state (returned? fleet.world pid) outcome
      let world ← action.elim (some fleet.world) (fleet.world.step (service admits))
      return fleet.set pid after world
  | .signal pid => (fleet.mains pid).map fun main => fleet.set pid main.requestShutdown fleet.world
  | .kill pid => do
      let main ← fleet.mains pid
      if main.line = .exited ∨ main.line = .died then none
      else fleet.set pid (main.goto .died) ((fleet.world.step (service admits) (.crash pid)).getD fleet.world)
  | .tick pid elapsed => (fleet.mains pid).map fun main => fleet.set pid (main.tick elapsed) fleet.world
  | .service action => if fleet.free action then (fleet.world.step (service admits) action).map (⟨·, fleet.mains⟩) else none

end Fleet

/-- Execute actions in order; a step that is not enabled ends the run. -/
def Fleet.run (admits : Request → Bool) (fleet : Fleet) : List FleetAction → Option Fleet
  | [] => some fleet
  | action :: rest => (fleet.step admits action).bind fun next => next.run admits rest

end JobRelay.Model
