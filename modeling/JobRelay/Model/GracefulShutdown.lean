import Mathlib.Data.Int.Notation
import JobRelay.Sessions.EventLoop
import JobRelay.Sessions.Machine

/-! # The shutdown of the API

`GracefulShutdown`, the middleware that every request goes through, and the lifespan that drains it. What
`async with self._lock` holds awaits nothing, so it is one turn of its task, as are the lines up to the next await. A
task may be cancelled wherever it awaits, the lock included.
-/

namespace JobRelay.Model.GracefulShutdown

open Sessions

inductive Task where
  | lifespan
  | request (id : ℕ)
deriving DecidableEq

structure Shutdown where
  shuttingDown : Bool
  inFlight : ℤ
  lock : Lock
  drained : AsyncEvent Task
deriving DecidableEq

namespace Shutdown

def new : Shutdown := ⟨false, 0, .new, AsyncEvent.new.set⟩

/-- `request_started`, once the lock is free. -/
def requestStarted (s : Shutdown) : Option (Shutdown × Bool) := do
  let lock ← s.lock.acquire
  if s.shuttingDown then some ({ s with lock := lock.release }, false)
  else some ({ s with lock := lock.release, inFlight := s.inFlight + 1, drained := s.drained.clear }, true)

/-- `request_finished`, once the lock is free. -/
def requestFinished (s : Shutdown) : Option Shutdown := do
  let lock ← s.lock.acquire
  let inFlight := s.inFlight - 1
  some { s with lock := lock.release, inFlight, drained := if inFlight ≤ 0 then s.drained.set else s.drained }

/-- `drain` up to its return, or until it waits for `_drained`. -/
def drain (s : Shutdown) : Shutdown × Bool :=
  let s := { s with shuttingDown := true }
  if s.inFlight ≤ 0 then (s, true)
  else if s.drained.isSet then (s, true)
  else ({ s with drained := s.drained.wait .lifespan }, false)

/-- The wait of `drain` is over. -/
def leave (s : Shutdown) : Shutdown := { s with drained := s.drained.leave .lifespan }

end Shutdown

/-- How `call_next` ends. -/
inductive Outcome where
  | response (status : ℕ)
  | raises
deriving DecidableEq

/-- Where the task of a request is: at one of the awaits of `request_lifecycle_middleware`, or at its end. -/
inductive Line where
  | requestStarted
  | callNext
  | requestFinished (outcome : Outcome)
  | ended (outcome : Outcome)
deriving DecidableEq

/-- A request, with what `request_started` has returned to it and whether `request_finished` has completed. -/
structure Request where
  line : Line
  started : Option Bool
  finished : Bool
deriving DecidableEq

namespace Request

def new : Request := ⟨.requestStarted, none, false⟩

/-- The request was accepted and is not finished. -/
def inFlight (request : Request) : Bool := decide (request.started = some true) && !request.finished

/-- After `request_started` a request is handled, or answered with a 503. -/
def start (accepted : Bool) : Request :=
  if accepted then ⟨.callNext, some true, false⟩ else ⟨.ended (.response 503), some false, false⟩

/-- The request's task gets a `CancelledError` from its await. -/
def cancel (request : Request) : Option Request :=
  match request.line with
  | .requestStarted => some { request with line := .ended .raises }
  | .callNext => some { request with line := .requestFinished .raises }
  | .requestFinished _ => some { request with line := .ended .raises }
  | .ended _ => none

end Request

/-- The lifespan serves requests, waits for `_drained`, and, after `drain` has returned, disposes of the pool. -/
inductive Lifespan where
  | yield
  | drain
  | disposed (timedOut : Bool)
  | raised
deriving DecidableEq

structure State where
  shutdown : Shutdown
  requests : List Request
  lifespan : Lifespan
deriving DecidableEq

def initial : State := ⟨.new, [], .yield⟩

/-- How many requests are accepted and not finished. -/
def State.inFlight (s : State) : ℕ := s.requests.countP Request.inFlight

/-- `request_started` has returned `True` to the request. -/
def State.Accepted (s : State) (id : ℕ) : Prop := s.requests[id]?.bind Request.started = some true

/-- The turns of the tasks. -/
inductive Action where
  | arrive
  | start (id : ℕ)
  | respond (id : ℕ) (outcome : Outcome)
  -- a line of the `finally` block raises before `request_finished`
  | breakOff (id : ℕ)
  | finish (id : ℕ)
  | cancel (id : ℕ)
  | drain
  | wake
  | timeOut
  | cancelDrain
deriving DecidableEq

def step (s : State) : Action → Option State
  | .arrive => some { s with requests := s.requests ++ [.new] }
  | .start id =>
      match s.requests[id]? with
      | some ⟨.requestStarted, _, _⟩ =>
          s.shutdown.requestStarted.map fun (shutdown, accepted) =>
            { s with shutdown, requests := s.requests.set id (.start accepted) }
      | _ => none
  | .respond id outcome =>
      match s.requests[id]? with
      | some ⟨.callNext, started, finished⟩ =>
          some { s with requests := s.requests.set id ⟨.requestFinished outcome, started, finished⟩ }
      | _ => none
  | .breakOff id =>
      match s.requests[id]? with
      | some ⟨.callNext, started, finished⟩ =>
          some { s with requests := s.requests.set id ⟨.ended .raises, started, finished⟩ }
      | _ => none
  | .finish id =>
      match s.requests[id]? with
      | some ⟨.requestFinished outcome, started, _⟩ =>
          s.shutdown.requestFinished.map fun shutdown =>
            { s with shutdown, requests := s.requests.set id ⟨.ended outcome, started, true⟩ }
      | _ => none
  | .cancel id => do
      let request ← s.requests[id]?
      let later ← request.cancel
      some { s with requests := s.requests.set id later }
  | .drain =>
      if s.lifespan = .yield then
        some { s with shutdown := s.shutdown.drain.1, lifespan := if s.shutdown.drain.2 then .disposed false else .drain }
      else none
  | .wake =>
      if s.lifespan = .drain ∧ .lifespan ∈ s.shutdown.drained.woken then
        some { s with shutdown := s.shutdown.leave, lifespan := .disposed false }
      else none
  | .timeOut =>
      if s.lifespan = .drain then some { s with shutdown := s.shutdown.leave, lifespan := .disposed true } else none
  | .cancelDrain =>
      if s.lifespan = .drain then some { s with shutdown := s.shutdown.leave, lifespan := .raised } else none

end JobRelay.Model.GracefulShutdown
