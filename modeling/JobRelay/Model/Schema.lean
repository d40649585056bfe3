import Mathlib.Data.List.Sort
import JobRelay.Sessions.Table

/-! # Rows of the job database and their checks

One record type per table of the migrations, with the columns that the API and the worker read or
write, and the `CHECK` constraints that apply to the rows they write. Times are microseconds, the
resolution of `timestamptz`. A `WORKER_ID` is the number of the worker process that drew it.
-/

namespace JobRelay.Model

open Sessions

abbrev Micros := Int

/-- `make_interval(secs => n)`. -/
def seconds (n : Int) : Micros := n * 1000000

inductive JobStatus where
  | queued | running | done | failed | cancelled
deriving DecidableEq

/-- `status IN ('queued', 'running')`. -/
def JobStatus.active : JobStatus → Bool
  | .queued | .running => true
  | .done | .failed | .cancelled => false

inductive EventType where
  | submitted | cancelled | retryRequested | completed | failed
deriving DecidableEq

/-- The event types under a partial unique index on `job_id`. -/
def EventType.unique : EventType → Bool
  | .submitted | .cancelled => true
  | .retryRequested | .completed | .failed => false

inductive Channel where
  | jobsQueued | jobsCancelled
deriving DecidableEq

structure Company where
  id : ℕ
  name : String
  maxConcurrentJobs : Int
  jobQuota : Int
  /-- `ck_companies_max_concurrent_jobs` -/
  limited : 0 < maxConcurrentJobs
deriving DecidableEq

structure Job where
  id : ℕ
  companyId : ℕ
  kind : String
  status : JobStatus
  attempts : ℕ
  createdAt : Micros
  updatedAt : Micros
  traceId : Option String
  lastError : Option String
  idempotencyKey : Option String
  nextAttemptAt : Option Micros
  lockedAt : Option Micros
  workerId : Option ℕ
deriving DecidableEq

structure JobResult where
  jobId : ℕ
  payload : String
deriving DecidableEq

structure AuditEvent where
  id : ℕ
  jobId : ℕ
  companyId : ℕ
  eventType : EventType
  actor : String
  occurredAt : Micros
  traceId : Option String
deriving DecidableEq

structure DeadLetter where
  id : ℕ
  jobId : Option ℕ
  companyId : ℕ
  kind : String
  attempts : ℕ
  lastError : Option String
  traceId : Option String
  jobCreatedAt : Option Micros
  failedAt : Micros
deriving DecidableEq

structure Notification where
  channel : Channel
  payload : ℕ
deriving DecidableEq

/-- The class `[[:cntrl:]]`. -/
def isControl (c : Char) : Bool := c.val < 0x20 || (0x7f ≤ c.val && c.val ≤ 0x9f)

section Checks

/- The class `[[:space:]]` depends on the locale of the database. -/
variable (isSpace : Char → Bool)

/-- `text ~ '[^[:space:]]' AND text !~ '[[:cntrl:]]'`. -/
def hasContent (text : String) : Bool :=
  text.toList.any (fun c => !isSpace c) && !text.toList.any isControl

/-- `ck_jobs_kind_content` and `ck_dead_letter_jobs_kind_content`. -/
def kindAccepted (kind : String) : Bool :=
  decide (1 ≤ kind.length ∧ kind.length ≤ 100) && hasContent isSpace kind

/-- `ck_jobs_idempotency_key`. -/
def keyAccepted : Option String → Bool
  | none => true
  | some key => decide (1 ≤ key.length ∧ key.length ≤ 200) && hasContent isSpace key

def Job.accepted (job : Job) : Bool :=
  kindAccepted isSpace job.kind && decide (job.attempts ≤ 3) && keyAccepted isSpace job.idempotencyKey

def JobResult.accepted (result : JobResult) : Bool := hasContent isSpace result.payload

def DeadLetter.accepted (entry : DeadLetter) : Bool :=
  kindAccepted isSpace entry.kind && decide (1 ≤ entry.attempts ∧ entry.attempts ≤ 3)

/-- The check on `actor`. -/
def AuditEvent.accepted (event : AuditEvent) : Bool :=
  decide (3 ≤ event.actor.length ∧ event.actor.length ≤ 100) && !event.actor.toList.any isControl

/-- `job_quota` is a 32-bit column. -/
def Company.accepted (company : Company) : Bool :=
  decide (-2147483648 ≤ company.jobQuota ∧ company.jobQuota ≤ 2147483647)

end Checks

end JobRelay.Model
