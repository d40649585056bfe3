import JobRelay.Model.Schema

/-! # Requests, replies, exceptions and the log of what transactions did

The exceptions of the API service and of the worker carry the data that the source puts in them.
A `Label` names what a finished transaction did; labels are kept in the order in which transactions
ended and are read by no statement.
-/

namespace JobRelay.Model

inductive Exc where
  | jobNotFound (jobId : ℕ)
  | resultNotFound (jobId : ℕ)
  | companyUnknown (companyId : ℕ)
  | concurrencyLimit (limit : Int) (running : ℕ)
  | idempotencyKeyConflict (existingKind : String)
  | invalidJobState (status : JobStatus)
  | retryLimit (attempts limit : ℕ)
  | jobCancelled
  | leaseLost (jobId : ℕ)
  | fatalCancellationMonitor (jobId : ℕ)
  | runtime (message : String)
  /-- `psycopg.OperationalError` and its subclasses: the connection or the server failed. -/
  | operational (message : String)
  /-- Any other `psycopg.Error`, by class. -/
  | database (className message : String)
  /-- Any other exception of the worker's threads, by class. -/
  | python (className message : String)
deriving DecidableEq

namespace JobStatus

/-- The text stored in `jobs.status`. -/
def text : JobStatus → String
  | .queued => "queued"
  | .running => "running"
  | .done => "done"
  | .failed => "failed"
  | .cancelled => "cancelled"

end JobStatus

namespace EventType

/-- The text stored in `job_audit_events.event_type`. -/
def text : EventType → String
  | .submitted => "submitted"
  | .cancelled => "cancelled"
  | .retryRequested => "retry_requested"
  | .completed => "completed"
  | .failed => "failed"

end EventType

namespace Exc

/-- `type(exc).__name__`. -/
def className : Exc → String
  | .jobNotFound _ => "JobNotFoundError"
  | .resultNotFound _ => "ResultNotFoundError"
  | .companyUnknown _ => "CompanyUnknownError"
  | .concurrencyLimit _ _ => "ConcurrencyLimitError"
  | .idempotencyKeyConflict _ => "IdempotencyKeyConflictError"
  | .invalidJobState _ => "InvalidJobStateError"
  | .retryLimit _ _ => "RetryLimitError"
  | .jobCancelled => "JobCancelledError"
  | .leaseLost _ => "LeaseLostError"
  | .fatalCancellationMonitor _ => "FatalCancellationMonitorError"
  | .runtime _ => "RuntimeError"
  | .operational _ => "OperationalError"
  | .database name _ => name
  | .python name _ => name

/-- `str(exc)`. -/
def message : Exc → String
  | .jobNotFound jobId => toString jobId
  | .resultNotFound jobId => toString jobId
  | .companyUnknown companyId => toString companyId
  | .concurrencyLimit limit running =>
      "limite de jobs concorrentes atingido (" ++ toString running ++ "/" ++ toString limit ++ ")"
  | .idempotencyKeyConflict _ => "Idempotency-Key já utilizada com payload diferente"
  | .invalidJobState status => "operação inválida para job em estado '" ++ status.text ++ "'"
  | .retryLimit attempts limit =>
      "máximo de tentativas atingido (" ++ toString attempts ++ "/" ++ toString limit ++ ")"
  | .jobCancelled => ""
  | .leaseLost jobId => "lease do job " ++ toString jobId ++ " não pertence mais a este worker"
  | .fatalCancellationMonitor jobId =>
      "monitor de cancelamento do job " ++ toString jobId ++
        " não encerrou após fechamento forçado da conexão"
  | .runtime text => text
  | .operational text => text
  | .database _ text => text
  | .python _ text => text

/-- The text that a failed attempt stores in `last_error`. -/
def describe (error : Exc) : String := error.className ++ ": " ++ error.message

/-- The exceptions that the database or the connection can raise at any statement or commit. -/
def fromDatabase : Exc → Bool
  | .operational _ | .database _ _ => true
  | _ => false

end Exc

/-- The requests, each of which calls one operation of `JobsService` or lists a page with two. -/
inductive Request where
  | listJobs (companyId limit offset : ℕ) (status : Option JobStatus)
  | countJobs (companyId : ℕ) (status : Option JobStatus)
  /-- `GET /jobs`: `list_jobs`, then `count_jobs` for `X-Total-Count`. -/
  | listPage (companyId limit offset : ℕ) (status : Option JobStatus)
  | getJob (companyId jobId : ℕ)
  | getResult (companyId jobId : ℕ)
  | createJob (companyId : ℕ) (kind : String) (traceId : Option String) (idempotencyKey : String)
      (submittedBy : Option String)
  | cancelJob (companyId jobId : ℕ) (cancelledBy : String) (traceId : Option String)
  | retryJob (companyId jobId : ℕ) (requestedBy : String) (traceId : Option String)
deriving DecidableEq

/-- The `POST /jobs` route always passes the principal as `submitted_by`. -/
def Request.routed : Request → Bool
  | .createJob _ _ _ _ submittedBy => submittedBy.isSome
  | _ => true

structure JobSummary where
  id : ℕ
  kind : String
  status : JobStatus
  createdAt : Micros
  resultCount : ℕ
deriving DecidableEq

structure AuditEntry where
  eventType : EventType
  actor : String
  occurredAt : Micros
  traceId : Option String
deriving DecidableEq

structure JobRow where
  id : ℕ
  companyId : ℕ
  kind : String
  status : JobStatus
  attempts : ℕ
  lastError : Option String
deriving DecidableEq

structure Cancellation where
  cancelledBy : String
  cancelledAt : Micros
deriving DecidableEq

structure JobDetail extends JobRow where
  cancellation : Option Cancellation
  auditEvents : List AuditEntry
deriving DecidableEq

/-- The `id` and `status` that creating and cancelling return. -/
structure JobState where
  id : ℕ
  status : JobStatus
deriving DecidableEq

structure JobRetried extends JobState where
  attempts : ℕ
deriving DecidableEq

inductive Response where
  | jobs (rows : List JobSummary)
  | count (n : ℕ)
  | page (rows : List JobSummary) (total : ℕ)
  | job (detail : JobDetail)
  | result (payload : String)
  | created (job : JobState) (created : Bool)
  | cancelled (job : JobState)
  | retried (job : JobRetried)
deriving DecidableEq

/-- What `_claim_next` returns. -/
structure Claim where
  id : ℕ
  companyId : ℕ
  kind : String
  traceId : Option String
  attempts : ℕ
  queueWait : Micros
  lockedAt : Option Micros
  workerId : Option ℕ
deriving DecidableEq

/-- What one ended transaction or one finished attempt did. -/
inductive Label where
  | request (request : Request) (result : Except Exc Response)
  | recovered (jobs : ℕ)
  | claimed (claim : Option Claim)
  | renewed (claim : Claim)
  | checked (claim : Claim)
  | finalized (claim : Claim) (outcome : JobStatus)
  | acknowledged (claim : Claim) (cancelled : Bool)
  | failureRecorded (claim : Claim) (status : JobStatus)
  | polled (pending : Option Micros)
  | rolledBack
  /-- `jobs_processed_total` counted one attempt. -/
  | processed (claim : Claim) (outcome : JobStatus)

end JobRelay.Model
