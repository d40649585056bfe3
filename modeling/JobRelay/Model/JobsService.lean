import JobRelay.Model.Statements

/-! # The API service

`JobsService` statement by statement, and the connection scope of a request: one transaction that
commits when the operation returns and rolls back when it raises.
-/

namespace JobRelay.Model

open Sessions

def MAX_ATTEMPTS : ℕ := 3

/-- One transaction on a connection. -/
def connTransaction {α : Type} (body : Prog α) (committed : α → Label) (aborted : Exc → Label) :
    Prog α :=
  Program.transaction (do exec .begin; body) committed aborted

namespace JobsService

def requireRow {α : Type} : Option α → Prog α
  | some row => pure row
  | none => throw (.runtime "query deveria ter retornado uma linha")

def listJobs (companyId limit offset : ℕ) (status : Option JobStatus) : Prog (List JobSummary) :=
  exec (.listJobs companyId limit offset status)

def countJobs (companyId : ℕ) (status : Option JobStatus) : Prog ℕ :=
  exec (.countJobs companyId status)

def getAuditEvents (companyId jobId : ℕ) : Prog (List AuditEntry) :=
  exec (.selectAuditEvents companyId jobId)

def getJob (companyId jobId : ℕ) : Prog JobDetail := do
  match ← exec (.selectJob companyId jobId) with
  | none => throw (.jobNotFound jobId)
  | some row =>
      let events ← getAuditEvents companyId jobId
      let cancellation := (events.find? fun event => decide (event.eventType = .cancelled)).map
        fun event => ⟨event.actor, event.occurredAt⟩
      return ⟨row, cancellation, events⟩

def recordAuditEvent (jobId companyId : ℕ) (eventType : EventType) (actor : String)
    (traceId : Option String) : Prog Unit :=
  exec (.insertAuditEvent jobId companyId eventType actor traceId true)

def getResult (companyId jobId : ℕ) : Prog String := do
  match ← exec (.selectResult companyId jobId) with
  | none => throw (.resultNotFound jobId)
  | some payload => return payload

def findByIdempotencyKey (companyId : ℕ) (idempotencyKey : String) : Prog (Option Existing) :=
  exec (.findByIdempotencyKey companyId idempotencyKey)

def replay (existing : Existing) (kind : String) : Prog JobState :=
  if existing.kind ≠ kind then throw (.idempotencyKeyConflict existing.kind)
  else pure ⟨existing.id, existing.status⟩

def notifyQueued (jobId : ℕ) : Prog Unit := exec (.notify .jobsQueued jobId)

/-- `create_job` from its `INSERT` on. -/
def insertJob (companyId : ℕ) (kind : String) (traceId : Option String) (idempotencyKey : String)
    (submittedBy : Option String) : Prog (JobState × Bool) := do
  match ← exec (.insertJob companyId kind traceId idempotencyKey) with
  | none =>
      let winner ← requireRow (← findByIdempotencyKey companyId idempotencyKey)
      return (← replay winner kind, false)
  | some job =>
      match submittedBy with
      | some actor => recordAuditEvent job.id companyId .submitted actor traceId
      | none => pure ()
      notifyQueued job.id
      return (job, true)

/-- `create_job` from its count of active jobs on. -/
def admitJob (maxConcurrentJobs : Int) (companyId : ℕ) (kind : String) (traceId : Option String)
    (idempotencyKey : String) (submittedBy : Option String) : Prog (JobState × Bool) := do
  let running ← exec (.countActive companyId)
  if maxConcurrentJobs ≤ running then throw (.concurrencyLimit maxConcurrentJobs running)
  else insertJob companyId kind traceId idempotencyKey submittedBy

def createJob (companyId : ℕ) (kind : String) (traceId : Option String) (idempotencyKey : String)
    (submittedBy : Option String) : Prog (JobState × Bool) := do
  match ← findByIdempotencyKey companyId idempotencyKey with
  | some existing => return (← replay existing kind, false)
  | none =>
    match ← exec (.lockCompany companyId) with
    | none => throw (.companyUnknown companyId)
    | some maxConcurrentJobs =>
      -- the company lock may have been waited for: look the key up again under it
      match ← findByIdempotencyKey companyId idempotencyKey with
      | some existing => return (← replay existing kind, false)
      | none => admitJob maxConcurrentJobs companyId kind traceId idempotencyKey submittedBy

def cancelJob (companyId jobId : ℕ) (cancelledBy : String) (traceId : Option String) :
    Prog JobState := do
  match ← exec (.cancelJob companyId jobId) with
  | some row =>
      recordAuditEvent jobId companyId .cancelled cancelledBy traceId
      exec (.notify .jobsCancelled jobId)
      return row
  | none =>
      let current ← getJob companyId jobId
      throw (.invalidJobState current.status)

def retryJob (companyId jobId : ℕ) (requestedBy : String) (traceId : Option String) :
    Prog JobRetried := do
  match ← exec (.retryJob companyId jobId traceId MAX_ATTEMPTS) with
  | some row =>
      recordAuditEvent jobId companyId .retryRequested requestedBy traceId
      notifyQueued row.id
      return row
  | none =>
      let current ← getJob companyId jobId
      if current.status = .failed then throw (.retryLimit current.attempts MAX_ATTEMPTS)
      else throw (.invalidJobState current.status)

/-- The operations of the service that a request calls. -/
def serve : Request → Prog Response
  | .listJobs companyId limit offset status => do
      return .jobs (← listJobs companyId limit offset status)
  | .countJobs companyId status => do return .count (← countJobs companyId status)
  | .listPage companyId limit offset status => do
      let rows ← listJobs companyId limit offset status
      return .page rows (← countJobs companyId status)
  | .getJob companyId jobId => do return .job (← getJob companyId jobId)
  | .getResult companyId jobId => do return .result (← getResult companyId jobId)
  | .createJob companyId kind traceId idempotencyKey submittedBy => do
      let (job, created) ← createJob companyId kind traceId idempotencyKey submittedBy
      return .created job created
  | .cancelJob companyId jobId cancelledBy traceId => do
      return .cancelled (← cancelJob companyId jobId cancelledBy traceId)
  | .retryJob companyId jobId requestedBy traceId => do
      return .retried (← retryJob companyId jobId requestedBy traceId)

/-- One request on its own connection. -/
def handle (request : Request) : Prog Response :=
  connTransaction (serve request) (fun response => .request request (.ok response))
    (fun error => .request request (.error error))

end JobsService

end JobRelay.Model
