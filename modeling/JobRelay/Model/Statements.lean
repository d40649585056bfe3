import Mathlib.Algebra.Ring.Int.Defs
import JobRelay.Model.Messages
import JobRelay.Sessions.Contract
import JobRelay.Sessions.Locks

/-! # SQL statements of the two services

Every statement that the services send is a constructor of `Sql`, with its text in the docstring,
and `answer` says what PostgreSQL does with it under READ COMMITTED: it reads the latest committed
rows and the transaction's own writes, takes the locks that the statement takes, and buffers the
writes until the commit. A statement that would wait for a lock is not enabled until the lock is
free, and is then evaluated on the rows committed by that time. Sequences are not transactional.
-/

namespace JobRelay.Model

open Sessions

/-- The committed database, its clock, and the log of ended transactions. -/
structure Store where
  companies : Table Company.id
  jobs : SerialTable Job.id
  results : Table JobResult.jobId
  audits : SerialTable AuditEvent.id
  deadLetters : SerialTable DeadLetter.id
  /-- Every notification delivered so far, in commit order. -/
  notified : List Notification
  clock : Micros
  isSpace : Char → Bool
  history : List (ℕ × Label)

namespace Store

def company? (s : Store) (id : ℕ) : Option Company := s.companies.find? id
def job? (s : Store) (id : ℕ) : Option Job := s.jobs.toTable.find? id

/-- The job that a company stored under an idempotency key. -/
def jobByKey? (s : Store) (companyId : ℕ) (key : String) : Option Job :=
  s.jobs.rows.find? fun job => decide (job.companyId = companyId ∧ job.idempotencyKey = some key)

/-- The queued and running jobs of a company. -/
def activeCount (s : Store) (companyId : ℕ) : ℕ :=
  s.jobs.rows.countP fun job => decide (job.companyId = companyId) && job.status.active

end Store

/-- What an open transaction has written; nobody else sees it before the commit. -/
inductive Write where
  | putJob (row : Job)
  | insertJob (row : Job)
  | insertResult (row : JobResult)
  | insertAudit (row : AuditEvent)
  | insertDeadLetter (row : DeadLetter)
  | putCompany (row : Company)
  | notify (notification : Notification)
deriving DecidableEq

def Write.apply (s : Store) : Write → Store
  | .putJob row => { s with jobs := s.jobs.put row }
  | .insertJob row => { s with jobs := s.jobs.insert row }
  | .insertResult row => { s with results := s.results.insert row }
  | .insertAudit row => { s with audits := s.audits.insert row }
  | .insertDeadLetter row => { s with deadLetters := s.deadLetters.insert row }
  | .putCompany row => { s with companies := s.companies.put row }
  | .notify notification => { s with notified := s.notified ++ [notification] }

/-- What a transaction can lock: a row, or the entry of a unique index. -/
inductive Resource where
  | company (id : ℕ)
  | job (id : ℕ)
  | jobKey (companyId : ℕ) (key : String)
  | resultOf (jobId : ℕ)
  | event (id : ℕ)
  | eventOf (jobId : ℕ) (eventType : EventType)
  | deadLetter (id : ℕ)
  | deadLetterOf (jobId : ℕ)
deriving DecidableEq

/-- An open transaction: its start time (`now()`), its writes and its locks. -/
structure Tx where
  now : Micros
  writes : List Write
  locks : LockSet Resource
deriving DecidableEq

namespace Tx

def start (s : Store) : Tx := ⟨s.clock, [], []⟩

/-- The rows the transaction itself sees. -/
def view (tx : Tx) (s : Store) : Store := tx.writes.foldl Write.apply s

def hold (tx : Tx) (resource : Resource) (mode : LockMode) : Tx :=
  { tx with locks := tx.locks ++ [(resource, mode)] }

def add (tx : Tx) (write : Write) : Tx := { tx with writes := tx.writes ++ [write] }

/-- Another open transaction holds a lock on the resource that excludes this mode. -/
def blocks (tx : Tx) (resource : Resource) (mode : LockMode) : Bool :=
  tx.locks.any fun held => decide (held.1 = resource) && held.2.conflicts mode

end Tx

/-- What the environment decides: the rows a multi-row update found in its snapshot, how many times
a background thread runs, and what the supervising threads raise. -/
structure Choice where
  snapshot : List ℕ
  ticks : ℕ
  raises : Option Exc
  monitorError : Option Exc

/-- The columns that the idempotency lookup returns. -/
structure Existing where
  id : ℕ
  status : JobStatus
  kind : String
deriving DecidableEq

/-- The columns that the claim query returns. -/
structure Candidate where
  id : ℕ
  companyId : ℕ
  kind : String
  traceId : Option String
  attempts : ℕ
  queueWait : Micros
deriving DecidableEq

/-- The columns that claiming returns. -/
structure Lease where
  attempts : ℕ
  lockedAt : Option Micros
  workerId : Option ℕ
deriving DecidableEq

/-- The columns that recovery returns for each job. -/
structure StaleJob where
  id : ℕ
  companyId : ℕ
  kind : String
  traceId : Option String
  attempts : ℕ
deriving DecidableEq

inductive Sql where
  /-- `BEGIN` -/
  | begin
  /-- `SELECT id, status, kind FROM jobs WHERE company_id = %s AND idempotency_key = %s` -/
  | findByIdempotencyKey (companyId : ℕ) (key : String)
  /-- `SELECT max_concurrent_jobs FROM companies WHERE id = %s FOR UPDATE` -/
  | lockCompany (companyId : ℕ)
  /-- `SELECT count(*) AS n FROM jobs WHERE company_id = %s AND status IN ('queued', 'running')` -/
  | countActive (companyId : ℕ)
  /-- `INSERT INTO jobs (company_id, kind, status, trace_id, idempotency_key)
  VALUES (%s, %s, 'queued', %s, %s) ON CONFLICT (company_id, idempotency_key)
  WHERE idempotency_key IS NOT NULL DO NOTHING RETURNING id, status` -/
  | insertJob (companyId : ℕ) (kind : String) (traceId : Option String) (key : String)
  /-- `INSERT INTO job_audit_events (job_id, company_id, event_type, actor, trace_id)
  VALUES (%s, %s, %s, %s, %s)`, in the API followed by `ON CONFLICT DO NOTHING` -/
  | insertAuditEvent (jobId companyId : ℕ) (eventType : EventType) (actor : String)
      (traceId : Option String) (ignoreConflict : Bool)
  /-- `SELECT pg_notify(%s, %s)` -/
  | notify (channel : Channel) (payload : ℕ)
  /-- `UPDATE jobs SET status = 'cancelled', locked_at = NULL, worker_id = NULL, updated_at = now()
  WHERE id = %s AND company_id = %s AND status IN ('queued', 'running') RETURNING id, status` -/
  | cancelJob (companyId jobId : ℕ)
  /-- `UPDATE jobs SET status = 'queued', last_error = NULL, next_attempt_at = now() +
  make_interval(secs => 5 * power(2, greatest(attempts, 1) - 1)), locked_at = NULL,
  worker_id = NULL, trace_id = COALESCE(trace_id, %s), updated_at = now()
  WHERE id = %s AND company_id = %s AND status = 'failed' AND attempts < %s
  RETURNING id, status, attempts` -/
  | retryJob (companyId jobId : ℕ) (traceId : Option String) (maxAttempts : ℕ)
  /-- `SELECT id, company_id, kind, status, attempts, last_error FROM jobs
  WHERE id = %s AND company_id = %s` -/
  | selectJob (companyId jobId : ℕ)
  /-- `SELECT event_type, actor, occurred_at, trace_id FROM job_audit_events
  WHERE job_id = %s AND company_id = %s ORDER BY occurred_at ASC, id ASC` -/
  | selectAuditEvents (companyId jobId : ℕ)
  /-- `SELECT r.payload FROM job_results r JOIN jobs j ON j.id = r.job_id
  WHERE r.job_id = %s AND j.company_id = %s` -/
  | selectResult (companyId jobId : ℕ)
  /-- `SELECT j.id, j.kind, j.status, j.created_at, (SELECT count(*) FROM job_results r
  WHERE r.job_id = j.id) AS result_count FROM jobs j WHERE j.company_id = %(company_id)s
  AND (%(status)s::text IS NULL OR j.status = %(status)s)
  ORDER BY j.created_at DESC, j.id DESC LIMIT %(limit)s OFFSET %(offset)s` -/
  | listJobs (companyId limit offset : ℕ) (status : Option JobStatus)
  /-- `SELECT count(*) AS n FROM jobs WHERE company_id = %(company_id)s
  AND (%(status)s::text IS NULL OR status = %(status)s)` -/
  | countJobs (companyId : ℕ) (status : Option JobStatus)
  /-- `UPDATE jobs SET status = 'failed', last_error = %s, next_attempt_at = NULL,
  locked_at = NULL, worker_id = NULL, updated_at = now() WHERE status = 'running'
  AND (locked_at IS NULL OR locked_at < now() - make_interval(secs => %s))
  RETURNING id, company_id, kind, trace_id, attempts` -/
  | recoverStale (error : String) (leaseTimeout : Micros)
  /-- `SELECT id, company_id, kind, trace_id, attempts, extract(epoch FROM now() - updated_at)
  AS queue_wait_s FROM jobs WHERE status = 'queued' AND attempts < %s
  AND (next_attempt_at IS NULL OR next_attempt_at <= now())
  ORDER BY id LIMIT 1 FOR UPDATE SKIP LOCKED` -/
  | selectClaimable (maxAttempts : ℕ)
  /-- `UPDATE jobs SET status = 'running', attempts = attempts + 1, locked_at = now(),
  worker_id = %s, updated_at = now() WHERE id = %s RETURNING attempts, locked_at, worker_id` -/
  | claimJob (workerId jobId : ℕ)
  /-- `UPDATE jobs SET status = 'done', locked_at = NULL, worker_id = NULL, updated_at = now()
  WHERE id = %s AND status = 'running' AND worker_id = %s RETURNING id` -/
  | finishJob (jobId : ℕ) (workerId : Option ℕ)
  /-- `INSERT INTO job_results (job_id, payload) VALUES (%s, %s) ON CONFLICT (job_id) DO NOTHING` -/
  | insertResult (jobId : ℕ) (payload : String)
  /-- `UPDATE companies SET job_quota = job_quota - 1 WHERE id = %s` -/
  | debitQuota (companyId : ℕ)
  /-- `SELECT status FROM jobs WHERE id = %s` -/
  | selectStatus (jobId : ℕ)
  /-- `UPDATE jobs SET locked_at = NULL, worker_id = NULL, updated_at = now()
  WHERE id = %s AND status = 'cancelled' AND worker_id = %s` -/
  | releaseCancelled (jobId : ℕ) (workerId : Option ℕ)
  /-- `INSERT INTO dead_letter_jobs (job_id, company_id, kind, attempts, last_error, trace_id,
  job_created_at) SELECT id, company_id, kind, attempts, %s, trace_id, created_at FROM jobs
  WHERE id = %s ON CONFLICT (job_id) WHERE job_id IS NOT NULL DO NOTHING` -/
  | insertDeadLetter (error : String) (jobId : ℕ)
  /-- `UPDATE jobs SET status = 'failed', last_error = %s, next_attempt_at = NULL,
  locked_at = NULL, worker_id = NULL, updated_at = now()
  WHERE id = %s AND status = 'running' AND worker_id = %s RETURNING status` -/
  | failJob (error : String) (jobId : ℕ) (workerId : Option ℕ)
  /-- `UPDATE jobs SET locked_at = now() WHERE id = %s AND status = 'running' AND worker_id = %s
  RETURNING id` -/
  | renewLease (jobId : ℕ) (workerId : Option ℕ)
  /-- `SELECT id FROM companies WHERE id = %s` -/
  | selectCompany (companyId : ℕ)
  /-- `SELECT extract(epoch FROM min(next_attempt_at) - now()) AS s FROM jobs
  WHERE status = 'queued' AND next_attempt_at > now()` -/
  | selectNextAttempt
deriving DecidableEq

/-- What each statement returns to the client. -/
@[reducible] def Sql.Answer : Sql → Type
  | .begin => Unit
  | .findByIdempotencyKey .. => Option Existing
  | .lockCompany .. => Option Int
  | .countActive .. => ℕ
  | .insertJob .. => Option JobState
  | .insertAuditEvent .. => Unit
  | .notify .. => Unit
  | .cancelJob .. => Option JobState
  | .retryJob .. => Option JobRetried
  | .selectJob .. => Option JobRow
  | .selectAuditEvents .. => List AuditEntry
  | .selectResult .. => Option String
  | .listJobs .. => List JobSummary
  | .countJobs .. => ℕ
  | .recoverStale .. => List StaleJob
  | .selectClaimable .. => Option Candidate
  | .claimJob .. => Option Lease
  | .finishJob .. => Option ℕ
  | .insertResult .. => ℕ
  | .debitQuota .. => Unit
  | .selectStatus .. => Option JobStatus
  | .releaseCancelled .. => Unit
  | .insertDeadLetter .. => Unit
  | .failJob .. => Option JobStatus
  | .renewLease .. => Option ℕ
  | .selectCompany .. => Option ℕ
  | .selectNextAttempt => Option Micros

namespace Job

/-- The row of a new job, with the defaults of the table. -/
def new (id companyId : ℕ) (kind : String) (traceId : Option String) (key : String) (now : Micros) : Job :=
  { id, companyId, kind, status := .queued, attempts := 0, createdAt := now, updatedAt := now, traceId,
    lastError := none, idempotencyKey := some key, nextAttemptAt := none, lockedAt := none,
    workerId := none }

/-- `status = 'running' AND worker_id = %s`; comparing with `NULL` selects nothing. -/
def runningUnder (job : Job) (workerId : Option ℕ) : Bool :=
  decide (job.status = .running) && workerId.isSome && decide (job.workerId = workerId)

/-- The `WHERE` of the claim query. -/
def claimable (job : Job) (maxAttempts : ℕ) (now : Micros) : Bool :=
  decide (job.status = .queued) && decide (job.attempts < maxAttempts) &&
    job.nextAttemptAt.all fun due => decide (due ≤ now)

/-- The `WHERE` of the recovery update. -/
def leaseExpired (job : Job) (leaseTimeout now : Micros) : Bool :=
  decide (job.status = .running) &&
    job.lockedAt.all fun lockedAt => decide (lockedAt < now - leaseTimeout)

/-- The `SET` of both failure updates. -/
def fail (job : Job) (error : String) (now : Micros) : Job :=
  { job with
    status := .failed, lastError := some error, nextAttemptAt := none, lockedAt := none,
    workerId := none, updatedAt := now }

def cancel (job : Job) (now : Micros) : Job :=
  { job with status := .cancelled, lockedAt := none, workerId := none, updatedAt := now }

def retry (job : Job) (traceId : Option String) (now : Micros) : Job :=
  { job with
    status := .queued, lastError := none,
    nextAttemptAt := some (now + seconds (5 * 2 ^ (max job.attempts 1 - 1))),
    lockedAt := none, workerId := none, traceId := job.traceId.or traceId, updatedAt := now }

def claim (job : Job) (workerId : ℕ) (now : Micros) : Job :=
  { job with
    status := .running, attempts := job.attempts + 1, lockedAt := some now,
    workerId := some workerId, updatedAt := now }

def finish (job : Job) (now : Micros) : Job :=
  { job with status := .done, lockedAt := none, workerId := none, updatedAt := now }

def renew (job : Job) (now : Micros) : Job := { job with lockedAt := some now }

/-- `ORDER BY created_at DESC, id DESC`. -/
def NotOlder (left right : Job) : Prop :=
  right.createdAt < left.createdAt ∨ (left.createdAt = right.createdAt ∧ right.id ≤ left.id)

instance (left right : Job) : Decidable (NotOlder left right) := inferInstanceAs (Decidable (_ ∨ _))

end Job

/-- `ORDER BY occurred_at ASC, id ASC`. -/
def AuditEvent.NotLater (left right : AuditEvent) : Prop :=
  left.occurredAt < right.occurredAt ∨ (left.occurredAt = right.occurredAt ∧ left.id ≤ right.id)

instance (left right : AuditEvent) : Decidable (left.NotLater right) :=
  inferInstanceAs (Decidable (_ ∨ _))

/-- The rows a statement returns, the sequences it moved, and the transaction it leaves. -/
abbrev Outcome (α : Type) := Except Exc (α × Store × Tx)

section Rows

variable (s : Store) (tx : Tx)

def checkViolation (table : String) : Exc := .database "CheckViolation" table
def uniqueViolation (table : String) : Exc := .database "UniqueViolation" table
def foreignKeyViolation (table : String) : Exc := .database "ForeignKeyViolation" table

/-- Update at most the row of one job, if it meets the condition. -/
def updateJob (jobId : ℕ) (condition : Job → Bool) (set : Job → Job) : Outcome (Option Job) :=
  match (tx.view s).job? jobId with
  | none => .ok (none, s, tx)
  | some row =>
      if condition row then
        if (set row).accepted s.isSpace then
          .ok (some (set row), s, (tx.hold (.job jobId) .noKeyUpdate).add (.putJob (set row)))
        else .error (checkViolation "jobs")
      else .ok (none, s, tx)

/-- Update every running job whose lease expired among the rows of the statement's snapshot. -/
def updateStale (error : String) (leaseTimeout : Micros) (snapshot : List ℕ) : Outcome (List Job) :=
  let stale := (tx.view s).jobs.rows.filter fun job =>
    job.leaseExpired leaseTimeout tx.now && decide (job.id ∈ snapshot)
  let failed := stale.map fun job => job.fail error tx.now
  if failed.all fun job => job.accepted s.isSpace then
    .ok (failed, s,
      ⟨tx.now, tx.writes ++ failed.map Write.putJob,
        tx.locks ++ failed.map fun job => (Resource.job job.id, LockMode.noKeyUpdate)⟩)
  else .error (checkViolation "jobs")

/-- Lock the first claimable row that no other transaction has locked. -/
def lockClaimable (others : List Tx) (maxAttempts : ℕ) : Outcome (Option Job) :=
  let free := (tx.view s).jobs.rows.filter fun job =>
    job.claimable maxAttempts tx.now && !others.any fun other => other.blocks (.job job.id) .update
  match free.minOn? Job.id with
  | none => .ok (none, s, tx)
  | some job => .ok (some job, s, tx.hold (.job job.id) .update)

/-- The range of a `SERIAL` column and its sequence. -/
def serialRange (id : ℕ) : Bool := decide (1 ≤ id ∧ id ≤ 2147483647)

def insertJobRow (companyId : ℕ) (kind : String) (traceId : Option String) (key : String) :
    Outcome (Option Job) :=
  let job := Job.new s.jobs.next companyId kind traceId key tx.now
  let drawn := { s with jobs := s.jobs.draw }
  if serialRange job.id then
    if job.accepted s.isSpace then
      if ((tx.view s).jobByKey? companyId key).isSome then .ok (none, drawn, tx)
      else if ((tx.view s).company? companyId).isNone then .error (foreignKeyViolation "jobs")
      else
        .ok (some job, drawn,
          (((tx.hold (.job job.id) .update).hold (.jobKey companyId key) .update).hold
            (.company companyId) .keyShare).add (.insertJob job))
    else .error (checkViolation "jobs")
  else .error (.database "SequenceGeneratorLimitExceeded" "jobs_id_seq")

def insertAuditRow (jobId companyId : ℕ) (eventType : EventType) (actor : String)
    (traceId : Option String) (ignoreConflict : Bool) : Outcome Unit :=
  let event : AuditEvent :=
    { id := s.audits.next, jobId, companyId, eventType, actor, occurredAt := tx.now, traceId }
  let drawn := { s with audits := s.audits.draw }
  let view := tx.view s
  if event.accepted then
    if eventType.unique && view.audits.rows.any fun other =>
        decide (other.jobId = jobId ∧ other.eventType = eventType) then
      if ignoreConflict then .ok ((), drawn, tx) else .error (uniqueViolation "job_audit_events")
    else if (view.job? jobId).isNone || (view.company? companyId).isNone then
      .error (foreignKeyViolation "job_audit_events")
    else
      .ok ((), drawn,
        ((((tx.hold (.event event.id) .update).hold (.eventOf jobId eventType) .update).hold
          (.job jobId) .keyShare).hold (.company companyId) .keyShare).add (.insertAudit event))
  else .error (checkViolation "job_audit_events")

def insertResultRow (jobId : ℕ) (payload : String) : Outcome ℕ :=
  let view := tx.view s
  if (JobResult.mk jobId payload).accepted s.isSpace then
    if (view.results.find? jobId).isSome then .ok (0, s, tx)
    else if (view.job? jobId).isNone then .error (foreignKeyViolation "job_results")
    else
      .ok (1, s,
        ((tx.hold (.resultOf jobId) .update).hold (.job jobId) .keyShare).add
          (.insertResult ⟨jobId, payload⟩))
  else .error (checkViolation "job_results")

def insertDeadLetterRow (error : String) (jobId : ℕ) : Outcome Unit :=
  let view := tx.view s
  match view.job? jobId with
  | none => .ok ((), s, tx)
  | some job =>
      let entry : DeadLetter :=
        { id := s.deadLetters.next, jobId := some job.id, companyId := job.companyId, kind := job.kind,
          attempts := job.attempts, lastError := some error, traceId := job.traceId,
          jobCreatedAt := some job.createdAt, failedAt := tx.now }
      let drawn := { s with deadLetters := s.deadLetters.draw }
      if entry.accepted s.isSpace then
        if view.deadLetters.rows.any fun other => decide (other.jobId = some jobId) then
          .ok ((), drawn, tx)
        else
          .ok ((), drawn,
            (((tx.hold (.deadLetter entry.id) .update).hold (.deadLetterOf jobId) .update).hold
              (.job jobId) .keyShare).add (.insertDeadLetter entry))
      else .error (checkViolation "dead_letter_jobs")

def debitCompany (companyId : ℕ) : Outcome Unit :=
  match (tx.view s).company? companyId with
  | none => .ok ((), s, tx)
  | some company =>
      let row := { company with jobQuota := company.jobQuota - 1 }
      if row.accepted then
        .ok ((), s, (tx.hold (.company companyId) .noKeyUpdate).add (.putCompany row))
      else .error (.database "NumericValueOutOfRange" "integer out of range")

/-- The jobs of a company under an optional status filter. -/
def Store.jobsOf (companyId : ℕ) (status : Option JobStatus) : List Job :=
  s.jobs.rows.filter fun job =>
    decide (job.companyId = companyId) && status.all fun wanted => decide (job.status = wanted)

def Store.auditEventsOf (companyId jobId : ℕ) : List AuditEvent :=
  s.audits.rows.filter fun event => decide (event.jobId = jobId ∧ event.companyId = companyId)

def Store.resultOf? (companyId jobId : ℕ) : Option String :=
  (s.results.find? jobId).bind fun result =>
    (s.job? result.jobId).bind fun job =>
      if job.companyId = companyId then some result.payload else none

/-- The smallest `next_attempt_at` of a queued job that is still to come. -/
def Store.nextAttempt? (now : Micros) : Option Micros :=
  (s.jobs.rows.filterMap fun job =>
    if job.status = .queued then job.nextAttemptAt.filter fun due => decide (now < due)
    else none).min?

end Rows

/-- What PostgreSQL does with one statement. -/
def Sql.answer (q : Sql) (s : Store) (others : List Tx) (choice : Choice) (tx : Tx) : Outcome q.Answer :=
  let view := tx.view s
  match q with
  | .begin => .ok ((), s, tx)
  | .findByIdempotencyKey companyId key =>
      .ok ((view.jobByKey? companyId key).map fun job => ⟨job.id, job.status, job.kind⟩, s, tx)
  | .lockCompany companyId =>
      match view.company? companyId with
      | none => .ok (none, s, tx)
      | some company => .ok (some company.maxConcurrentJobs, s, tx.hold (.company companyId) .update)
  | .countActive companyId => .ok (view.activeCount companyId, s, tx)
  | .insertJob companyId kind traceId key =>
      (insertJobRow s tx companyId kind traceId key).map fun (row, s, tx) =>
        (row.map fun job => ⟨job.id, job.status⟩, s, tx)
  | .insertAuditEvent jobId companyId eventType actor traceId ignoreConflict =>
      insertAuditRow s tx jobId companyId eventType actor traceId ignoreConflict
  | .notify channel payload => .ok ((), s, tx.add (.notify ⟨channel, payload⟩))
  | .cancelJob companyId jobId =>
      (updateJob s tx jobId (fun job => decide (job.companyId = companyId) && job.status.active)
        (fun job => job.cancel tx.now)).map fun (row, s, tx) =>
          (row.map fun job => ⟨job.id, job.status⟩, s, tx)
  | .retryJob companyId jobId traceId maxAttempts =>
      (updateJob s tx jobId
        (fun job => decide (job.companyId = companyId) && decide (job.status = .failed) &&
          decide (job.attempts < maxAttempts))
        (fun job => job.retry traceId tx.now)).map fun (row, s, tx) =>
          (row.map fun job => ⟨⟨job.id, job.status⟩, job.attempts⟩, s, tx)
  | .selectJob companyId jobId =>
      .ok (((view.job? jobId).filter fun job => decide (job.companyId = companyId)).map fun job =>
        ⟨job.id, job.companyId, job.kind, job.status, job.attempts, job.lastError⟩, s, tx)
  | .selectAuditEvents companyId jobId =>
      .ok (((view.auditEventsOf companyId jobId).insertionSort AuditEvent.NotLater).map fun event =>
        ⟨event.eventType, event.actor, event.occurredAt, event.traceId⟩, s, tx)
  | .selectResult companyId jobId => .ok (view.resultOf? companyId jobId, s, tx)
  | .listJobs companyId limit offset status =>
      .ok (((((view.jobsOf companyId status).insertionSort Job.NotOlder).drop offset).take limit).map
        fun job => ⟨job.id, job.kind, job.status, job.createdAt,
          (view.results.rows.countP fun result => decide (result.jobId = job.id))⟩, s, tx)
  | .countJobs companyId status => .ok ((view.jobsOf companyId status).length, s, tx)
  | .recoverStale error leaseTimeout =>
      (updateStale s tx error leaseTimeout choice.snapshot).map fun (rows, s, tx) =>
        (rows.map fun job => ⟨job.id, job.companyId, job.kind, job.traceId, job.attempts⟩, s, tx)
  | .selectClaimable maxAttempts =>
      (lockClaimable s tx others maxAttempts).map fun (row, s, tx) =>
        (row.map fun job => ⟨job.id, job.companyId, job.kind, job.traceId, job.attempts,
          tx.now - job.updatedAt⟩, s, tx)
  | .claimJob workerId jobId =>
      (updateJob s tx jobId (fun _ => true) (fun job => job.claim workerId tx.now)).map fun (row, s, tx) =>
        (row.map fun job => ⟨job.attempts, job.lockedAt, job.workerId⟩, s, tx)
  | .finishJob jobId workerId =>
      (updateJob s tx jobId (fun job => job.runningUnder workerId)
        (fun job => job.finish tx.now)).map fun (row, s, tx) => (row.map Job.id, s, tx)
  | .insertResult jobId payload => insertResultRow s tx jobId payload
  | .debitQuota companyId => debitCompany s tx companyId
  | .selectStatus jobId => .ok ((view.job? jobId).map Job.status, s, tx)
  | .releaseCancelled jobId workerId =>
      (updateJob s tx jobId
        (fun job => decide (job.status = .cancelled) && workerId.isSome && decide (job.workerId = workerId))
        (fun job => { job with lockedAt := none, workerId := none, updatedAt := tx.now })).map
          fun (_, s, tx) => ((), s, tx)
  | .insertDeadLetter error jobId => insertDeadLetterRow s tx error jobId
  | .failJob error jobId workerId =>
      (updateJob s tx jobId (fun job => job.runningUnder workerId)
        (fun job => job.fail error tx.now)).map fun (row, s, tx) => (row.map Job.status, s, tx)
  | .renewLease jobId workerId =>
      (updateJob s tx jobId (fun job => job.runningUnder workerId)
        (fun job => job.renew tx.now)).map fun (row, s, tx) => (row.map Job.id, s, tx)
  | .selectCompany companyId => .ok ((view.company? companyId).map Company.id, s, tx)
  | .selectNextAttempt => .ok ((view.nextAttempt? tx.now).map (· - tx.now), s, tx)

/-- The programs of both services. -/
abbrev Prog (α : Type) := Program Sql Sql.Answer Choice Exc Label α

abbrev exec (q : Sql) : Prog q.Answer := Program.exec q

/-- Append to the log what a process did. -/
def Store.log (s : Store) (pid : ℕ) (label : Label) : Store :=
  { s with history := s.history ++ [(pid, label)] }

/-- The database server. -/
def postgres : Engine ℕ Store Tx Sql Sql.Answer Choice Exc Label where
  start := Tx.start
  compatible left right := left.locks.compatible right.locks
  answer := Sql.answer
  commit pid label tx s := (tx.view s).log pid label
  publish pid label s := s.log pid label

end JobRelay.Model
