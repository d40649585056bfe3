import JobRelay.Model.JobsService

/-! # The worker

`process_next` and the transactions it is made of. The threads that supervise a running job meet
the main thread at a few points: what they raise there, and how often the heartbeat has run by
then, is a choice of the environment. `conn.rollback()` finds no open transaction, since every
statement is inside a transaction block; a broken connection fails the next statement instead.
-/

namespace JobRelay.Model.Processor

open Sessions

def LEASE_TIMEOUT : Micros := seconds 30
def HEARTBEAT_MAX_FAILURES : ℕ := 3
def SYSTEM_ACTOR : String := "system:worker"

/-- A `with conn.transaction()` block of the worker. -/
def transaction {α : Type} (committed : α → Label) (body : Prog α) : Prog α :=
  connTransaction body committed fun _ => .rolledBack

def recordAuditEvent (jobId companyId : ℕ) (traceId : Option String) (eventType : EventType) :
    Prog Unit :=
  exec (.insertAuditEvent jobId companyId eventType SYSTEM_ACTOR traceId false)

def sendToDlq (jobId : ℕ) (error : String) : Prog Unit := exec (.insertDeadLetter error jobId)

def renewLease (claim : Claim) : Prog Unit :=
  transaction (fun _ => .renewed claim) do
    match ← exec (.renewLease claim.id claim.workerId) with
    | none => throw (.leaseLost claim.id)
    | some _ => pure ()

/-- The heartbeat thread: the exception it gave up with, or its count of failures in a row. -/
def heartbeatLoop (claim : Claim) : ℕ → ℕ → Prog (Except Exc ℕ)
  | 0, failures => pure (.ok failures)
  | ticks + 1, failures => do
      let renewed ← tryCatch (do renewLease claim; return none) fun error => return some error
      match renewed with
      | none => heartbeatLoop claim ticks 0
      | some (.leaseLost jobId) => return .error (.leaseLost jobId)
      | some error =>
          if HEARTBEAT_MAX_FAILURES ≤ failures + 1 then return .error error
          else heartbeatLoop claim ticks (failures + 1)

/-- The heartbeat runs on for as long as the environment lets it. -/
def heartbeat (claim : Claim) (state : Except Exc ℕ) : Prog (Except Exc ℕ) :=
  match state with
  | .error error => pure (.error error)
  | .ok failures => .await fun choice => heartbeatLoop claim choice.ticks failures

/-- A point where a supervising thread or the cancellation token can raise. -/
def signal : Prog Unit :=
  .await fun choice =>
    match choice.raises with
    | some error => throw error
    | none => pure ()

/-- The lines of `recover_stale_jobs` that follow its update, for each recovered job. -/
def recordStale (error : String) : List StaleJob → Prog Unit
  | [] => pure ()
  | job :: rest => do
      recordAuditEvent job.id job.companyId job.traceId .failed
      if MAX_ATTEMPTS ≤ job.attempts then sendToDlq job.id error
      recordStale error rest

def LEASE_EXPIRED : String := "WorkerLeaseExpired: worker parou antes de finalizar o job"

def recoverStaleJobs : Prog ℕ :=
  transaction (fun jobs => .recovered jobs) do
    let stale ← exec (.recoverStale LEASE_EXPIRED LEASE_TIMEOUT)
    recordStale LEASE_EXPIRED stale
    return stale.length

def claimNext (workerId : ℕ) : Prog (Option Claim) :=
  transaction (fun claim => .claimed claim) do
    match ← exec (.selectClaimable MAX_ATTEMPTS) with
    | none => return none
    | some job =>
        match ← exec (.claimJob workerId job.id) with
        | none => throw (.runtime ("job " ++ toString job.id ++ " sumiu durante o claim"))
        | some lease =>
            return some ⟨job.id, job.companyId, job.kind, job.traceId, lease.attempts, job.queueWait,
              lease.lockedAt, lease.workerId⟩

def finalize (claim : Claim) : Prog JobStatus :=
  transaction (fun outcome => .finalized claim outcome) do
    match ← exec (.finishJob claim.id claim.workerId) with
    | none => return .cancelled
    | some _ =>
        let inserted ← exec
          (.insertResult claim.id ("resultado sensível da empresa " ++ toString claim.companyId))
        recordAuditEvent claim.id claim.companyId claim.traceId .completed
        if inserted ≠ 0 then exec (.debitQuota claim.companyId)
        return .done

def acknowledgeCancellation (claim : Claim) : Prog Bool :=
  transaction (fun cancelled => .acknowledged claim cancelled) do
    let status ← exec (.selectStatus claim.id)
    exec (.releaseCancelled claim.id claim.workerId)
    return decide (status = some .cancelled)

def recordFailure (claim : Claim) (error : Exc) : Prog JobStatus :=
  transaction (fun status => .failureRecorded claim status) do
    match ← exec (.failJob error.describe claim.id claim.workerId) with
    | none => return .cancelled
    | some status =>
        recordAuditEvent claim.id claim.companyId claim.traceId .failed
        if MAX_ATTEMPTS ≤ claim.attempts then sendToDlq claim.id error.describe
        return status

def execute (claim : Claim) : Prog Unit := do
  signal
  let company ← transaction (fun _ => .checked claim) (exec (.selectCompany claim.companyId))
  match company with
  | none =>
      throw (.runtime ("company " ++ toString claim.companyId ++ " não encontrada para o job " ++
        toString claim.id))
  | some _ => pure ()

/-- The job body under its cancellation monitor and heartbeat: what the heartbeat gave up with,
and how the body ended. -/
def supervise (claim : Claim) : Prog (Option Exc × Except Exc Unit) := do
  let started ← tryCatch (do signal; return .ok ()) fun error => return Except.error error
  match started with
  | .error error => return (none, .error error)
  | .ok () =>
      let before ← heartbeat claim (.ok 0)
      let body ← tryCatch (do execute claim; return .ok ()) fun error => return Except.error error
      let after ← heartbeat claim before
      let lost : Option Exc := match after with
        | .error error => some error
        | .ok _ => none
      -- an exception from stopping the monitor replaces the one that ended the body
      let stopped ← tryCatch (do signal; return .ok ()) fun error => return Except.error error
      match stopped, body, lost with
      | .error error, _, _ => return (lost, .error error)
      | .ok (), .error error, _ => return (lost, .error error)
      | .ok (), .ok (), some _ =>
          return (lost, .error (.runtime ("heartbeat do job " ++ toString claim.id ++ " falhou")))
      | .ok (), .ok (), none => return (lost, .ok ())

/-- The handlers of `process_next`: the outcome to count, and an exception to raise again. -/
def conclude (claim : Claim) (lost : Option Exc) : Exc → Prog (JobStatus × Option Exc)
  | .jobCancelled => do
      if ← acknowledgeCancellation claim then return (.cancelled, none)
      else
        let cause ← .await fun choice => pure ((lost.or choice.monitorError).getD
          (.runtime "cancelamento sinalizado sem job cancelado"))
        let _ ← recordFailure claim cause
        return (.failed, none)
  | .fatalCancellationMonitor jobId => do
      let _ ← recordFailure claim (.fatalCancellationMonitor jobId)
      return (.failed, some (.fatalCancellationMonitor jobId))
  | error => do
      let _ ← recordFailure claim error
      return (.failed, none)

/-- The attempt at one claimed job, up to the counting of its outcome. -/
def attempt (claim : Claim) : Prog (JobStatus × Option Exc) := do
  let (lost, body) ← supervise claim
  tryCatch
    (do
      match body with
      | .error error => throw error
      | .ok () =>
          signal
          let outcome ← finalize claim
          return (outcome, none))
    (conclude claim lost)

/-- Count the outcome, also when an exception escapes. -/
def counted (claim : Claim) (body : Prog (JobStatus × Option Exc)) : Prog Unit := do
  let (outcome, escaping) ← tryCatch body fun error => return (.failed, some error)
  .publish (.processed claim outcome) (pure ())
  match escaping with
  | some error => throw error
  | none => pure ()

def processNext (workerId : ℕ) : Prog Bool := do
  let _ ← recoverStaleJobs
  match ← claimNext workerId with
  | none => return false
  | some claim =>
      counted claim (attempt claim)
      return true

def secondsUntilNextAttempt : Prog (Option Micros) := do
  let row ← exec .selectNextAttempt
  return row.map fun pending => max pending 0

end JobRelay.Model.Processor
