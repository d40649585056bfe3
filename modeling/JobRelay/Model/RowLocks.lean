import JobRelay.Model.Processor
import JobRelay.Sessions.WaitFor

/-! # Row locks, one request at a time

The lock requests that each statement makes on rows of `companies` and `jobs`. An `UPDATE` that finds its row
locks it even if the row no longer meets the condition when the lock is granted. An `UPDATE` of several rows
locks them in any order. Each inserted row locks the rows that its foreign keys refer to. A row that the
transaction itself inserts is seen by nobody else.
-/

namespace JobRelay.Model

open Sessions

/-- A request that waits. -/
def request (resource : Resource) (mode : LockMode) : LockRequest Resource := ⟨resource, mode, false⟩

/-- The updates of several jobs. -/
def updates (ids : List ℕ) : List (LockRequest Resource) := ids.map fun id => request (.job id) .noKeyUpdate

/-- The foreign keys of an audit event. -/
def eventKeys (jobId companyId : ℕ) : List (LockRequest Resource) :=
  [request (.job jobId) .keyShare, request (.company companyId) .keyShare]

/-- An `UPDATE` of one job; without an answer it may have found no row. -/
def UpdatesJob (jobId : ℕ) (found : Bool) (asked : List (LockRequest Resource)) : Prop :=
  asked = [request (.job jobId) .noKeyUpdate] ∨ found = false ∧ asked = []

/-- The lock requests that a statement may make when it is answered so. -/
def Sql.Requests : (q : Sql) → q.Answer → List (LockRequest Resource) → Prop
  | .lockCompany companyId, found, asked =>
      asked = if found.isSome then [request (.company companyId) .update] else []
  | .insertJob companyId .., inserted, asked =>
      asked = if inserted.isSome then [request (.company companyId) .keyShare] else []
  | .insertAuditEvent jobId companyId _ _ _ ignoreConflict, _, asked =>
      asked = eventKeys jobId companyId ∨ ignoreConflict = true ∧ asked = []
  | .cancelJob _ jobId, row, asked => UpdatesJob jobId row.isSome asked
  | .retryJob _ jobId .., row, asked => UpdatesJob jobId row.isSome asked
  | .recoverStale .., stale, asked =>
      ∃ ids : List ℕ, ids.Nodup ∧ (∀ job ∈ stale, job.id ∈ ids) ∧ asked = updates ids
  | .selectClaimable _, candidate, asked =>
      asked = candidate.toList.map fun job => ⟨.job job.id, .update, true⟩
  | .claimJob _ jobId, row, asked => UpdatesJob jobId row.isSome asked
  | .finishJob jobId _, row, asked => UpdatesJob jobId row.isSome asked
  | .insertResult jobId _, inserted, asked =>
      asked = if inserted = 0 then [] else [request (.job jobId) .keyShare]
  | .debitQuota companyId, _, asked => asked = [request (.company companyId) .noKeyUpdate] ∨ asked = []
  | .releaseCancelled jobId _, _, asked => UpdatesJob jobId false asked
  | .insertDeadLetter _ jobId, _, asked => asked = [request (.job jobId) .keyShare] ∨ asked = []
  | .failJob _ jobId _, row, asked => UpdatesJob jobId row.isSome asked
  | .renewLease jobId _, row, asked => UpdatesJob jobId row.isSome asked
  | _, _, asked => asked = []

/-- The transactions that lock rows, with their arguments. -/
inductive Operation where
  | createJob (companyId : ℕ) (kind : String) (traceId : Option String) (idempotencyKey : String)
      (submittedBy : Option String)
  | cancelJob (companyId jobId : ℕ) (cancelledBy : String) (traceId : Option String)
  | retryJob (companyId jobId : ℕ) (requestedBy : String) (traceId : Option String)
  | claimNext (workerId : ℕ)
  | finalize (claim : Claim)
  | recordFailure (claim : Claim) (error : Exc)
  | renewLease (claim : Claim)
  | acknowledgeCancellation (claim : Claim)
  | recoverStaleJobs

/-- The operation makes these lock requests in its transaction. -/
def Operation.Asks : Operation → List (LockRequest Resource) → Prop
  | .createJob companyId kind traceId key submittedBy, asked => ∃ result,
      (JobsService.handle (.createJob companyId kind traceId key submittedBy)).Asks Sql.Requests asked result
  | .cancelJob companyId jobId cancelledBy traceId, asked => ∃ result,
      (JobsService.handle (.cancelJob companyId jobId cancelledBy traceId)).Asks Sql.Requests asked result
  | .retryJob companyId jobId requestedBy traceId, asked => ∃ result,
      (JobsService.handle (.retryJob companyId jobId requestedBy traceId)).Asks Sql.Requests asked result
  | .claimNext workerId, asked => ∃ result, (Processor.claimNext workerId).Asks Sql.Requests asked result
  | .finalize claim, asked => ∃ result, (Processor.finalize claim).Asks Sql.Requests asked result
  | .recordFailure claim error, asked => ∃ result,
      (Processor.recordFailure claim error).Asks Sql.Requests asked result
  | .renewLease claim, asked => ∃ result, (Processor.renewLease claim).Asks Sql.Requests asked result
  | .acknowledgeCancellation claim, asked => ∃ result,
      (Processor.acknowledgeCancellation claim).Asks Sql.Requests asked result
  | .recoverStaleJobs, asked => ∃ result, Processor.recoverStaleJobs.Asks Sql.Requests asked result

end JobRelay.Model
