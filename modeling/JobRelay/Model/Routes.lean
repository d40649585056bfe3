import JobRelay.Model.Processes
import JobRelay.Model.WebTypes

/-! # The routes of the API

A route validates what it is sent, calls an operation of the service for the authenticated company, and
validates what it answers: the response models check every value again before it is written as JSON.
-/

namespace JobRelay.Model

/-- The roles of an `AuthContext`. -/
inductive Role where
  | user | admin
deriving DecidableEq

def Role.text : Role → String
  | .user => "user"
  | .admin => "admin"

/-- `f"{ctx.company_id}:{ctx.role}"` -/
def principal (companyId : ℕ) (role : Role) : String := toString companyId ++ ":" ++ role.text

/-- The type `IdempotencyKey`. -/
def idempotencyKey (value : String) : Option String := strippedText 200 value

namespace Request

/-- The principal that the audit event of a request names. -/
def signedBy (companyId : ℕ) (actor : String) : Bool :=
  decide (actor = principal companyId .user) || decide (actor = principal companyId .admin)

/-- What the routes ask of the service: the parameters are validated, and the principal is the one
authenticated. -/
def served : Request → Bool
  | .listPage companyId limit _ _ => decide (0 < companyId) && decide (1 ≤ limit ∧ limit ≤ 200)
  | .getJob companyId jobId | .getResult companyId jobId => decide (0 < companyId) && decide (1 ≤ jobId)
  | .createJob companyId kind _ key submittedBy =>
      decide (0 < companyId) && decide (jobKind kind = some kind) && decide (idempotencyKey key = some key) &&
        submittedBy.any (signedBy companyId)
  | .cancelJob companyId jobId actor _ | .retryJob companyId jobId actor _ =>
      decide (0 < companyId) && decide (1 ≤ jobId) && signedBy companyId actor
  | .listJobs .. | .countJobs .. => false

end Request

/-- An HTTP response: its status, and its body if that is JSON. -/
structure Reply where
  status : ℕ
  body : Option Value

namespace Reply

def ok (reply : Reply) : Bool := decide (200 ≤ reply.status ∧ reply.status ≤ 299)

/-- `HTTPException(status, detail)` -/
def exception (status : ℕ) (detail : String) : Reply := ⟨status, some (.object [("detail", .string detail)])⟩

/-- An exception that no route handles. -/
def internalServerError : Reply := ⟨500, none⟩

end Reply

/-- The body of a `JobCreated`. -/
def JobState.body (job : JobState) : Value :=
  .object [("id", .number (some (job.id : ℚ))), ("status", .string job.status.text)]

/-- What the `POST /jobs` route makes of `create_job`. -/
def createJobReply : Except Exc Response → Reply
  | .ok (.created job _) => if 0 < job.id then ⟨201, some job.body⟩ else .internalServerError
  | .error (.companyUnknown _) => .exception 401 "empresa desconhecida"
  | .error (.idempotencyKeyConflict _) => .exception 409 "Idempotency-Key já utilizada com payload diferente"
  | .error (.concurrencyLimit _ _) => .exception 429 "limite de jobs concorrentes atingido"
  | _ => .internalServerError

section Jobs

/- How pydantic writes a `datetime` into JSON. -/
variable (isoformat : Micros → String)

def optional (text : Option String) : Value := text.elim .null .string

/-- The body of a `JobSummary`. -/
def JobSummary.body (row : JobSummary) : Option Value := do
  let kind ← jobKind row.kind
  guard (0 < row.id ∧ row.resultCount ≤ 1)
  return .object [("id", .number (some (row.id : ℚ))), ("kind", .string kind),
    ("status", .string row.status.text), ("created_at", .string (isoformat row.createdAt)),
    ("result_count", .number (some (row.resultCount : ℚ)))]

/-- The body of an `AuditEvent`. -/
def AuditEntry.body (event : AuditEntry) : Value :=
  .object [("event_type", .string event.eventType.text), ("actor", .string event.actor),
    ("occurred_at", .string (isoformat event.occurredAt)), ("trace_id", optional event.traceId)]

/-- The body of a `CancellationAudit`. -/
def Cancellation.body (cancellation : Cancellation) : Value :=
  .object [("cancelled_by", .string cancellation.cancelledBy),
    ("cancelled_at", .string (isoformat cancellation.cancelledAt))]

/-- The body of a `JobDetail`. -/
def JobDetail.body (detail : JobDetail) : Option Value := do
  let kind ← jobKind detail.kind
  guard (0 < detail.id ∧ 0 < detail.companyId ∧ detail.attempts ≤ 3)
  return .object [("id", .number (some (detail.id : ℚ))), ("company_id", .number (some (detail.companyId : ℚ))),
    ("kind", .string kind), ("status", .string detail.status.text),
    ("attempts", .number (some (detail.attempts : ℚ))), ("last_error", optional detail.lastError),
    ("cancellation", detail.cancellation.elim .null (Cancellation.body isoformat)),
    ("audit_events", .array (detail.auditEvents.map (AuditEntry.body isoformat)))]

/-- The body of a `JobResultOut`. -/
def resultBody (payload : String) : Option Value := do
  return .object [("payload", .string (← jobPayload payload))]

/-- A value that the response model refuses is an exception that no route handles. -/
def Reply.model (body : Option Value) : Reply := body.elim .internalServerError fun body => ⟨200, some body⟩

/-- What the `GET /jobs` route makes of `list_jobs` and `count_jobs`. -/
def listJobsReply : Except Exc Response → Reply
  | .ok (.page rows _) => .model ((rows.mapM (JobSummary.body isoformat)).map .array)
  | _ => .internalServerError

/-- What the `GET /jobs/{job_id}` route makes of `get_job`. -/
def getJobReply : Except Exc Response → Reply
  | .ok (.job detail) => .model (detail.body isoformat)
  | .error (.jobNotFound _) => .exception 404 "not found"
  | _ => .internalServerError

/-- What the `GET /jobs/{job_id}/result` route makes of `get_result`. -/
def getResultReply : Except Exc Response → Reply
  | .ok (.result payload) => .model (resultBody payload)
  | .error (.resultNotFound _) => .exception 404 "no result"
  | _ => .internalServerError

end Jobs

/-- The body of a `JobCancelled`. -/
def cancelledBody (job : JobState) : Option Value := do
  guard (0 < job.id ∧ job.status = .cancelled)
  return job.body

/-- The body of a `JobRetried`. -/
def JobRetried.body (job : JobRetried) : Option Value := do
  guard (0 < job.id ∧ job.status = .queued ∧ job.attempts ≤ 3)
  return .object [("id", .number (some (job.id : ℚ))), ("status", .string job.status.text),
    ("attempts", .number (some (job.attempts : ℚ)))]

/-- What the `POST /jobs/{job_id}/cancel` route makes of `cancel_job`. -/
def cancelJobReply : Except Exc Response → Reply
  | .ok (.cancelled job) => .model (cancelledBody job)
  | .error (.jobNotFound _) => .exception 404 "not found"
  | .error (.invalidJobState status) =>
      .exception 409 ("job em estado '" ++ status.text ++ "' não pode ser cancelado")
  | _ => .internalServerError

/-- What the `POST /jobs/{job_id}/retry` route makes of `retry_job`. -/
def retryJobReply : Except Exc Response → Reply
  | .ok (.retried job) => .model job.body
  | .error (.jobNotFound _) => .exception 404 "not found"
  | .error (.retryLimit attempts limit) =>
      .exception 409 ("máximo de tentativas atingido (" ++ toString attempts ++ "/" ++ toString limit ++ ")")
  | .error (.invalidJobState status) =>
      .exception 409 ("job em estado '" ++ status.text ++ "' não pode ser reprocessado")
  | _ => .internalServerError

namespace Request

/-- What the route of a request makes of the operation. The two listing operations share the route that a
`listPage` stands for. -/
def reply (isoformat : Micros → String) : Request → Except Exc Response → Reply
  | .listPage .. => listJobsReply isoformat
  | .getJob .. => getJobReply isoformat
  | .getResult .. => getResultReply
  | .createJob .. => createJobReply
  | .cancelJob .. => cancelJobReply
  | .retryJob .. => retryJobReply
  | .listJobs .. | .countJobs .. => fun _ => .internalServerError

/-- The status codes with which a route is declared: the one of success, and those of its `responses`. -/
def responses : Request → List ℕ
  | .getJob .. | .getResult .. => [200, 404]
  | .createJob .. => [201, 401, 409, 429]
  | .cancelJob .. | .retryJob .. => [200, 404, 409]
  | .listPage .. | .listJobs .. | .countJobs .. => [200]

end Request

end JobRelay.Model
