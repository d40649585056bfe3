import JobRelay.Model.AuthContext
import JobRelay.Sessions.Queries

/-! # The listings

The queries of the listing routes, on the rows committed when they run, and what the routes answer. A query returns
its rows in the order of its plan. An integer that the client sent is a parameter of the query: PostgreSQL compares
integers of any size, but `LIMIT`, `OFFSET` and a cast to `bigint` raise outside the range of that type.
-/

namespace JobRelay.Model

open Sessions

/-- Where a query uses an integer that the client sent. -/
inductive Use where
  | comparison | cast | limit | offset
deriving DecidableEq

/-- The range of `bigint`. -/
def bigintRange (n : ℤ) : Bool := decide (-9223372036854775808 ≤ n ∧ n ≤ 9223372036854775807)

/-- What a query uses of the request, and the rows that it selects. -/
structure Query (α : Type) where
  integers : List (Use × ℤ)
  rows : α

namespace Query

def Fits (query : Query α) : Prop :=
  ∀ parameter ∈ query.integers, parameter.1 ≠ .comparison → bigintRange parameter.2 = true

instance (query : Query α) : Decidable query.Fits := inferInstanceAs (Decidable (∀ _ ∈ _, _))

def run (query : Query α) : Except Exc α :=
  if query.Fits then .ok query.rows else .error (.database "NumericValueOutOfRange" "bigint out of range")

end Query

/-- `ORDER BY id` -/
def Job.ById (left right : Job) : Prop := left.id ≤ right.id

/-- `ORDER BY id` -/
def Company.ById (left right : Company) : Prop := left.id ≤ right.id

/-- `ORDER BY failed_at DESC` -/
def DeadLetter.NotEarlier (left right : DeadLetter) : Prop := right.failedAt ≤ left.failedAt

instance (left right : Job) : Decidable (left.ById right) := inferInstanceAs (Decidable (_ ≤ _))
instance (left right : Company) : Decidable (left.ById right) := inferInstanceAs (Decidable (_ ≤ _))
instance (left right : DeadLetter) : Decidable (left.NotEarlier right) := inferInstanceAs (Decidable (_ ≤ _))

instance : Std.Total Job.ById := ⟨fun left right => Nat.le_total left.id right.id⟩
instance : IsTrans Job Job.ById := ⟨fun _ _ _ first second => Nat.le_trans first second⟩
instance : Std.Total Company.ById := ⟨fun left right => Nat.le_total left.id right.id⟩
instance : IsTrans Company Company.ById := ⟨fun _ _ _ first second => Nat.le_trans first second⟩
instance : Std.Total DeadLetter.NotEarlier := ⟨fun left right => Int.le_total right.failedAt left.failedAt⟩
instance : IsTrans DeadLetter DeadLetter.NotEarlier := ⟨fun _ _ _ first second => Int.le_trans second first⟩

instance : Std.Total Job.NotOlder where
  total left right := by
    rcases lt_trichotomy left.createdAt right.createdAt with older | same | newer
    · exact .inr (.inl older)
    · rcases Nat.le_total left.id right.id with before | after
      · exact .inr (.inr ⟨same.symm, before⟩)
      · exact .inl (.inr ⟨same, after⟩)
    · exact .inl (.inl newer)

instance : IsTrans Job Job.NotOlder where
  trans _ _ _ first second := by
    rcases first with newer | ⟨same, before⟩ <;> rcases second with newer' | ⟨same', before'⟩
    · exact .inl (newer'.trans newer)
    · exact .inl (same' ▸ newer)
    · exact .inl (same ▸ newer')
    · exact .inr ⟨same.trans same', before'.trans before⟩

structure AdminJob where
  id : ℕ
  companyId : ℕ
  status : JobStatus
deriving DecidableEq

/-- A company with the counts of its jobs. -/
structure AdminCompany where
  id : ℕ
  name : String
  maxConcurrentJobs : Int
  jobQuota : Int
  totalJobs : ℕ
  queued : ℕ
  running : ℕ
  done : ℕ
  failed : ℕ
  cancelled : ℕ
deriving DecidableEq

/-- `ORDER BY c.id` -/
def AdminCompany.ById (left right : AdminCompany) : Prop := left.id ≤ right.id

instance (left right : AdminCompany) : Decidable (left.ById right) := inferInstanceAs (Decidable (_ ≤ _))

instance : Std.Total AdminCompany.ById := ⟨fun left right => Nat.le_total left.id right.id⟩
instance : IsTrans AdminCompany AdminCompany.ById := ⟨fun _ _ _ first second => Nat.le_trans first second⟩

namespace Listings

section Queries

variable (s : Store)

/-- `JobsService.list_jobs` -/
def listJobs (plan : Plan Job.NotOlder) (companyId limit offset : ℕ) (status : Option JobStatus) :
    Query (List JobSummary) where
  integers := [(.comparison, companyId), (.limit, limit), (.offset, offset)]
  rows := (page limit offset (plan.arrange (s.jobsOf companyId status))).map fun job =>
    ⟨job.id, job.kind, job.status, job.createdAt, s.results.rows.countP fun result => decide (result.jobId = job.id)⟩

/-- `JobsService.count_jobs` -/
def countJobs (companyId : ℕ) (status : Option JobStatus) : Query ℕ where
  integers := [(.comparison, companyId)]
  rows := (s.jobsOf companyId status).length

/-- `WHERE (%(company_id)s::bigint IS NULL OR company_id = %(company_id)s)
AND (%(status)s::text IS NULL OR status = %(status)s)` -/
def selected (companyId : Option ℕ) (status : Option JobStatus) (job : Job) : Bool :=
  companyId.all (fun wanted => decide (job.companyId = wanted)) &&
    status.all fun wanted => decide (job.status = wanted)

/-- The parameter of that filter is both cast and compared. -/
def filterIntegers (companyId : Option ℕ) : List (Use × ℤ) :=
  companyId.toList.flatMap fun wanted => [(.cast, (wanted : ℤ)), (.comparison, (wanted : ℤ))]

/-- `AdminService.list_all_jobs` -/
def listAllJobs (plan : Plan Job.ById) (limit offset : ℕ) (companyId : Option ℕ) (status : Option JobStatus) :
    Query (List AdminJob) where
  integers := filterIntegers companyId ++ [(.limit, (limit : ℤ)), (.offset, (offset : ℤ))]
  rows := (page limit offset (plan.arrange (s.jobs.rows.filter (selected companyId status)))).map fun job =>
    ⟨job.id, job.companyId, job.status⟩

/-- `AdminService.count_all_jobs` -/
def countAllJobs (companyId : Option ℕ) (status : Option JobStatus) : Query ℕ where
  integers := filterIntegers companyId
  rows := s.jobs.rows.countP (selected companyId status)

/-- The select list of `list_companies` over one group. -/
def aggregate (company : Company) (jobs : List (Option Job)) : AdminCompany :=
  let count (status : JobStatus) := jobs.countP fun row => row.any fun job => decide (job.status = status)
  { id := company.id, name := company.name, maxConcurrentJobs := company.maxConcurrentJobs,
    jobQuota := company.jobQuota, totalJobs := jobs.countP Option.isSome, queued := count .queued,
    running := count .running, done := count .done, failed := count .failed, cancelled := count .cancelled }

/-- `AdminService.list_companies` -/
def listCompanies (companies : Plan Company.ById) (plan : Plan AdminCompany.ById) (limit offset : ℕ) :
    Query (List AdminCompany) where
  integers := [(.limit, limit), (.offset, offset)]
  rows :=
    let joined := leftJoin (page limit offset (companies.arrange s.companies.rows)) s.jobs.rows
      fun company job => decide (job.companyId = company.id)
    plan.arrange ((groups joined).map fun (company, jobs) => aggregate company jobs)

/-- `AdminService.count_companies` -/
def countCompanies : Query ℕ := ⟨[], s.companies.rows.length⟩

/-- `AdminService.list_dead_letters` -/
def listDeadLetters (plan : Plan DeadLetter.NotEarlier) (limit offset : ℕ) : Query (List DeadLetter) where
  integers := [(.limit, limit), (.offset, offset)]
  rows := page limit offset (plan.arrange s.deadLetters.rows)

/-- `AdminService.count_dead_letters` -/
def countDeadLetters : Query ℕ := ⟨[], s.deadLetters.rows.length⟩

end Queries

end Listings

/-- `require_admin` -/
def requireAdmin (ctx : AuthContext) : Except HTTPException AuthContext :=
  if ctx.role ≠ .admin then .error ⟨403, "requer role admin"⟩ else .ok ctx

/-- `limit: int = Query(ge=1, le=200)` and `offset: int = Query(ge=0)` -/
structure Window where
  limit : ℕ
  offset : ℕ
  limited : 1 ≤ limit ∧ limit ≤ 200
deriving DecidableEq

def Window.validate (limit offset : ℤ) : Option Window :=
  if valid : (1 ≤ limit ∧ limit ≤ 200) ∧ 0 ≤ offset then some ⟨limit.toNat, offset.toNat, by omega⟩ else none

/-- A `GET` of one of the listing routes with its query parameters. -/
inductive Listing where
  | listJobs (limit offset : ℤ) (status : Option JobStatus)
  | adminJobs (limit offset : ℤ) (companyId : Option ℤ) (status : Option JobStatus)
  | deadLetterQueue (limit offset : ℤ)
  | adminCompanies (limit offset : ℤ)

/-- The plans under which the queries of the routes run. -/
structure Plans where
  jobs : Plan Job.NotOlder
  allJobs : Plan Job.ById
  deadLetters : Plan DeadLetter.NotEarlier
  companies : Plan Company.ById
  adminCompanies : Plan AdminCompany.ById

def Plans.stable : Plans := ⟨.stable, .stable, .stable, .stable, .stable⟩

/-- A page and its `X-Total-Count`. -/
structure PageReply extends Reply where
  totalCount : Option ℕ

section Bodies

variable (isoformat : Micros → String)

def AdminJob.body (row : AdminJob) : Option Value := do
  guard (0 < row.id ∧ 0 < row.companyId)
  return .object [("id", .number (some (row.id : ℚ))), ("company_id", .number (some (row.companyId : ℚ))),
    ("status", .string row.status.text)]

def AdminCompany.body (row : AdminCompany) : Option Value := do
  guard (1 ≤ row.id ∧ 0 ≤ row.maxConcurrentJobs)
  return .object [("id", .number (some (row.id : ℚ))), ("name", .string row.name),
    ("max_concurrent_jobs", .number (some (row.maxConcurrentJobs : ℚ))),
    ("job_quota", .number (some (row.jobQuota : ℚ))), ("total_jobs", .number (some (row.totalJobs : ℚ))),
    ("queued", .number (some (row.queued : ℚ))), ("running", .number (some (row.running : ℚ))),
    ("done", .number (some (row.done : ℚ))), ("failed", .number (some (row.failed : ℚ))),
    ("cancelled", .number (some (row.cancelled : ℚ)))]

/-- The body of a `DeadLetterJob`. -/
def DeadLetter.body (row : DeadLetter) : Option Value :=
  some (.object [("id", .number (some (row.id : ℚ))),
    ("job_id", row.jobId.elim .null fun id => .number (some (id : ℚ))),
    ("company_id", .number (some (row.companyId : ℚ))), ("kind", .string row.kind),
    ("attempts", .number (some (row.attempts : ℚ))), ("last_error", optional row.lastError),
    ("trace_id", optional row.traceId), ("job_created_at", optional (row.jobCreatedAt.map isoformat)),
    ("failed_at", .string (isoformat row.failedAt))])

end Bodies

/-- What a route makes of its two queries. -/
def PageReply.model {α : Type} (rows : Except Exc (List α)) (total : Except Exc ℕ) (body : α → Option Value) :
    PageReply :=
  match rows, total with
  | .ok rows, .ok total =>
      (rows.mapM body).elim ⟨.internalServerError, none⟩ fun values => ⟨⟨200, some (.array values)⟩, some total⟩
  | _, _ => ⟨.internalServerError, none⟩

namespace Listing

open Listings

/-- What `require_admin` leaves of the context on the routes under `/admin`. -/
def authorize (ctx : AuthContext) : Listing → Except HTTPException AuthContext
  | .listJobs .. => .ok ctx
  | .adminJobs .. | .deadLetterQueue .. | .adminCompanies .. => requireAdmin ctx

def limit : Listing → ℤ
  | .listJobs limit _ _ | .adminJobs limit _ _ _ | .deadLetterQueue limit _ | .adminCompanies limit _ => limit

def offset : Listing → ℤ
  | .listJobs _ offset _ | .adminJobs _ offset _ _ | .deadLetterQueue _ offset | .adminCompanies _ offset => offset

def window (listing : Listing) : Option Window := Window.validate listing.limit listing.offset

/-- `company_id: int | None = Query(ge=1)` -/
def companyId : Listing → Option ℤ
  | .adminJobs _ _ companyId _ => companyId
  | .listJobs .. | .deadLetterQueue .. | .adminCompanies .. => none

def accepted (ctx : AuthContext) (listing : Listing) : Bool :=
  (listing.authorize ctx).isOk && listing.window.isSome && listing.companyId.all fun id => decide (1 ≤ id)

section Routes

/- The second query of a route may find rows committed after the first one ran. -/
variable (isoformat : Micros → String) (plans : Plans) (first second : Store)

/-- The integers that the two queries of a route use. -/
def integers (ctx : AuthContext) (window : Window) : Listing → List (Use × ℤ)
  | .listJobs _ _ status =>
      (Listings.listJobs first plans.jobs ctx.companyId window.limit window.offset status).integers ++
        (countJobs second ctx.companyId status).integers
  | .adminJobs _ _ companyId status =>
      (countAllJobs first (companyId.map Int.toNat) status).integers ++
        (listAllJobs second plans.allJobs window.limit window.offset (companyId.map Int.toNat) status).integers
  | .deadLetterQueue _ _ =>
      (countDeadLetters first).integers ++
        (listDeadLetters second plans.deadLetters window.limit window.offset).integers
  | .adminCompanies _ _ =>
      (countCompanies first).integers ++
        (listCompanies second plans.companies plans.adminCompanies window.limit window.offset).integers

/-- The route on valid parameters. -/
def serve (ctx : AuthContext) (window : Window) : Listing → PageReply
  | .listJobs _ _ status =>
      .model (Listings.listJobs first plans.jobs ctx.companyId window.limit window.offset status).run
        (countJobs second ctx.companyId status).run (JobSummary.body isoformat)
  | .adminJobs _ _ companyId status =>
      .model (listAllJobs second plans.allJobs window.limit window.offset (companyId.map Int.toNat) status).run
        (countAllJobs first (companyId.map Int.toNat) status).run AdminJob.body
  | .deadLetterQueue _ _ =>
      .model (listDeadLetters second plans.deadLetters window.limit window.offset).run
        (countDeadLetters first).run (DeadLetter.body isoformat)
  | .adminCompanies _ _ =>
      .model (listCompanies second plans.companies plans.adminCompanies window.limit window.offset).run
        (countCompanies first).run AdminCompany.body

/-- The dependencies are solved before the parameters of the route are validated. -/
def reply (ctx : Except HTTPException AuthContext) (listing : Listing) : PageReply :=
  match ctx.bind listing.authorize with
  | .error error => ⟨.exception error.statusCode error.detail, none⟩
  | .ok ctx =>
      match listing.window with
      | none => ⟨⟨422, none⟩, none⟩
      | some window =>
          if listing.companyId.all fun id => decide (1 ≤ id) then
            listing.serve isoformat plans first second ctx window
          else ⟨⟨422, none⟩, none⟩

end Routes

end Listing

end JobRelay.Model
