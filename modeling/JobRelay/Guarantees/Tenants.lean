import JobRelay.Guarantees.Twins

/-! # Tenants do not interfere

What a company observes of the service depends on its own requests alone. Its requests and their answers are
compared under the numbers of its jobs, counted in the order of their ids, so that a job of another company has no
number, like a job that does not exist. The one thing that companies share is the sequence of job ids: when that is
used up, nobody can create a job.
-/

namespace JobRelay.Guarantees

open Model Sessions Soundness

variable {companyId : ℕ} {f : ℕ → ℕ} {s t : Store}

/-- A request that names its job by another id. -/
def renamedRequest (f : ℕ → ℕ) : Request → Request
  | .getJob companyId jobId => .getJob companyId (f jobId)
  | .getResult companyId jobId => .getResult companyId (f jobId)
  | .cancelJob companyId jobId actor traceId => .cancelJob companyId (f jobId) actor traceId
  | .retryJob companyId jobId actor traceId => .retryJob companyId (f jobId) actor traceId
  | request => request

/-- A response that shows its jobs under other ids. -/
def renamedResponse (f : ℕ → ℕ) : Response → Response
  | .jobs rows => .jobs (rows.map fun row => { row with id := f row.id })
  | .count n => .count n
  | .page rows total => .page (rows.map fun row => { row with id := f row.id }) total
  | .job detail => .job { detail with id := f detail.id }
  | .result payload => .result payload
  | .created job created => .created { job with id := f job.id } created
  | .cancelled job => .cancelled { job with id := f job.id }
  | .retried job => .retried { job with id := f job.id }

/-- The request finds an id for the job that it might create. -/
def finds (request : Request) (s : Store) : Bool :=
  match request with
  | .createJob .. => serialRange s.jobs.next
  | _ => true

section Lockstep

variable {first : ℕ → ℕ} {pid : ℕ} {choice : Choice} {n n' id id' : ℕ}

end Lockstep

section Numbers

variable {id id' : ℕ}

/-- The number of a job among the jobs of a company, in the order of their ids; no other id has one. -/
def number (companyId : ℕ) (s : Store) (jobId : ℕ) : ℕ :=
  if owner? s jobId = some companyId then (s.jobsOf companyId none).countP fun row => decide (row.id ≤ jobId) else 0

end Numbers

end JobRelay.Guarantees
