import JobRelay.Model.Listings
import JobRelay.Model.SubmitButton

/-! # The pages that the web client reads

The client reads a page together with its total, which comes in a header. A body that one decoder refuses is
refused as a whole.
-/

namespace JobRelay.Model.Web

/-- The type `AdminJob`. -/
structure AdminJob where
  id : Int
  companyId : Int
  status : JobStatus
deriving DecidableEq

/-- The type `AdminCompany`. -/
structure AdminCompany where
  id : Int
  name : String
  maxConcurrentJobs : Int
  jobQuota : Int
  totalJobs : Int
  queued : Int
  running : Int
  done : Int
  failed : Int
  cancelled : Int
deriving DecidableEq

/-- An item of `parseAdminJobs`. -/
def parseAdminJob (item : Value) : Except String AdminJob := do
  let row ← requireRecord item "job administrativo"
  return ⟨← requirePositiveInteger (property row "id") "id",
    ← requirePositiveInteger (property row "company_id") "company_id", ← requireStatus (property row "status")⟩

def parseAdminJobs (value : Value) : Except String (List AdminJob) :=
  match value with
  | .array items => items.mapM parseAdminJob
  | _ => throw "Resposta inválida na listagem administrativa"

/-- An item of `parseAdminCompanies`. -/
def parseAdminCompany (item : Value) : Except String AdminCompany := do
  let row ← requireRecord item "empresa"
  return ⟨← requirePositiveInteger (property row "id") "id", ← requireNonEmptyString (property row "name") "name",
    ← requireNonNegativeInteger (property row "max_concurrent_jobs") "max_concurrent_jobs" none,
    ← requireInteger (property row "job_quota") "job_quota",
    ← requireNonNegativeInteger (property row "total_jobs") "total_jobs" none,
    ← requireNonNegativeInteger (property row "queued") "queued" none,
    ← requireNonNegativeInteger (property row "running") "running" none,
    ← requireNonNegativeInteger (property row "done") "done" none,
    ← requireNonNegativeInteger (property row "failed") "failed" none,
    ← requireNonNegativeInteger (property row "cancelled") "cancelled" none⟩

def parseAdminCompanies (value : Value) : Except String (List AdminCompany) :=
  match value with
  | .array items => items.mapM parseAdminCompany
  | _ => throw "Resposta inválida na listagem de empresas"

/-- The type `Page<T>`. -/
structure Page (α : Type) where
  items : List α
  total : ℕ
deriving DecidableEq

/-- The type `JobsPage`. -/
structure JobsPage where
  jobs : List Job
  total : ℕ
deriving DecidableEq

/-- `get` once the request is sent, which reads a response as `post` does. -/
def get {α : Type} (reply : Option Reply) (parse : Value → Except String α) : Except Thrown α := post reply parse

/-- `fetchPage` once the request is sent; a number above `Number.MAX_SAFE_INTEGER` stays above it when it is rounded. -/
def fetchPage {α : Type} (reply : Option PageReply) (parseItems : Value → Except String (List α)) :
    Except Thrown (Page α) := do
  let items ← get (reply.map PageReply.toReply) parseItems
  let total := (reply.bind PageReply.totalCount).getD items.length
  if (total : Int) ≤ MAX_SAFE_INTEGER then return ⟨items, total⟩
  else throw (.error "Header inválido: X-Total-Count")

def fetchJobsPage (dateParse : String → Option Int) (reply : Option PageReply) : Except Thrown JobsPage := do
  let page ← fetchPage reply (parseJobs dateParse)
  return ⟨page.items, page.total⟩

section Reading

variable {α : Type} {values : List Value} {total : ℕ} {parseItems : Value → Except String (List α)}

/-- A page that is decoded is read with its total. -/
theorem fetchPage_ok {items : List α} (decoded : parseItems (.array values) = .ok items)
    (small : total ≤ 9007199254740991) :
    fetchPage (some ⟨⟨200, some (.array values)⟩, some total⟩) parseItems = .ok ⟨items, total⟩ := by
  have read : get (some ⟨200, some (.array values)⟩) parseItems = .ok items := by
    simp [get, post, Reply.ok, decoded, Except.mapError]
  have fits : (total : Int) ≤ MAX_SAFE_INTEGER := by
    rw [MAX_SAFE_INTEGER]
    omega
  simp only [fetchPage, Option.map_some, Option.bind_some, read]
  exact if_pos fits

theorem fetchPage_error {message : String} (refused : parseItems (.array values) = .error message) :
    fetchPage (some ⟨⟨200, some (.array values)⟩, some total⟩) parseItems = .error (.error message) := by
  have read : get (some ⟨200, some (.array values)⟩) parseItems = .error (.error message) := by
    simp [get, post, Reply.ok, refused, Except.mapError]
  simp only [fetchPage, Option.map_some, read]
  rfl

theorem fetchJobsPage_ok {dateParse : String → Option Int} {reply : Option PageReply} {jobs : List Job} :
    fetchJobsPage dateParse reply = .ok ⟨jobs, total⟩ ↔ fetchPage reply (parseJobs dateParse) = .ok ⟨jobs, total⟩ := by
  rw [fetchJobsPage]
  cases fetchPage reply (parseJobs dateParse) with
  | error thrown =>
    constructor <;> intro impossible <;> cases impossible
  | ok page =>
    constructor
    · intro same
      cases same
      rfl
    · intro same
      cases same
      rfl

end Reading

end JobRelay.Model.Web
