import JobRelay.Model.Text
import JobRelay.Sessions.Constraints

/-! # The migration `0007_validation_constraints`

The database before the migration, with the columns that it reads or that a constraint of the migrations before it
is about, and its statements in their order: the updates and deletions that repair old rows, each under the
constraints in force, and then the constraints that it adds. A statement that violates a constraint aborts it.
-/

namespace JobRelay.Model.ValidationMigration

open Sessions

structure Company where
  id : ℤ
  name : String
  maxConcurrentJobs : ℤ
deriving DecidableEq

structure User where
  id : ℤ
  companyId : ℤ
  email : String
  role : String
deriving DecidableEq

structure Job where
  id : ℤ
  companyId : ℤ
  createdBy : Option ℤ
  kind : String
  attempts : ℤ
  idempotencyKey : Option String
deriving DecidableEq

structure JobResult where
  id : ℤ
  jobId : ℤ
  payload : String
deriving DecidableEq

structure DeadLetter where
  id : ℤ
  jobId : Option ℤ
  kind : String
  attempts : ℤ
  failedAt : Micros
deriving DecidableEq

structure Database where
  companies : List Company
  users : List User
  jobs : List Job
  results : List JobResult
  deadLetters : List DeadLetter
deriving DecidableEq

section Tables

def companies : Part Database Company where
  get := Database.companies
  put db companies := { db with companies }
  get_put _ _ := rfl
  put_put _ _ _ := rfl
  put_get _ := rfl

def users : Part Database User where
  get := Database.users
  put db users := { db with users }
  get_put _ _ := rfl
  put_put _ _ _ := rfl
  put_get _ := rfl

def jobs : Part Database Job where
  get := Database.jobs
  put db jobs := { db with jobs }
  get_put _ _ := rfl
  put_put _ _ _ := rfl
  put_get _ := rfl

def results : Part Database JobResult where
  get := Database.results
  put db results := { db with results }
  get_put _ _ := rfl
  put_put _ _ _ := rfl
  put_get _ := rfl

def deadLetters : Part Database DeadLetter where
  get := Database.deadLetters
  put db deadLetters := { db with deadLetters }
  get_put _ _ := rfl
  put_put _ _ _ := rfl
  put_get _ := rfl

end Tables

section InForce

/-- The entries of `uq_jobs_company_idempotency_key` -/
def Job.key? (job : Job) : Option (ℤ × String) := job.idempotencyKey.map fun key => (job.companyId, key)

/-- The constraints of the migrations 0001 to 0006 on the columns that 0007 writes or refers to. -/
structure InForce (db : Database) : Prop where
  companies_pkey : (db.companies.map Company.id).Nodup
  users_pkey : (db.users.map User.id).Nodup
  users_company_id_fkey : db.users.map User.companyId ⊆ db.companies.map Company.id
  uq_users_email : (db.users.map User.email).Nodup
  jobs_pkey : (db.jobs.map Job.id).Nodup
  jobs_company_id_fkey : db.jobs.map Job.companyId ⊆ db.companies.map Company.id
  jobs_created_by_fkey : db.jobs.filterMap Job.createdBy ⊆ db.users.map User.id
  uq_jobs_company_idempotency_key : (db.jobs.filterMap Job.key?).Nodup
  job_results_pkey : (db.results.map JobResult.id).Nodup
  uq_job_results_job_id : (db.results.map JobResult.jobId).Nodup
  job_results_job_id_fkey : db.results.map JobResult.jobId ⊆ db.jobs.map Job.id
  dead_letter_jobs_pkey : (db.deadLetters.map DeadLetter.id).Nodup
  dead_letter_jobs_job_id_fkey : db.deadLetters.filterMap DeadLetter.jobId ⊆ db.jobs.map Job.id

instance : DecidablePred InForce := fun db =>
  decidable_of_iff
    ((db.companies.map Company.id).Nodup ∧ (db.users.map User.id).Nodup ∧
      db.users.map User.companyId ⊆ db.companies.map Company.id ∧ (db.users.map User.email).Nodup ∧
      (db.jobs.map Job.id).Nodup ∧ db.jobs.map Job.companyId ⊆ db.companies.map Company.id ∧
      db.jobs.filterMap Job.createdBy ⊆ db.users.map User.id ∧ (db.jobs.filterMap Job.key?).Nodup ∧
      (db.results.map JobResult.id).Nodup ∧ (db.results.map JobResult.jobId).Nodup ∧
      db.results.map JobResult.jobId ⊆ db.jobs.map Job.id ∧ (db.deadLetters.map DeadLetter.id).Nodup ∧
      db.deadLetters.filterMap DeadLetter.jobId ⊆ db.jobs.map Job.id)
    ⟨fun ⟨a, b, c, d, e, f, g, h, i, j, k, l, m⟩ => ⟨a, b, c, d, e, f, g, h, i, j, k, l, m⟩,
      fun ⟨a, b, c, d, e, f, g, h, i, j, k, l, m⟩ => ⟨a, b, c, d, e, f, g, h, i, j, k, l, m⟩⟩

end InForce

section Texts

/-- `regexp_replace(text, '[[:cntrl:]]', '', 'g')` -/
def withoutControl (text : String) : String := String.ofList (text.toList.filter fun c => !isControl c)

/-- `btrim(text)`, which trims only the character space -/
def btrim (text : String) : String := stripped (fun c => decide (c = ' ')) text

def left (text : String) (n : ℕ) : String := String.ofList (text.toList.take n)

def sanitized (text : String) : String := btrim (withoutControl text)

variable (isSpace : Char → Bool)

/-- `text !~ '[^[:space:]]'` -/
def isBlank (text : String) : Bool := text.toList.all isSpace

end Texts

/-- The orders in which the statements read each table, by the number of the statement. -/
structure Scans where
  companies : ℕ → Scan Company
  users : ℕ → Scan User
  jobs : ℕ → Scan Job
  results : ℕ → Scan JobResult
  deadLetters : ℕ → Scan DeadLetter

section Backfill

variable (isSpace : Char → Bool) (scans : Scans) (db : Constrained InForce)

def backfillCompanies : Option (Constrained InForce) := do
  let db ← db.update companies Company.id (scans.companies 0) (fun _ => true)
    fun row => { row with name := sanitized row.name }
  let db ← db.update companies Company.id (scans.companies 1) (fun row => isBlank isSpace row.name)
    fun row => { row with name := "empresa " ++ toString row.id }
  db.update companies Company.id (scans.companies 2) (fun row => decide (row.maxConcurrentJobs < 1))
    fun row => { row with maxConcurrentJobs := 1 }

def User.sanitizeEmail (row : User) : User := { row with email := sanitized row.email }

def User.replaceEmail (row : User) : User := { row with email := "user" ++ toString row.id ++ "@invalido.local" }

@[simp] theorem User.sanitizeEmail_id (row : User) : row.sanitizeEmail.id = row.id := by rw [sanitizeEmail]
@[simp] theorem User.sanitizeEmail_companyId (row : User) : row.sanitizeEmail.companyId = row.companyId := by
  rw [sanitizeEmail]
@[simp] theorem User.sanitizeEmail_email (row : User) : row.sanitizeEmail.email = sanitized row.email := by
  rw [sanitizeEmail]
@[simp] theorem User.replaceEmail_id (row : User) : row.replaceEmail.id = row.id := by rw [replaceEmail]
@[simp] theorem User.replaceEmail_companyId (row : User) : row.replaceEmail.companyId = row.companyId := by
  rw [replaceEmail]

def backfillUsers : Option (Constrained InForce) := do
  let db ← db.update users User.id (scans.users 0) (fun _ => true) User.sanitizeEmail
  let db ← db.update users User.id (scans.users 1) (fun row => isBlank isSpace row.email) User.replaceEmail
  db.update users User.id (scans.users 2) (fun row => decide (row.role ∉ ["user", "admin"]))
    fun row => { row with role := "user" }

/-- The `WHERE` of the update of `idempotency_key` -/
def Job.keyRejected (job : Job) : Bool :=
  job.idempotencyKey.any fun key => isBlank isSpace key || key.toList.any isControl || decide (200 < key.length)

def backfillJobs : Option (Constrained InForce) := do
  let db ← db.update jobs Job.id (scans.jobs 0) (fun _ => true)
    fun row => { row with kind := left (sanitized row.kind) 100 }
  let db ← db.update jobs Job.id (scans.jobs 1) (fun row => isBlank isSpace row.kind)
    fun row => { row with kind := "desconhecido" }
  let db ← db.update jobs Job.id (scans.jobs 2) (fun row => !decide (0 ≤ row.attempts ∧ row.attempts ≤ 3))
    fun row => { row with attempts := min (max row.attempts 0) 3 }
  db.update jobs Job.id (scans.jobs 3) (Job.keyRejected isSpace) fun row => { row with idempotencyKey := none }

def backfillResults : Option (Constrained InForce) := do
  let db ← db.update results JobResult.id (scans.results 0) (fun _ => true)
    fun row => { row with payload := withoutControl row.payload }
  check InForce (results.put db.contents (db.contents.results.filter fun row => !isBlank isSpace row.payload))

def backfillDeadLetters : Option (Constrained InForce) := do
  let db ← db.update deadLetters DeadLetter.id (scans.deadLetters 0) (fun _ => true)
    fun row => { row with kind := left (sanitized row.kind) 100 }
  let db ← db.update deadLetters DeadLetter.id (scans.deadLetters 1) (fun row => isBlank isSpace row.kind)
    fun row => { row with kind := "desconhecido" }
  db.update deadLetters DeadLetter.id (scans.deadLetters 2) (fun row => !decide (1 ≤ row.attempts ∧ row.attempts ≤ 3))
    fun row => { row with attempts := min (max row.attempts 1) 3 }

/-- `created_by IS NOT NULL AND NOT EXISTS (SELECT 1 FROM users u WHERE u.id = j.created_by AND
u.company_id = j.company_id)` -/
def Job.orphan (users : List User) (job : Job) : Bool :=
  job.createdBy.any fun id => !users.any fun user => decide (user.id = id ∧ user.companyId = job.companyId)

def backfillCreators : Option (Constrained InForce) :=
  db.update jobs Job.id (scans.jobs 4) (Job.orphan db.contents.users) fun row => { row with createdBy := none }

/-- `(o.failed_at, o.id) > (d.failed_at, d.id)` -/
def DeadLetter.newer (other entry : DeadLetter) : Bool :=
  decide (entry.failedAt < other.failedAt ∨ (other.failedAt = entry.failedAt ∧ entry.id < other.id))

/-- `job_id IS NOT NULL AND EXISTS (SELECT 1 FROM dead_letter_jobs o WHERE o.job_id = d.job_id AND ...)` -/
def DeadLetter.superseded (entries : List DeadLetter) (entry : DeadLetter) : Bool :=
  entry.jobId.isSome && entries.any fun other => decide (other.jobId = entry.jobId) && other.newer entry

def deleteDuplicates : Option (Constrained InForce) :=
  check InForce (deadLetters.put db.contents
    (db.contents.deadLetters.filter fun entry => !entry.superseded db.contents.deadLetters))

def backfill : Option (Constrained InForce) := do
  let db ← backfillCompanies isSpace scans db
  let db ← backfillUsers isSpace scans db
  let db ← backfillJobs isSpace scans db
  let db ← backfillResults isSpace scans db
  let db ← backfillDeadLetters isSpace scans db
  let db ← backfillCreators scans db
  deleteDuplicates db

end Backfill

section Added

variable (isSpace : Char → Bool)

/-- The constraints and the unique index that the migration adds. -/
structure Added (db : Database) : Prop where
  ck_companies_name_content : ∀ company ∈ db.companies, hasContent isSpace company.name = true
  ck_companies_max_concurrent_jobs : ∀ company ∈ db.companies, 0 < company.maxConcurrentJobs
  ck_users_email_content : ∀ user ∈ db.users, hasContent isSpace user.email = true
  ck_users_role : ∀ user ∈ db.users, user.role ∈ ["user", "admin"]
  uq_users_id_company : (db.users.map fun user => (user.id, user.companyId)).Nodup
  ck_jobs_kind_content : ∀ job ∈ db.jobs, kindAccepted isSpace job.kind = true
  ck_jobs_attempts : ∀ job ∈ db.jobs, 0 ≤ job.attempts ∧ job.attempts ≤ 3
  ck_jobs_idempotency_key : ∀ job ∈ db.jobs, keyAccepted isSpace job.idempotencyKey = true
  fk_jobs_creator_company : ∀ job ∈ db.jobs, ∀ id ∈ job.createdBy,
    (id, job.companyId) ∈ db.users.map fun user => (user.id, user.companyId)
  ck_job_results_payload_content : ∀ result ∈ db.results, hasContent isSpace result.payload = true
  ck_dead_letter_jobs_kind_content : ∀ entry ∈ db.deadLetters, kindAccepted isSpace entry.kind = true
  ck_dead_letter_jobs_attempts : ∀ entry ∈ db.deadLetters, 1 ≤ entry.attempts ∧ entry.attempts ≤ 3
  uq_dead_letter_jobs_job_id : (db.deadLetters.filterMap DeadLetter.jobId).Nodup

instance : DecidablePred (Added isSpace) := fun db =>
  decidable_of_iff
    ((∀ company ∈ db.companies, hasContent isSpace company.name = true) ∧
      (∀ company ∈ db.companies, 0 < company.maxConcurrentJobs) ∧
      (∀ user ∈ db.users, hasContent isSpace user.email = true) ∧
      (∀ user ∈ db.users, user.role ∈ ["user", "admin"]) ∧
      (db.users.map fun user => (user.id, user.companyId)).Nodup ∧
      (∀ job ∈ db.jobs, kindAccepted isSpace job.kind = true) ∧
      (∀ job ∈ db.jobs, 0 ≤ job.attempts ∧ job.attempts ≤ 3) ∧
      (∀ job ∈ db.jobs, keyAccepted isSpace job.idempotencyKey = true) ∧
      (∀ job ∈ db.jobs, ∀ id ∈ job.createdBy,
        (id, job.companyId) ∈ db.users.map fun user => (user.id, user.companyId)) ∧
      (∀ result ∈ db.results, hasContent isSpace result.payload = true) ∧
      (∀ entry ∈ db.deadLetters, kindAccepted isSpace entry.kind = true) ∧
      (∀ entry ∈ db.deadLetters, 1 ≤ entry.attempts ∧ entry.attempts ≤ 3) ∧
      (db.deadLetters.filterMap DeadLetter.jobId).Nodup)
    ⟨fun ⟨a, b, c, d, e, f, g, h, i, j, k, l, m⟩ => ⟨a, b, c, d, e, f, g, h, i, j, k, l, m⟩,
      fun ⟨a, b, c, d, e, f, g, h, i, j, k, l, m⟩ => ⟨a, b, c, d, e, f, g, h, i, j, k, l, m⟩⟩

/-- `0007_validation_constraints.sql`: the updates and deletions, and then the constraints, each of which raises where
a row violates it. -/
def migrate (scans : Scans) (db : Constrained InForce) : Option (Constrained fun db => InForce db ∧ Added isSpace db) := do
  let db ← backfill isSpace scans db
  check (fun db => InForce db ∧ Added isSpace db) db.contents

end Added

end JobRelay.Model.ValidationMigration
