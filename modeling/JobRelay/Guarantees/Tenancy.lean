import JobRelay.Guarantees.Chronology
import JobRelay.Model.Listings
import JobRelay.Sessions.Lockstep

/-! # What a company sees of a database

Two databases look alike to a company if it has the same row in both, its jobs correspond under a renaming of
their ids that keeps their order, and corresponding jobs have the same result and list the same events. Every
query of the service that names the company then answers alike in both.
-/

namespace JobRelay.Guarantees

open Model Sessions Soundness

/-- The company that a job belongs to. -/
def owner? (s : Store) (jobId : ℕ) : Option ℕ := (s.job? jobId).map Job.companyId

/-- What the constraints of the schema and the services keep: an event belongs to the company of its job, a result
to a job, and a company uses a key once. -/
structure WellKept (s : Store) : Prop where
  events : ∀ event ∈ s.audits.rows, owner? s event.jobId = some event.companyId
  results : ∀ result ∈ s.results.rows, (owner? s result.jobId).isSome
  keys : ∀ {row row' key}, row ∈ s.jobs.rows → row' ∈ s.jobs.rows → row.companyId = row'.companyId →
    row.idempotencyKey = some key → row'.idempotencyKey = some key → row = row'

/-- A job under the id that it has in another database. -/
def renamed (f : ℕ → ℕ) (job : Job) : Job := { job with id := f job.id }

/-- Two databases look alike to a company, if its job `id` in the first is called `f id` in the second. -/
structure Mirrors (companyId : ℕ) (f : ℕ → ℕ) (s t : Store) : Prop where
  isSpace : t.isSpace = s.isSpace
  company : t.company? companyId = s.company? companyId
  jobs : ∀ {row}, s.job? row.id = some row → row.companyId = companyId → t.job? (f row.id) = some (renamed f row)
  onto : ∀ {row}, t.job? row.id = some row → row.companyId = companyId →
    ∃ source, s.job? source.id = some source ∧ source.companyId = companyId ∧ renamed f source = row
  mono : ∀ {id id'}, owner? s id = some companyId → owner? s id' = some companyId → id < id' → f id < f id'
  result : ∀ {id}, owner? s id = some companyId →
    (t.results.find? (f id)).map JobResult.payload = (s.results.find? id).map JobResult.payload
  listed : ∀ {id}, owner? s id = some companyId → Listed t companyId (f id) = Listed s companyId id

/-- The rows of the tables that requests read. -/
structure Contents where
  companies : Table Company.id
  jobs : Table Job.id
  results : Table JobResult.jobId
  audits : Table AuditEvent.id
  isSpace : Char → Bool

/-- The rows of a store, without its sequences and its log. -/
def contents (s : Store) : Contents := ⟨s.companies, s.jobs.toTable, s.results, s.audits.toTable, s.isSpace⟩

theorem owner?_eq_some {s : Store} {jobId companyId : ℕ} :
    owner? s jobId = some companyId ↔ ∃ row, s.job? jobId = some row ∧ row.companyId = companyId :=
  Option.map_eq_some_iff

theorem owner?_of_job {s : Store} {jobId : ℕ} {row : Job} (stored : s.job? jobId = some row) :
    owner? s jobId = some row.companyId := owner?_eq_some.mpr ⟨row, stored, rfl⟩

section Contents

variable {s s' t t' : Store} {companyId : ℕ} {f : ℕ → ℕ}

theorem owner?_of_contents (same : contents s' = contents s) (jobId : ℕ) : owner? s' jobId = owner? s jobId := by
  have jobs : s'.jobs.toTable = s.jobs.toTable := congrArg Contents.jobs same
  rw [owner?, owner?, Store.job?, jobs, Store.job?]

theorem WellKept.of_contents (kept : WellKept s) (same : contents s' = contents s) : WellKept s' := by
  have jobs : s'.jobs.toTable = s.jobs.toTable := congrArg Contents.jobs same
  have results : s'.results = s.results := congrArg Contents.results same
  have audits : s'.audits.toTable = s.audits.toTable := congrArg Contents.audits same
  constructor
  · intro event member
    rw [audits] at member
    rw [owner?_of_contents same]
    exact kept.events event member
  · intro result member
    rw [results] at member
    rw [owner?_of_contents same]
    exact kept.results result member
  · intro row row' key member member'
    rw [jobs] at member member'
    exact kept.keys member member'

theorem listed_of_contents (same : contents s' = contents s) (jobId : ℕ) :
    Listed s' companyId jobId = Listed s companyId jobId := by
  have audits : s'.audits.toTable = s.audits.toTable := congrArg Contents.audits same
  rw [Listed, Listed, Store.auditEventsOf, audits, Store.auditEventsOf]

theorem Mirrors.of_contents (mirrors : Mirrors companyId f s t) (same : contents s' = contents s)
    (same' : contents t' = contents t) : Mirrors companyId f s' t' := by
  have jobs : s'.jobs.toTable = s.jobs.toTable := congrArg Contents.jobs same
  have jobs' : t'.jobs.toTable = t.jobs.toTable := congrArg Contents.jobs same'
  have companies : s'.companies = s.companies := congrArg Contents.companies same
  have companies' : t'.companies = t.companies := congrArg Contents.companies same'
  have results : s'.results = s.results := congrArg Contents.results same
  have results' : t'.results = t.results := congrArg Contents.results same'
  have isSpace : s'.isSpace = s.isSpace := congrArg Contents.isSpace same
  have isSpace' : t'.isSpace = t.isSpace := congrArg Contents.isSpace same'
  constructor
  · rw [isSpace, isSpace', mirrors.isSpace]
  · rw [Store.company?, Store.company?, companies, companies']
    exact mirrors.company
  · intro row stored owned
    rw [Store.job?, jobs] at stored
    rw [Store.job?, jobs']
    exact mirrors.jobs stored owned
  · intro row stored owned
    rw [Store.job?, jobs'] at stored
    simp only [Store.job?, jobs]
    exact mirrors.onto stored owned
  · intro id id'
    simp only [owner?_of_contents same]
    exact mirrors.mono
  · intro id
    rw [owner?_of_contents same, results, results']
    exact mirrors.result
  · intro id
    rw [owner?_of_contents same, listed_of_contents same, listed_of_contents same']
    exact mirrors.listed

/-- Writes move the rows alike, however far the sequences have moved. -/
theorem contents_foldl {locks : LockSet Resource} {writes : List Write} (entitled : Entitled locks s writes)
    (same : contents s' = contents s) (jobs : s.jobs.next ≤ s'.jobs.next) (audits : s.audits.next ≤ s'.audits.next) :
    contents (writes.foldl Write.apply s') = contents (writes.foldl Write.apply s) := by
  induction writes generalizing s s' with
  | nil => exact same
  | cons write rest ih =>
    refine ih entitled.2 ?_ (by simpa using jobs) (by simpa using audits)
    have head := entitled.1
    simp only [contents, Contents.mk.injEq] at same ⊢
    obtain ⟨companies, jobRows, results, auditRows, isSpace⟩ := same
    cases write with
    | putJob row => exact ⟨companies, by simp [Write.apply, jobRows], results, auditRows, isSpace⟩
    | insertJob row =>
      refine ⟨companies, ?_, results, auditRows, isSpace⟩
      rw [Write.apply, SerialTable.insert_toTable (lt_of_lt_of_le head.2.1 jobs), jobRows, Write.apply,
        SerialTable.insert_toTable head.2.1]
    | insertResult row => exact ⟨companies, jobRows, by simp [Write.apply, results], auditRows, isSpace⟩
    | insertAudit row =>
      refine ⟨companies, jobRows, results, ?_, isSpace⟩
      rw [Write.apply, SerialTable.insert_toTable (lt_of_lt_of_le head.2.1 audits), auditRows, Write.apply,
        SerialTable.insert_toTable head.2.1]
    | insertDeadLetter row => exact ⟨companies, jobRows, results, auditRows, isSpace⟩
    | putCompany row => exact ⟨by simp [Write.apply, companies], jobRows, results, auditRows, isSpace⟩
    | notify notification => exact ⟨companies, jobRows, results, auditRows, isSpace⟩

/-- Drawing from a sequence moves no row that a transaction sees. -/
theorem contents_view {tx : Tx} (opened : tx.Open s) (drawn : Drawn s s') :
    contents (tx.view s') = contents (tx.view s) := by
  apply contents_foldl opened
  · cases drawn <;> rfl
  · cases drawn <;> simp
  · cases drawn <;> simp

end Contents

/-- Two ids name a job of the company and the job that it corresponds to, or neither names a job of the company. -/
def Linked (companyId : ℕ) (f : ℕ → ℕ) (s t : Store) (id id' : ℕ) : Prop :=
  (owner? s id = some companyId ∧ id' = f id) ∨ (owner? s id ≠ some companyId ∧ owner? t id' ≠ some companyId)

theorem mem_jobsOf {s : Store} {companyId : ℕ} {status : Option JobStatus} {row : Job} :
    row ∈ s.jobsOf companyId status ↔ s.job? row.id = some row ∧ row.companyId = companyId ∧
      status.all (fun wanted => decide (row.status = wanted)) = true := by
  rw [Store.jobsOf, List.mem_filter, Store.mem_jobs, Bool.and_eq_true, decide_eq_true_eq]

section Reading

variable {s t : Store} {companyId : ℕ} {f : ℕ → ℕ}

theorem owner?_of_owned {row : Job} (stored : s.job? row.id = some row) (mine : row.companyId = companyId) :
    owner? s row.id = some companyId := owner?_eq_some.mpr ⟨row, stored, mine⟩

/-- A job of a company, stored under its own id. -/
theorem owned_row {id : ℕ} (owned : owner? s id = some companyId) :
    ∃ row, row.id = id ∧ s.job? row.id = some row ∧ row.companyId = companyId := by
  obtain ⟨row, stored, mine⟩ := owner?_eq_some.mp owned
  have same := Store.job?_id stored
  exact ⟨row, same, same ▸ stored, mine⟩

theorem Mirrors.owner? (mirrors : Mirrors companyId f s t) {id : ℕ} (owned : owner? s id = some companyId) :
    Guarantees.owner? t (f id) = some companyId := by
  obtain ⟨row, rfl, stored, mine⟩ := owned_row owned
  exact owner?_eq_some.mpr ⟨_, mirrors.jobs stored mine, mine⟩

theorem Mirrors.inj (mirrors : Mirrors companyId f s t) {id id' : ℕ} (owned : Guarantees.owner? s id = some companyId)
    (owned' : Guarantees.owner? s id' = some companyId) (same : f id = f id') : id = id' := by
  rcases lt_trichotomy id id' with before | equal | after
  · exact absurd same (mirrors.mono owned owned' before).ne
  · exact equal
  · exact absurd same (mirrors.mono owned' owned after).ne'

/-- The jobs of the company are the same jobs, renamed. -/
theorem Mirrors.perm_jobsOf (mirrors : Mirrors companyId f s t) (status : Option JobStatus) :
    ((s.jobsOf companyId status).map (renamed f)).Perm (t.jobsOf companyId status) := by
  have distinct (u : Store) : (u.jobsOf companyId status).Nodup :=
    (List.Nodup.of_map Job.id u.jobs.unique).filter _
  refine (List.perm_ext_iff_of_nodup (List.Nodup.map_on ?_ (distinct s)) (distinct t)).mpr fun row => ?_
  · intro left member right member' same
    obtain ⟨stored, mine, _⟩ := mem_jobsOf.mp member
    obtain ⟨stored', mine', _⟩ := mem_jobsOf.mp member'
    have ids : left.id = right.id :=
      mirrors.inj (owner?_of_owned stored mine) (owner?_of_owned stored' mine') (congrArg Job.id same)
    rw [ids, stored'] at stored
    exact (Option.some.inj stored).symm
  · rw [List.mem_map]
    constructor
    · rintro ⟨source, member, rfl⟩
      obtain ⟨stored, mine, wanted⟩ := mem_jobsOf.mp member
      exact mem_jobsOf.mpr ⟨mirrors.jobs stored mine, mine, wanted⟩
    · intro member
      obtain ⟨stored, mine, wanted⟩ := mem_jobsOf.mp member
      obtain ⟨source, stored', mine', rfl⟩ := mirrors.onto stored mine
      exact ⟨source, mem_jobsOf.mpr ⟨stored', mine', wanted⟩, rfl⟩

theorem Mirrors.jobByKey? (mirrors : Mirrors companyId f s t) (kept : WellKept t) (key : String) :
    t.jobByKey? companyId key = (s.jobByKey? companyId key).map (renamed f) := by
  cases found : s.jobByKey? companyId key with
  | none =>
    rw [Option.map_none, jobByKey?_none]
    intro row inside mine used
    obtain ⟨source, stored, mine', rfl⟩ := mirrors.onto (Store.mem_jobs.mp inside) mine
    exact jobByKey?_none.mp found source (Store.mem_jobs.mpr stored) mine' used
  | some row =>
    obtain ⟨stored, mine, used⟩ := jobByKey?_some found
    have image : renamed f row ∈ t.jobs.rows := Store.mem_jobs.mpr (mirrors.jobs stored mine)
    cases found' : t.jobByKey? companyId key with
    | none => exact absurd used (jobByKey?_none.mp found' (renamed f row) image mine)
    | some row' =>
      obtain ⟨stored', mine', used'⟩ := jobByKey?_some found'
      rw [kept.keys (Store.mem_jobs.mpr stored') image (mine'.trans mine.symm) used' used]
      rfl

theorem Mirrors.activeCount (mirrors : Mirrors companyId f s t) : t.activeCount companyId = s.activeCount companyId := by
  have counts (u : Store) : u.activeCount companyId = (u.jobsOf companyId none).countP fun job => job.status.active := by
    rw [Store.activeCount, Store.jobsOf, List.countP_filter]
    refine List.countP_congr fun row _ => ?_
    simp [and_comm]
  rw [counts, counts, ← (mirrors.perm_jobsOf none).countP_eq, List.countP_map]
  rfl

/-- The result of a job that belongs to the company. -/
theorem resultOf?_eq (s : Store) (companyId jobId : ℕ) : s.resultOf? companyId jobId =
    if Guarantees.owner? s jobId = some companyId then (s.results.find? jobId).map JobResult.payload else none := by
  rw [Store.resultOf?]
  cases found : s.results.find? jobId with
  | none => simp
  | some result =>
    have same : result.jobId = jobId := Table.find?_key found
    rw [Option.bind_some, same, Guarantees.owner?]
    cases s.job? jobId with
    | none => simp
    | some job => simp

theorem Mirrors.resultOf? (mirrors : Mirrors companyId f s t) {id id' : ℕ} (linked : Linked companyId f s t id id') :
    t.resultOf? companyId id' = s.resultOf? companyId id := by
  rw [resultOf?_eq, resultOf?_eq]
  rcases linked with ⟨owned, rfl⟩ | ⟨foreign, foreign'⟩
  · rw [if_pos owned, if_pos (mirrors.owner? owned), mirrors.result owned]
  · rw [if_neg foreign, if_neg foreign']

private theorem same_of_notOlder {left right : Job} (first : left.NotOlder right) (second : right.NotOlder left) :
    left.id = right.id := by
  rcases first with newer | ⟨same, before⟩ <;> rcases second with newer' | ⟨same', after⟩
  · exact absurd (newer.trans newer') (lt_irrefl _)
  · exact absurd (same' ▸ newer) (lt_irrefl _)
  · exact absurd (same ▸ newer') (lt_irrefl _)
  · exact le_antisymm after before

/-- A page of the company's jobs shows the same jobs, renamed. -/
theorem Mirrors.sorted_jobsOf (mirrors : Mirrors companyId f s t) (status : Option JobStatus) :
    (t.jobsOf companyId status).insertionSort Job.NotOlder =
      ((s.jobsOf companyId status).insertionSort Job.NotOlder).map (renamed f) := by
  have perm : ((t.jobsOf companyId status).insertionSort Job.NotOlder).Perm
      (((s.jobsOf companyId status).insertionSort Job.NotOlder).map (renamed f)) :=
    (List.perm_insertionSort _ _).trans ((mirrors.perm_jobsOf status).symm.trans
      ((List.perm_insertionSort _ _).symm.map _))
  refine perm.eq_of_pairwise ?_ (List.pairwise_insertionSort _ _) ?_
  · intro left right member member' first second
    obtain ⟨stored, _⟩ := mem_jobsOf.mp ((List.mem_insertionSort _).mp member)
    obtain ⟨stored', _⟩ := mem_jobsOf.mp ((List.mem_insertionSort _).mp (perm.mem_iff.mpr member'))
    rw [same_of_notOlder first second, stored'] at stored
    exact (Option.some.inj stored).symm
  · rw [List.pairwise_map]
    refine (List.pairwise_insertionSort Job.NotOlder _).imp_of_mem fun {left right} member member' ordered => ?_
    obtain ⟨stored, mine, _⟩ := mem_jobsOf.mp ((List.mem_insertionSort _).mp member)
    obtain ⟨stored', mine', _⟩ := mem_jobsOf.mp ((List.mem_insertionSort _).mp member')
    rcases ordered with newer | ⟨same, before⟩
    · exact .inl newer
    · refine .inr ⟨same, ?_⟩
      rcases before.lt_or_eq with earlier | equal
      · exact (mirrors.mono (owner?_of_owned stored' mine') (owner?_of_owned stored mine) earlier).le
      · exact (congrArg f equal).le

theorem Mirrors.pageOf (mirrors : Mirrors companyId f s t) (limit offset : ℕ) (status : Option JobStatus) :
    pageOf t companyId limit offset status =
      (Soundness.pageOf s companyId limit offset status).map fun summary => { summary with id := f summary.id } := by
  rw [Soundness.pageOf, mirrors.sorted_jobsOf, ← List.map_drop, ← List.map_take, List.map_map, Soundness.pageOf,
    List.map_map]
  apply List.map_congr_left
  intro row member
  obtain ⟨stored, mine, _⟩ := mem_jobsOf.mp ((List.mem_insertionSort _).mp (List.mem_of_mem_drop (List.mem_of_mem_take member)))
  have results : t.results.rows.countP (fun result => decide (result.jobId = f row.id)) =
      s.results.rows.countP fun result => decide (result.jobId = row.id) := by
    have same := congrArg Option.isSome (mirrors.result (owner?_of_owned stored mine))
    rw [Option.isSome_map, Option.isSome_map] at same
    rw [Table.countP_key, Table.countP_key, same]
  exact congrArg (JobSummary.mk (f row.id) row.kind row.status row.createdAt) results

end Reading

end JobRelay.Guarantees
