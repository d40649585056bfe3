import JobRelay.Soundness.Commits

/-! # The invariant of the database

Every stored job has a well-formed dossier and nothing is stored about jobs that do not exist; the
quota of a company is what it was at the origin less its finished jobs; a company uses a key once.
Every commit keeps this.
-/

namespace JobRelay.Model

/-- The finished jobs of a company. -/
def Store.doneCount (s : Store) (companyId : ℕ) : ℕ :=
  s.jobs.rows.countP fun job => decide (job.companyId = companyId) && decide (job.status = .done)

/-- The company to which a transaction of this label added an active job. -/
def Label.adds? : Label → Option ℕ
  | .request (.createJob companyId _ _ _ _) (.ok (.created _ true)) => some companyId
  | .request (.retryJob companyId _ _ _) (.ok _) => some companyId
  | _ => none

theorem Store.mem_jobs {s : Store} {row : Job} : row ∈ s.jobs.rows ↔ s.job? row.id = some row :=
  Sessions.Table.mem_rows_iff

theorem Store.job?_id {s : Store} {jobId : ℕ} {row : Job} (stored : s.job? jobId = some row) :
    row.id = jobId := Sessions.Table.find?_key stored

end JobRelay.Model

namespace JobRelay.Soundness

open Model Sessions

/-- The committed state of a deployment that began at `origin`. -/
structure Valid (admits : Request → Bool) (origin s : Store) : Prop where
  orphans : NoOrphans s
  dossiers : ∀ {jobId d}, s.dossier? jobId = some d → d.WellFormed (Opening admits)
  owners : ∀ {jobId row}, s.job? jobId = some row → (origin.company? row.companyId).isSome
  companies : ∀ companyId, s.company? companyId = (origin.company? companyId).map fun company =>
    { company with jobQuota := company.jobQuota - s.doneCount companyId }
  keys : ∀ {jobId row jobId' row' key}, s.job? jobId = some row → s.job? jobId' = some row' →
    row.companyId = row'.companyId → row.idempotencyKey = some key → row'.idempotencyKey = some key →
    jobId = jobId'

section Steps

variable {admits : Request → Bool} {origin : Store} {pid : ℕ} {tx : Tx} {s : Store} {label : Label}

theorem Valid.wellFormed (valid : Valid admits origin s) {jobId : ℕ} {row : Job}
    (stored : s.job? jobId = some row) :
    Dossier.WellFormed (Opening admits)
      ⟨row, s.results.find? jobId, s.eventsOf jobId, s.entriesOf jobId⟩ :=
  valid.dossiers (Store.dossier?_of_job stored)

theorem Valid.consistent (valid : Valid admits origin s) {jobId : ℕ} {row : Job}
    (stored : s.job? jobId = some row) : row.Consistent := (valid.wellFormed stored).consistent

/-- A job is done exactly when it has a result. -/
theorem Valid.done_iff (valid : Valid admits origin s) {jobId : ℕ} {row : Job}
    (stored : s.job? jobId = some row) : row.status = .done ↔ (s.results.find? jobId).isSome :=
  (valid.wellFormed stored).result.symm

/-- The limit of a company never changes. -/
theorem Valid.company_after {after : Store} (valid : Valid admits origin s)
    (later : Valid admits origin after) {companyId : ℕ} {company : Company}
    (stored : s.company? companyId = some company) : ∃ company', after.company? companyId = some company' ∧
      company'.maxConcurrentJobs = company.maxConcurrentJobs := by
  rw [valid.companies] at stored
  obtain ⟨first, found, rfl⟩ := Option.map_eq_some_iff.mp stored
  have found' := later.companies companyId
  rw [found, Option.map_some] at found'
  exact ⟨_, found', rfl⟩

namespace JobStep

variable {opening : List EventType → Prop} {after : Store} {jobId : ℕ}

/-- A stored job stays, with its identity and at least its attempts. -/
theorem identity (step : JobStep opening s after jobId) {row : Job} (stored : s.job? jobId = some row) :
    ∃ row', after.job? jobId = some row' ∧ row'.companyId = row.companyId ∧ row'.kind = row.kind ∧
      row'.idempotencyKey = row.idempotencyKey ∧ row.attempts ≤ row'.attempts := by
  cases step with
  | same job _ => exact ⟨row, job.trans stored, rfl, rfl, rfl, le_rfl⟩
  | created absent => rw [absent] at stored; cases stored
  | @moved d d' before stored' step =>
    have same := Store.job?_of_dossier before
    rw [stored] at same
    cases same
    obtain ⟨_, companyId, kind, key, attempts⟩ := step.identity
    exact ⟨_, Store.job?_of_dossier stored', companyId, kind, key, attempts⟩

/-- A job of the later store was there before, or is new and owned. -/
theorem before (step : JobStep opening s after jobId) {row' : Job} (stored : after.job? jobId = some row') :
    (∃ row, s.job? jobId = some row ∧ row'.companyId = row.companyId ∧
      row'.idempotencyKey = row.idempotencyKey) ∨
    (s.job? jobId = none ∧ (s.company? row'.companyId).isSome ∧ row'.status = .queued ∧
      ∀ row ∈ s.jobs.rows, row.companyId = row'.companyId → row.idempotencyKey ≠ row'.idempotencyKey) := by
  cases step with
  | same job _ => exact .inl ⟨row', job ▸ stored, rfl, rfl⟩
  | created absent stored' created owned unused =>
    have same := Store.job?_of_dossier stored'
    rw [stored] at same
    cases same
    exact .inr ⟨absent, owned, created.status, unused⟩
  | moved before stored' step =>
    have same := Store.job?_of_dossier stored'
    rw [stored] at same
    cases same
    obtain ⟨_, companyId, _, key, _⟩ := step.identity
    exact .inl ⟨_, Store.job?_of_dossier before, companyId, key⟩

theorem wellFormed (step : JobStep opening s after jobId)
    (formed : ∀ {d}, s.dossier? jobId = some d → d.WellFormed opening) {d : Dossier}
    (stored : after.dossier? jobId = some d) : d.WellFormed opening := by
  cases step with
  | same job traces => exact formed ((Store.dossier?_of_same job traces).symm.trans stored)
  | created _ stored' created =>
    rw [stored] at stored'
    cases stored'
    exact created.wellFormed
  | moved before stored' step =>
    rw [stored] at stored'
    cases stored'
    exact step.wellFormed (formed before)

end JobStep

/-- A row that a commit writes is leased to the writer or to nobody; it is active only if it was, or is
added under a lock of its company; it is queued only with a notification. -/
theorem Commit.written (commit : Commit admits pid tx s label) (entitled : Entitled tx.locks s tx.writes)
    {row' : Job} (member : row' ∈ tx.writes.filterMap Write.job?) :
    (row'.workerId = none ∨ row'.workerId = some pid) ∧
    (row'.status.active = true →
      (∃ row, s.job? row'.id = some row ∧ row.companyId = row'.companyId ∧ row.status.active = true) ∨
      label.adds? = some row'.companyId ∧
        (Resource.company row'.companyId, LockMode.keyShare) ∈ tx.locks) ∧
    (row'.status = .queued → ⟨.jobsQueued, row'.id⟩ ∈ tx.writes.filterMap Write.notification?) := by
  cases commit with
  | quiet writes => rw [writes] at member; cases member
  | @create companyId kind traceId key _ id events _ _ writes =>
    have job : tx.writes.filterMap Write.job? = [.new id companyId kind traceId key tx.now] := by
      simp [writes, Write.job?, List.filterMap_cons]
    rw [job, List.mem_singleton] at member
    subst member
    rw [writes] at entitled
    refine ⟨.inl rfl, fun _ => .inr ⟨rfl, entitled.1.2.2.2⟩, fun _ => ?_⟩
    simp [writes, Write.notification?, List.filterMap_cons, Job.new]
  | cancel stored active recorded writes =>
    rw [writes] at member
    obtain rfl := List.mem_singleton.mp member
    exact ⟨.inl rfl, fun active => (by cases active), fun queued => (by cases queued)⟩
  | @retry row _ traceId event stored failed left recorded writes =>
    rw [writes] at member entitled ⊢
    obtain rfl := List.mem_singleton.mp member
    refine ⟨.inl rfl, fun _ => .inr ⟨rfl, ?_⟩, fun _ => List.mem_singleton_self _⟩
    have shared := entitled.2.1.2.2.2
    rwa [recorded.companyId] at shared
  | claim stored queued left writes =>
    rw [writes] at member
    obtain rfl := List.mem_singleton.mp member
    exact ⟨.inr rfl, fun _ => .inl ⟨_, stored, rfl, by rw [queued]; rfl⟩, fun queued => (by cases queued)⟩
  | @renew row _ stored running mine _ _ writes =>
    rw [writes] at member
    obtain rfl := List.mem_singleton.mp member
    refine ⟨.inr mine, fun active => .inl ⟨_, stored, rfl, active⟩, fun queued => ?_⟩
    have absurd : row.status = .queued := queued
    rw [running] at absurd
    cases absurd
  | finish stored running mine _ _ produced recorded owner writes =>
    rw [writes] at member
    obtain rfl := List.mem_singleton.mp member
    exact ⟨.inl rfl, fun active => (by cases active), fun queued => (by cases queued)⟩
  | fail valid mine _ _ writes =>
    rw [writes, Failing.writes_job?] at member
    obtain ⟨f, _, rfl⟩ := List.mem_map.mp member
    exact ⟨.inl rfl, fun active => (by cases active), fun queued => (by cases queued)⟩
  | recover distinct valid writes =>
    rw [writes, Failing.writes_job?] at member
    obtain ⟨f, _, rfl⟩ := List.mem_map.mp member
    exact ⟨.inl rfl, fun active => (by cases active), fun queued => (by cases queued)⟩

/-- Only creation inserts a job. -/
theorem Commit.inserted (commit : Commit admits pid tx s label) :
    tx.writes.filterMap Write.insertedJob? = [] ∨
      ∃ row rest, tx.writes = .insertJob row :: rest ∧ rest.filterMap Write.job? = [] ∧
        row.status = .queued := by
  cases commit with
  | quiet writes => exact .inl (by rw [writes]; rfl)
  | create admitted writes =>
    refine .inr ⟨_, _, writes, ?_, rfl⟩
    simp [Write.job?]
  | fail valid mine _ _ writes =>
    left
    rw [writes, Failing.writes_filterMap]
    simp [Write.insertedJob?]
  | recover distinct valid writes =>
    left
    rw [writes, Failing.writes_filterMap]
    simp [Write.insertedJob?]
  | cancel _ _ _ writes | retry _ _ _ _ writes | claim _ _ _ writes | renew _ _ _ _ _ writes
  | finish _ _ _ _ _ _ _ _ writes => exact .inl (by rw [writes]; rfl)

/-- A commit that newly gives no job a property raises no count of it. -/
theorem Commit.countP_le (commit : Commit admits pid tx s label) (entitled : Entitled tx.locks s tx.writes)
    {p : Job → Bool} (new : ∀ row' ∈ tx.writes.filterMap Write.job?, p row' = true →
      ∃ row, s.job? row'.id = some row ∧ p row = true) :
    (tx.view s).jobs.rows.countP p ≤ s.jobs.rows.countP p := by
  rcases commit.inserted with none | ⟨row, rest, writes, silent, _⟩
  · apply Table.countP_le_of_find?
    · have keys := entitled.job_keys
      rwa [none, List.map_nil, List.append_nil] at keys
    · intro jobId row row' stored stored' holds
      rcases entitled.job?_cases stored' with written | kept
      · obtain ⟨old, found, held⟩ := new row' written holds
        rw [Store.job?_id stored', Store.job?, stored] at found
        cases found
        exact held
      · rw [Store.job?, stored] at kept
        cases kept
        exact holds
  · rw [writes] at entitled
    obtain ⟨_, drawn, absent, _⟩ := entitled.1
    have fails : p row = false := by
      by_contra holds
      have written : row ∈ tx.writes.filterMap Write.job? := by
        rw [writes]
        exact List.mem_cons_self
      obtain ⟨old, found, _⟩ := new row written (Bool.of_not_eq_false holds)
      rw [absent] at found
      cases found
    rw [Tx.view, writes, List.foldl_cons, foldl_jobs_of_none silent, Write.apply,
      SerialTable.insert_toTable drawn, Table.countP_insert absent, fails]
    simp

/-- A commit after which every job keeps a property lowers no count of it. -/
theorem Commit.le_countP (commit : Commit admits pid tx s label) (entitled : Entitled tx.locks s tx.writes)
    {p : Job → Bool} (kept : ∀ jobId row row', s.job? jobId = some row →
      (tx.view s).job? jobId = some row' → p row = true → p row' = true) :
    s.jobs.rows.countP p ≤ (tx.view s).jobs.rows.countP p := by
  rcases commit.inserted with none | ⟨row, rest, writes, silent, _⟩
  · apply Table.countP_le_of_find?
    · have keys := entitled.job_keys
      rw [none, List.map_nil, List.append_nil] at keys
      exact keys.symm
    · exact fun jobId row' row stored' stored holds => kept jobId row row' stored stored' holds
  · rw [writes] at entitled
    obtain ⟨_, drawn, absent, _⟩ := entitled.1
    rw [Tx.view, writes, List.foldl_cons, foldl_jobs_of_none silent, Write.apply,
      SerialTable.insert_toTable drawn, Table.countP_insert absent]
    omega

/-- A company's active jobs grow only when one is added, under a lock of the company. -/
theorem Commit.activeCount_le (commit : Commit admits pid tx s label)
    (entitled : Entitled tx.locks s tx.writes) {companyId : ℕ}
    (unlocked : label.adds? = some companyId → (Resource.company companyId, LockMode.keyShare) ∉ tx.locks) :
    (tx.view s).activeCount companyId ≤ s.activeCount companyId := by
  refine commit.countP_le entitled fun row' member holds => ?_
  rw [Bool.and_eq_true, decide_eq_true_eq] at holds
  obtain ⟨rfl, active⟩ := holds
  rcases (commit.written entitled member).2.1 active with ⟨row, stored, same, was⟩ | ⟨adds, locked⟩
  · exact ⟨row, stored, by simp [same, was]⟩
  · exact absurd locked (unlocked adds)

theorem Quiet.adds? (facts : Quiet s label) : label.adds? = none := by
  cases label with
  | request request result =>
    cases request with
    | createJob =>
      cases result with
      | error => rfl
      | ok =>
        obtain ⟨row, _, _, _, _, status, rfl⟩ := facts
        rfl
    | retryJob => cases facts
    | _ => rfl
  | _ => rfl

/-- What adds an active job adds exactly one. -/
theorem Commit.activeCount_of_adds (commit : Commit admits pid tx s label)
    (entitled : Entitled tx.locks s tx.writes) (companyId : ℕ) (adds : label.adds? = some companyId) :
    (tx.view s).activeCount companyId = s.activeCount companyId + 1 := by
  cases commit with
  | quiet writes facts =>
    rw [facts.adds?] at adds
    cases adds
  | @create companyId kind traceId key _ id events _ _ writes =>
    cases adds
    rw [writes] at entitled
    obtain ⟨_, drawn, absent, _⟩ := entitled.1
    have silent : (events.map Write.insertAudit ++
        [Write.notify ⟨.jobsQueued, id⟩]).filterMap Write.job? = [] := by
      simp [Write.job?]
    rw [Tx.view, writes, List.cons_append, List.foldl_cons, Store.activeCount, foldl_jobs_of_none silent,
      Write.apply, SerialTable.insert_toTable drawn, Table.countP_insert absent]
    simp [Job.new, JobStatus.active, Store.activeCount]
  | @retry row _ traceId event stored failed left recorded writes =>
    cases adds
    have jobs : (tx.view s).jobs = s.jobs.put (row.retry traceId tx.now) := by
      rw [Tx.view, writes]
      rfl
    have moved := Table.countP_put
      (show s.jobs.toTable.find? (row.retry traceId tx.now).id = some row from stored)
      (fun job => decide (job.companyId = row.companyId) && job.status.active)
    have old : (decide (row.companyId = row.companyId) && row.status.active) = false := by
      simp [failed, JobStatus.active]
    have new : (decide ((row.retry traceId tx.now).companyId = row.companyId) &&
        (row.retry traceId tx.now).status.active) = true := by
      simp [Job.retry, JobStatus.active]
    rw [old, new] at moved
    simp only [Store.activeCount, jobs]
    simpa using moved
  | _ => cases adds

/-- Only finishing a job makes a job done or pays for one. -/
private theorem Commit.settled (commit : Commit admits pid tx s label) :
    (∃ claim, label = .finalized claim .done) ∨
    ((∀ row' ∈ tx.writes.filterMap Write.job?, row'.status ≠ .done) ∧
      tx.writes.filterMap Write.company? = []) := by
  cases commit with
  | quiet writes =>
    refine .inr ⟨fun row' member => ?_, by rw [writes]; rfl⟩
    rw [writes] at member
    cases member
  | create admitted writes =>
    right
    rw [writes]
    constructor
    · simp [Write.job?, List.filterMap_cons, Job.new]
    · simp [Write.company?, List.filterMap_cons]
  | cancel _ _ _ writes =>
    right
    rw [writes]
    refine ⟨fun row' member => ?_, rfl⟩
    rw [List.mem_singleton.mp member]
    exact show JobStatus.cancelled ≠ .done by decide
  | retry _ _ _ _ writes =>
    right
    rw [writes]
    refine ⟨fun row' member => ?_, rfl⟩
    rw [List.mem_singleton.mp member]
    exact show JobStatus.queued ≠ .done by decide
  | claim _ _ _ writes =>
    right
    rw [writes]
    refine ⟨fun row' member => ?_, rfl⟩
    rw [List.mem_singleton.mp member]
    exact show JobStatus.running ≠ .done by decide
  | @renew row _ _ running _ _ _ writes =>
    right
    rw [writes]
    refine ⟨fun row' member done => ?_, rfl⟩
    obtain rfl := List.mem_singleton.mp member
    have absurd : row.status = .done := done
    rw [running] at absurd
    cases absurd
  | finish => exact .inl ⟨_, rfl⟩
  | fail _ _ _ _ writes =>
    right
    rw [writes, Failing.writes_job?, Failing.writes_company?]
    refine ⟨fun row' member => ?_, rfl⟩
    obtain ⟨f, _, rfl⟩ := List.mem_map.mp member
    exact show JobStatus.failed ≠ .done by decide
  | recover _ _ writes =>
    right
    rw [writes, Failing.writes_job?, Failing.writes_company?]
    refine ⟨fun row' member => ?_, rfl⟩
    obtain ⟨f, _, rfl⟩ := List.mem_map.mp member
    exact show JobStatus.failed ≠ .done by decide

/-- A done job is never touched again. -/
theorem JobStep.of_done {opening : List EventType → Prop} {after : Store} {jobId : ℕ} {row row' : Job}
    (step : JobStep opening s after jobId) (stored : s.job? jobId = some row)
    (stored' : after.job? jobId = some row') (done : row.status = .done) : row' = row := by
  cases step with
  | same job _ =>
    rw [job, stored] at stored'
    exact (Option.some.inj stored').symm
  | created absent => rw [absent] at stored; cases stored
  | moved before _ step =>
    have same := Store.job?_of_dossier before
    rw [stored] at same
    cases same
    rcases step.status with h | h | h | h | h | h | h <;> rw [h.1] at done <;> cases done

/-- A job that a commit brings into being is the one it inserts first. -/
theorem Commit.inserts (commit : Commit admits pid tx s label) (entitled : Entitled tx.locks s tx.writes)
    {jobId : ℕ} {row : Job} (absent : s.job? jobId = none) (stored : (tx.view s).job? jobId = some row) :
    ∃ rest, tx.writes = .insertJob row :: rest := by
  rcases commit.inserted with none | ⟨inserted, rest, writes, silent, _⟩
  · have keys := entitled.job_keys
    rw [none, List.map_nil, List.append_nil] at keys
    have member : row.id ∈ s.jobs.rows.map Job.id := by
      rw [← keys]
      exact List.mem_map_of_mem (Table.find?_mem stored)
    obtain ⟨old, inside, same⟩ := List.mem_map.mp member
    rw [Store.mem_jobs, same, Store.job?_id stored, absent] at inside
    cases inside
  · rcases entitled.job?_cases stored with written | kept
    · rw [writes, List.filterMap_cons_some (show Write.job? (.insertJob inserted) = some inserted from rfl),
        silent, List.mem_singleton] at written
      exact ⟨rest, written ▸ writes⟩
    · rw [absent] at kept
      cases kept

/-- A job that a commit brings into being was created by it. -/
theorem Commit.created (commit : Commit admits pid tx s label) (entitled : Entitled tx.locks s tx.writes)
    {jobId : ℕ} {row : Job} (absent : s.job? jobId = none) (stored : (tx.view s).job? jobId = some row) :
    ∃ traceId key submittedBy, row.idempotencyKey = some key ∧
      label = .request (.createJob row.companyId row.kind traceId key submittedBy)
        (.ok (.created ⟨row.id, .queued⟩ true)) := by
  obtain ⟨rest, inserts⟩ := commit.inserts entitled absent stored
  have inserted : tx.writes.filterMap Write.insertedJob? ≠ [] := by
    rw [inserts]
    exact List.cons_ne_nil _ _
  cases commit with
  | quiet writes => rw [writes] at inserts; cases inserts
  | create _ writes =>
    rw [writes, List.cons_append] at inserts
    cases inserts
    exact ⟨_, _, _, rfl, rfl⟩
  | fail _ _ _ _ writes =>
    rw [writes, Failing.writes_filterMap] at inserted
    exact absurd (by simp [Write.insertedJob?]) inserted
  | recover _ _ writes =>
    rw [writes, Failing.writes_filterMap] at inserted
    exact absurd (by simp [Write.insertedJob?]) inserted
  | cancel _ _ _ writes | retry _ _ _ _ writes | claim _ _ _ writes | renew _ _ _ _ _ writes
  | finish _ _ _ _ _ _ _ _ writes => rw [writes] at inserts; cases inserts

private theorem Commit.doneCount_of_settled (commit : Commit admits pid tx s label)
    (orphans : NoOrphans s) (entitled : Entitled tx.locks s tx.writes)
    (unfinished : ∀ row' ∈ tx.writes.filterMap Write.job?, row'.status ≠ .done) (companyId : ℕ) :
    (tx.view s).doneCount companyId = s.doneCount companyId := by
  apply Nat.le_antisymm
  · refine commit.countP_le entitled fun row' member holds => ?_
    rw [Bool.and_eq_true, decide_eq_true_eq, decide_eq_true_eq] at holds
    exact absurd holds.2 (unfinished row' member)
  · refine commit.le_countP entitled fun jobId row row' stored stored' holds => ?_
    rw [Bool.and_eq_true, decide_eq_true_eq, decide_eq_true_eq] at holds
    have same := (commit.jobStep orphans entitled jobId).of_done stored stored' holds.2
    simp [same, holds]

/-- Finishing a job adds it to its company's done jobs and takes one from the quota. -/
private theorem Commit.finished {claim : Claim} (commit : Commit admits pid tx s (.finalized claim .done))
    (entitled : Entitled tx.locks s tx.writes) : ∃ row company,
      s.job? row.id = some row ∧ s.company? row.companyId = some company ∧
      (∀ companyId, (tx.view s).doneCount companyId =
        s.doneCount companyId + if row.companyId = companyId then 1 else 0) ∧
      ∀ companyId, (tx.view s).company? companyId =
        if row.companyId = companyId then some { company with jobQuota := company.jobQuota - 1 }
        else s.company? companyId := by
  cases commit with
  | quiet _ facts => cases facts
  | @finish row _ result event company stored running mine _ _ produced recorded owner writes =>
    refine ⟨row, company, stored, owner, fun companyId => ?_, fun companyId => ?_⟩
    · have jobs : (tx.view s).jobs = s.jobs.put (row.finish tx.now) := by
        rw [Tx.view, writes]
        rfl
      have old : (decide (row.companyId = companyId) && decide (row.status = .done)) = false := by
        simp [running]
      have new : (decide ((row.finish tx.now).companyId = companyId) &&
          decide ((row.finish tx.now).status = .done)) = decide (row.companyId = companyId) :=
        Bool.and_true _
      have moved := Table.countP_put
        (show s.jobs.toTable.find? (row.finish tx.now).id = some row from stored)
        (fun job => decide (job.companyId = companyId) && decide (job.status = .done))
      rw [old, new] at moved
      simp only [Store.doneCount, jobs]
      simpa using moved
    · have same : company.id = row.companyId := Table.find?_key owner
      rw [Tx.view, entitled.company?, writes]
      by_cases eq : row.companyId = companyId
      · simp [Write.company?, List.filterMap_cons, same, eq]
      · simp [Write.company?, List.filterMap_cons, same, eq]

/-- Every commit keeps the invariant. -/
theorem Valid.commit (valid : Valid admits origin s) (commit : Commit admits pid tx s label)
    (entitled : Entitled tx.locks s tx.writes) : Valid admits origin (tx.view s) where
  orphans jobId absent := by
    cases commit.jobStep valid.orphans entitled jobId with
    | same job traces =>
      rw [traces]
      exact valid.orphans jobId (job ▸ absent)
    | created _ stored _ _ _ => rw [Store.job?_of_dossier stored] at absent; cases absent
    | moved _ stored _ => rw [Store.job?_of_dossier stored] at absent; cases absent
  dossiers stored := (commit.jobStep valid.orphans entitled _).wellFormed valid.dossiers stored
  owners stored := by
    rcases (commit.jobStep valid.orphans entitled _).before stored with ⟨row, found, same, _⟩ | ⟨_, owned, _⟩
    · rw [same]
      exact valid.owners found
    · rw [valid.companies, Option.isSome_map] at owned
      exact owned
  companies companyId := by
    rcases commit.settled with ⟨claim, rfl⟩ | ⟨unfinished, unpaid⟩
    · obtain ⟨row, company, stored, owner, done, paid⟩ := commit.finished entitled
      rw [paid, done]
      split
      · next same =>
        subst same
        rw [valid.companies] at owner
        obtain ⟨first, found, rfl⟩ := Option.map_eq_some_iff.mp owner
        rw [found, Option.map_some]
        simp only [Option.some.injEq, Company.mk.injEq, true_and]
        omega
      · next other =>
        rw [valid.companies, Nat.add_zero]
    · rw [Tx.view, entitled.company?_of_other (by simp [unpaid]), valid.companies]
      have same := commit.doneCount_of_settled valid.orphans entitled unfinished companyId
      rw [Tx.view] at same
      rw [same]
  keys := by
    intro jobId row jobId' row' key stored stored' same used used'
    have first := (commit.jobStep valid.orphans entitled jobId).before stored
    have second := (commit.jobStep valid.orphans entitled jobId').before stored'
    rcases first with ⟨old, found, company, kept⟩ | ⟨absent, _, fresh, unused⟩
    · rcases second with ⟨old', found', company', kept'⟩ | ⟨absent', _, fresh', unused'⟩
      · exact valid.keys found found' (company.symm.trans (same.trans company'))
          (kept.symm.trans used) (kept'.symm.trans used')
      · have member := Store.mem_jobs.mpr ((Store.job?_id found).symm ▸ found)
        exact absurd (kept.symm.trans (used.trans used'.symm))
          (unused' old member (company.symm.trans same))
    · rcases second with ⟨old', found', company', kept'⟩ | ⟨absent', _, fresh', unused'⟩
      · have member := Store.mem_jobs.mpr ((Store.job?_id found').symm ▸ found')
        exact absurd (kept'.symm.trans (used'.trans used.symm))
          (unused old' member (company'.symm.trans same.symm))
      · obtain ⟨rest, writes⟩ := commit.inserts entitled absent stored
        obtain ⟨rest', writes'⟩ := commit.inserts entitled absent' stored'
        rw [writes] at writes'
        cases writes'
        exact (Store.job?_id stored).symm.trans (Store.job?_id stored')

end Steps

end JobRelay.Soundness
