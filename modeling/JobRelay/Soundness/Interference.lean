import JobRelay.Soundness.Answers

/-! # What transactions may do to each other

The contract of the two services. A process relies on its locks, on jobs keeping their identity, on
nobody else leasing a job in its name, and, while it holds a company, on no new or newly active job of
that company. It guarantees that it changes the database only by the commits of `Commit`.
-/

namespace JobRelay.Soundness

open Model Sessions

/-- What a process sees the others do to the store. -/
structure Rely (pid : ℕ) (tx : Option Tx) (s later : Store) : Prop where
  agree : ∀ opened, tx = some opened → Agree opened.locks s later
  identity : ∀ jobId row, s.job? jobId = some row → ∃ row', later.job? jobId = some row' ∧
    row'.companyId = row.companyId ∧ row'.kind = row.kind ∧ row'.idempotencyKey = row.idempotencyKey ∧
    row.attempts ≤ row'.attempts
  fenced : ∀ jobId row', later.job? jobId = some row' → row'.workerId = some pid →
    s.job? jobId = some row'
  vacant : ∀ opened, tx = some opened → ∀ companyId,
    (Resource.company companyId, LockMode.update) ∈ opened.locks → ∀ jobId row',
    later.job? jobId = some row' → row'.companyId = companyId → ∃ row, s.job? jobId = some row ∧
      row.companyId = companyId ∧ row.idempotencyKey = row'.idempotencyKey
  admission : ∀ opened, tx = some opened → ∀ companyId,
    (Resource.company companyId, LockMode.update) ∈ opened.locks →
    later.activeCount companyId ≤ s.activeCount companyId

/-- What holds when a transaction rolls back and reports it. -/
def Aborted (s : Store) (tx : Tx) : Label → Prop
  | .request (.createJob companyId _ _ key _) (.error (.concurrencyLimit limit running)) =>
      (Resource.company companyId, LockMode.update) ∈ tx.locks ∧ limit ≤ running ∧
      (∃ company, s.company? companyId = some company ∧ company.maxConcurrentJobs = limit) ∧
      ∀ row ∈ s.jobs.rows, row.companyId = companyId → row.idempotencyKey ≠ some key
  | .request _ (.error _) | .rolledBack => True
  | _ => False

/-- How a process changes the store. -/
inductive Guar (admits : Request → Bool) (pid : ℕ) : Option Tx → Store → Store → Prop
  | drawn {tx : Option Tx} {s s' : Store} (drawn : Drawn s s') : Guar admits pid tx s s'
  | commit {tx : Tx} {s : Store} {label : Label} (opened : tx.Open s)
      (commit : Commit admits pid tx s label) : Guar admits pid (some tx) s ((tx.view s).log pid label)
  | aborted {tx : Tx} {s : Store} {label : Label} (facts : Aborted s tx label) :
      Guar admits pid (some tx) s (s.log pid label)
  | processed {s : Store} {claim : Claim} {outcome : JobStatus} :
      Guar admits pid none s (s.log pid (.processed claim outcome))

/-- No job is leased to the process. -/
def Idle (pid : ℕ) (s : Store) : Prop := ∀ jobId row, s.job? jobId = some row → row.workerId ≠ some pid

/-- The decision of `create_job` is made under the company lock, and before an insertion it stands; an event
is recorded under the lock of its job; the queries for work see committed rows only. -/
def Pre (q : Sql) (tx : Option Tx) (s : Store) : Prop :=
  match q with
  | .countActive companyId =>
      ∃ opened, tx = some opened ∧ (Resource.company companyId, LockMode.update) ∈ opened.locks ∧
        opened.writes = []
  | .insertJob companyId _ _ key =>
      ∃ opened company, tx = some opened ∧
        (Resource.company companyId, LockMode.update) ∈ opened.locks ∧
        s.company? companyId = some company ∧ (s.activeCount companyId : Int) < company.maxConcurrentJobs ∧
        ∀ row ∈ s.jobs.rows, row.companyId = companyId → row.idempotencyKey ≠ some key
  | .insertAuditEvent jobId _ _ _ _ _ => ∃ opened, tx = some opened ∧ opened.locks.Exclusive (.job jobId)
  | .selectClaimable _ | .selectNextAttempt => ∃ opened, tx = some opened ∧ opened.writes = []
  | _ => True

/-- The contract of a deployment that began at `origin`. -/
def contract (admits : Request → Bool) (origin : Store) : Contract ℕ Store Tx Sql where
  Inv := Valid admits origin
  Open := Tx.Open
  Rely := Rely
  Guar := Guar admits
  Pre _ := Pre
  Idle := Idle

section Laws

variable {admits : Request → Bool} {origin : Store} {pid other : ℕ} {s s' : Store}

theorem Valid.log (valid : Valid admits origin s) (pid : ℕ) (label : Label) :
    Valid admits origin (s.log pid label) :=
  ⟨valid.orphans, valid.dossiers, valid.owners, valid.companies, valid.keys⟩

theorem Valid.drawn (valid : Valid admits origin s) (drawn : Drawn s s') : Valid admits origin s' := by
  cases drawn <;> exact ⟨valid.orphans, valid.dossiers, valid.owners, valid.companies, valid.keys⟩

/-- Rows that are all as they were satisfy every rely. -/
private theorem Rely.of_same {tx : Option Tx} (agree : ∀ locks, Agree locks s s')
    (job : ∀ jobId, s'.job? jobId = s.job? jobId)
    (active : ∀ companyId, s'.activeCount companyId = s.activeCount companyId) : Rely pid tx s s' where
  agree opened _ := agree opened.locks
  identity jobId row stored := ⟨row, (job jobId).trans stored, rfl, rfl, rfl, le_rfl⟩
  fenced jobId _ stored _ := (job jobId).symm.trans stored
  vacant _ _ _ _ jobId _ stored owner := ⟨_, (job jobId).symm.trans stored, owner, rfl⟩
  admission _ _ companyId _ := (active companyId).le

theorem Rely.log (pid : ℕ) (tx : Option Tx) (s : Store) (writer : ℕ) (label : Label) :
    Rely pid tx s (s.log writer label) :=
  .of_same (fun locks => .log locks s writer label) (fun _ => rfl) (fun _ => rfl)

theorem Rely.refl (pid : ℕ) (tx : Option Tx) (s : Store) : Rely pid tx s s :=
  .of_same (fun locks => .refl locks s) (fun _ => rfl) (fun _ => rfl)

theorem Rely.trans {tx : Option Tx} {first middle last : Store} (before : Rely pid tx first middle)
    (after : Rely pid tx middle last) : Rely pid tx first last where
  agree opened held := (before.agree opened held).trans (after.agree opened held)
  identity jobId row stored := by
    obtain ⟨row', stored', company, kind, key, grown⟩ := before.identity jobId row stored
    obtain ⟨row'', stored'', company', kind', key', grown'⟩ := after.identity jobId row' stored'
    exact ⟨row'', stored'', company'.trans company, kind'.trans kind, key'.trans key, grown.trans grown'⟩
  fenced jobId row' stored mine := before.fenced jobId row' (after.fenced jobId row' stored mine) mine
  vacant opened held companyId locked jobId row'' stored'' owner := by
    obtain ⟨row', stored', owner', key'⟩ :=
      after.vacant opened held companyId locked jobId row'' stored'' owner
    obtain ⟨row, stored, owner, key⟩ := before.vacant opened held companyId locked jobId row' stored' owner'
    exact ⟨row, stored, owner, key.trans key'⟩
  admission opened held companyId locked :=
    (after.admission opened held companyId locked).trans (before.admission opened held companyId locked)

/-- A commit is what every other process relies on. -/
private theorem Rely.of_commit {tx : Tx} {label : Label} {open? : Option Tx} (distinct : pid ≠ other)
    (valid : Valid admits origin s) (opened : tx.Open s) (commit : Commit admits pid tx s label)
    (apart : ∀ theirs, open? = some theirs → tx.locks.compatible theirs.locks = true) :
    Rely other open? s (tx.view s) where
  agree theirs held := opened.agree_theirs (apart theirs held)
  identity jobId row stored := (commit.jobStep valid.orphans opened jobId).identity stored
  fenced jobId row' stored mine := by
    rcases Entitled.job?_cases opened stored with written | kept
    · rcases (commit.written opened written).1 with free | leased
      · rw [free] at mine
        cases mine
      · rw [leased] at mine
        exact absurd (Option.some.inj mine) distinct
    · exact kept
  vacant theirs held companyId locked jobId row' stored owner := by
    rcases (commit.jobStep valid.orphans opened jobId).before stored with
      ⟨row, found, same, key⟩ | ⟨absent, _, _, _⟩
    · exact ⟨row, found, same.symm.trans owner, key.symm⟩
    · obtain ⟨rest, writes⟩ := commit.inserts opened absent stored
      have head := opened
      rw [Tx.Open, writes] at head
      exact absurd (owner ▸ locked) (LockSet.not_mem_of_update (apart theirs held) head.1.2.2.2)
  admission theirs held companyId locked := by
    refine commit.activeCount_le opened fun _ mine => ?_
    exact LockSet.not_mem_of_update (apart theirs held) mine locked

theorem Idle.rely (idle : Idle pid s) (moved : Rely pid none s s') : Idle pid s' :=
  fun jobId row' stored mine => idle jobId row' (moved.fenced jobId row' stored mine) mine

/-- The contract meets the laws of interference. -/
theorem contract_lawful (admits : Request → Bool) (origin : Store) :
    (contract admits origin).Lawful (service admits) where
  rely_refl := Rely.refl
  rely_trans := Rely.trans
  open_start _ := trivial
  open_answer _ opened ran _ := (answer_keeps ran).opened opened
  open_rely opened moved := opened.agree (moved.agree _ rfl)
  open_publish pid label opened := opened.agree (.log _ _ pid label)
  guar_inv valid guar := by
    cases guar with
    | drawn drawn => exact valid.drawn drawn
    | commit opened commit => exact (valid.commit commit opened).log _ _
    | aborted _ => exact valid.log _ _
    | processed => exact valid.log _ _
  guar_rely distinct valid guar apart := by
    cases guar with
    | drawn drawn =>
      exact .of_same drawn.agree (fun jobId => by cases drawn <;> rfl)
        (fun companyId => by cases drawn <;> rfl)
    | commit opened commit =>
      exact (Rely.of_commit distinct valid opened commit (apart _ rfl)).trans (.log ..)
    | aborted _ => exact .log ..
    | processed => exact .log ..
  idle_rely := Idle.rely
  environment_inv event _ valid := by
    cases event
    exact ⟨valid.orphans, valid.dossiers, valid.owners, valid.companies, valid.keys⟩
  environment_rely event _ pid tx _ := by
    cases event
    exact .of_same (fun locks => .advance locks _ _) (fun _ => rfl) (fun _ => rfl)
  compatible_comm left right := LockSet.compatible_comm left.locks right.locks

end Laws

end JobRelay.Soundness
