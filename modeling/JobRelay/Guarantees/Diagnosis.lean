import JobRelay.Guarantees.DeadLetters
import JobRelay.Soundness.Reports

/-! # The reason a refusal gives

`cancel_job` and `retry_job` decide with a conditional update and explain with a second read. The row may
have moved on in between, so a refusal is explained by a state in which the request would not be refused.
-/

namespace JobRelay.Guarantees

open Model Sessions Soundness

variable {admits : Request → Bool} {start world : Service}

/-- The job that a request changes by a conditional update. -/
def changes? : Request → Option (ℕ × ℕ)
  | .cancelJob companyId jobId _ _ | .retryJob companyId jobId _ _ => some (companyId, jobId)
  | _ => none

/-- The `WHERE` of the conditional update of a request. -/
def permits : Request → Job → Bool
  | .cancelJob companyId _ _ _, row => decide (row.companyId = companyId) && row.status.active
  | .retryJob companyId _ _ _, row =>
      decide (row.companyId = companyId) && decide (row.status = .failed) &&
        decide (row.attempts < MAX_ATTEMPTS)
  | _, _ => false

/-- The errors that refuse to change an existing job. -/
def Refusal : Exc → Prop
  | .invalidJobState _ | .retryLimit _ _ => True
  | _ => False

/-- The state or the number of attempts that a refusal names is one for which the request is refused. -/
def Truthful : Request → Exc → Prop
  | .cancelJob .., .invalidJobState status => status ≠ .queued ∧ status ≠ .running
  | .retryJob .., .invalidJobState status => status ≠ .failed
  | .retryJob .., .retryLimit attempts limit => limit ≤ attempts
  | _, _ => True

/-- What a refused request makes of the row that it reads again. -/
def diagnosis : Request → Job → Exc
  | .retryJob .., row =>
      if row.status = .failed then .retryLimit row.attempts MAX_ATTEMPTS else .invalidJobState row.status
  | _, row => .invalidJobState row.status

/-- A refusal is the diagnosis of a row that was committed when the request read it again. -/
def Diagnosed (admits : Request → Bool) (start : Service) (request : Request) (companyId jobId pid : ℕ)
    (outcome : Except Exc Response) (world : Service) : Prop :=
  ∀ error, outcome = .error error → Refusal error →
    ∃ reread row, Asked admits start pid (.selectJob companyId jobId) reread world ∧
      reread.state.job? jobId = some row ∧ row.companyId = companyId ∧ error = diagnosis request row

theorem diagnosed_lasting (request : Request) (companyId jobId pid : ℕ) :
    Lasting admits (Diagnosed admits start request companyId jobId pid) := by
  intro outcome before after diagnosed later error raised refused
  obtain ⟨reread, row, asked, found⟩ := diagnosed error raised refused
  exact ⟨reread, row, asked.last later, found⟩

private theorem not_refusal {error : Exc} (failure : Failure error) : ¬ Refusal error := by
  cases error <;> first | exact id | cases failure

/-- Before the transaction ends: an error that refuses is the diagnosis of a row read again. -/
private def Explained {α : Type} (admits : Request → Bool) (start : Service) (request : Request)
    (companyId jobId pid : ℕ) (result : Except Exc α) (_ : Option Tx) (world : Service) : Prop :=
  ∀ error, result = .error error → Failure error ∨ error = .jobNotFound jobId ∨
    ∃ reread row, Asked admits start pid (.selectJob companyId jobId) reread world ∧
      reread.state.job? jobId = some row ∧ row.companyId = companyId ∧ error = diagnosis request row

private theorem explained_of_failure {α : Type} {request : Request} {companyId jobId pid : ℕ} {error : Exc}
    {tx : Option Tx} (failure : Failure error) :
    Explained (α := α) admits start request companyId jobId pid (.error error) tx world := by
  rintro _ ⟨⟩
  exact .inl failure

section Bodies

variable {companyId jobId pid : ℕ} {tx : Tx} {since : Service} (silent : tx.writes = [])

include silent

/-- The second read of a refused request. -/
private theorem reread_traced {request : Request} {α : Type} {explain : JobDetail → Prog α}
    (explains : ∀ row events, explain (detailOf row events) = .raise (diagnosis request row)) :
    ((JobsService.getJob companyId jobId).bind explain).Traced (service admits) start pid
      (Explained admits start request companyId jobId pid) (some tx) since := by
  refine (getJob_traced silent).bind ?_ ?_
  · rintro _ tx world ⟨reread, _, row, asked, listed, stored, owned, rfl⟩
    rw [explains]
    rintro error ⟨⟩
    exact .inr (.inr ⟨reread, row, asked.last listed.later, stored, owned, rfl⟩)
  · rintro _ tx world (rfl | failure)
    · rintro error ⟨⟩
      exact .inr (.inl rfl)
    · exact explained_of_failure failure

/-- A conditional update that misses has written nothing. -/
private theorem update_traced {q : Sql} (missed : q.Answer → Prop)
    (keeps : ∀ s others choice answer after opened, q.answer s others choice tx = .ok (answer, after, opened) →
      missed answer → opened.writes = tx.writes) :
    (exec q).Traced (service admits) start pid (fun result tx _ => match result with
      | .ok answer => missed answer → ∃ opened, tx = some opened ∧ opened.writes = []
      | .error error => Failure error) (some tx) since := by
  refine Program.Traced.exec (fun world _ choice answer after opened ran missed => ?_) fun world error fails =>
    failure_of_fails fails
  exact ⟨opened, rfl, (keeps _ _ _ _ _ _ ran missed).trans silent⟩

private theorem cancelJob_traced {cancelledBy : String} {traceId : Option String} :
    (JobsService.cancelJob companyId jobId cancelledBy traceId).Traced (service admits) start pid
      (Explained admits start (.cancelJob companyId jobId cancelledBy traceId) companyId jobId pid)
      (some tx) since := by
  refine (update_traced silent (fun answer => answer = none) ?_).bind ?_ ?_
  · intro s others choice answer after opened ran missed
    obtain ⟨⟨found, _, _⟩, ran, same⟩ := map_ok ran
    cases same
    obtain ⟨_, ⟨_, rfl, _⟩ | ⟨row, _, _, rfl, _⟩⟩ := updateJob_ok ran
    · rfl
    · cases missed
  · rintro (_ | row) opened world answered
    · obtain ⟨opened, rfl, silent⟩ := answered rfl
      exact reread_traced silent fun row events => rfl
    · refine exec_traced.bind (fun _ tx world _ => ?_) fun _ _ _ failure => explained_of_failure failure
      exact exec_traced.bind (fun _ _ _ _ => nofun) fun _ _ _ failure => explained_of_failure failure
  · exact fun _ _ _ failure => explained_of_failure failure

private theorem retryJob_traced {requestedBy : String} {traceId : Option String} :
    (JobsService.retryJob companyId jobId requestedBy traceId).Traced (service admits) start pid
      (Explained admits start (.retryJob companyId jobId requestedBy traceId) companyId jobId pid)
      (some tx) since := by
  refine (update_traced silent (fun answer => answer = none) ?_).bind ?_ ?_
  · intro s others choice answer after opened ran missed
    obtain ⟨⟨found, _, _⟩, ran, same⟩ := map_ok ran
    cases same
    obtain ⟨_, ⟨_, rfl, _⟩ | ⟨row, _, _, rfl, _⟩⟩ := updateJob_ok ran
    · rfl
    · cases missed
  · rintro (_ | row) opened world answered
    · obtain ⟨opened, rfl, silent⟩ := answered rfl
      refine reread_traced silent fun row events => ?_
      exact (apply_ite Program.raise _ _ _).symm
    · refine exec_traced.bind (fun _ tx world _ => ?_) fun _ _ _ failure => explained_of_failure failure
      exact exec_traced.bind (fun _ _ _ _ => nofun) fun _ _ _ failure => explained_of_failure failure
  · exact fun _ _ _ failure => explained_of_failure failure

end Bodies

private theorem explained_bind {α β : Type} {request : Request} {companyId jobId pid : ℕ} {tx : Option Tx}
    {since : Service} {body : Prog α} (traced : body.Traced (service admits) start pid
      (Explained admits start request companyId jobId pid) tx since) (respond : α → β) :
    (body.bind fun value => .ret (respond value)).Traced (service admits) start pid
      (Explained admits start request companyId jobId pid) tx since := by
  refine traced.bind ?_ ?_
  · rintro value tx world _ error ⟨⟩
  · rintro error tx world explained _ ⟨⟩
    exact explained error rfl

/-- A request that changes a job accounts for its refusals by a second read. -/
theorem diagnosed_traced {request : Request} {companyId jobId pid : ℕ} {tx : Tx} {since : Service}
    (changes : changes? request = some (companyId, jobId)) (silent : tx.writes = []) :
    (JobsService.serve request).Traced (service admits) start pid
      (Accounts (Diagnosed admits start request companyId jobId pid)) (some tx) since := by
  have accounts : ∀ (result : Except Exc Response) (tx : Option Tx) world,
      Explained admits start request companyId jobId pid result tx world →
        Accounts (Diagnosed admits start request companyId jobId pid) result tx world := by
    rintro (error | response) tx world explained
    · rcases explained error rfl with failure | rfl | read
      · exact .inr ⟨error, rfl, failure⟩
      · refine .inl ?_
        rintro _ ⟨⟩ refused
        exact refused.elim
      · refine .inl ?_
        rintro _ ⟨⟩ _
        exact read
    · exact .inl nofun
  cases request with
  | cancelJob companyId jobId cancelledBy traceId =>
    cases changes
    exact (explained_bind (cancelJob_traced silent) _).weaken accounts
  | retryJob companyId jobId requestedBy traceId =>
    cases changes
    exact (explained_bind (retryJob_traced silent) _).weaken accounts
  | _ => cases changes

private theorem truthful_diagnosis {request : Request} {companyId jobId : ℕ} {row : Job}
    (changes : changes? request = some (companyId, jobId)) (owned : row.companyId = companyId) :
    Truthful request (diagnosis request row) ↔ permits request row = false := by
  cases request with
  | cancelJob companyId jobId cancelledBy traceId =>
    cases changes
    cases status : row.status <;> simp [Truthful, diagnosis, permits, owned, status, JobStatus.active]
  | retryJob companyId jobId requestedBy traceId =>
    cases changes
    by_cases failed : row.status = .failed <;> simp [Truthful, diagnosis, permits, owned, failed]
  | _ => cases changes

/-- In a world of the run, a request to change a job has been refused with this error. -/
structure Refused (admits : Request → Bool) (start world : Service) (pid : ℕ) (request : Request)
    (companyId jobId : ℕ) (error : Exc) : Prop where
  answered : Answered admits start world pid request (.error error)
  changes : changes? request = some (companyId, jobId)
  refusal : Refusal error

/-- A worker is about to run the first job. -/
def runningJob : List Step :=
  .spawn 0 .client :: submission 0 "a" ++ [.spawn 1 (.draining 1), .start 1 .processNext] ++ statements 1 11

/-- It loses its connection and records the failure. -/
def jobFails : List Step := .fail 1 (.operational "connection lost") :: statements 1 8 ++ [.finish 1]

/-- The first attempt fails between the update of a retry and its second read. -/
def retryMeetsFailure : List Step :=
  runningJob ++ .start 0 (.request (.retryJob 1 1 "1:user" none)) :: statements 0 2 ++ jobFails ++ statements 0 3

/-- A failed job is retried between the update of a cancellation and its second read. -/
def cancelMeetsRetry : List Step :=
  runningJob ++ jobFails ++ .start 0 (.request (.cancelJob 1 1 "1:user" none)) :: statements 0 2 ++
    .spawn 2 .client :: .start 2 (.request (.retryJob 1 1 "2:user" none)) :: statements 2 5 ++ statements 0 3

/-- A retry is refused for one attempt of three, and a cancellation because the job is queued. -/
theorem refused_untruthfully : Fresh office ∧
    (∃ world, Refused (fun _ => true) office world 0 (.retryJob 1 1 "1:user" none) 1 1 (.retryLimit 1 3) ∧
      ¬ Truthful (.retryJob 1 1 "1:user" none) (.retryLimit 1 3)) ∧
    ∃ world, Refused (fun _ => true) office world 0 (.cancelJob 1 1 "1:user" none) 1 1 (.invalidJobState .queued) ∧
      ¬ Truthful (.cancelJob 1 1 "1:user" none) (.invalidJobState .queued) := by
  have late : (office.runActions (service fun _ => true) retryMeetsFailure).bind (answer? · 0) =
      some (.retryJob 1 1 "1:user" none, .error (.retryLimit 1 3)) := by decide +kernel
  have early : (office.runActions (service fun _ => true) cancelMeetsRetry).bind (answer? · 0) =
      some (.cancelJob 1 1 "1:user" none, .error (.invalidJobState .queued)) := by decide +kernel
  obtain ⟨world, refused⟩ := answered_of_run late
  obtain ⟨world', refused'⟩ := answered_of_run early
  exact ⟨office_fresh, ⟨world, ⟨refused, rfl, trivial⟩, by simp [Truthful]⟩, world', ⟨refused', rfl, trivial⟩,
    by simp [Truthful]⟩

/-- A refusal tells the truth exactly if the job still fails the condition of the update when it is read again. -/
theorem truthful_iff (fresh : Fresh start) {pid : ℕ} {request : Request} {companyId jobId : ℕ} {error : Exc}
    (refused : Refused admits start world pid request companyId jobId error) :
    ∃ reread row, Asked admits start pid (.selectJob companyId jobId) reread world ∧
      reread.state.job? jobId = some row ∧ error = diagnosis request row ∧
      (Truthful request error ↔ permits request row = false) := by
  have accounted := refused.answered.accounted fresh (Diagnosed admits start request companyId jobId)
    (fun pid => diagnosed_lasting request companyId jobId pid)
    fun pid since tx _ silent => diagnosed_traced refused.changes silent
  have diagnosed := accounted.resolve_right <| by
    rintro ⟨_, ⟨⟩, failure⟩
    exact not_refusal failure refused.refusal
  obtain ⟨reread, row, asked, stored, owned, rfl⟩ := diagnosed error rfl refused.refusal
  exact ⟨reread, row, asked, stored, rfl, truthful_diagnosis refused.changes owned⟩

/-- A cancellation is refused because the job has failed, and it still has when it is read again. -/
theorem truthful_office : ∃ world, ∃ reread row,
    Asked (fun _ => true) office 0 (.selectJob 1 1) reread world ∧ reread.state.job? 1 = some row ∧
    row.status = .failed ∧ permits (.cancelJob 1 1 "1:user" none) row = false := by
  have ran : (office.runActions (service fun _ => true)
      (runningJob ++ jobFails ++ .start 0 (.request (.cancelJob 1 1 "1:user" none)) :: statements 0 5)).bind
        (answer? · 0) = some (.cancelJob 1 1 "1:user" none, .error (.invalidJobState .failed)) := by decide +kernel
  obtain ⟨world, refused⟩ := answered_of_run ran
  obtain ⟨reread, row, asked, stored, same, truthful⟩ := truthful_iff office_fresh ⟨refused, rfl, trivial⟩
  refine ⟨world, reread, row, asked, stored, (Exc.invalidJobState.inj same).symm, truthful.mp ?_⟩
  simp [Truthful]

end JobRelay.Guarantees
