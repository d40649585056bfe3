import JobRelay.Model.Processor

/-! # The life of one job

A dossier is everything the database holds about one job: its row, its result, its audit events in
the order they were committed, and its dead-letter entries. A job lives by eight transitions; each
keeps the dossier well formed, and a dossier whose attempts are exhausted admits none.
-/

namespace JobRelay.Soundness

open Model

/-- Everything stored about one job. -/
@[ext] structure Dossier where
  job : Job
  result : Option JobResult
  events : List AuditEvent
  entries : List DeadLetter

end JobRelay.Soundness

namespace JobRelay.Model

/-- The event belongs to the job and has this type. -/
structure AuditEvent.Records (event : AuditEvent) (job : Job) (eventType : EventType) : Prop where
  jobId : event.jobId = job.id
  companyId : event.companyId = job.companyId
  eventType : event.eventType = eventType

/-- The entry repeats the row of the failed job. -/
structure DeadLetter.Records (entry : DeadLetter) (job : Job) : Prop where
  jobId : entry.jobId = some job.id
  companyId : entry.companyId = job.companyId
  kind : entry.kind = job.kind
  attempts : entry.attempts = job.attempts
  lastError : entry.lastError = job.lastError
  traceId : entry.traceId = job.traceId

namespace Job

/-- No worker holds the job. -/
def Unleased (job : Job) : Prop := job.lockedAt = none ∧ job.workerId = none

/-- A worker holds the job. -/
def Leased (job : Job) : Prop := job.lockedAt.isSome ∧ job.workerId.isSome

/-- What its status says about the other columns of a job. -/
def Consistent (job : Job) : Prop :=
  match job.status with
  | .queued => job.attempts ≤ 2 ∧ job.Unleased ∧ job.lastError = none ∧
      (job.nextAttemptAt = none ↔ job.attempts = 0)
  | .running => (1 ≤ job.attempts ∧ job.attempts ≤ 3) ∧ job.Leased ∧ job.lastError = none
  | .done => (1 ≤ job.attempts ∧ job.attempts ≤ 3) ∧ job.Unleased ∧ job.lastError = none
  | .failed => (1 ≤ job.attempts ∧ job.attempts ≤ 3) ∧ job.Unleased ∧ job.lastError.isSome ∧
      job.nextAttemptAt = none
  | .cancelled => job.Unleased ∧ job.lastError = none

/-- Only a running job is leased. -/
theorem Consistent.running {job : Job} (shape : job.Consistent) {workerId : ℕ}
    (leased : job.workerId = some workerId) : job.status = .running := by
  have taken : ¬ job.Unleased := by
    rintro ⟨_, free⟩
    rw [free] at leased
    cases leased
  rcases status : job.status with _ | _ | _ | _ | _ <;> simp only [Consistent, status] at shape
  · exact absurd shape.2.1 taken
  · rfl
  · exact absurd shape.2.1 taken
  · exact absurd shape.2.1 taken
  · exact absurd shape.1 taken

/-- The job failed at its last attempt. -/
def Exhausted (job : Job) : Prop := job.status = .failed ∧ job.attempts = MAX_ATTEMPTS

instance (job : Job) : Decidable job.Exhausted := inferInstanceAs (Decidable (_ ∧ _))

/-- The failed and completed attempts that an audit trail shows, by the status it ends in. -/
def Counts (job : Job) (retries : ℕ) : Prop :=
  match job.status with
  | .queued => job.attempts = retries
  | .running | .done | .failed => job.attempts = retries + 1
  | .cancelled => job.attempts = retries ∨ job.attempts = retries + 1

end Job

end JobRelay.Model

namespace JobRelay.Soundness

open Model

/-- `(failed retry_requested)^k`. -/
def retryCycles : ℕ → List EventType
  | 0 => []
  | retries + 1 => retryCycles retries ++ [.failed, .retryRequested]

theorem count_retryCycles (retries : ℕ) (eventType : EventType) :
    (retryCycles retries).count eventType =
      if eventType = .failed ∨ eventType = .retryRequested then retries else 0 := by
  induction retries with
  | zero => cases eventType <;> rfl
  | succ retries ih =>
    rw [retryCycles, List.count_append, ih]
    cases eventType <;> rfl

/-- The event that a status is reached with, once the retries are over. -/
def closing : JobStatus → List EventType
  | .queued | .running => []
  | .done => [.completed]
  | .failed => [.failed]
  | .cancelled => [.cancelled]

/-- The events, in order, of a job that was retried so often. -/
structure Trail (opening : List EventType) (job : Job) (events : List AuditEvent) (retries : ℕ) :
    Prop where
  word : events.map AuditEvent.eventType = opening ++ retryCycles retries ++ closing job.status
  bounded : retries ≤ 2
  counts : job.Counts retries

/-- The trail of an active job grows by the event that the next status is reached with. -/
theorem Trail.close {first : List EventType} {job next : Job} {events : List AuditEvent}
    {retries : ℕ} {event : AuditEvent} (trail : Trail first job events retries)
    (active : job.status.active = true) (closes : closing next.status = [event.eventType])
    (counts : next.Counts retries) : Trail first next (events ++ [event]) retries := by
  have silent : closing job.status = [] := by
    rcases status : job.status with _ | _ | _ | _ | _ <;> rw [status] at active <;> first | rfl | cases active
  refine ⟨?_, trail.bounded, counts⟩
  rw [List.map_append, trail.word, silent, closes, List.append_nil]
  rfl

/-- Before its closing event a trail ends in `submitted` or `retry_requested`, if anywhere. -/
private theorem last_cycles {first : List EventType} (opens : first = [.submitted] ∨ first = []) {retries : ℕ}
    {last : EventType} (ends : (first ++ retryCycles retries).getLast? = some last) :
    last = .submitted ∨ last = .retryRequested := by
  cases retries with
  | zero => rcases opens with rfl | rfl <;> simp_all [retryCycles]
  | succ retries =>
    rw [retryCycles, ← List.append_assoc, List.getLast?_append] at ends
    exact .inr (Option.some.inj ends).symm

private theorem closing_single {status : JobStatus} {eventType : EventType} {rest : List EventType}
    (closed : closing status = eventType :: rest) : rest = [] := by
  cases status <;> cases closed <;> rfl

private theorem closing_inj {status ending : JobStatus} {eventType : EventType}
    (closed : closing status = [eventType]) (closes : closing ending = [eventType]) : status = ending := by
  cases status <;> cases ending <;> cases closes <;> cases closed <;> rfl

section Closing

variable {first : List EventType} {job : Job} {events : List AuditEvent} {retries : ℕ}
  (trail : Trail first job events retries) (opens : first = [.submitted] ∨ first = []) {ending : JobStatus}
  {eventType : EventType} (closes : closing ending = [eventType])

include trail opens closes

/-- The last event of a trail is the closing event of one status. -/
theorem Trail.last_iff : job.status = ending ↔
    (events.map AuditEvent.eventType).getLast? = some eventType := by
  rw [trail.word]
  constructor
  · rintro rfl
    rw [closes, List.getLast?_append]
    rfl
  · intro last
    cases closed : closing job.status with
    | nil =>
      rw [closed, List.append_nil] at last
      rcases last_cycles opens last with rfl | rfl <;> cases ending <;> simp [closing] at closes
    | cons only rest =>
      have single := closing_single closed
      subst single
      rw [closed, List.getLast?_append] at last
      cases last
      exact closing_inj closed closes

/-- An event that is not a failure is in a trail only as its closing event. -/
theorem Trail.mem_iff (final : eventType ≠ .failed) : job.status = ending ↔
    eventType ∈ events.map AuditEvent.eventType := by
  constructor
  · intro same
    exact List.mem_of_getLast? ((trail.last_iff opens closes).mp same)
  · rw [trail.word, List.mem_append, List.mem_append]
    rintro ((opening | cycle) | closed)
    · rcases opens with rfl | rfl
      · rw [List.mem_singleton.mp opening] at closes
        cases ending <;> simp [closing] at closes
      · cases opening
    · have positive := List.count_pos_iff.mpr cycle
      rw [count_retryCycles] at positive
      split at positive
      · next failing =>
        rcases failing with rfl | rfl
        · exact absurd rfl final
        · cases ending <;> simp [closing] at closes
      · omega
    · cases same : closing job.status with
      | nil => rw [same] at closed; cases closed
      | cons only rest =>
        have single := closing_single same
        subst single
        rw [same, List.mem_singleton] at closed
        exact closing_inj (closed ▸ same) closes

end Closing

namespace Dossier

/-- Exactly the jobs that failed at their last attempt are in the dead-letter queue, once. -/
def Entered (job : Job) (entries : List DeadLetter) : Prop :=
  if job.Exhausted then ∃ entry, entries = [entry] ∧ entry.Records job else entries = []

theorem entered_of_not {job : Job} (alive : ¬ job.Exhausted) : Entered job [] := by
  rw [Entered, if_neg alive]

theorem Entered.nil {job : Job} {entries : List DeadLetter} (entered : Entered job entries)
    (alive : ¬ job.Exhausted) : entries = [] := by rwa [Entered, if_neg alive] at entered

theorem Entered.single {job : Job} {entries : List DeadLetter} (entered : Entered job entries)
    (exhausted : job.Exhausted) : ∃ entry, entries = [entry] ∧ entry.Records job := by
  rwa [Entered, if_pos exhausted] at entered

/-- What holds of the dossier of every job; `opening` is what a job's trail may begin with. -/
structure WellFormed (opening : List EventType → Prop) (d : Dossier) : Prop where
  consistent : d.job.Consistent
  result : d.result.isSome ↔ d.job.status = .done
  trail : ∃ first retries, opening first ∧ Trail first d.job d.events retries
  companies : ∀ event ∈ d.events, event.companyId = d.job.companyId
  entries : Entered d.job d.entries

/-- No job is attempted more than three times. -/
theorem WellFormed.attempts_le {opening : List EventType → Prop} {d : Dossier} (shape : d.WellFormed opening) :
    d.job.attempts ≤ 3 := by
  obtain ⟨first, retries, _, trail⟩ := shape.trail
  have bounded := trail.bounded
  have counts := trail.counts
  unfold Job.Counts at counts
  split at counts <;> omega

/-- The dossier of a job that was just created. -/
structure Created (opening : List EventType → Prop) (d : Dossier) : Prop where
  status : d.job.status = .queued
  attempts : d.job.attempts = 0
  unleased : d.job.Unleased
  lastError : d.job.lastError = none
  nextAttemptAt : d.job.nextAttemptAt = none
  result : d.result = none
  events : opening (d.events.map AuditEvent.eventType)
  companies : ∀ event ∈ d.events, event.companyId = d.job.companyId
  entries : d.entries = []

/-- One transaction's change to one job. -/
inductive Transition : Dossier → Dossier → Prop
  | claim {d : Dossier} (workerId : ℕ) (now : Micros) (queued : d.job.status = .queued)
      (left : d.job.attempts < MAX_ATTEMPTS) :
      Transition d { d with job := d.job.claim workerId now }
  | renew {d : Dossier} (now : Micros) (running : d.job.status = .running) :
      Transition d { d with job := d.job.renew now }
  | finish {d : Dossier} (now : Micros) {result : JobResult} {event : AuditEvent}
      (running : d.job.status = .running) (recorded : event.Records d.job .completed) :
      Transition d ⟨d.job.finish now, some result, d.events ++ [event], d.entries⟩
  | fail {d : Dossier} (error : String) (now : Micros) {event : AuditEvent} {entered : List DeadLetter}
      (running : d.job.status = .running) (recorded : event.Records d.job .failed)
      (exhausted : Entered (d.job.fail error now) entered) :
      Transition d ⟨d.job.fail error now, d.result, d.events ++ [event], d.entries ++ entered⟩
  | cancel {d : Dossier} (now : Micros) {event : AuditEvent} (active : d.job.status.active = true)
      (recorded : event.Records d.job .cancelled) :
      Transition d ⟨d.job.cancel now, d.result, d.events ++ [event], d.entries⟩
  | retry {d : Dossier} (traceId : Option String) (now : Micros) {event : AuditEvent}
      (failed : d.job.status = .failed) (left : d.job.attempts < MAX_ATTEMPTS)
      (recorded : event.Records d.job .retryRequested) :
      Transition d ⟨d.job.retry traceId now, d.result, d.events ++ [event], d.entries⟩

variable {opening : List EventType → Prop} {d after : Dossier}

theorem Created.wellFormed (created : Created opening d) : WellFormed opening d where
  consistent := by
    have empty := created.attempts
    simp only [Job.Consistent, created.status]
    refine ⟨by omega, created.unleased, created.lastError, ?_⟩
    simp only [created.nextAttemptAt, created.attempts]
  result := by simp only [created.result, created.status, Option.isSome_none]; decide
  trail := by
    refine ⟨_, 0, created.events, ?_, by omega, ?_⟩
    · simp only [retryCycles, created.status, closing, List.append_nil]
    · simp only [Job.Counts, created.status, created.attempts]
  companies := created.companies
  entries := by
    rw [created.entries]
    refine entered_of_not ?_
    rintro ⟨failed, _⟩
    rw [created.status] at failed
    cases failed

/-- Nothing happens to a job whose attempts are exhausted. -/
theorem Transition.not_exhausted (step : Transition d after) : ¬ d.job.Exhausted := by
  rintro ⟨failed, exhausted⟩
  cases step with
  | claim _ _ queued _ => rw [queued] at failed; cases failed
  | renew _ running => rw [running] at failed; cases failed
  | finish _ running _ => rw [running] at failed; cases failed
  | fail _ _ running _ _ => rw [running] at failed; cases failed
  | cancel _ active _ => rw [failed] at active; cases active
  | retry _ _ _ left _ => omega

/-- The identity of a job never changes, and its attempts never decrease. -/
theorem Transition.identity (step : Transition d after) :
    after.job.id = d.job.id ∧ after.job.companyId = d.job.companyId ∧ after.job.kind = d.job.kind ∧
      after.job.idempotencyKey = d.job.idempotencyKey ∧ d.job.attempts ≤ after.job.attempts := by
  cases step with
  | claim => exact ⟨rfl, rfl, rfl, rfl, Nat.le_succ _⟩
  | _ => exact ⟨rfl, rfl, rfl, rfl, Nat.le_refl _⟩

/-- A transition appends at most one audit event. -/
theorem Transition.events (step : Transition d after) :
    after.events = d.events ∨ ∃ event, after.events = d.events ++ [event] := by
  cases step with
  | claim | renew => exact .inl rfl
  | _ => exact .inr ⟨_, rfl⟩

/-- The arrows of the status diagram, and the renewal that stays at `running`. -/
theorem Transition.status (step : Transition d after) :
    (d.job.status = .queued ∧ after.job.status = .running) ∨
    (d.job.status = .queued ∧ after.job.status = .cancelled) ∨
    (d.job.status = .running ∧ after.job.status = .running) ∨
    (d.job.status = .running ∧ after.job.status = .done) ∨
    (d.job.status = .running ∧ after.job.status = .failed) ∨
    (d.job.status = .running ∧ after.job.status = .cancelled) ∨
    (d.job.status = .failed ∧ after.job.status = .queued) := by
  cases step with
  | claim _ _ queued _ => exact .inl ⟨queued, rfl⟩
  | renew _ running => exact .inr (.inr (.inl ⟨running, running⟩))
  | finish _ running _ => exact .inr (.inr (.inr (.inl ⟨running, rfl⟩)))
  | fail _ _ running _ _ => exact .inr (.inr (.inr (.inr (.inl ⟨running, rfl⟩))))
  | cancel _ active _ =>
    rcases status : d.job.status with _ | _ | _ | _ | _
    · exact .inr (.inl ⟨rfl, rfl⟩)
    · exact .inr (.inr (.inr (.inr (.inr (.inl ⟨rfl, rfl⟩)))))
    all_goals rw [status] at active; cases active
  | retry _ _ failed _ _ => exact .inr (.inr (.inr (.inr (.inr (.inr ⟨failed, rfl⟩)))))

/-- Leaving a job that is not failed without entries keeps it so. -/
private theorem entered_of_alive {job next : Job} {entries : List DeadLetter}
    (entered : Entered job entries) (before : ¬ job.Exhausted) (after : ¬ next.Exhausted) :
    Entered next entries := by
  rw [entered.nil before]
  exact entered_of_not after

private theorem not_exhausted_of_status {job : Job} {status : JobStatus} (same : job.status = status)
    (alive : status ≠ .failed) : ¬ job.Exhausted := by
  rintro ⟨failed, _⟩
  exact alive (same.symm.trans failed)

private theorem companies_append {events : List AuditEvent} {event : AuditEvent} {companyId : ℕ}
    (companies : ∀ event ∈ events, event.companyId = companyId) (recorded : event.companyId = companyId) :
    ∀ other ∈ events ++ [event], other.companyId = companyId := by
  intro other member
  rcases List.mem_append.mp member with old | new
  · exact companies other old
  · rw [List.mem_singleton.mp new, recorded]

private theorem WellFormed.claim (formed : WellFormed opening d) (workerId : ℕ) (now : Micros)
    (queued : d.job.status = .queued) : WellFormed opening { d with job := d.job.claim workerId now } := by
  have shape := formed.consistent
  simp only [Job.Consistent, queued] at shape
  obtain ⟨left, _, silent, _⟩ := shape
  refine ⟨?_, ?_, ?_, formed.companies, ?_⟩
  · exact ⟨⟨Nat.le_add_left 1 _, Nat.succ_le_succ left⟩, ⟨rfl, rfl⟩, silent⟩
  · have unfinished := formed.result
    rw [queued] at unfinished
    simpa [Job.claim] using unfinished
  · obtain ⟨first, retries, opens, trail⟩ := formed.trail
    refine ⟨first, retries, opens, ?_, trail.bounded, ?_⟩
    · have word := trail.word
      rw [queued] at word
      exact word
    · have counts := trail.counts
      simp only [Job.Counts, queued] at counts
      exact congrArg (· + 1) counts
  · exact entered_of_alive formed.entries (not_exhausted_of_status queued (by decide))
      (not_exhausted_of_status (show (d.job.claim workerId now).status = .running from rfl) (by decide))

private theorem WellFormed.renew (formed : WellFormed opening d) (now : Micros)
    (running : d.job.status = .running) : WellFormed opening { d with job := d.job.renew now } := by
  have shape := formed.consistent
  simp only [Job.Consistent, running] at shape
  obtain ⟨counted, leased, silent⟩ := shape
  refine ⟨?_, formed.result, ?_, formed.companies, entered_of_alive formed.entries
    (not_exhausted_of_status running (by decide)) (not_exhausted_of_status (show (d.job.renew now).status = .running from running) (by decide))⟩
  · simp only [Job.Consistent, Job.renew, running]
    exact ⟨counted, ⟨rfl, leased.2⟩, silent⟩
  · obtain ⟨first, retries, opens, trail⟩ := formed.trail
    exact ⟨first, retries, opens, trail.word, trail.bounded, trail.counts⟩

private theorem WellFormed.finish (formed : WellFormed opening d) (now : Micros) {result : JobResult}
    {event : AuditEvent} (running : d.job.status = .running)
    (recorded : event.Records d.job .completed) :
    WellFormed opening ⟨d.job.finish now, some result, d.events ++ [event], d.entries⟩ := by
  have shape := formed.consistent
  simp only [Job.Consistent, running] at shape
  obtain ⟨counted, _, silent⟩ := shape
  refine ⟨⟨counted, ⟨rfl, rfl⟩, silent⟩, iff_of_true rfl rfl, ?_,
    companies_append formed.companies recorded.companyId, ?_⟩
  · obtain ⟨first, retries, opens, trail⟩ := formed.trail
    have counts := trail.counts
    simp only [Job.Counts, running] at counts
    exact ⟨first, retries, opens, trail.close (by rw [running]; rfl)
      (by rw [recorded.eventType]; rfl) counts⟩
  · exact entered_of_alive formed.entries (not_exhausted_of_status running (by decide))
      (not_exhausted_of_status (show (d.job.finish now).status = .done from rfl) (by decide))

private theorem WellFormed.fail (formed : WellFormed opening d) (error : String) (now : Micros)
    {event : AuditEvent} {entered : List DeadLetter} (running : d.job.status = .running)
    (recorded : event.Records d.job .failed) (exhausted : Entered (d.job.fail error now) entered) :
    WellFormed opening ⟨d.job.fail error now, d.result, d.events ++ [event], d.entries ++ entered⟩ := by
  have shape := formed.consistent
  simp only [Job.Consistent, running] at shape
  obtain ⟨counted, _, _⟩ := shape
  have unentered := formed.entries.nil (not_exhausted_of_status running (by decide))
  refine ⟨⟨counted, ⟨rfl, rfl⟩, rfl, rfl⟩, ?_, ?_,
    companies_append formed.companies recorded.companyId, ?_⟩
  · have unfinished := formed.result
    rw [running] at unfinished
    simpa [Job.fail] using unfinished
  · obtain ⟨first, retries, opens, trail⟩ := formed.trail
    have counts := trail.counts
    simp only [Job.Counts, running] at counts
    exact ⟨first, retries, opens, trail.close (by rw [running]; rfl)
      (by rw [recorded.eventType]; rfl) counts⟩
  · rwa [unentered, List.nil_append]

private theorem WellFormed.cancel (formed : WellFormed opening d) (now : Micros) {event : AuditEvent}
    (active : d.job.status.active = true) (recorded : event.Records d.job .cancelled) :
    WellFormed opening ⟨d.job.cancel now, d.result, d.events ++ [event], d.entries⟩ := by
  have shape := formed.consistent
  have alive : ¬ d.job.Exhausted := by
    rintro ⟨failed, _⟩
    rw [failed] at active
    cases active
  obtain ⟨first, retries, opens, trail⟩ := formed.trail
  have counts := trail.counts
  have unfinished := formed.result
  have silent : d.job.lastError = none ∧ d.job.status ≠ .done ∧
      (d.job.attempts = retries ∨ d.job.attempts = retries + 1) := by
    rcases status : d.job.status with _ | _ | _ | _ | _ <;>
      simp only [Job.Consistent, Job.Counts, status] at shape counts
    · exact ⟨shape.2.2.1, by decide, .inl counts⟩
    · exact ⟨shape.2.2, by decide, .inr counts⟩
    all_goals rw [status] at active; cases active
  refine ⟨⟨⟨rfl, rfl⟩, silent.1⟩, ?_, ⟨first, retries, opens, trail.close active
    (by rw [recorded.eventType]; rfl) silent.2.2⟩, companies_append formed.companies recorded.companyId, ?_⟩
  · simpa [Job.cancel, silent.2.1] using unfinished
  · exact entered_of_alive formed.entries alive
      (not_exhausted_of_status (show (d.job.cancel now).status = .cancelled from rfl) (by decide))

private theorem WellFormed.retry (formed : WellFormed opening d) (traceId : Option String) (now : Micros)
    {event : AuditEvent} (failed : d.job.status = .failed) (left : d.job.attempts < MAX_ATTEMPTS)
    (recorded : event.Records d.job .retryRequested) :
    WellFormed opening ⟨d.job.retry traceId now, d.result, d.events ++ [event], d.entries⟩ := by
  have shape := formed.consistent
  simp only [Job.Consistent, failed] at shape
  obtain ⟨counted, _, _⟩ := shape
  have bound : d.job.attempts ≤ 2 := Nat.le_of_lt_succ left
  have unentered := formed.entries.nil (fun exhausted => by have := exhausted.2; omega)
  obtain ⟨first, retries, opens, trail⟩ := formed.trail
  have counts := trail.counts
  simp only [Job.Counts, failed] at counts
  refine ⟨⟨bound, ⟨rfl, rfl⟩, rfl, ?_⟩, ?_, ⟨first, retries + 1, opens, ?_, by omega, counts⟩,
    companies_append formed.companies recorded.companyId, ?_⟩
  · refine iff_of_false ?_ (show d.job.attempts ≠ 0 by omega)
    simp [Job.retry]
  · have unfinished := formed.result
    rw [failed] at unfinished
    simpa [Job.retry] using unfinished
  · rw [List.map_append, trail.word, failed]
    simp [retryCycles, closing, Job.retry, recorded.eventType]
  · rw [unentered]
    exact entered_of_not
      (not_exhausted_of_status (show (d.job.retry traceId now).status = .queued from rfl) (by decide))

/-- Every transition keeps a dossier well formed. -/
theorem Transition.wellFormed (step : Transition d after) (formed : WellFormed opening d) :
    WellFormed opening after := by
  cases step with
  | claim workerId now queued _ => exact formed.claim workerId now queued
  | renew now running => exact formed.renew now running
  | finish now running recorded => exact formed.finish now running recorded
  | fail error now running recorded exhausted => exact formed.fail error now running recorded exhausted
  | cancel now active recorded => exact formed.cancel now active recorded
  | retry traceId now failed left recorded => exact formed.retry traceId now failed left recorded

end Dossier

end JobRelay.Soundness
