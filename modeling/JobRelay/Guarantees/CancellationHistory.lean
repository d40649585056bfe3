import JobRelay.Model.AuditMigration

/-! # The history of cancellations across migration 0010

Both directions of the migration succeed on all contents that the constraints of the other schema allow, and keep
who cancelled which job of which company, and when. On the way up every job gets its one `submitted` event.
-/

namespace JobRelay.Guarantees

open Model Sessions JobAuditMigration

variable {base : Jobs}

section Purpose

/-- That a job was cancelled. -/
structure CancelledJob where
  jobId : ℕ
  companyId : ℕ
  actor : String
  time : Micros

def CancelledJob.ofAudit (audit : CancellationAudit) : CancelledJob :=
  ⟨audit.jobId, audit.companyId, audit.cancelledBy, audit.cancelledAt⟩

def CancelledJob.ofEvent (event : AuditEvent) : CancelledJob :=
  ⟨event.jobId, event.companyId, event.actor, event.occurredAt⟩

/-- The cancellations known under migration 0009. -/
def cancellationsOfAudits (contents : CancellationAudits base) : List CancelledJob :=
  contents.table.contents.map .ofAudit

/-- The cancellations known under migration 0010. -/
def cancellationsOfEvents (contents : JobAuditEvents base) : List CancelledJob :=
  (eventsOfType .cancelled contents.table.contents).map .ofEvent

/-- Every job has exactly one `submitted` event. -/
def EachSubmitted (contents : JobAuditEvents base) : Prop :=
  ∀ job ∈ base.jobs.rows, contents.table.contents.countP
    (fun event => decide (event.jobId = job.id ∧ event.eventType = .submitted)) = 1

end Purpose

section Selected

variable {eventType : EventType} {rows later : List AuditEvent}

theorem eventsOfType_append :
    eventsOfType eventType (rows ++ later) = eventsOfType eventType rows ++ eventsOfType eventType later :=
  List.filter_append ..

theorem eventsOfType_all (all : ∀ event ∈ rows, event.eventType = eventType) : eventsOfType eventType rows = rows :=
  List.filter_eq_self.mpr fun event member => decide_eq_true (all event member)

theorem eventsOfType_none (none : ∀ event ∈ rows, event.eventType ≠ eventType) : eventsOfType eventType rows = [] :=
  List.filter_eq_nil_iff.mpr fun event member => by simpa using none event member

theorem countP_submitted (jobId : ℕ) :
    rows.countP (fun event => decide (event.jobId = jobId ∧ event.eventType = .submitted)) =
      ((eventsOfType .submitted rows).map AuditEvent.jobId).count jobId := by
  rw [List.count, List.countP_map, eventsOfType, List.countP_filter]
  refine List.countP_congr fun event _ => ?_
  simp

/-- What the first statement of the file up inserts. -/
def cancelledRows (audits : List CancellationAudit) : List AuditEvent := numbered 1 (audits.map cancelledEvent)

/-- What the second inserts. -/
def submittedRows (first : ℕ) (jobs : List Job) : List AuditEvent := numbered first (jobs.map submittedEvent)

theorem eventType_of_cancelledRows {audits : List CancellationAudit} {event : AuditEvent}
    (member : event ∈ cancelledRows audits) : event.eventType = .cancelled := by
  obtain ⟨audit, _, id, rfl⟩ := mem_numbered member
  rfl

theorem eventType_of_submittedRows {first : ℕ} {jobs : List Job} {event : AuditEvent}
    (member : event ∈ submittedRows first jobs) : event.eventType = .submitted := by
  obtain ⟨job, _, id, rfl⟩ := mem_numbered member
  rfl

variable {audits : List CancellationAudit} {jobs : List Job} {first : ℕ}

theorem jobIds_of_cancelledRows : (cancelledRows audits).map AuditEvent.jobId = audits.map CancellationAudit.jobId :=
  map_numbered cancelledEvent _ _ (fun _ _ => rfl) 1 audits

theorem cancellations_of_cancelledRows :
    (cancelledRows audits).map CancelledJob.ofEvent = audits.map CancelledJob.ofAudit :=
  map_numbered cancelledEvent _ _ (fun _ _ => rfl) 1 audits

theorem jobIds_of_submittedRows : (submittedRows first jobs).map AuditEvent.jobId = jobs.map Job.id :=
  map_numbered submittedEvent _ _ (fun _ _ => rfl) first jobs

theorem cancelled_of_made :
    eventsOfType .cancelled (cancelledRows audits ++ submittedRows first jobs) = cancelledRows audits := by
  rw [eventsOfType_append, eventsOfType_all fun _ => eventType_of_cancelledRows, eventsOfType_none, List.append_nil]
  intro event member same
  rw [eventType_of_submittedRows member] at same
  cases same

theorem submitted_of_made :
    eventsOfType .submitted (cancelledRows audits ++ submittedRows first jobs) = submittedRows first jobs := by
  rw [eventsOfType_append, eventsOfType_all fun _ => eventType_of_submittedRows, eventsOfType_none, List.nil_append]
  intro event member same
  rw [eventType_of_cancelledRows member] at same
  cases same

end Selected

section Directions

variable (scans : Scans)

private theorem cancelledRows_valid {audits : List CancellationAudit}
    (valid : ∀ audit ∈ audits, base.References audit.jobId audit.companyId ∧ audit.accepted = true) :
    EventsValid base (cancelledRows audits) := by
  constructor
  · apply nodup_key_numbered
    intro row member n
    obtain ⟨audit, _, rfl⟩ := List.mem_map.mp member
    rfl
  · intro event member
    obtain ⟨audit, stored, id, rfl⟩ := mem_numbered member
    exact valid audit stored

/-- The rows of both statements draw from one sequence. -/
private theorem made_ids (audits : List CancellationAudit) (jobs : List Job) :
    ((cancelledRows audits ++ submittedRows (1 + audits.length) jobs).map AuditEvent.id).Nodup := by
  have joined := numbered_append 1 (audits.map cancelledEvent) (jobs.map submittedEvent)
  rw [List.length_map] at joined
  rw [cancelledRows, submittedRows, ← joined]
  apply nodup_key_numbered
  intro row member n
  rcases List.mem_append.mp member with first | second
  · obtain ⟨audit, _, rfl⟩ := List.mem_map.mp first
    rfl
  · obtain ⟨job, _, rfl⟩ := List.mem_map.mp second
    rfl

private theorem accepted_legacy (job : Job) (id : ℕ) : (submittedEvent job id).accepted = true := by
  have legacy : (decide (3 ≤ "system:legacy".length ∧ "system:legacy".length ≤ 100) &&
    !"system:legacy".toList.any isControl) = true := by decide
  exact legacy

private theorem made_valid {audits : List CancellationAudit} {jobs : List Job}
    (valid : ∀ audit ∈ audits, base.References audit.jobId audit.companyId ∧ audit.accepted = true)
    (stored : ∀ job ∈ jobs, job ∈ base.jobs.rows) :
    EventsValid base (cancelledRows audits ++ submittedRows (1 + audits.length) jobs) := by
  refine ⟨made_ids audits jobs, fun event member => ?_⟩
  rcases List.mem_append.mp member with first | second
  · exact (cancelledRows_valid valid).2 event first
  · obtain ⟨job, listed, id, rfl⟩ := mem_numbered second
    have row := stored job listed
    refine ⟨⟨?_, base.employed job row⟩, ?_⟩
    · rw [submittedEvent, Table.mem_rows_iff.mp row]
      rfl
    · exact accepted_legacy job id

/-- No job has a `submitted` event after the first statement. -/
private theorem unsubmitted_all (audits : List CancellationAudit) :
    base.jobs.rows.filter (unsubmitted (cancelledRows audits)) = base.jobs.rows := by
  apply List.filter_eq_self.mpr
  intro job _
  rw [unsubmitted, Bool.not_eq_true', List.any_eq_false]
  intro event member same
  have other := eventType_of_cancelledRows member
  rw [decide_eq_true_eq, other] at same
  cases same.2

/-- The migration succeeds, keeps the cancellations and gives every job one `submitted` event. -/
theorem up_spec (before : CancellationAudits base) : ∃ after, up scans before = some after ∧ EachSubmitted after ∧
    (cancellationsOfEvents after).Perm (cancellationsOfAudits before) := by
  obtain ⟨⟨rows, valid⟩⟩ := before
  have audits := scans.audits.perm rows
  have jobs := scans.jobs.perm base.jobs.rows
  have accepted : ∀ audit ∈ scans.audits.arrange rows,
      base.References audit.jobId audit.companyId ∧ audit.accepted = true :=
    fun audit member => valid.2.2 audit (audits.mem_iff.mp member)
  have made := made_valid accepted fun job member => jobs.mem_iff.mp member
  have submitted : UniqueIndex .submitted (cancelledRows (scans.audits.arrange rows) ++
      submittedRows (1 + (scans.audits.arrange rows).length) (scans.jobs.arrange base.jobs.rows)) := by
    rw [UniqueIndex, submitted_of_made, jobIds_of_submittedRows, (jobs.map Job.id).nodup_iff]
    exact base.jobs.unique
  have cancelled : UniqueIndex .cancelled (cancelledRows (scans.audits.arrange rows) ++
      submittedRows (1 + (scans.audits.arrange rows).length) (scans.jobs.arrange base.jobs.rows)) := by
    rw [UniqueIndex, cancelled_of_made, jobIds_of_cancelledRows, (audits.map CancellationAudit.jobId).nodup_iff]
    exact valid.2.1
  refine ⟨⟨⟨_, made⟩, submitted, cancelled⟩, ?_, ?_, ?_⟩
  · have first := @Constrained.insertSelect_nil _ _ _ (eventsValid_nil base) _ (cancelledRows_valid accepted)
    have second := check_of_valid made
    simp only [up, Option.bind_eq_bind]
    rw [← cancelledRows, first, Option.bind_some, unsubmitted_all, ← submittedRows, Constrained.insertSelect, second, Option.bind_some,
      dif_pos ⟨submitted, cancelled⟩]
  · intro job member
    rw [countP_submitted, submitted_of_made, jobIds_of_submittedRows, (jobs.map Job.id).count_eq]
    exact List.count_eq_one_of_mem base.jobs.unique (List.mem_map_of_mem member)
  · rw [cancellationsOfEvents, cancelled_of_made, cancellations_of_cancelledRows]
    exact audits.map _

/-- The way down succeeds and keeps the cancellations. -/
theorem down_spec (before : JobAuditEvents base) : ∃ after, down scans before = some after ∧
    (cancellationsOfAudits after).Perm (cancellationsOfEvents before) := by
  obtain ⟨⟨rows, valid⟩, submitted, cancelled⟩ := before
  have events := scans.events.perm (eventsOfType .cancelled rows)
  have made : AuditsValid base (numbered 1 ((scans.events.arrange (eventsOfType .cancelled rows)).map cancellationAudit)) := by
    refine ⟨?_, ?_, ?_⟩
    · apply nodup_key_numbered
      intro row member n
      obtain ⟨event, _, rfl⟩ := List.mem_map.mp member
      rfl
    · rw [map_numbered cancellationAudit _ AuditEvent.jobId fun _ _ => rfl, (events.map AuditEvent.jobId).nodup_iff]
      exact cancelled
    · intro audit member
      obtain ⟨event, listed, id, rfl⟩ := mem_numbered member
      exact valid.2 event (List.mem_filter.mp (events.mem_iff.mp listed)).1
  refine ⟨⟨_, made⟩, ?_, ?_⟩
  · simp only [down, Option.bind_eq_bind]
    rw [@Constrained.insertSelect_nil _ _ _ (auditsValid_nil base) _ made, Option.bind_some]
  · rw [cancellationsOfAudits, map_numbered cancellationAudit _ CancelledJob.ofEvent fun _ _ => rfl]
    exact events.map _

end Directions

/-- Migration 0010 and its reversal succeed on all contents, in whatever order their queries return the rows. Up and
down again gives the cancellation audits that were there; down and up again the cancellations that were known. Each
time up, every job gets exactly one `submitted` event. -/
theorem cancellations_survive :
    (∀ scans (before : CancellationAudits base), ∃ migrated, up scans before = some migrated ∧ EachSubmitted migrated ∧
      ∀ scans', ∃ after, down scans' migrated = some after ∧
        (cancellationsOfAudits after).Perm (cancellationsOfAudits before)) ∧
    ∀ scans (before : JobAuditEvents base), ∃ reverted, down scans before = some reverted ∧
      ∀ scans', ∃ after, up scans' reverted = some after ∧ EachSubmitted after ∧
        (cancellationsOfEvents after).Perm (cancellationsOfEvents before) := by
  constructor
  · intro scans before
    obtain ⟨migrated, up, submitted, same⟩ := up_spec scans before
    refine ⟨migrated, up, submitted, fun scans' => ?_⟩
    obtain ⟨after, down, same'⟩ := down_spec scans' migrated
    exact ⟨after, down, same'.trans same⟩
  · intro scans before
    obtain ⟨reverted, down, same⟩ := down_spec scans before
    refine ⟨reverted, down, fun scans' => ?_⟩
    obtain ⟨after, up, submitted, same'⟩ := up_spec scans' reverted
    exact ⟨after, up, submitted, same'.trans same⟩

end JobRelay.Guarantees
