import JobRelay.Model.Schema
import JobRelay.Sessions.Constraints

/-! # The migration `0010_job_audit_events`

The contents of the database before and after the migration, in the tables that it reads and writes, and what its
two files do: each creates the other's table, fills it from its own and drops that. A file fails as a whole where
an inserted row or an index meets a violated constraint. A `SELECT` returns its rows in any order.
-/

namespace JobRelay.Model

open Sessions

/-- The tables that the migration leaves as they are. -/
structure Jobs where
  companies : Table Company.id
  jobs : Table Job.id
  /-- `company_id INT NOT NULL REFERENCES companies(id)` -/
  employed : ∀ job ∈ jobs.rows, (companies.find? job.companyId).isSome = true

/-- A row of `job_cancellation_audits`. -/
structure CancellationAudit where
  id : ℕ
  jobId : ℕ
  companyId : ℕ
  cancelledBy : String
  cancelledAt : Micros
deriving DecidableEq

/-- `ck_job_cancellation_audits_actor` -/
def CancellationAudit.accepted (audit : CancellationAudit) : Bool :=
  decide (3 ≤ audit.cancelledBy.length ∧ audit.cancelledBy.length ≤ 100) && !audit.cancelledBy.toList.any isControl

variable (base : Jobs)

/-- The foreign keys of both tables. -/
def Jobs.References (jobId companyId : ℕ) : Prop :=
  (base.jobs.find? jobId).isSome = true ∧ (base.companies.find? companyId).isSome = true

instance (jobId companyId : ℕ) : Decidable (base.References jobId companyId) := inferInstanceAs (Decidable (_ ∧ _))

/-- The constraints of `job_cancellation_audits`. -/
def AuditsValid (rows : List CancellationAudit) : Prop :=
  (rows.map CancellationAudit.id).Nodup ∧ (rows.map CancellationAudit.jobId).Nodup ∧
    ∀ row ∈ rows, base.References row.jobId row.companyId ∧ row.accepted = true

instance : DecidablePred (AuditsValid base) := fun _ => inferInstanceAs (Decidable (_ ∧ _))

/-- The constraints in the `CREATE TABLE` of `job_audit_events`. -/
def EventsValid (rows : List AuditEvent) : Prop :=
  (rows.map AuditEvent.id).Nodup ∧ ∀ row ∈ rows, base.References row.jobId row.companyId ∧ row.accepted = true

instance : DecidablePred (EventsValid base) := fun _ => inferInstanceAs (Decidable (_ ∧ _))

theorem auditsValid_nil : AuditsValid base [] := ⟨List.nodup_nil, List.nodup_nil, by simp⟩

theorem eventsValid_nil : EventsValid base [] := ⟨List.nodup_nil, by simp⟩

/-- The events of a type. -/
def eventsOfType (eventType : EventType) (rows : List AuditEvent) : List AuditEvent :=
  rows.filter fun event => decide (event.eventType = eventType)

/-- `UNIQUE INDEX ... ON job_audit_events (job_id) WHERE event_type = ...` -/
def UniqueIndex (eventType : EventType) (rows : List AuditEvent) : Prop :=
  ((eventsOfType eventType rows).map AuditEvent.jobId).Nodup

instance (eventType : EventType) (rows : List AuditEvent) : Decidable (UniqueIndex eventType rows) :=
  inferInstanceAs (Decidable (List.Nodup _))

/-- The contents under migration 0009. -/
structure CancellationAudits where
  table : Constrained (AuditsValid base)

/-- The contents under migration 0010. -/
structure JobAuditEvents where
  table : Constrained (EventsValid base)
  submitted : UniqueIndex .submitted table.contents
  cancelled : UniqueIndex .cancelled table.contents

/-- The orders in which the queries return their rows. -/
structure Scans where
  audits : Scan CancellationAudit
  jobs : Scan Job
  events : Scan AuditEvent

namespace JobAuditMigration

def cancelledEvent (audit : CancellationAudit) (id : ℕ) : AuditEvent where
  id := id
  jobId := audit.jobId
  companyId := audit.companyId
  eventType := .cancelled
  actor := audit.cancelledBy
  occurredAt := audit.cancelledAt
  traceId := none

def submittedEvent (job : Job) (id : ℕ) : AuditEvent where
  id := id
  jobId := job.id
  companyId := job.companyId
  eventType := .submitted
  actor := "system:legacy"
  occurredAt := job.createdAt
  traceId := job.traceId

def cancellationAudit (event : AuditEvent) (id : ℕ) : CancellationAudit where
  id := id
  jobId := event.jobId
  companyId := event.companyId
  cancelledBy := event.actor
  cancelledAt := event.occurredAt

/-- `NOT EXISTS (SELECT 1 FROM job_audit_events AS a WHERE a.job_id = j.id AND a.event_type = 'submitted')` -/
def unsubmitted (events : List AuditEvent) (job : Job) : Bool :=
  !events.any fun event => decide (event.jobId = job.id ∧ event.eventType = .submitted)

variable {base} (scans : Scans)

/-- `0010_job_audit_events.sql` -/
def up (before : CancellationAudits base) : Option (JobAuditEvents base) := do
  let created : Constrained (EventsValid base) := ⟨[], eventsValid_nil base⟩
  let audits := scans.audits.arrange before.table.contents
  let events ← created.insertSelect (numbered 1 (audits.map cancelledEvent))
  let jobs := scans.jobs.arrange (base.jobs.rows.filter (unsubmitted events.contents))
  let events ← events.insertSelect (numbered (1 + audits.length) (jobs.map submittedEvent))
  if indexed : UniqueIndex .submitted events.contents ∧ UniqueIndex .cancelled events.contents then
    some ⟨events, indexed.1, indexed.2⟩
  else none

/-- `0010_job_audit_events.down.sql` -/
def down (before : JobAuditEvents base) : Option (CancellationAudits base) := do
  let created : Constrained (AuditsValid base) := ⟨[], auditsValid_nil base⟩
  let events := scans.events.arrange (eventsOfType .cancelled before.table.contents)
  let audits ← created.insertSelect (numbered 1 (events.map cancellationAudit))
  some ⟨audits⟩

end JobAuditMigration

end JobRelay.Model
