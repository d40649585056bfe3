import JobRelay.Sessions.Contract
import JobRelay.Model.Processes
import JobRelay.Soundness.Interference
import JobRelay.Sessions.Triples
import JobRelay.Soundness.Bodies
import JobRelay.Soundness.Requests
import JobRelay.Soundness.Attempts
import JobRelay.Soundness.Deployment
import JobRelay.Guarantees.JobRows
import JobRelay.Guarantees.Settlement
import JobRelay.Guarantees.AuditTrail
import JobRelay.Guarantees.Fencing
import JobRelay.Guarantees.Limit
import JobRelay.Sessions.Residual
import JobRelay.Soundness.Calls
import JobRelay.Guarantees.Admission
import JobRelay.Guarantees.Idempotency
import JobRelay.Sessions.Tracks
import JobRelay.Soundness.Listeners
import JobRelay.Guarantees.Sleep
import JobRelay.Sessions.Traces
import JobRelay.Soundness.Reports
import JobRelay.Guarantees.Diagnosis
import JobRelay.Guarantees.Snapshots
import JobRelay.Model.Text
import JobRelay.Model.WebTypes
import JobRelay.Soundness.Origins
import JobRelay.Guarantees.SubmitButton
import JobRelay.Soundness.Recording
import JobRelay.Guarantees.Chronology
import JobRelay.Model.Heartbeat
import JobRelay.Guarantees.Lease
import JobRelay.Model.RowLocks
import JobRelay.Soundness.RowLocks
import JobRelay.Guarantees.Deadlocks
import JobRelay.Sessions.Sent
import JobRelay.Soundness.Texts
import JobRelay.Guarantees.Decoding
import JobRelay.Model.Supervision
import JobRelay.Guarantees.Supervision
import JobRelay.Guarantees.Migrations
import JobRelay.Model.CancellationMonitor
import JobRelay.Soundness.Cancellations
import JobRelay.Guarantees.Cancellation
import JobRelay.Guarantees.Authentication
import JobRelay.Sessions.Queries
import JobRelay.Model.Listings
import JobRelay.Guarantees.Paging
import JobRelay.Guarantees.Ranges
import JobRelay.Model.NextStatement
import JobRelay.Guarantees.NextStatements
import JobRelay.Guarantees.RollbackOrder
import JobRelay.Model.AuditMigration
import JobRelay.Guarantees.CancellationHistory
import JobRelay.Model.ValidationMigration
import JobRelay.Guarantees.Backfill
import JobRelay.Guarantees.Drain
import JobRelay.Sessions.Histories
import JobRelay.Soundness.Outcomes
import JobRelay.Soundness.Endings
import JobRelay.Guarantees.Outcomes
import JobRelay.Guarantees.Bystanders
import JobRelay.Guarantees.Isolation
import JobRelay.Guarantees.Attempts
import JobRelay.Guarantees.Replies
import JobRelay.Model.WorkerMain
import JobRelay.Guarantees.WorkerMain
import JobRelay.Model.EnvFile
import JobRelay.Guarantees.EnvFile
import JobRelay.Guarantees.WebPages
import JobRelay.Guarantees.JobsPanel
