import JobRelay.Model.CancellationMonitor
import JobRelay.Soundness.Deployment

/-! # Cancellations are announced

A step of the services cancels exactly the jobs whose cancellation it announces, and a cancelled job stays so.
-/

namespace JobRelay.Soundness

open Model Model.CancellationMonitor Sessions

variable {admits : Request → Bool} {start world next : Service}

theorem cancelled_iff {s : Store} {jobId : ℕ} :
    s.cancelled jobId = true ↔ ∃ row, s.job? jobId = some row ∧ row.status = .cancelled := by
  rw [Store.cancelled, decide_eq_true_eq, Option.map_eq_some_iff]

/-- The log of notifications grew, and what is cancelled was cancelled or is announced in the growth. -/
def Signalled (s after : Store) : Prop :=
  ∃ news, after.notified = s.notified ++ news ∧
    ∀ jobId, after.cancelled jobId = true ↔ s.cancelled jobId = true ∨ jobId ∈ payloads news

theorem Signalled.of_same {s after : Store} (notified : after.notified = s.notified)
    (job : ∀ jobId, after.job? jobId = s.job? jobId) : Signalled s after := by
  refine ⟨[], by rw [notified, List.append_nil], fun jobId => ?_⟩
  rw [Store.cancelled, Store.cancelled, job]
  exact (or_iff_left List.not_mem_nil).symm

/-- What a row that a commit writes says of cancellation. -/
private theorem Commit.cancelling {pid : ℕ} {tx : Tx} {s : Store} {label : Label} (commit : Commit admits pid tx s label) :
    (∃ row, tx.writes.filterMap Write.job? = [row] ∧ row.status = .cancelled ∧
      payloads (tx.writes.filterMap Write.notification?) = [row.id]) ∨
    ((∀ row ∈ tx.writes.filterMap Write.job?, row.status ≠ .cancelled) ∧
      payloads (tx.writes.filterMap Write.notification?) = []) := by
  cases commit with
  | @cancel row _ _ _ stored active recorded writes =>
    left
    rw [writes]
    refine ⟨row.cancel tx.now, ?_, rfl, ?_⟩ <;>
      simp [List.filterMap_cons, Write.job?, Write.notification?, Job.cancel, payloads]
  | quiet writes =>
    right
    rw [writes]
    constructor <;> simp [payloads]
  | create admitted writes =>
    right
    rw [writes]
    constructor <;> simp [List.filterMap_cons, Write.job?, Write.notification?, Job.new, payloads]
  | retry _ _ _ _ writes | claim _ _ _ writes | finish _ _ _ _ _ _ _ _ writes =>
    right
    rw [writes]
    constructor <;> simp [List.filterMap_cons, Write.job?, Write.notification?, Job.retry, Job.claim, Job.finish, payloads]
  | renew _ running _ _ _ writes =>
    right
    rw [writes]
    constructor <;> simp [List.filterMap_cons, Write.job?, Write.notification?, Job.renew, running, payloads]
  | fail valid _ _ _ writes =>
    right
    rw [writes, Failing.writes_job?, Failing.writes_notification?]
    constructor <;> simp [Job.fail, payloads]
  | recover _ valid writes =>
    right
    rw [writes, Failing.writes_job?, Failing.writes_notification?]
    constructor <;> simp [Job.fail, payloads]

/-- A cancelled job is never written again. -/
private theorem cancelled_keeps {s after : Store} {jobId : ℕ} (step : JobStep (Opening admits) s after jobId)
    (cancelled : s.cancelled jobId = true) : after.cancelled jobId = true := by
  obtain ⟨row, stored, status⟩ := cancelled_iff.mp cancelled
  cases step with
  | same job => exact cancelled_iff.mpr ⟨row, job.trans stored, status⟩
  | created absent =>
    rw [absent] at stored
    cases stored
  | moved before _ step =>
    have same := Store.job?_of_dossier before
    rw [stored] at same
    cases same
    rcases step.status with h | h | h | h | h | h | h <;> rw [h.1] at status <;> cases status

private theorem Commit.signalled {pid : ℕ} {tx : Tx} {s : Store} {label : Label} (commit : Commit admits pid tx s label)
    (opened : tx.Open s) (orphans : NoOrphans s) : Signalled s (tx.view s) := by
  refine ⟨_, foldl_notified s tx.writes, fun jobId => ?_⟩
  have kept := fun jobId => cancelled_keeps (commit.jobStep orphans opened jobId)
  rcases commit.cancelling with ⟨row, job, status, announced⟩ | ⟨others, silent⟩
  · have cancels : (tx.view s).cancelled row.id = true := by
      refine cancelled_iff.mpr ⟨row, Entitled.job?_of_unique opened ?_ ?_, status⟩
      · rw [job]
        exact List.nodup_singleton _
      · rw [job]
        exact List.mem_singleton_self row
    rw [announced, List.mem_singleton]
    constructor
    · intro cancelled
      obtain ⟨after, stored, status'⟩ := cancelled_iff.mp cancelled
      rcases Entitled.job?_cases opened stored with written | before
      · rw [job, List.mem_singleton] at written
        rw [← written, Store.job?_id stored]
        exact .inr rfl
      · exact .inl (cancelled_iff.mpr ⟨after, before, status'⟩)
    · rintro (before | rfl)
      · exact kept jobId before
      · exact cancels
  · rw [silent, or_iff_left List.not_mem_nil]
    refine ⟨fun cancelled => ?_, kept jobId⟩
    obtain ⟨after, stored, status⟩ := cancelled_iff.mp cancelled
    rcases Entitled.job?_cases opened stored with written | before
    · exact absurd status (others after written)
    · exact cancelled_iff.mpr ⟨after, before, status⟩

theorem reachable_signalled (fresh : Fresh start) (reached : World.Reaches (service admits) start world)
    {action : Step} (stepped : world.step (service admits) action = some next) :
    Signalled world.state next.state := by
  have moved := reachable_moved fresh reached stepped
  generalize next.state = after at moved
  cases moved with
  | same unchanged =>
    rw [unchanged]
    exact .of_same rfl fun _ => rfl
  | environment event _ moved =>
    rw [moved]
    cases event
    exact .of_same rfl fun _ => rfl
  | guar pid tx _ guar _ =>
    cases guar with
    | drawn drawn => cases drawn <;> exact .of_same rfl fun _ => rfl
    | commit opened commit =>
      obtain ⟨news, grown, cancelled⟩ := commit.signalled opened (reachable_valid fresh reached).orphans
      exact ⟨news, grown, cancelled⟩
    | aborted _ => exact .of_same rfl fun _ => rfl
    | processed => exact .of_same rfl fun _ => rfl

end JobRelay.Soundness
