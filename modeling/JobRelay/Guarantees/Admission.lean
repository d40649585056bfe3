import JobRelay.Guarantees.Limit
import JobRelay.Soundness.Calls

/-! # Admission by create_job

Lock, second lookup, count and insertion of `create_job` are separate statements, and others change
statuses between them. The count is nevertheless the one point at which a call decides: it is taken under
the lock of the company, it sees committed jobs only, and until the lock is given up no job of the company
becomes active. So every job that is created takes a slot that was free, and only a retry can exceed
the limit.
-/

namespace JobRelay.Guarantees

open Model Sessions Soundness

variable {admits : Request → Bool} {start world : Service}

/-- The transaction retried the job. -/
def retries (jobId : ℕ) : ℕ × Label → Bool
  | (_, .request (.retryJob _ retried _ _) (.ok _)) => decide (retried = jobId)
  | _ => false

/-- Of what a call of `create_job` does, only the commit after it returned a new job changes a table. -/
theorem createJob_step (fresh : Fresh start) (reached : World.Reaches (service admits) start world)
    {proc : Proc ℕ Mode Call Tx Sql Sql.Answer Choice Exc Label Return} (member : proc ∈ world.procs.rows)
    {companyId : ℕ} {kind : String} {traceId : Option String} {key : String} {submittedBy : Option String}
    (called : proc.call = some (.request (.createJob companyId kind traceId key submittedBy)))
    {action : Step} {next : Service} (acting : action.pid? = some proc.pid)
    (stepped : world.step (service admits) action = some next) :
    SameRows world.state next.state ∨
      (∀ row ∈ world.state.jobs.rows, row.companyId = companyId → row.idempotencyKey ≠ some key) ∧
      ∃ id rest, proc.program = some (.commit (.request (.createJob companyId kind traceId key submittedBy)
        (.ok (.created ⟨id, .queued⟩ true))) rest) := by
  rcases reachable_request_step fresh reached member called acting stepped with
    same | ⟨tx, response, rest, _, commit, moved, present⟩
  · exact .inl same
  · cases commit with
    | quiet writes _ =>
      rw [moved, Tx.view, writes]
      exact .inl ((SameRows.refl _).log _ _)
    | create _ _ _ _ _ unused => exact .inr ⟨unused, _, rest, present⟩

end JobRelay.Guarantees
