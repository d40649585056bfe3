import JobRelay.Soundness.Deployment

/-! # The rows of the jobs

In every reachable database the status of a job determines its attempts, its lease, its last error and
its next attempt, and no step changes a status except along six arrows.
-/

namespace JobRelay.Guarantees

open Model Sessions Soundness

/-- The arrows of the status diagram. -/
inductive Arrow : JobStatus → JobStatus → Prop
  | claim : Arrow .queued .running
  | cancelQueued : Arrow .queued .cancelled
  | finish : Arrow .running .done
  | fail : Arrow .running .failed
  | cancelRunning : Arrow .running .cancelled
  | retry : Arrow .failed .queued

variable {admits : Request → Bool} {start world : Service}

/-- A transition of a job stays at its status or follows an arrow. -/
theorem arrow_of_transition {d after : Dossier} (step : Dossier.Transition d after) :
    after.job.status = d.job.status ∨ Arrow d.job.status after.job.status := by
  rcases step.status with h | h | h | h | h | h | h <;> rw [h.1, h.2]
  · exact .inr .claim
  · exact .inr .cancelQueued
  · exact .inl rfl
  · exact .inr .finish
  · exact .inr .fail
  · exact .inr .cancelRunning
  · exact .inr .retry

/-- A stored job stays, at its status or along an arrow. -/
theorem arrow_of_jobStep {opening : List EventType → Prop} {s after : Store} {row : Job}
    (step : JobStep opening s after row.id) (stored : s.job? row.id = some row) :
    ∃ row', after.job? row.id = some row' ∧ (row'.status = row.status ∨ Arrow row.status row'.status) := by
  cases step with
  | same job _ => exact ⟨row, job.trans stored, .inl rfl⟩
  | created absent => rw [absent] at stored; cases stored
  | @moved d d' before stored' step =>
    have same := Store.job?_of_dossier before
    rw [stored] at same
    cases same
    exact ⟨d'.job, Store.job?_of_dossier stored', arrow_of_transition step⟩

/-- Every stored job is consistent, and a step changes statuses only along the arrows; a new job is
queued. -/
theorem job_rows (fresh : Fresh start) (reached : World.Reaches (service admits) start world) :
    (∀ row ∈ world.state.jobs.rows, row.Consistent) ∧
    ∀ (action : Step) next, world.step (service admits) action = some next →
      (∀ row ∈ world.state.jobs.rows, ∃ row', next.state.job? row.id = some row' ∧
        (row'.status = row.status ∨ Arrow row.status row'.status)) ∧
      ∀ row' ∈ next.state.jobs.rows, world.state.job? row'.id = none → row'.status = .queued := by
  constructor
  · intro row member
    exact (reachable_valid fresh reached).consistent (Store.mem_jobs.mp member)
  · intro action next stepped
    constructor
    · intro row member
      exact arrow_of_jobStep (reachable_jobStep fresh reached stepped row.id) (Store.mem_jobs.mp member)
    · intro row' member absent
      rcases (reachable_jobStep fresh reached stepped row'.id).before (Store.mem_jobs.mp member) with
        ⟨row, stored, _⟩ | ⟨_, _, queued, _⟩
      · rw [absent] at stored
        cases stored
      · exact queued

/-- A deployment of one company that may run one job at a time. -/
def office : Service where
  state :=
    { companies := ⟨[⟨1, "Acme", 1, 100, by decide⟩], by decide⟩, jobs := .empty 1, results := .empty,
      audits := .empty 1, deadLetters := .empty 1, notified := [], clock := 0,
      isSpace := fun c => decide (c = ' '), history := [] }
  procs := .empty

theorem office_fresh : Fresh office := ⟨rfl, rfl, rfl, fun _ member => (nomatch member), rfl, rfl⟩

/-- A process executes its next statements, and nothing unusual happens. -/
def statements (pid count : ℕ) : List Step := List.replicate count (.exec pid ⟨[], 0, none, none⟩)

/-- A client submits a job under a key. -/
def submission (pid : ℕ) (key : String) : List Step :=
  .start pid (.request (.createJob 1 "report" none key (some "1:user"))) ::
    statements pid 9 ++ [.finish pid]

/-- A client submits a job and a worker finishes it. -/
def finishedJob : List Step :=
  .spawn 0 .client :: submission 0 "a" ++
    [.spawn 1 (.draining 1), .start 1 .processNext] ++ statements 1 23 ++ [.finish 1]

theorem job_rows_office : ∃ world,
    office.runActions (service fun _ => true) finishedJob = some world ∧
    world.state.jobs.rows.map Job.status = [.done] ∧ ∀ row ∈ world.state.jobs.rows, row.Consistent := by
  have statuses : (office.runActions (service fun _ => true) finishedJob).map
      (fun world => world.state.jobs.rows.map Job.status) = some [.done] := by decide +kernel
  obtain ⟨world, ran, same⟩ := Option.map_eq_some_iff.mp statuses
  exact ⟨world, ran, same, (job_rows office_fresh ⟨finishedJob, ran⟩).1⟩

end JobRelay.Guarantees
