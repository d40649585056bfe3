import JobRelay.Guarantees.JobRows

/-! # Results and quota

A job has a result exactly when it is done, and the quota of a company has paid once for each of its
done jobs. A job that is done or cancelled is never touched again, so no late worker adds a result or
a debit.
-/

namespace JobRelay.Guarantees

open Model Sessions Soundness

variable {admits : Request → Bool} {start world : Service}

/-- No transition leaves a job that is done or cancelled. -/
theorem settled_jobStep {opening : List EventType → Prop} {s after : Store} {row : Job}
    (step : JobStep opening s after row.id) (stored : s.job? row.id = some row)
    (settled : row.status = .done ∨ row.status = .cancelled) :
    after.job? row.id = some row ∧ after.results.find? row.id = s.results.find? row.id := by
  cases step with
  | same job traces =>
    simp only [Store.traces, Prod.mk.injEq] at traces
    exact ⟨job.trans stored, traces.1⟩
  | created absent => rw [absent] at stored; cases stored
  | moved before _ step =>
    have same := Store.job?_of_dossier before
    rw [stored] at same
    cases same
    rcases step.status with h | h | h | h | h | h | h <;> rw [h.1] at settled <;>
      rcases settled with done | cancelled <;> first | cases done | cases cancelled

/-- Results exist exactly for done jobs, once each, each company has paid for its done jobs, and a
settled job keeps its row and its result. -/
theorem results_and_quota (fresh : Fresh start)
    (reached : World.Reaches (service admits) start world) :
    (∀ jobId, (world.state.results.rows.filter fun result => decide (result.jobId = jobId)).length ≤ 1) ∧
    (∀ row ∈ world.state.jobs.rows,
      (∃ result ∈ world.state.results.rows, result.jobId = row.id) ↔ row.status = .done) ∧
    (∀ companyId, world.state.company? companyId = (start.state.company? companyId).map fun company =>
      { company with jobQuota := company.jobQuota - world.state.doneCount companyId }) ∧
    ∀ later, World.Reaches (service admits) world later → ∀ row ∈ world.state.jobs.rows,
      row.status = .done ∨ row.status = .cancelled → later.state.job? row.id = some row ∧
        later.state.results.find? row.id = world.state.results.find? row.id := by
  have valid := reachable_valid fresh reached
  refine ⟨?_, ?_, valid.companies, ?_⟩
  · intro jobId
    by_cases present : ∃ result ∈ world.state.results.rows, result.jobId = jobId
    · obtain ⟨result, member, rfl⟩ := present
      rw [filter_of_nodup world.state.results.unique member, List.length_singleton]
    · have none : world.state.results.rows.filter (fun result => decide (result.jobId = jobId)) = [] := by
        rw [List.filter_eq_nil_iff]
        exact fun result member same => present ⟨result, member, of_decide_eq_true same⟩
      rw [none]
      exact Nat.zero_le 1
  · intro row member
    rw [valid.done_iff (Store.mem_jobs.mp member), Option.isSome_iff_exists]
    constructor
    · rintro ⟨result, inside, same⟩
      exact ⟨result, Table.find?_of_key inside same⟩
    · rintro ⟨result, found⟩
      exact ⟨result, Table.find?_mem found, Table.find?_key found⟩
  · intro later reached' row member settled
    have stored := Store.mem_jobs.mp member
    refine later_preserves fresh reached reached' (P := fun s => s.job? row.id = some row ∧
      s.results.find? row.id = world.state.results.find? row.id) ⟨stored, rfl⟩ ?_
    rintro before after _ step ⟨kept, same⟩
    obtain ⟨kept', same'⟩ := settled_jobStep (step row.id) kept settled
    exact ⟨kept', same'.trans same⟩

theorem results_and_quota_office : ∃ world,
    office.runActions (service fun _ => true) finishedJob = some world ∧
    world.state.results.rows.map JobResult.jobId = [1] ∧
    (world.state.company? 1).map Company.jobQuota = some (100 - 1) := by
  have results : (office.runActions (service fun _ => true) finishedJob).map
      (fun world => (world.state.results.rows.map JobResult.jobId, world.state.doneCount 1)) =
        some ([1], 1) := by decide +kernel
  obtain ⟨world, ran, same⟩ := Option.map_eq_some_iff.mp results
  rw [Prod.mk.injEq] at same
  refine ⟨world, ran, same.1, ?_⟩
  rw [(results_and_quota office_fresh ⟨finishedJob, ran⟩).2.2.1 1, same.2]
  rfl

end JobRelay.Guarantees
