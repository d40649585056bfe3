import JobRelay.Guarantees.Settlement

/-! # The dead-letter queue

The queue holds exactly the jobs that failed at their last attempt, each once and as its row says, and
neither such an entry nor such a job ever changes.
-/

namespace JobRelay.Guarantees

open Model Sessions Soundness

variable {admits : Request → Bool} {start world : Service}

/-- No transition touches an exhausted job or its entries. -/
theorem exhausted_jobStep {opening : List EventType → Prop} {s after : Store} {row : Job}
    (step : JobStep opening s after row.id) (stored : s.job? row.id = some row)
    (exhausted : row.Exhausted) :
    after.job? row.id = some row ∧ after.entriesOf row.id = s.entriesOf row.id := by
  cases step with
  | same job traces =>
    simp only [Store.traces, Prod.mk.injEq] at traces
    exact ⟨job.trans stored, traces.2.2⟩
  | created absent => rw [absent] at stored; cases stored
  | moved before _ step =>
    have same := Store.job?_of_dossier before
    rw [stored] at same
    cases same
    exact absurd exhausted step.not_exhausted

/-- The entries of a job are one matching entry if it is exhausted, and none otherwise. -/
theorem entries_of_job (fresh : Fresh start) (reached : World.Reaches (service admits) start world)
    {row : Job} (member : row ∈ world.state.jobs.rows) :
    Dossier.Entered row (world.state.entriesOf row.id) :=
  ((reachable_valid fresh reached).wellFormed (Store.mem_jobs.mp member)).entries

/-- The queue is the set of exhausted jobs, once each and as their rows say, for good. -/
theorem dead_letters (fresh : Fresh start) (reached : World.Reaches (service admits) start world) :
    (∀ row ∈ world.state.jobs.rows,
      (∃ entry ∈ world.state.deadLetters.rows, entry.jobId = some row.id) ↔
        row.status = .failed ∧ row.attempts = 3) ∧
    (∀ row ∈ world.state.jobs.rows, row.status = .failed → row.attempts = 3 →
      ∃ entry, world.state.entriesOf row.id = [entry] ∧ entry.companyId = row.companyId ∧
        entry.kind = row.kind ∧ entry.attempts = row.attempts ∧ entry.traceId = row.traceId ∧
        entry.lastError = row.lastError) ∧
    (∀ entry ∈ world.state.deadLetters.rows, ∀ jobId, entry.jobId = some jobId →
      ∃ row, world.state.job? jobId = some row) ∧
    ∀ later, World.Reaches (service admits) world later → ∀ row ∈ world.state.jobs.rows,
      row.status = .failed → row.attempts = 3 → later.state.job? row.id = some row ∧
        later.state.entriesOf row.id = world.state.entriesOf row.id := by
  have valid := reachable_valid fresh reached
  refine ⟨?_, ?_, ?_, ?_⟩
  · intro row member
    have entered := entries_of_job fresh reached member
    constructor
    · rintro ⟨entry, inside, owner⟩
      by_contra alive
      have listed : entry ∈ world.state.entriesOf row.id :=
        List.mem_filter.mpr ⟨inside, decide_eq_true owner⟩
      rw [entered.nil alive] at listed
      cases listed
    · intro exhausted
      obtain ⟨entry, only, records⟩ := entered.single exhausted
      have listed : entry ∈ world.state.entriesOf row.id := by
        rw [only]
        exact List.mem_singleton_self entry
      exact ⟨entry, (List.mem_filter.mp listed).1, records.jobId⟩
  · intro row member failed last
    obtain ⟨entry, only, records⟩ := (entries_of_job fresh reached member).single ⟨failed, last⟩
    exact ⟨entry, only, records.companyId, records.kind, records.attempts, records.traceId,
      records.lastError⟩
  · intro entry inside jobId owner
    by_contra absent
    have unknown : world.state.job? jobId = none := by
      rw [Option.eq_none_iff_forall_ne_some]
      exact fun row stored => absent ⟨row, stored⟩
    have silent := valid.orphans jobId unknown
    simp only [Store.traces, Prod.mk.injEq] at silent
    have listed : entry ∈ world.state.entriesOf jobId :=
      List.mem_filter.mpr ⟨inside, decide_eq_true owner⟩
    rw [silent.2.2] at listed
    cases listed
  · intro later reached' row member failed last
    have stored := Store.mem_jobs.mp member
    refine later_preserves fresh reached reached' (P := fun s => s.job? row.id = some row ∧
      s.entriesOf row.id = world.state.entriesOf row.id) ⟨stored, rfl⟩ ?_
    rintro before after _ step ⟨kept, same⟩
    obtain ⟨kept', same'⟩ := exhausted_jobStep (step row.id) kept ⟨failed, last⟩
    exact ⟨kept', same'.trans same⟩

/-- A worker claims a job and loses its connection while it runs; the failure takes so many statements. -/
def failedAttempt (count : ℕ) : List Step :=
  .start 1 .processNext :: statements 1 11 ++ [.fail 1 (.operational "connection lost")] ++
    statements 1 count ++ [.finish 1]

/-- A client retries the first job, and its delay passes. -/
def retriedAfter (delay : ℕ) : List Step :=
  .start 0 (.request (.retryJob 1 1 "1:user" none)) :: statements 0 5 ++
    [.finish 0, .environment (.advance (delay * 1000000))]

/-- A job that fails three times. -/
def exhaustedJob : List Step :=
  .spawn 0 .client :: submission 0 "a" ++ [.spawn 1 (.draining 1)] ++ failedAttempt 8 ++ retriedAfter 5 ++
    failedAttempt 8 ++ retriedAfter 10 ++ failedAttempt 9

theorem dead_letters_office : ∃ world row entry,
    office.runActions (service fun _ => true) exhaustedJob = some world ∧
    world.state.job? 1 = some row ∧ world.state.entriesOf 1 = [entry] ∧ entry.lastError = row.lastError ∧
    row.lastError = some "OperationalError: connection lost" := by
  have rows : (office.runActions (service fun _ => true) exhaustedJob).map
      (fun world => (world.state.job? 1).map fun row => (row.status, row.attempts, row.lastError)) =
        some (some (.failed, 3, some "OperationalError: connection lost")) := by decide +kernel
  obtain ⟨world, ran, found⟩ := Option.map_eq_some_iff.mp rows
  obtain ⟨row, stored, same⟩ := Option.map_eq_some_iff.mp found
  simp only [Prod.mk.injEq] at same
  have id : row.id = 1 := Store.job?_id stored
  obtain ⟨entry, only, _, _, _, _, error⟩ := (dead_letters office_fresh ⟨exhaustedJob, ran⟩).2.1 row
    (Table.find?_mem stored) same.1 same.2.1
  rw [id] at only
  exact ⟨world, row, entry, ran, stored, only, error, same.2.2⟩

end JobRelay.Guarantees
