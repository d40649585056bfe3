import JobRelay.Guarantees.DeadLetters

/-! # The audit trail

Where jobs are created through the route, the events of a job read `submitted`, then `failed` and
`retry_requested` at most twice, then at most one closing event, and they determine the status of the
job and, up to a cancelled attempt, its attempts.
-/

namespace JobRelay.Guarantees

open Model Sessions Soundness

variable {start world : Service}

/-- The events of a job, as types in commit order. -/
def word (s : Store) (jobId : ℕ) : List EventType := (s.eventsOf jobId).map AuditEvent.eventType

/-- The trail of every job is a word of the retry language that determines its status and attempts. -/
theorem audit_trail (fresh : Fresh start)
    (reached : World.Reaches (service Request.routed) start world) :
    ∀ row ∈ world.state.jobs.rows,
      (∃ retries last, retries ≤ 2 ∧ (last = [] ∨ last = [.failed] ∨ last = [.completed] ∨ last = [.cancelled]) ∧
        word world.state row.id = .submitted :: retryCycles retries ++ last) ∧
      (row.status = .done ↔ (word world.state row.id).getLast? = some .completed) ∧
      (row.status = .cancelled ↔ (word world.state row.id).getLast? = some .cancelled) ∧
      (row.status = .failed ↔ (word world.state row.id).getLast? = some .failed) ∧
      (row.status = .running → row.attempts =
        (word world.state row.id).count .failed + (word world.state row.id).count .completed + 1) ∧
      (row.status = .queued ∨ row.status = .done ∨ row.status = .failed → row.attempts =
        (word world.state row.id).count .failed + (word world.state row.id).count .completed) ∧
      (row.status = .cancelled → row.attempts = (word world.state row.id).count .failed ∨
        row.attempts = (word world.state row.id).count .failed + 1) := by
  intro row member
  obtain ⟨first, retries, opens, trail⟩ :=
    ((reachable_valid fresh reached).wellFormed (Store.mem_jobs.mp member)).trail
  rcases opens with rfl | ⟨_, request, admitted, unrouted⟩
  swap
  · rw [admitted] at unrouted
    cases unrouted
  have spelled : word world.state row.id = .submitted :: retryCycles retries ++ closing row.status := trail.word
  have failures := count_retryCycles retries .failed
  have completions := count_retryCycles retries .completed
  have counts := trail.counts
  refine ⟨⟨retries, closing row.status, trail.bounded, ?_, spelled⟩, trail.last_iff (.inl rfl) rfl,
    trail.last_iff (.inl rfl) rfl, trail.last_iff (.inl rfl) rfl, ?_⟩
  · cases row.status <;> simp [closing]
  rw [spelled]
  refine ⟨?_, ?_, ?_⟩
  · intro running
    simp only [Job.Counts, running] at counts
    simp [running, closing, failures, completions, counts]
  · rintro (status | status | status) <;> simp only [Job.Counts, status] at counts <;>
      simp [status, closing, failures, completions, counts]
  · intro cancelled
    simp only [Job.Counts, cancelled] at counts
    simpa [cancelled, closing, failures] using counts

theorem audit_trail_office : ∃ world row,
    office.runActions (service Request.routed) exhaustedJob = some world ∧
    world.state.job? 1 = some row ∧ (word world.state 1).getLast? = some .failed ∧
    row.attempts = (word world.state 1).count .failed + (word world.state 1).count .completed := by
  have rows : (office.runActions (service Request.routed) exhaustedJob).map
      (fun world => (world.state.job? 1).map Job.status) = some (some .failed) := by decide +kernel
  obtain ⟨world, ran, found⟩ := Option.map_eq_some_iff.mp rows
  obtain ⟨row, stored, failed⟩ := Option.map_eq_some_iff.mp found
  have id : row.id = 1 := Store.job?_id stored
  obtain ⟨_, _, _, last, _, counts, _⟩ := audit_trail office_fresh ⟨exhaustedJob, ran⟩ row
    (Table.find?_mem stored)
  rw [id] at last counts
  exact ⟨world, row, ran, stored, last.mp failed, counts (.inr (.inr failed))⟩

end JobRelay.Guarantees
