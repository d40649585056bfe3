import JobRelay.Soundness.Deployment

/-! # Where stored data comes from

Every job was inserted by the commit of a creation, under an id that its sequence drew.
-/

namespace JobRelay.Soundness

open Model Sessions

variable {admits : Request → Bool} {start world : Service}

/-- What a stored job was inserted as. -/
structure Sourced (admits : Request → Bool) (row : Job) : Prop where
  range : serialRange row.id = true
  requested : ∃ traceId key submittedBy,
    admits (.createJob row.companyId row.kind traceId key submittedBy) = true

/-- A commit inserts a job under the id that it reports, for an admitted request. -/
theorem Commit.sourced {pid : ℕ} {tx : Tx} {s : Store} {label : Label} (commit : Commit admits pid tx s label)
    (entitled : Entitled tx.locks s tx.writes) {jobId : ℕ} {row : Job} (absent : s.job? jobId = none)
    (stored : (tx.view s).job? jobId = some row) : Sourced admits row := by
  obtain ⟨traceId, key, submittedBy, _, same⟩ := commit.created entitled absent stored
  subst same
  cases commit with
  | quiet _ facts =>
    obtain ⟨_, _, _, _, _, _, other⟩ := facts
    exact absurd (Response.created.inj other).2 nofun
  | create admitted _ _ _ _ _ _ _ range => exact ⟨range, _, _, _, admitted⟩

private theorem sourced_jobStep {s after : Store} {jobId : ℕ} (step : JobStep (Opening admits) s after jobId)
    (sourced : ∀ row, s.job? jobId = some row → Sourced admits row)
    (inserted : ∀ row, s.job? jobId = none → after.job? jobId = some row → Sourced admits row) {row' : Job}
    (stored' : after.job? jobId = some row') : Sourced admits row' := by
  cases stored : s.job? jobId with
  | none => exact inserted row' stored stored'
  | some row =>
    obtain ⟨_, same, companyId, kind, _⟩ := step.identity stored
    rw [stored'] at same
    cases same
    obtain ⟨range, requested⟩ := sourced row stored
    rw [Store.job?_id stored, ← Store.job?_id stored'] at range
    rw [← companyId, ← kind] at requested
    exact ⟨range, requested⟩

theorem reachable_sourced (fresh : Fresh start) (reached : World.Reaches (service admits) start world) {jobId : ℕ}
    {row : Job} (stored : world.state.job? jobId = some row) : Sourced admits row := by
  refine reachable_preserves fresh reached (P := fun s => ∀ jobId row, s.job? jobId = some row →
    Sourced admits row) ?_ ?_ (fun _ holds => holds) jobId row stored
  · intro jobId row stored
    have member := Table.find?_mem stored
    rw [fresh.jobs] at member
    cases member
  · intro pid tx before after valid guar sourced jobId row stored
    refine sourced_jobStep (guar.jobStep valid jobId) (sourced jobId) (fun row absent stored => ?_) stored
    cases guar with
    | drawn drawn =>
      have same : after.job? jobId = before.job? jobId := by cases drawn <;> rfl
      rw [stored, absent] at same
      cases same
    | commit opened commit => exact commit.sourced opened absent stored
    | aborted _ | processed =>
      have same : before.job? jobId = some row := stored
      rw [absent] at same
      cases same

end JobRelay.Soundness
