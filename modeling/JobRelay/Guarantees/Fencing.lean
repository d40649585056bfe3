import JobRelay.Guarantees.AuditTrail

/-! # Fencing

A worker's number names the process, not the claim. What keeps a stale worker from acting on a newer
claim is that every attempt of a job is claimed once, that a conditional update of a claim finds its row
in the attempt of that claim or does nothing, and that `process_next` never returns with a job leased.
-/

namespace JobRelay.Guarantees

open Model Sessions Soundness

variable {admits : Request → Bool} {start world : Service}

/-- The transaction claimed the job at this attempt. -/
def claims (jobId attempts : ℕ) : ℕ × Label → Bool
  | (_, .claimed (some claim)) => decide (claim.id = jobId ∧ claim.attempts = attempts)
  | _ => false

/-- How often an attempt of a job was claimed. -/
def claimCount (s : Store) (jobId attempts : ℕ) : ℕ := s.history.countP (claims jobId attempts)

/-- The claim on whose behalf a transaction updates a job. -/
def Label.claim? : Label → Option Claim
  | .finalized claim _ | .failureRecorded claim _ | .renewed claim => some claim
  | _ => none

/-- An attempt is claimed at most once, and not before the job has come so far. -/
structure ClaimedOnce (s : Store) : Prop where
  once : ∀ jobId attempts, claimCount s jobId attempts ≤ 1
  reached : ∀ jobId attempts, 0 < claimCount s jobId attempts →
    ∃ row, s.job? jobId = some row ∧ attempts ≤ row.attempts

/-- A commit that claims nothing keeps every claim where it was. -/
theorem claimCount_log (s : Store) (pid : ℕ) (label : Label) (jobId attempts : ℕ) :
    claimCount (s.log pid label) jobId attempts =
      claimCount s jobId attempts + if claims jobId attempts (pid, label) then 1 else 0 := by
  rw [claimCount, Store.log, List.countP_append, List.countP_singleton, claimCount]

private theorem ClaimedOnce.step {opening : List EventType → Prop} {before after : Store}
    (claimed : ClaimedOnce before) (same : after.history = before.history)
    (step : ∀ jobId, JobStep opening before after jobId) : ClaimedOnce after := by
  have counts : ∀ jobId attempts, claimCount after jobId attempts = claimCount before jobId attempts :=
    fun jobId attempts => by rw [claimCount, same, claimCount]
  constructor
  · intro jobId attempts
    rw [counts]
    exact claimed.once jobId attempts
  · intro jobId attempts positive
    rw [counts] at positive
    obtain ⟨row, stored, reached⟩ := claimed.reached jobId attempts positive
    obtain ⟨row', stored', _, _, _, grown⟩ := (step jobId).identity stored
    exact ⟨row', stored', reached.trans grown⟩

/-- A report that claims nothing. -/
private theorem ClaimedOnce.log {s : Store} (claimed : ClaimedOnce s) (pid : ℕ) {label : Label}
    (silent : ∀ jobId attempts, claims jobId attempts (pid, label) = false) : ClaimedOnce (s.log pid label) := by
  have counts : ∀ jobId attempts, claimCount (s.log pid label) jobId attempts = claimCount s jobId attempts :=
    fun jobId attempts => by rw [claimCount_log, silent]; rfl
  constructor
  · intro jobId attempts
    rw [counts]
    exact claimed.once jobId attempts
  · intro jobId attempts positive
    rw [counts] at positive
    exact claimed.reached jobId attempts positive

private theorem ClaimedOnce.commit {origin s : Store} {pid : ℕ} {tx : Tx} {label : Label}
    (claimed : ClaimedOnce s) (valid : Valid admits origin s) (opened : tx.Open s)
    (commit : Commit admits pid tx s label) : ClaimedOnce ((tx.view s).log pid label) := by
  have later : ClaimedOnce (tx.view s) :=
    claimed.step (foldl_history ..) (commit.jobStep valid.orphans opened)
  cases commit with
  | @claim row wait stored queued left writes =>
    have found : (tx.view s).job? row.id = some (row.claim pid tx.now) := by
      rw [Tx.view, Entitled.job? opened, writes]
      simp [Write.job?, Job.claim]
    -- the row has not come to the attempt that this transaction claims
    have unclaimed : claimCount (tx.view s) row.id (row.attempts + 1) = 0 := by
      have same : claimCount (tx.view s) row.id (row.attempts + 1) =
          claimCount s row.id (row.attempts + 1) := by rw [claimCount, Tx.view, foldl_history, claimCount]
      by_contra positive
      obtain ⟨row', stored', reached⟩ := claimed.reached row.id (row.attempts + 1) (by omega)
      rw [stored, Option.some.injEq] at stored'
      rw [← stored'] at reached
      omega
    constructor
    · intro jobId attempts
      rw [claimCount_log]
      have once := later.once jobId attempts
      split
      · next matched =>
        obtain ⟨rfl, rfl⟩ := of_decide_eq_true matched
        rw [unclaimed]
      · omega
    · intro jobId attempts positive
      rw [claimCount_log] at positive
      by_cases matched : claims jobId attempts (pid, .claimed (some ⟨row.id, row.companyId, row.kind,
        row.traceId, row.attempts + 1, wait, some tx.now, some pid⟩)) = true
      · obtain ⟨rfl, rfl⟩ := of_decide_eq_true matched
        exact ⟨_, found, le_rfl⟩
      · rw [if_neg matched, Nat.add_zero] at positive
        exact later.reached jobId attempts positive
  | @quiet label writes facts =>
    refine later.log pid fun jobId attempts => ?_
    cases label with
    | claimed claim =>
      obtain rfl : claim = none := facts
      rfl
    | _ => rfl
  | _ => exact later.log pid fun _ _ => rfl

theorem claimed_once (fresh : Fresh start) (reached : World.Reaches (service admits) start world) :
    ClaimedOnce world.state := by
  refine reachable_preserves fresh reached ?_ ?_ ?_
  · have none : ∀ jobId attempts, claimCount start.state jobId attempts = 0 := fun jobId attempts => by
      rw [claimCount, fresh.history]
      rfl
    constructor
    · intro jobId attempts
      rw [none]
      omega
    · intro jobId attempts positive
      rw [none] at positive
      omega
  · intro pid tx before after valid guar claimed
    have step := guar.jobStep valid
    cases guar with
    | drawn drawn => exact claimed.step (by cases drawn <;> rfl) step
    | commit opened commit => exact claimed.commit valid opened commit
    | @aborted _ _ label facts =>
      refine claimed.log _ fun jobId attempts => ?_
      cases label with
      | claimed claim => cases facts
      | _ => rfl
    | processed => exact claimed.log _ fun _ _ => rfl
  · exact fun clock claimed => ⟨claimed.once, claimed.reached⟩

/-- A commit on behalf of a claim changes no job, or the claimed one in the attempt of the claim. -/
private theorem fenced_commit {s : Store} {pid : ℕ} {tx : Tx} {label : Label} {claim : Claim}
    (opened : tx.Open s) (commit : Commit admits pid tx s label) (acts : Label.claim? label = some claim) :
    (∀ jobId, jobId ≠ claim.id → (tx.view s).job? jobId = s.job? jobId) ∧
    ((tx.view s).job? claim.id = s.job? claim.id ∨ ∃ row, s.job? claim.id = some row ∧
      row.status = .running ∧ row.attempts = claim.attempts ∧ row.workerId = some pid) := by
  have alone : ∀ row' : Job, row'.id = claim.id → tx.writes.filterMap Write.job? = [row'] →
      ∀ jobId, jobId ≠ claim.id → (tx.view s).job? jobId = s.job? jobId := by
    intro row' id only jobId other
    refine Entitled.job?_of_other opened fun row member => ?_
    rw [only, List.mem_singleton] at member
    rw [member, id]
    exact other.symm
  cases commit with
  | quiet writes _ =>
    rw [Tx.view, writes]
    exact ⟨fun _ _ => rfl, .inl rfl⟩
  | @renew row _ stored running mine id attempts writes =>
    cases acts
    exact ⟨alone (row.renew tx.now) id (by rw [writes]; rfl),
      .inr ⟨row, id ▸ stored, running, attempts, mine⟩⟩
  | @finish row _ _ _ _ stored running mine id attempts _ _ _ writes =>
    cases acts
    exact ⟨alone (row.finish tx.now) id (by rw [writes]; rfl),
      .inr ⟨row, id ▸ stored, running, attempts, mine⟩⟩
  | @fail f _ error valid mine id attempts writes =>
    cases acts
    exact ⟨alone (f.row.fail error tx.now) id (by rw [writes, Failing.writes_job?]; rfl),
      .inr ⟨f.row, id ▸ valid.stored, valid.running, attempts, mine⟩⟩
  | _ => cases acts

/-- Every attempt is claimed at most once, a stale claim changes nothing, and no claim is leaked. -/
theorem fencing (fresh : Fresh start) (reached : World.Reaches (service admits) start world) :
    (∀ jobId attempts, claimCount world.state jobId attempts ≤ 1) ∧
    (∀ (action : Step) next, world.step (service admits) action = some next →
      ∀ pid label claim, next.state.history = world.state.history ++ [(pid, label)] →
        Label.claim? label = some claim →
        (∀ jobId, jobId ≠ claim.id → next.state.job? jobId = world.state.job? jobId) ∧
        (next.state.job? claim.id ≠ world.state.job? claim.id → ∃ row,
          world.state.job? claim.id = some row ∧ row.status = .running ∧
            row.attempts = claim.attempts ∧ row.workerId = some pid)) ∧
    ∀ proc ∈ world.procs.rows, ∀ claimed, proc.call = some .processNext →
      proc.program = some (.ret (.processed claimed)) →
      ∀ row ∈ world.state.jobs.rows, ¬ (row.status = .running ∧ row.workerId = some proc.pid) := by
  refine ⟨(claimed_once fresh reached).once, ?_, ?_⟩
  · intro action next stepped pid label claim logged acts
    have reported := reachable_reported fresh reached stepped logged
    generalize next.state = after at reported
    cases reported with
    | commit opened commit =>
      obtain ⟨others, claimed⟩ := fenced_commit opened commit acts
      exact ⟨others, fun changed => claimed.resolve_left changed⟩
    | aborted _ => exact ⟨fun _ _ => rfl, fun changed => absurd rfl changed⟩
    | processed _ => exact ⟨fun _ _ => rfl, fun changed => absurd rfl changed⟩
  · intro proc member claimed _ returned row inside ⟨_, leased⟩
    have sound := reachable_sound fresh reached
    have done := sound.running proc member _ returned world.state (.refl ..)
      ⟨sound.inv, sound.opened proc member⟩
    exact done.2 ⟨_, rfl⟩ row.id row (Store.mem_jobs.mp inside) leased

/-- A process has run `process_next` to its return after a claim. -/
private def returned (proc : Proc ℕ Mode Call Tx Sql Sql.Answer Choice Exc Label Return) : Bool :=
  match proc.call, proc.program with
  | some .processNext, some (.ret (.processed true)) => proc.pid = 1
  | _, _ => false

theorem fencing_office : ∃ world,
    office.runActions (service fun _ => true) finishedJob.dropLast = some world ∧
    claimCount world.state 1 1 = 1 ∧
    ∀ row ∈ world.state.jobs.rows, ¬ (row.status = .running ∧ row.workerId = some 1) := by
  have ends : (office.runActions (service fun _ => true) finishedJob.dropLast).map
      (fun world => (claimCount world.state 1 1, world.procs.rows.any returned)) = some (1, true) := by
    decide +kernel
  obtain ⟨world, ran, same⟩ := Option.map_eq_some_iff.mp ends
  simp only [Prod.mk.injEq, List.any_eq_true] at same
  obtain ⟨claimed, proc, member, is_returned⟩ := same
  have halted : proc.call = some .processNext ∧ proc.program = some (.ret (.processed true)) ∧
      proc.pid = 1 := by
    revert is_returned
    unfold returned
    split
    · next call program => exact fun pid => ⟨call, program, of_decide_eq_true pid⟩
    · nofun
  obtain ⟨call, program, pid⟩ := halted
  have released := (fencing office_fresh ⟨finishedJob.dropLast, ran⟩).2.2 proc member true call program
  rw [pid] at released
  exact ⟨world, ran, claimed, released⟩

end JobRelay.Guarantees
