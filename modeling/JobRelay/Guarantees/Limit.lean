import JobRelay.Guarantees.DeadLetters
import Mathlib.Data.List.Induction
import Mathlib.Data.List.Infix

/-! # The concurrency limit

`create_job` adds an active job only below the limit of the company; `retry_job` never looks at the
limit. So a slot that a failure freed may be filled by a creation and then taken again by the retry, and
the limit holds along a run exactly when no retry commits while its company is at the limit.
-/

namespace JobRelay.Guarantees

open Model Sessions Soundness

variable {admits : Request → Bool} {start world : Service}

/-- No company has more active jobs than it may have. -/
def WithinLimits (s : Store) : Prop :=
  ∀ company ∈ s.companies.rows, (s.activeCount company.id : Int) ≤ company.maxConcurrentJobs

instance (s : Store) : Decidable (WithinLimits s) :=
  inferInstanceAs (Decidable (∀ company ∈ s.companies.rows, _))

/-- If a retry committed between these stores, its company was below its limit before. -/
def RetryFits (s after : Store) : Prop :=
  ∀ pid companyId jobId requestedBy traceId response company,
    after.history = s.history ++ [(pid, .request (.retryJob companyId jobId requestedBy traceId) (.ok response))] →
      s.company? companyId = some company → (s.activeCount companyId : Int) < company.maxConcurrentJobs

private theorem withinLimits_iff {s : Store} : WithinLimits s ↔
    ∀ companyId company, s.company? companyId = some company →
      (s.activeCount companyId : Int) ≤ company.maxConcurrentJobs := by
  constructor
  · intro within companyId company stored
    have bounded := within company (Table.find?_mem stored)
    rwa [Table.find?_key stored] at bounded
  · intro within company member
    exact within company.id company (Table.mem_rows_iff.mp member)

/-- A database without jobs is within its limits, which are positive. -/
private theorem withinLimits_fresh (fresh : Fresh start) : WithinLimits start.state := by
  intro company _
  have idle : start.state.activeCount company.id = 0 := by
    rw [Store.activeCount, fresh.jobs]
    rfl
  rw [idle]
  exact company.limited.le

/-- A commit keeps the limits unless it is a retry at the limit. -/
private theorem withinLimits_commit {origin s : Store} {pid : ℕ} {tx : Tx} {label : Label}
    (valid : Valid admits origin s) (opened : tx.Open s) (commit : Commit admits pid tx s label)
    (fits : RetryFits s ((tx.view s).log pid label)) (within : WithinLimits s) : WithinLimits (tx.view s) := by
  rw [withinLimits_iff] at within ⊢
  intro companyId company' stored'
  have later := valid.commit commit opened
  obtain ⟨company, stored, limit⟩ := later.company_after valid stored'
  rw [← limit]
  by_cases adds : label.adds? = some companyId
  · have raised := commit.activeCount_of_adds opened _ adds
    have below : (s.activeCount companyId : Int) < company.maxConcurrentJobs := by
      cases commit with
      | quiet _ facts => rw [facts.adds?] at adds; cases adds
      | create _ _ _ _ _ _ owner below =>
        cases adds
        rw [owner] at stored
        cases stored
        exact below
      | retry =>
        cases adds
        exact fits _ _ _ _ _ _ company (by rw [Store.log, Tx.view, foldl_history]) stored
      | _ => cases adds
    rw [raised]
    omega
  · have lower := commit.activeCount_le opened fun same => absurd same adds
    have bounded := within companyId company stored
    omega

/-- One step keeps the limits unless it commits a retry at the limit. -/
private theorem withinLimits_step (fresh : Fresh start)
    (reached : World.Reaches (service admits) start world) {action : Step} {next : Service}
    (stepped : world.step (service admits) action = some next) (fits : RetryFits world.state next.state)
    (within : WithinLimits world.state) : WithinLimits next.state := by
  have moved := reachable_moved fresh reached stepped
  generalize next.state = after at moved fits
  cases moved with
  | same unchanged => rwa [unchanged]
  | environment event _ moved =>
    rw [moved]
    cases event
    exact within
  | guar pid tx _ guar _ =>
    cases guar with
    | drawn drawn => cases drawn <;> exact within
    | commit opened commit =>
      exact withinLimits_commit (reachable_valid fresh reached) opened commit fits within
    | aborted _ => exact within
    | processed => exact within

/-- A retry that commits at the limit breaks it. -/
private theorem retryFits_step (fresh : Fresh start)
    (reached : World.Reaches (service admits) start world) {action : Step} {next : Service}
    (stepped : world.step (service admits) action = some next) (within : WithinLimits next.state) :
    RetryFits world.state next.state := by
  intro pid companyId jobId requestedBy traceId response company logged stored
  have reported := reachable_reported fresh reached stepped logged
  have later := reachable_valid fresh (reached.step stepped)
  generalize next.state = after at reported later within
  obtain ⟨company', stored', limit⟩ := (reachable_valid fresh reached).company_after later stored
  have bounded := withinLimits_iff.mp within companyId company' stored'
  cases reported with
  | @commit tx opened commit =>
    have raised := commit.activeCount_of_adds opened companyId rfl
    change ((tx.view world.state).activeCount companyId : Int) ≤ _ at bounded
    omega
  | aborted facts => cases facts
  | processed counted => obtain ⟨_, _, same⟩ := counted; cases same

/-- A job fails, its slot is filled by another, and the first is retried. -/
def refilledSlot : List Step :=
  .spawn 0 .client :: submission 0 "a" ++ [.spawn 1 (.draining 1)] ++ failedAttempt 8 ++
    submission 0 "b" ++ retriedAfter 5

/-- The same run without the second job. -/
def retriedSlot : List Step :=
  .spawn 0 .client :: submission 0 "a" ++ [.spawn 1 (.draining 1)] ++ failedAttempt 8 ++ retriedAfter 5

private theorem refilledSlot_runs : ∃ world,
    office.runActions (service fun _ => true) refilledSlot = some world ∧
    world.state.activeCount 1 = 2 ∧ ¬ WithinLimits world.state := by
  have counts : (office.runActions (service fun _ => true) refilledSlot).map
      (fun world => (world.state.activeCount 1, decide (WithinLimits world.state))) = some (2, false) := by
    decide +kernel
  obtain ⟨world, ran, same⟩ := Option.map_eq_some_iff.mp counts
  simp only [Prod.mk.injEq] at same
  exact ⟨world, ran, same.1, of_decide_eq_false same.2⟩

/-- The limit is no invariant: two jobs are active where one may be. -/
theorem limit_exceeded : Fresh office ∧ ∃ world,
    office.runActions (service fun _ => true) refilledSlot = some world ∧
    world.state.activeCount 1 = 2 ∧ ¬ WithinLimits world.state := ⟨office_fresh, refilledSlot_runs⟩

/-- A run stays within the limits exactly if no retry commits while its company is at its limit. -/
theorem within_limits_iff (fresh : Fresh start) (actions : List Step) :
    (∀ before middle, before <+: actions → start.runActions (service admits) before = some middle →
      WithinLimits middle.state) ↔
    ∀ before action middle next, before ++ [action] <+: actions →
      start.runActions (service admits) before = some middle →
      middle.step (service admits) action = some next → RetryFits middle.state next.state := by
  constructor
  · intro within before action middle next early ran stepped
    refine retryFits_step fresh ⟨before, ran⟩ stepped (within _ next early ?_)
    rw [World.runActions_append, ran, Option.bind_some, World.runActions_cons, stepped]
    rfl
  · intro fits before
    -- the run is followed to its end, one action at a time
    induction before using List.reverseRecOn with
    | nil =>
      intro middle _ ran
      cases ran
      exact withinLimits_fresh fresh
    | append_singleton before action ih =>
      intro next early ran
      rw [World.runActions_append] at ran
      obtain ⟨middle, ran, last⟩ := Option.bind_eq_some_iff.mp ran
      rw [World.runActions_cons] at last
      obtain ⟨_, stepped, same⟩ := Option.bind_eq_some_iff.mp last
      cases same
      exact withinLimits_step fresh ⟨before, ran⟩ stepped (fits before action middle next early ran stepped)
        (ih middle ((List.prefix_append before [action]).trans early) ran)

/-- The retry does not fit once its slot is filled again, and fits while it is free. -/
theorem within_limits_office :
    (¬ ∀ before action middle next, before ++ [action] <+: refilledSlot →
      office.runActions (service fun _ => true) before = some middle →
      middle.step (service fun _ => true) action = some next → RetryFits middle.state next.state) ∧
    ∀ before action middle next, before ++ [action] <+: retriedSlot →
      office.runActions (service fun _ => true) before = some middle →
      middle.step (service fun _ => true) action = some next → RetryFits middle.state next.state := by
  constructor
  · intro fits
    obtain ⟨world, ran, _, exceeded⟩ := refilledSlot_runs
    exact exceeded ((within_limits_iff office_fresh refilledSlot).mpr fits _ world List.prefix_rfl ran)
  · refine (within_limits_iff office_fresh retriedSlot).mp fun before middle early ran => ?_
    have within : retriedSlot.inits.all fun before =>
        (office.runActions (service fun _ => true) before).all fun middle =>
          decide (WithinLimits middle.state) := by decide +kernel
    have bounded := List.all_eq_true.mp within before ((List.mem_inits before retriedSlot).mpr early)
    rw [ran] at bounded
    exact of_decide_eq_true bounded

end JobRelay.Guarantees
