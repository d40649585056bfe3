import JobRelay.Guarantees.DeadLetters
import JobRelay.Soundness.Listeners
import Mathlib.Data.List.Infix

/-! # Going to sleep

A worker that claims nothing asks when the next attempt is due and waits until then. Its claim query
takes what was due when it began, its poll counts what comes due after it began, and a job that comes due
between the two is seen by neither.
-/

namespace JobRelay.Guarantees

open Model Sessions Soundness

variable {admits : Request → Bool} {start : Service}

/-- A process in this mode and call is about to send a statement in this transaction. -/
def Sends (world : Service) (pid : ℕ) (mode : Mode) (call : Call) (q : Sql) (tx : Tx) : Prop :=
  (world.proc? pid).map (fun proc => (proc.mode, proc.call, proc.program.bind Program.query?, proc.tx)) =
    some (mode, some call, some q, some tx)

instance (world : Service) (pid : ℕ) (mode : Mode) (call : Call) (q : Sql) (tx : Tx) :
    Decidable (Sends world pid mode call q tx) := inferInstanceAs (Decidable (_ = _))

/-- The end of a worker's drain: its claim query finds nothing, its poll sets a timeout, and it waits
with no notification pending. Between these it does nothing but its own next statements. -/
structure Episode (admits : Request → Bool) (start : Service) where
  worker : ℕ
  heard : ℕ
  asked : Service
  claim : Tx
  between : List Step
  polling : Service
  poll : Tx
  rest : List Step
  asleep : Service
  timeout : Micros
  claimChoice : Choice
  pollChoice : Choice
  reached : World.Reaches (service admits) start asked
  claims : Sends asked worker (.draining heard) .processNext (.selectClaimable MAX_ATTEMPTS) claim
  nothing : ∃ after opened, Sql.answer (.selectClaimable MAX_ATTEMPTS) asked.state (asked.others worker)
    claimChoice claim = .ok (none, after, opened)
  drained : asked.runActions (service admits) (.exec worker claimChoice :: between) = some polling
  polls : Sends polling worker (.polling heard) .nextPollTimeout .selectNextAttempt poll
  settled : polling.runActions (service admits) (.exec worker pollChoice :: rest) = some asleep
  stays : ∀ action ∈ between ++ rest, ∀ mode, action ≠ .move worker mode
  waits : (asleep.proc? worker).map Proc.mode = some (.waiting heard timeout)
  silent : pending asleep.state heard = false

namespace Episode

variable (episode : Episode admits start)

/-- No other transaction had the job locked from the claim query to the poll. -/
def Unlocked (jobId : ℕ) : Prop :=
  ∀ early world, early <+: .exec episode.worker episode.claimChoice :: episode.between →
    episode.asked.runActions (service admits) early = some world →
    ∀ other ∈ world.others episode.worker, other.blocks (.job jobId) .update = false

/-- A committed job that waits for a worker when this one sleeps, and was free all the time. -/
structure Overlooked (row : Job) : Prop where
  stored : row ∈ episode.asleep.state.jobs.rows
  queued : row.status = .queued
  left : row.attempts < MAX_ATTEMPTS
  unlocked : episode.Unlocked row.id

/-- No such job was due at the poll, and the worker wakes in time for each that comes due later. -/
def WakesInTime : Prop :=
  ∀ row, episode.Overlooked row → row.claimable MAX_ATTEMPTS episode.poll.now = false ∧
    ∀ due, row.nextAttemptAt = some due → episode.poll.now < due →
      episode.timeout ≤ due - episode.poll.now + POLL_MARGIN

/-- No such job came due after the claim query began and no later than the poll. -/
def NoneDueBetween : Prop :=
  ∀ row, episode.Overlooked row → ∀ due, row.nextAttemptAt = some due →
    ¬ (episode.claim.now < due ∧ due ≤ episode.poll.now)

end Episode

private theorem Sends.proc {world : Service} {pid : ℕ} {mode : Mode} {call : Call} {q : Sql} {tx : Tx}
    (sends : Sends world pid mode call q tx) : ∃ proc ∈ world.procs.rows, world.proc? pid = some proc ∧
      proc.mode = mode ∧ proc.call = some call ∧ proc.tx = some tx ∧
      ∃ next, proc.program = some (.query q next) := by
  obtain ⟨proc, found, same⟩ := Option.map_eq_some_iff.mp sends
  simp only [Prod.mk.injEq] at same
  obtain ⟨program, present, head⟩ := Option.bind_eq_some_iff.mp same.2.2.1
  obtain ⟨next, rfl⟩ := Program.query?_eq_some head
  exact ⟨proc, Table.find?_mem found, found, same.1, same.2.1, same.2.2.2, next, present⟩

/-- The next attempt is no later than any job that is still to come. -/
private theorem nextAttempt?_le {s : Store} {now due : Micros} {row : Job} (member : row ∈ s.jobs.rows)
    (queued : row.status = .queued) (scheduled : row.nextAttemptAt = some due) (later : now < due) :
    ∃ first, s.nextAttempt? now = some first ∧ now < first ∧ first ≤ due := by
  have listed : due ∈ s.jobs.rows.filterMap fun job =>
      if job.status = .queued then job.nextAttemptAt.filter fun due => decide (now < due) else none := by
    refine List.mem_filterMap.mpr ⟨row, member, ?_⟩
    rw [if_pos queued, scheduled, Option.filter_some, decide_eq_true later, if_pos rfl]
  rw [Store.nextAttempt?]
  cases first? : (s.jobs.rows.filterMap fun job =>
      if job.status = .queued then job.nextAttemptAt.filter fun due => decide (now < due) else none).min? with
  | none =>
    rw [List.min?_eq_none_iff.mp first?] at listed
    cases listed
  | some first =>
    obtain ⟨inside, least⟩ := List.min?_eq_some_iff.mp first?
    obtain ⟨job, _, found⟩ := List.mem_filterMap.mp inside
    refine ⟨first, rfl, ?_, least due listed⟩
    split at found
    · exact of_decide_eq_true (Option.mem_filter_iff.mp found).2
    · cases found

namespace Episode

variable (fresh : Fresh start) (episode : Episode admits start)

include fresh

omit fresh in
private theorem reaches_polling : World.Reaches (service admits) start episode.polling :=
  episode.reached.trans ⟨_, episode.drained⟩

/-- Whatever is queued and unannounced when the worker sleeps was queued when it asked and when it polled. -/
private theorem queued_before {row : Job} (stored : row ∈ episode.asleep.state.jobs.rows)
    (queued : row.status = .queued) : row ∈ episode.asked.state.jobs.rows ∧
      row ∈ episode.polling.state.jobs.rows := by
  obtain ⟨proc, _, found, mode, _⟩ := episode.claims.proc
  have early := reachable_attuned fresh episode.reached episode.worker proc episode.heard found (by rw [mode]; rfl)
  have drained := announced_run fresh episode.reached episode.drained
  have settled := announced_run fresh episode.reaches_polling episode.settled
  rw [Store.mem_jobs] at stored
  exact ⟨Store.mem_jobs.mpr ((drained.trans settled).job?_of_pending early episode.silent stored queued),
    Store.mem_jobs.mpr (settled.job?_of_pending (early.trans drained.length_le) episode.silent stored queued)⟩

/-- The claim query took no free job, so each is scheduled after it. -/
private theorem due_after_claim {row : Job} (overlooked : episode.Overlooked row) :
    ∃ due, row.nextAttemptAt = some due ∧ episode.claim.now < due := by
  obtain ⟨proc, member, _, _, _, held, next, present⟩ := episode.claims.proc
  obtain ⟨opened, same, silent⟩ := reachable_pre fresh episode.reached member present
  rw [held] at same
  cases same
  have inside := (episode.queued_before fresh overlooked.stored overlooked.queued).1
  have unclaimed : row.claimable MAX_ATTEMPTS episode.claim.now ≠ true := by
    intro claimable
    obtain ⟨after, opened, answered⟩ := episode.nothing
    obtain ⟨⟨found, _, _⟩, ran, same⟩ := map_ok answered
    obtain ⟨_, ⟨_, _, blocked⟩ | ⟨_, _, _, rfl, _⟩⟩ := lockClaimable_ok ran
    · rw [Tx.view, silent] at blocked
      obtain ⟨other, isOpen, blocks⟩ := blocked row inside claimable
      rw [overlooked.unlocked [] _ List.nil_prefix rfl other isOpen] at blocks
      cases blocks
    · cases same
  rw [Job.claimable, overlooked.queued, decide_eq_true overlooked.left] at unclaimed
  cases scheduled : row.nextAttemptAt with
  | none => simp [scheduled] at unclaimed
  | some due =>
    rw [scheduled, Option.all_some, decide_eq_true rfl, Bool.and_self, Bool.true_and, Ne, decide_eq_true_eq,
      not_le] at unclaimed
    exact ⟨due, rfl, unclaimed⟩

/-- The worker sleeps for as long as its poll decided. -/
private theorem timeout_eq : episode.timeout =
    pollTimeout ((episode.polling.state.nextAttempt? episode.poll.now).map (· - episode.poll.now)) := by
  obtain ⟨proc, member, found, mode, called, held, next, present⟩ := episode.polls.proc
  have yields := reachable_yields fresh episode.reaches_polling member called present
  obtain ⟨opened, same, silent⟩ := reachable_pre fresh episode.reaches_polling member present
  rw [held] at same
  cases same
  obtain ⟨polled, stepped, ran⟩ := Option.bind_eq_some_iff.mp episode.settled
  rw [World.step_exec found present] at stepped
  simp only [World.execute] at stepped
  split at stepped
  · next row after opened answered =>
    split at stepped <;> cases stepped
    rw [held, Option.getD_some] at answered
    cases answered
    rw [Tx.view, silent, List.foldl_nil] at ran
    obtain ⟨last, there, settles⟩ := Settles.run ran
      (fun action inside => episode.stays action (List.mem_append_right _ inside))
      ⟨_, World.proc?_set found rfl, .inl ⟨mode, _, rfl, yields _⟩⟩
    have mode := episode.waits
    rw [there, Option.map_some, Option.some.injEq] at mode
    rcases settles with ⟨other, _⟩ | ⟨same, _⟩ | other | other
    · rw [mode] at other
      cases other
    · rw [mode] at same
      exact (Mode.waiting.inj same).2
    · rw [mode] at other
      cases other
    · rw [mode] at other
      cases other
  · next error failed => cases failed

/-- The worker wakes in time for all that comes due after the poll. -/
private theorem timeout_le {row : Job} (stored : row ∈ episode.asleep.state.jobs.rows)
    (queued : row.status = .queued) {due : Micros} (scheduled : row.nextAttemptAt = some due)
    (later : episode.poll.now < due) : episode.timeout ≤ due - episode.poll.now + POLL_MARGIN := by
  obtain ⟨first, next, after, least⟩ :=
    nextAttempt?_le (episode.queued_before fresh stored queued).2 queued scheduled later
  rw [episode.timeout_eq fresh, next]
  have positive : max (first - episode.poll.now) 0 = first - episode.poll.now :=
    max_eq_left (Int.sub_nonneg.mpr after.le)
  simp only [pollTimeout, Option.map_some, positive]
  calc min POLL_FALLBACK (first - episode.poll.now + POLL_MARGIN)
    _ ≤ first - episode.poll.now + POLL_MARGIN := min_le_right ..
    _ ≤ due - episode.poll.now + POLL_MARGIN := Int.add_le_add_right (Int.sub_le_sub_right least _) _

end Episode

/-- A job is retried, and its delay has almost passed when a second worker is about to claim. -/
def aboutToClaim : List Step :=
  .spawn 0 .client :: submission 0 "a" ++ [.spawn 1 (.draining 1)] ++ failedAttempt 8 ++
    .start 0 (.request (.retryJob 1 1 "1:user" none)) :: statements 0 5 ++
    [.finish 0, .environment (.advance 4900000), .spawn 2 (.draining 2), .start 2 .processNext] ++
    statements 2 4

/-- The worker's next statement, with nothing unusual. -/
def nextStatement : Step := .exec 2 ⟨[], 0, none, none⟩

/-- It claims nothing, and polls after some time. -/
def claimedNothing (elapsed : ℕ) : List Step :=
  [nextStatement, .finish 2, .environment (.advance elapsed), .start 2 .nextPollTimeout, nextStatement]

private def dozes (elapsed : ℕ) (timeout : Micros) : Bool :=
  (office.runActions (service fun _ => true) aboutToClaim).any fun asked =>
    (asked.runActions (service fun _ => true) (nextStatement :: claimedNothing elapsed)).any fun polling =>
      (polling.runActions (service fun _ => true) (nextStatement :: [nextStatement, .finish 2])).any fun asleep =>
        decide (Sends asked 2 (.draining 2) .processNext (.selectClaimable MAX_ATTEMPTS) ⟨4900000, [], []⟩) &&
        (match Sql.answer (.selectClaimable MAX_ATTEMPTS) asked.state (asked.others 2) ⟨[], 0, none, none⟩
            ⟨4900000, [], []⟩ with
          | .ok (none, _, _) => true
          | _ => false) &&
        decide (Sends polling 2 (.polling 2) .nextPollTimeout .selectNextAttempt ⟨4900000 + elapsed, [], []⟩) &&
        decide ((asleep.proc? 2).map Proc.mode = some (.waiting 2 timeout)) && !pending asleep.state 2 &&
        ((nextStatement :: claimedNothing elapsed).inits.all fun early =>
          (asked.runActions (service fun _ => true) early).all fun world =>
            (world.others 2).all fun other => !other.blocks (.job 1) .update) &&
        decide (asleep.state.jobs.rows.map (fun row => (row.id, row.status, row.attempts, row.nextAttemptAt)) =
          [(1, .queued, 1, some 5000000)])

private theorem episode_of_dozes (elapsed : ℕ) (timeout : Micros) (dozed : dozes elapsed timeout = true) :
    ∃ episode : Episode (fun _ => true) office, episode.claim.now = 4900000 ∧
      episode.poll.now = 4900000 + elapsed ∧ episode.timeout = timeout ∧ (∃ row, episode.Overlooked row) ∧
      ∀ row, episode.Overlooked row → row.nextAttemptAt = some 5000000 := by
  obtain ⟨asked, ran, polled⟩ := (Option.any_eq_true _ _).mp dozed
  obtain ⟨polling, drained, slept⟩ := (Option.any_eq_true _ _).mp polled
  obtain ⟨asleep, settled, facts⟩ := (Option.any_eq_true _ _).mp slept
  simp only [Bool.and_eq_true, decide_eq_true_eq, Bool.not_eq_true'] at facts
  obtain ⟨⟨⟨⟨⟨⟨claims, nothing⟩, polls⟩, waits⟩, silent⟩, free⟩, rows⟩ := facts
  have none : ∃ after opened, Sql.answer (.selectClaimable MAX_ATTEMPTS) asked.state (asked.others 2)
      ⟨[], 0, none, none⟩ ⟨4900000, [], []⟩ = .ok (none, after, opened) := by
    split at nothing
    · next after opened answered => exact ⟨after, opened, answered⟩
    · cases nothing
  have stays : ∀ action ∈ claimedNothing elapsed ++ [nextStatement, .finish 2], ∀ mode,
      action ≠ .move 2 mode := by
    simp [claimedNothing, nextStatement]
  obtain ⟨row, only, same⟩ := List.map_eq_singleton_iff.mp rows
  simp only [Prod.mk.injEq] at same
  refine ⟨⟨2, 2, asked, _, _, polling, _, _, asleep, timeout, _, _, ⟨_, ran⟩, claims, none, drained, polls,
    settled, stays, waits, silent⟩, rfl, rfl, rfl, ⟨row, ?_, same.2.1, ?_, ?_⟩, fun other overlooked => ?_⟩
  · rw [only]
    exact List.mem_singleton_self row
  · rw [same.2.2.1]
    decide
  · intro early world begins reaches other isOpen
    rw [same.1]
    have unlocked := List.all_eq_true.mp free early ((List.mem_inits ..).mpr begins)
    rw [reaches, Option.all_some, List.all_eq_true] at unlocked
    have apart := unlocked other isOpen
    rwa [Bool.not_eq_true'] at apart
  · have stored := overlooked.stored
    rw [only, List.mem_singleton] at stored
    rw [stored]
    exact same.2.2.2

/-- The delay of the job ends between the claim query and the poll, and the worker sleeps 30 s. -/
theorem sleeps_past_due : Fresh office ∧
    ∃ episode : Episode (fun _ => true) office, episode.timeout = 30000000 ∧ ¬ episode.WakesInTime := by
  obtain ⟨episode, _, polled, timeout, ⟨row, overlooked⟩, scheduled⟩ :=
    episode_of_dozes 200000 30000000 (by decide +kernel)
  refine ⟨office_fresh, episode, timeout, fun wakes => ?_⟩
  have unclaimed := (wakes row overlooked).1
  rw [Job.claimable, overlooked.queued, decide_eq_true overlooked.left, scheduled row overlooked, polled] at unclaimed
  cases unclaimed

/-- A worker never sleeps past due work exactly if no job came due between its claim query and its poll. -/
theorem wakes_in_time_iff (fresh : Fresh start) (episode : Episode admits start) :
    episode.WakesInTime ↔ episode.NoneDueBetween := by
  constructor
  · rintro wakes row overlooked due scheduled ⟨_, passed⟩
    have claimable : row.claimable MAX_ATTEMPTS episode.poll.now = true := by
      rw [Job.claimable, overlooked.queued, decide_eq_true overlooked.left, scheduled, Option.all_some,
        decide_eq_true passed]
      rfl
    rw [(wakes row overlooked).1] at claimable
    cases claimable
  · intro none row overlooked
    obtain ⟨due, scheduled, after⟩ := episode.due_after_claim fresh overlooked
    have later : episode.poll.now < due := by
      by_contra passed
      exact none row overlooked due scheduled ⟨after, not_lt.mp passed⟩
    constructor
    · rw [Job.claimable, scheduled, Option.all_some, decide_eq_false (not_le.mpr later), Bool.and_false]
    · intro other same
      exact episode.timeout_le fresh overlooked.stored overlooked.queued same

/-- If the poll comes before the delay ends, the worker sleeps no longer than that. -/
theorem wakes_in_time_office : ∃ episode : Episode (fun _ => true) office,
    episode.timeout = 100000 ∧ (∃ row, episode.Overlooked row) ∧ episode.WakesInTime := by
  obtain ⟨episode, claimed, polled, timeout, some, scheduled⟩ :=
    episode_of_dozes 50000 100000 (by decide +kernel)
  refine ⟨episode, timeout, some, (wakes_in_time_iff office_fresh episode).mpr ?_⟩
  rintro row overlooked due same ⟨_, passed⟩
  rw [scheduled row overlooked, Option.some.injEq] at same
  rw [polled, ← same] at passed
  exact absurd passed (by decide)

end JobRelay.Guarantees
