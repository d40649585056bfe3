import JobRelay.Guarantees.Diagnosis
import JobRelay.Soundness.Endings
import JobRelay.Soundness.Outcomes

/-! # The outcome that is counted

`process_next` counts `cancelled` whenever the update of `_finalize` matches no row, and `failed` whatever
`_record_failure` came to. A row that does not match shows only that the attempt is over: the lease may have
expired where a cancellation is reported, and the job may be cancelled or done where a failure is.
-/

namespace JobRelay.Guarantees

open Model Sessions Soundness

/-- A worker is about to count the outcome of a claim at the end of the run. -/
structure Counts (admits : Request → Bool) (start : Service) (pid : ℕ) (claim : Claim) (outcome : JobStatus)
    (left : Prog Return) (now : List Step) : Prop where
  reached : ∃ world, start.runActions (service admits) now = some world ∧
    ∃ proc ∈ world.procs.rows, proc.pid = pid ∧ proc.call = some .processNext ∧
      proc.program = some (.publish (.processed claim outcome) left)

/-- At the end of the run the job has this status. -/
def StatusAt (admits : Request → Bool) (start : Service) (jobId : ℕ) (status : JobStatus) (now : List Step) : Prop :=
  ∃ world row, start.runActions (service admits) now = some world ∧ world.state.job? jobId = some row ∧
    row.status = status

/-- The run up to the statement at which a course decides. -/
def decided? : Course → Option (List Step)
  | .missed first | .acknowledged first | .late first => some first
  | _ => none

/-- The outcome of the course matches the job: `done` if and only if the worker finished it, `cancelled` only if
the job is cancelled when that is decided, and `failed` only if this attempt ended in a failure. -/
structure Matches (admits : Request → Bool) (start : Service) (pid : ℕ) (claim : Claim) (course : Course)
    (now : List Step) : Prop where
  done : course.outcome = .done ↔ Ended admits start claim pid .finished now
  cancelled : course.outcome = .cancelled →
    ∃ first, decided? course = some first ∧ StatusAt admits start claim.id .cancelled first
  failed : course.outcome = .failed → Ended admits start claim pid .failed now

/-- By the end of the run a client has cancelled the job. -/
def CancelledBy (admits : Request → Bool) (start : Service) (jobId : ℕ) (now : List Step) : Prop :=
  ∃ world, start.runActions (service admits) now = some world ∧ ∃ entry ∈ world.state.history, Cancels jobId entry

/-- No race spoils the course. Where `_finalize` misses its row, a client has cancelled the job; where
`_record_failure` misses its row, or a database error escapes, the attempt is over, and neither a cancellation
nor a commit of `_finalize` has ended it. -/
def Undisturbed (admits : Request → Bool) (start : Service) (pid : ℕ) (claim : Claim) (now : List Step) :
    Course → Prop
  | .finished | .acknowledged _ | .recorded => True
  | .missed first => CancelledBy admits start claim.id first
  | .late first => ¬ Ended admits start claim pid .cancelled first ∧ ¬ Ended admits start claim pid .finished first
  | .raised => (∃ world, start.runActions (service admits) now = some world ∧ ¬ Running claim world.state) ∧
      ¬ Ended admits start claim pid .cancelled now ∧ ¬ Ended admits start claim pid .finished now

variable {admits : Request → Bool} {start : Service} {pid : ℕ} {claim : Claim} {now first : List Step}

private theorem before_of_decided {q : Sql} {saw : Option Job → Prop}
    (decided : Decided admits start pid claim q saw first now) : first <+: now := by
  obtain ⟨turn, later⟩ := decided.later
  exact (List.prefix_append ..).trans later

section Courses

variable (fresh : Fresh start)

include fresh

/-- Where an update of the claim matches no row, its attempt has ended. -/
private theorem ended_of_decided {q : Sql} (decided : Decided admits start pid claim q (Missing claim) first now) :
    ∃ ending, Ended admits start claim pid ending first := by
  obtain ⟨world, ran, _, missing⟩ := decided.asked
  obtain ⟨_, same, claimed⟩ := decided.claimed
  rw [ran, Option.some.injEq] at same
  subst same
  obtain ⟨mine, ⟨row, stored, running, _, leased⟩ | ended⟩ := running_or_ended fresh ran claimed
  · have missed := missing row stored
    rw [mine, Job.runningUnder_iff.mpr ⟨running, leased⟩] at missed
    cases missed
  · exact ended

/-- A job that is cancelled at some point was never finished by its worker. -/
private theorem not_finished (cancelled : StatusAt admits start claim.id .cancelled first)
    (before : first <+: now) : ¬ Ended admits start claim pid .finished now := by
  rintro ⟨second, action, early, done, after, entry, reached, stepped, _, _, _, row, stored, status⟩
  obtain ⟨middle, row', ran', stored', status'⟩ := cancelled
  -- whichever came first, neither status is left again
  have settled : ∀ {jobId : ℕ} {row row' : Job} {status : JobStatus} {past later : List Step} {one two : Service},
      status = .done ∨ status = .cancelled → start.runActions (service admits) past = some one →
      start.runActions (service admits) later = some two → past <+: later → one.state.job? jobId = some row →
      row.status = status → two.state.job? jobId = some row' → row'.status = status := by
    rintro jobId row row' status past _ one two final ran ran' ⟨rest, rfl⟩ stored settled stored'
    rw [World.runActions_append, ran, Option.bind_some] at ran'
    obtain ⟨_, same, kept⟩ := final_stays fresh ⟨past, ran⟩ ⟨rest, ran'⟩ final stored settled
    rw [stored', Option.some.injEq] at same
    rw [same, kept]
  have whole : start.runActions (service admits) (second ++ [action]) = some after := by
    rw [World.runActions_append, reached, Option.bind_some, World.runActions_cons, stepped]
    rfl
  rcases List.prefix_or_prefix_of_prefix early before with order | order
  · have impossible := settled (.inl rfl) whole ran' order stored status stored'
    rw [status'] at impossible
    cases impossible
  · have impossible := settled (.inr rfl) ran' whole order stored' status' stored
    rw [status] at impossible
    cases impossible

/-- An attempt that is over has ended in failure, unless it was finished or cancelled. -/
private theorem failed_iff (ends : ∃ ending, Ended admits start claim pid ending now) :
    Ended admits start claim pid .failed now ↔
      ¬ Ended admits start claim pid .cancelled now ∧ ¬ Ended admits start claim pid .finished now := by
  obtain ⟨ending, ended⟩ := ends
  constructor
  · intro failed
    exact ⟨fun other => (by cases failed.unique fresh other), fun other => (by cases failed.unique fresh other)⟩
  · rintro ⟨uncancelled, unfinished⟩
    cases ending with
    | failed => exact ended
    | finished => exact absurd ended unfinished
    | cancelled => exact absurd ended uncancelled

/-- A failure that is counted matches the job exactly if the attempt ended in failure. -/
private theorem matches_failed {course : Course} (counted : course.outcome = .failed) :
    Matches admits start pid claim course now ↔ Ended admits start claim pid .failed now := by
  constructor
  · exact fun holds => holds.failed counted
  · intro failed
    refine ⟨⟨fun impossible => ?_, fun finished => ?_⟩, fun impossible => ?_, fun _ => failed⟩
    · rw [counted] at impossible
      cases impossible
    · cases failed.unique fresh finished
    · rw [counted] at impossible
      cases impossible

/-- A cancellation that is counted matches the job exactly if the job was cancelled when that was decided. -/
private theorem matches_cancelled {course : Course} (counted : course.outcome = .cancelled)
    (decided : decided? course = some first) (before : first <+: now) :
    Matches admits start pid claim course now ↔ StatusAt admits start claim.id .cancelled first := by
  constructor
  · intro holds
    obtain ⟨second, same, cancelled⟩ := holds.cancelled counted
    rw [decided, Option.some.injEq] at same
    exact same ▸ cancelled
  · intro cancelled
    refine ⟨⟨fun impossible => ?_, fun finished => ?_⟩, fun _ => ⟨first, decided, cancelled⟩, fun impossible => ?_⟩
    · rw [counted] at impossible
      cases impossible
    · exact absurd finished (not_finished fresh cancelled before)
    · rw [counted] at impossible
      cases impossible

/-- A job is cancelled at the end of a run exactly if a client has cancelled it. -/
private theorem statusAt_cancelled_iff {jobId : ℕ} :
    StatusAt admits start jobId .cancelled now ↔ CancelledBy admits start jobId now := by
  constructor
  · rintro ⟨world, row, ran, stored, settled⟩
    exact ⟨world, ran, (cancelled_iff_logged fresh ran jobId).mp ⟨row, stored, settled⟩⟩
  · rintro ⟨world, ran, logged⟩
    obtain ⟨row, stored, settled⟩ := (cancelled_iff_logged fresh ran jobId).mpr logged
    exact ⟨world, row, ran, stored, settled⟩

/-- The label that a course ends its attempt under. -/
private theorem ended_of_label {label : Label} {ending : Ending} (logged : Logged admits start pid label now)
    (reports : label = .finalized claim .done ∧ ending = .finished ∨
      label = .failureRecorded claim .failed ∧ ending = .failed) : Ended admits start claim pid ending now := by
  obtain ⟨world, ran, member⟩ := logged
  exact ended_of_logged fresh ran reports member

private theorem matches_iff {escaping : Option Exc} {course : Course}
    (claimed : Logged admits start pid (.claimed (some claim)) now)
    (took : Took admits start pid claim escaping now course) :
    Matches admits start pid claim course now ↔ Undisturbed admits start pid claim now course := by
  cases course with
  | finished =>
    have finished : Ended admits start claim pid .finished now := ended_of_label fresh took (.inl ⟨rfl, rfl⟩)
    refine iff_of_true ⟨⟨fun _ => finished, fun _ => rfl⟩, fun impossible => ?_, fun impossible => ?_⟩ trivial
    · cases impossible
    · cases impossible
  | missed first =>
    rw [matches_cancelled fresh rfl rfl (before_of_decided took)]
    exact statusAt_cancelled_iff fresh
  | acknowledged first =>
    rw [matches_cancelled fresh rfl rfl (before_of_decided took)]
    obtain ⟨world, ran, _, saw⟩ := took.asked
    obtain ⟨row, stored, settled⟩ := Option.map_eq_some_iff.mp saw
    exact iff_of_true ⟨world, row, ran, stored, settled⟩ trivial
  | recorded =>
    rw [matches_failed fresh rfl]
    exact iff_of_true (ended_of_label fresh took (.inr ⟨rfl, rfl⟩)) trivial
  | late first =>
    obtain ⟨text, decided⟩ := took
    have ends := ended_of_decided fresh decided
    rw [matches_failed fresh rfl]
    change _ ↔ ¬ _ ∧ ¬ _
    rw [← failed_iff fresh ends]
    -- what ended the attempt by then is what has ended it now
    obtain ⟨ending, ended⟩ := ends
    constructor
    · intro failed
      rwa [failed.unique fresh (ended.later (before_of_decided decided))]
    · exact fun failed => failed.later (before_of_decided decided)
  | raised =>
    obtain ⟨world, ran, member⟩ := claimed
    rw [matches_failed fresh rfl]
    constructor
    · intro failed
      refine ⟨⟨world, ran, (failed.over fresh ran).not_running⟩, (failed_iff fresh ⟨_, failed⟩).mp failed⟩
    · rintro ⟨⟨_, same, stopped⟩, others⟩
      rw [ran, Option.some.injEq] at same
      subst same
      obtain ⟨_, ⟨row, stored, running, attempts, _⟩ | ends⟩ := running_or_ended fresh ran member
      · exact absurd ⟨row, stored, running, attempts⟩ stopped
      · exact (failed_iff fresh ends).mpr others

end Courses

/-- Another worker recovers the stale job, and the first finds no row to finish. -/
def recoveredMeanwhile : List Step :=
  runningJob ++ [.environment (.advance 31000000), .spawn 2 (.draining 1), .start 2 .processNext] ++
    List.replicate 4 (.exec 2 ⟨[1], 0, none, none⟩) ++ statements 1 8

/-- A client cancels the job, and the attempt fails of something else. -/
def cancelledMeanwhile : List Step :=
  runningJob ++ .start 0 (.request (.cancelJob 1 1 "1:user" none)) :: statements 0 5 ++
    .fail 1 (.operational "connection lost") :: statements 1 6

/-- The first worker is about to count this outcome for this job. -/
private def tallying (outcome : JobStatus) (jobId : ℕ)
    (proc : Proc ℕ Mode Call Tx Sql Sql.Answer Choice Exc Label Return) : Bool :=
  match proc.call, proc.program with
  | some .processNext, some (.publish (.processed claim counted) _) =>
      decide (proc.pid = 1 ∧ counted = outcome ∧ claim.id = jobId)
  | _, _ => false

private theorem counts_of_run {actions : List Step} {outcome : JobStatus} {jobId : ℕ}
    (runs : (office.runActions (service fun _ => true) actions).map
      (fun world => world.procs.rows.any (tallying outcome jobId)) = some true) :
    ∃ claim left, claim.id = jobId ∧ Counts (fun _ => true) office 1 claim outcome left actions := by
  obtain ⟨world, ran, counts⟩ := Option.map_eq_some_iff.mp runs
  obtain ⟨proc, member, is_tallying⟩ := List.any_eq_true.mp counts
  unfold tallying at is_tallying
  split at is_tallying
  · next claim counted left called present =>
    obtain ⟨mine, rfl, id⟩ := of_decide_eq_true is_tallying
    exact ⟨claim, left, id, ⟨world, ran, proc, member, mine, called, present⟩⟩
  · cases is_tallying

/-- From here on the job never has this status. -/
private def avoids (jobId : ℕ) (status : JobStatus) (world : Service) : List Step → Bool
  | [] => (world.state.job? jobId).all fun row => decide (row.status ≠ status)
  | action :: rest => ((world.state.job? jobId).all fun row => decide (row.status ≠ status)) &&
      (world.step (service fun _ => true) action).all fun next => avoids jobId status next rest

private theorem not_statusAt {start : Service} {jobId : ℕ} {status : JobStatus} {actions first : List Step}
    (never : avoids jobId status start actions = true) (early : first <+: actions) :
    ¬ StatusAt (fun _ => true) start jobId status first := by
  rintro ⟨world, row, ran, stored, settled⟩
  induction actions generalizing start first with
  | nil =>
    obtain rfl := List.prefix_nil.mp early
    cases ran
    simp [avoids, stored, settled] at never
  | cons action rest ih =>
    rw [avoids, Bool.and_eq_true] at never
    cases first with
    | nil =>
      cases ran
      simp [stored, settled] at never
    | cons head tail =>
      obtain ⟨rfl, inside⟩ := List.cons_prefix_cons.mp early
      obtain ⟨next, stepped, ran⟩ := Option.bind_eq_some_iff.mp ran
      exact ih (by simpa [stepped] using never.2) inside ran

/-- A cancellation is counted for a job that was never cancelled, and a failure for one that never failed. -/
theorem outcome_mismatch : Fresh office ∧
    (∃ claim left, Counts (fun _ => true) office 1 claim .cancelled left recoveredMeanwhile ∧
      ∀ first, first <+: recoveredMeanwhile → ¬ StatusAt (fun _ => true) office claim.id .cancelled first) ∧
    ∃ claim left, Counts (fun _ => true) office 1 claim .failed left cancelledMeanwhile ∧
      ∀ first, first <+: cancelledMeanwhile → ¬ StatusAt (fun _ => true) office claim.id .failed first := by
  have early : (office.runActions (service fun _ => true) recoveredMeanwhile).map
      (fun world => world.procs.rows.any (tallying .cancelled 1)) = some true := by decide +kernel
  have late : (office.runActions (service fun _ => true) cancelledMeanwhile).map
      (fun world => world.procs.rows.any (tallying .failed 1)) = some true := by decide +kernel
  obtain ⟨claim, left, id, counts⟩ := counts_of_run early
  obtain ⟨claim', left', id', counts'⟩ := counts_of_run late
  have uncancelled : avoids 1 .cancelled office recoveredMeanwhile = true := by decide +kernel
  have unfailed : avoids 1 .failed office cancelledMeanwhile = true := by decide +kernel
  refine ⟨office_fresh, ⟨claim, left, counts, fun first early => ?_⟩, claim', left', counts', fun first early => ?_⟩
  · rw [id]
    exact not_statusAt uncancelled early
  · rw [id']
    exact not_statusAt unfailed early

/-- What `process_next` counts is the outcome of a course that it took since its claim, and it matches the job
exactly if no race spoilt the course. -/
theorem outcome_matches_iff (fresh : Fresh start) {outcome : JobStatus} {left : Prog Return}
    (counts : Counts admits start pid claim outcome left now) :
    Logged admits start pid (.claimed (some claim)) now ∧
    (∃ course, outcome = course.outcome ∧ Took admits start pid claim (escaping? left) now course) ∧
    ∀ course, outcome = course.outcome → Took admits start pid claim (escaping? left) now course →
      (Matches admits start pid claim course now ↔ Undisturbed admits start pid claim now course) := by
  obtain ⟨world, ran, proc, member, rfl, called, present⟩ := counts.reached
  obtain ⟨claimed, course⟩ := counted_of_run fresh ran member called present
  exact ⟨claimed, course, fun course _ took => matches_iff fresh claimed took⟩

/-- A worker is about to count the job that it finished. -/
def finishedUncounted : List Step := finishedJob.take (finishedJob.length - 2)

theorem outcome_matches_office : ∃ claim left course,
    Counts (fun _ => true) office 1 claim .done left finishedUncounted ∧
    Matches (fun _ => true) office 1 claim course finishedUncounted ∧ course.outcome = .done := by
  have counted : (office.runActions (service fun _ => true) finishedUncounted).map
      (fun world => world.procs.rows.any (tallying .done 1)) = some true := by decide +kernel
  obtain ⟨claim, left, id, counts⟩ := counts_of_run counted
  obtain ⟨_, ⟨course, same, took⟩, iff⟩ := outcome_matches_iff office_fresh counts
  refine ⟨claim, left, course, counts, (iff course same took).mpr ?_, same.symm⟩
  cases course with
  | finished => trivial
  | _ => cases same

end JobRelay.Guarantees
