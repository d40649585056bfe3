import JobRelay.Sessions.Histories
import JobRelay.Soundness.Reports

/-! # How an attempt comes to its outcome

`process_next` takes one of six courses from its claim to the outcome that it counts. Each is told by what the
call did in the run: the commit that the log shows, or the turn at which the statement that decides was answered
and the row of the job as it then was.
-/

namespace JobRelay.Soundness

open Model Sessions

section Courses

variable (admits : Request → Bool) (start : Service) (pid : ℕ)

/-- At the end of the run, the log shows the process with this label. -/
def Logged (label : Label) (now : List Step) : Prop :=
  ∃ world, start.runActions (service admits) now = some world ∧ (pid, label) ∈ world.state.history

/-- After its claim the process had a statement answered at a turn of the run, with the job as it then was. -/
structure Decided (claim : Claim) (q : Sql) (saw : Option Job → Prop) (first now : List Step) : Prop where
  claimed : Logged admits start pid (.claimed (some claim)) first
  later : ∃ turn, first ++ [.exec pid turn] <+: now
  asked : ∃ world, start.runActions (service admits) first = some world ∧
    (∃ proc ∈ world.procs.rows, proc.pid = pid ∧ proc.program.bind Program.query? = some q) ∧
    saw (world.state.job? claim.id)

/-- The exits of `process_next` after a claim, with the run up to the statement that decides where one does. -/
inductive Course where
  /-- `_finalize` committed the result. -/
  | finished
  /-- The update of `_finalize` matched no row. -/
  | missed (first : List Step)
  /-- `_acknowledge_cancellation` read that the job is cancelled. -/
  | acknowledged (first : List Step)
  /-- `_record_failure` committed the failure. -/
  | recorded
  /-- The update of `_record_failure` matched no row. -/
  | late (first : List Step)
  /-- A database error escaped the handlers. -/
  | raised

/-- What `jobs_processed_total` counts at the end of a course. -/
def Course.outcome : Course → JobStatus
  | .finished => .done
  | .missed _ | .acknowledged _ => .cancelled
  | .recorded | .late _ | .raised => .failed

/-- The `WHERE` of the updates of `_finalize` and `_record_failure` matches no row. -/
def Missing (claim : Claim) (found : Option Job) : Prop :=
  ∀ row, found = some row → row.runningUnder claim.workerId = false

/-- The call took this course, up to now. -/
def Took (claim : Claim) (escaping : Option Exc) (now : List Step) : Course → Prop
  | .finished => Logged admits start pid (.finalized claim .done) now
  | .missed first => Decided admits start pid claim (.finishJob claim.id claim.workerId) (Missing claim) first now
  | .acknowledged first => Decided admits start pid claim (.selectStatus claim.id)
      (fun found => found.map Job.status = some .cancelled) first now
  | .recorded => Logged admits start pid (.failureRecorded claim .failed) now
  | .late first => ∃ text, Decided admits start pid claim (.failJob text claim.id claim.workerId)
      (Missing claim) first now
  | .raised => ∃ error, escaping = some error ∧ error.fromDatabase = true

end Courses

variable {admits : Request → Bool} {start world : Service} {pid : ℕ} {claim : Claim} {past now : List Step}

/-- The log only grows. -/
theorem Logged.later (fresh : Fresh start) {label : Label} (logged : Logged admits start pid label past)
    (later : past <+: now) (ran : start.runActions (service admits) now = some world) :
    Logged admits start pid label now := by
  obtain ⟨rest, rfl⟩ := later
  obtain ⟨middle, reached, member⟩ := logged
  refine ⟨world, ran, ?_⟩
  rw [World.runActions_append, reached, Option.bind_some] at ran
  have onward : World.Reaches (service admits) middle world := ⟨rest, ran⟩
  have both : World.Reaches (service admits) start world ∧ (pid, label) ∈ world.state.history := by
    refine onward.preserves (P := fun world =>
      World.Reaches (service admits) start world ∧ (pid, label) ∈ world.state.history) ⟨⟨past, reached⟩, member⟩ ?_
    rintro world action next ⟨reached, member⟩ stepped
    exact ⟨reached.step stepped, logged_later fresh reached stepped member⟩
  exact both.2

theorem Decided.onward {q : Sql} {saw : Option Job → Prop} {first : List Step}
    (decided : Decided admits start pid claim q saw first past) (later : past <+: now) :
    Decided admits start pid claim q saw first now := by
  obtain ⟨turn, before⟩ := decided.later
  exact ⟨decided.claimed, ⟨turn, before.trans later⟩, decided.asked⟩

theorem Took.later (fresh : Fresh start) {escaping : Option Exc} {course : Course}
    (took : Took admits start pid claim escaping past course) (later : past <+: now)
    (ran : start.runActions (service admits) now = some world) :
    Took admits start pid claim escaping now course := by
  cases course with
  | finished | recorded => exact Logged.later fresh took later ran
  | missed first | acknowledged first => exact Decided.onward took later
  | late first =>
    obtain ⟨text, decided⟩ := took
    exact ⟨text, decided.onward later⟩
  | raised => exact took

/-- What a transaction of the worker leaves: it is closed, and its log shows what was committed. -/
def Committed (admits : Request → Bool) (start : Service) (pid : ℕ) {α : Type} (committed : α → Label)
    (B : α → List Step → Prop) : Except Exc α → Option Tx → List Step → Prop
  | .ok value, tx, now => tx = none ∧ B value now ∧ Logged admits start pid (committed value) now
  | .error error, tx, _ => tx = none ∧ Failure error

/-- What its body leaves: an open transaction, unless the database failed. -/
def Opened {α : Type} (B : α → List Step → Prop) : Except Exc α → Option Tx → List Step → Prop
  | .ok value, tx, now => tx.isSome = true ∧ B value now
  | .error error, _, _ => Failure error

/-- Any statement leaves its transaction open, or fails. -/
theorem exec_told {q : Sql} {tx : Option Tx} :
    (exec q).Silent (service admits) start pid (Opened fun _ _ => True) tx past :=
  .exec (fun _ _ _ _ _ _ _ _ _ => ⟨rfl, trivial⟩) fun _ _ _ _ fails => failure_of_fails fails

/-- A statement whose answer does not matter. -/
theorem exec_bind_told {q : Sql} {tx : Option Tx} {α : Type} {next : q.Answer → Prog α} {B : α → List Step → Prop}
    (rest : ∀ answer opened now, (next answer).Silent (service admits) start pid (Opened B) (some opened) now) :
    ((exec q).bind next).Silent (service admits) start pid (Opened B) tx past := by
  refine exec_told.bind ?_ fun _ _ _ failure => failure
  rintro answer tx now ⟨isOpen, _⟩
  obtain ⟨opened, rfl⟩ := Option.isSome_iff_exists.mp isOpen
  exact rest answer opened now

section Transactions

variable {α : Type} {body : Prog α} {committed : α → Label} {aborted : Exc → Label} {before : List Step}

/-- A transaction of the worker is told by its body, from an empty transaction on. -/
theorem connTransaction_told {B : α → List Step → Prop}
    (lasting : ∀ {value past now}, past <+: now → B value past → B value now) (since : before <+: past)
    (told : ∀ opened now, opened.writes = [] → before <+: now →
      body.Silent (service admits) start pid (Opened B) (some opened) now) :
    (connTransaction body committed aborted).Silent (service admits) start pid
      (Committed admits start pid committed B) none past := by
  have begun : (Program.bind (exec .begin) fun _ => body).Silent (service admits) start pid (Opened B) none past := by
    refine Program.Told.bind (P := fun result tx now => match result with
      | .ok _ => ∃ opened, tx = some opened ∧ opened.writes = [] ∧ before <+: now
      | .error error => Failure error) (.exec ?_ ?_) ?_ fun _ _ _ failure => failure
    · intro now world turns choice turn answer after opened ran
      cases ran
      exact ⟨_, rfl, rfl, since.trans (turns.later.trans (List.prefix_append ..))⟩
    · exact fun _ _ _ _ fails => failure_of_fails fails
    · rintro _ _ now ⟨opened, rfl, silent, since⟩
      exact told opened now silent since
  refine Program.Told.transaction begun ?_ fun _ _ _ _ failure _ => ⟨rfl, failure⟩
  rintro value tx past ⟨isOpen, holds⟩ now world turns
  obtain ⟨opened, rfl⟩ := Option.isSome_iff_exists.mp isOpen
  refine ⟨fun action after ran committed => ?_, fun error fault => ⟨rfl, fault⟩⟩
  refine ⟨rfl, lasting (turns.later.trans (List.prefix_append ..)) holds, after, ran, ?_⟩
  rw [committed]
  exact List.mem_append_right _ (List.mem_singleton_self _)

variable (fresh : Fresh start) (claimed : Logged admits start pid (.claimed (some claim)) before)

include fresh claimed

/-- A turn of the run after the claim, at which a statement decided. -/
private theorem decided_at {q : Sql} {saw : Option Job → Prop} {tx : Option Tx} (since : before <+: past)
    (turns : World.Turns (service admits) start pid (some q) tx past now world)
    (saw_row : saw (world.state.job? claim.id)) (turn : Choice) :
    Decided admits start pid claim q saw now (now ++ [.exec pid turn]) := by
  obtain ⟨proc, member, same, _, asks⟩ := turns.running
  exact ⟨claimed.later fresh (since.trans turns.later) turns.ran, ⟨turn, List.prefix_refl _⟩, world, turns.ran,
    ⟨proc, member, same, asks⟩, saw_row⟩

/-- The update of a claimed job: it matches no row, or returns what it sets. -/
private theorem update_told (q : Sql) (set : Tx → Job → Job) (respond : Option Job → q.Answer)
    (answers : ∀ s others choice tx, q.answer s others choice tx =
      (updateJob s tx claim.id (fun job => job.runningUnder claim.workerId) (set tx)).map
        fun (row, s, tx) => (respond row, s, tx))
    {opened : Tx} (silent : opened.writes = []) (since : before <+: past) :
    (exec q).Silent (service admits) start pid
      (Opened fun answer now => (answer = respond none ∧ ∃ first, Decided admits start pid claim q (Missing claim) first now) ∨
        ∃ row, answer = respond (some (set opened row))) (some opened) past := by
  refine .exec (fun now world turns choice turn answer after opened' ran => ⟨rfl, ?_⟩) fun _ _ _ _ fails =>
    failure_of_fails fails
  change q.answer _ _ _ opened = _ at ran
  rw [answers] at ran
  obtain ⟨⟨found, _, _⟩, inner, same⟩ := map_ok ran
  cases same
  obtain ⟨_, ⟨rfl, _, missed⟩ | ⟨row, _, _, rfl, _⟩⟩ := updateJob_ok inner
  · rw [view_of_silent silent] at missed
    exact .inl ⟨rfl, now, decided_at fresh claimed since turns missed turn⟩
  · exact .inr ⟨row, rfl⟩

private theorem finalize_told (since : before <+: past) :
    (Processor.finalize claim).Silent (service admits) start pid
      (Committed admits start pid (fun outcome => .finalized claim outcome) fun outcome now => outcome = .done ∨
        outcome = .cancelled ∧ ∃ first, Took admits start pid claim none now (.missed first)) none past := by
  refine connTransaction_told ?_ since fun opened now silent since => ?_
  · rintro _ past now later (rfl | ⟨rfl, first, decided⟩)
    · exact .inl rfl
    · exact .inr ⟨rfl, first, decided.onward later⟩
  refine (update_told fresh claimed (.finishJob claim.id claim.workerId) (fun tx row => row.finish tx.now)
    (Option.map Job.id) (fun _ _ _ _ => rfl) silent since).bind ?_ fun _ _ _ failure => failure
  rintro (_ | id) tx now ⟨isOpen, missed | ⟨row, same⟩⟩
  · obtain ⟨_, first, decided⟩ := missed
    exact ⟨isOpen, .inr ⟨rfl, first, decided⟩⟩
  · cases same
  · cases missed.1
  · refine exec_bind_told fun inserted opened now => exec_bind_told fun _ opened now => ?_
    change Program.Silent _ _ _ (if inserted ≠ 0 then _ else _) _ _ _
    split
    · exact exec_bind_told fun _ opened now => ⟨rfl, .inl rfl⟩
    · exact ⟨rfl, .inl rfl⟩

private theorem recordFailure_told (error : Exc) (since : before <+: past) :
    (Processor.recordFailure claim error).Silent (service admits) start pid
      (Committed admits start pid (fun status => .failureRecorded claim status) fun status now => status = .failed ∨
        ∃ first, Took admits start pid claim none now (.late first)) none past := by
  refine connTransaction_told ?_ since fun opened now silent since => ?_
  · rintro _ past now later (rfl | ⟨first, text, decided⟩)
    · exact .inl rfl
    · exact .inr ⟨first, text, decided.onward later⟩
  refine (update_told fresh claimed (.failJob error.describe claim.id claim.workerId)
    (fun tx row => row.fail error.describe tx.now) (Option.map Job.status) (fun _ _ _ _ => rfl) silent since).bind ?_
      fun _ _ _ failure => failure
  rintro (_ | status) tx now ⟨isOpen, missed | ⟨row, same⟩⟩
  · obtain ⟨_, first, decided⟩ := missed
    exact ⟨isOpen, .inr ⟨first, error.describe, decided⟩⟩
  · cases same
  · cases missed.1
  · have failed : status = .failed := Option.some.inj same
    subst failed
    refine exec_bind_told fun _ opened now => ?_
    change Program.Silent _ _ _ (if MAX_ATTEMPTS ≤ claim.attempts then _ else _) _ _ _
    split
    · exact exec_bind_told fun _ opened now => ⟨rfl, .inl rfl⟩
    · exact ⟨rfl, .inl rfl⟩

private theorem acknowledgeCancellation_told (since : before <+: past) :
    (Processor.acknowledgeCancellation claim).Silent (service admits) start pid
      (Committed admits start pid (fun cancelled => .acknowledged claim cancelled) fun cancelled now =>
        cancelled = true → ∃ first, Took admits start pid claim none now (.acknowledged first)) none past := by
  refine connTransaction_told ?_ since fun opened now silent since => ?_
  · intro cancelled past now later known same
    obtain ⟨first, decided⟩ := known same
    exact ⟨first, decided.onward later⟩
  refine Program.Told.bind (P := Opened fun status now => status = some .cancelled →
    ∃ first, Took admits start pid claim none now (.acknowledged first)) (.exec ?_ fun _ _ _ _ fails =>
      failure_of_fails fails) ?_ fun _ _ _ failure => failure
  · intro now world turns choice turn answer after opened' ran
    cases ran
    refine ⟨rfl, fun cancelled => ⟨now, decided_at fresh claimed since turns ?_ turn⟩⟩
    change ((opened.view world.state).job? claim.id).map Job.status = _ at cancelled
    rwa [view_of_silent silent] at cancelled
  · rintro status tx now ⟨isOpen, known⟩
    refine (exec_told.since (List.prefix_refl now)).bind ?_ fun _ _ _ failure => failure.1
    rintro _ tx later ⟨⟨isOpen, _⟩, onward⟩
    refine ⟨isOpen, fun cancelled => ?_⟩
    obtain ⟨first, decided⟩ := known (of_decide_eq_true cancelled)
    exact ⟨first, decided.onward onward⟩

end Transactions

section Supervision

/-- No transaction of the worker stays open. -/
private abbrev Rests {α : Type} (admits : Request → Bool) (start : Service) (pid : ℕ) (program : Prog α) : Prop :=
  program.Rests (service admits) start pid

private theorem signal_rests : Rests admits start pid Processor.signal := by
  refine .await fun choice => ?_
  cases choice.raises with
  | none => exact .ret _
  | some error => exact .raise error

private theorem renewLease_rests : Rests admits start pid (Processor.renewLease claim) := by
  refine .transaction ((Program.Mute.exec _).bind fun _ => (Program.Mute.exec _).bind ?_)
  rintro (_ | id)
  · exact .raise _
  · exact .ret _

/-- The program returns, with no transaction open. -/
private def ReturnsClosed {α : Type} (admits : Request → Bool) (start : Service) (pid : ℕ) (program : Prog α) : Prop :=
  ∀ past, program.Silent (service admits) start pid (fun result tx _ => tx = none ∧ ∃ value, result = .ok value)
    none past

private theorem ReturnsClosed.ret {α : Type} (value : α) : ReturnsClosed admits start pid (.ret value) := fun _ => ⟨rfl, value, rfl⟩

private theorem ReturnsClosed.bind {α β : Type} {program : Prog α} {next : α → Prog β}
    (returns : ReturnsClosed admits start pid program) (rest : ∀ value, ReturnsClosed admits start pid (next value)) :
    ReturnsClosed admits start pid (program.bind next) := by
  refine fun past => (returns past).bind ?_ ?_
  · rintro value tx past ⟨rfl, _⟩
    exact rest value past
  · rintro error tx past ⟨_, _, impossible⟩
    cases impossible

/-- Every exception of the body is caught. -/
private theorem returns_caught {α β : Type} {body : Prog α} (rests : Rests admits start pid body) {value : β}
    {caught : Exc → β} : ReturnsClosed admits start pid ((body.bind fun _ => .ret value).handle fun error => .ret (caught error)) :=
  fun past => (rests.bind (fun _ => .ret value) past).handle (fun value _ _ closed => ⟨closed, value, rfl⟩)
    fun error _ _ closed => ⟨closed, caught error, rfl⟩

private theorem heartbeatLoop_returns (ticks failures : ℕ) :
    ReturnsClosed admits start pid (Processor.heartbeatLoop claim ticks failures) := by
  induction ticks generalizing failures with
  | zero => exact .ret _
  | succ ticks ih =>
    refine ReturnsClosed.bind (returns_caught renewLease_rests) ?_
    rintro (_ | error)
    · exact ih 0
    · have goes_on : ∀ error, ReturnsClosed admits start pid
          (if Processor.HEARTBEAT_MAX_FAILURES ≤ failures + 1 then .ret (.error error)
            else Processor.heartbeatLoop claim ticks (failures + 1)) := by
        intro error
        split
        · exact .ret _
        · exact ih _
      cases error with
      | leaseLost jobId => exact .ret _
      | _ => exact goes_on _

private theorem heartbeat_returns (state : Except Exc ℕ) :
    ReturnsClosed admits start pid (Processor.heartbeat claim state) := by
  cases state with
  | error error => exact .ret _
  | ok failures => exact fun past choice => heartbeatLoop_returns _ _ past

private theorem execute_rests : Rests admits start pid (Processor.execute claim) := by
  refine signal_rests.bind fun _ => Program.Rests.bind (.transaction ((Program.Mute.exec _).bind fun _ => .exec _)) ?_
  rintro (_ | company)
  · exact .raise _
  · exact .ret _

private theorem supervise_returns : ReturnsClosed admits start pid (Processor.supervise claim) := by
  refine (returns_caught signal_rests).bind ?_
  rintro (error | _)
  · exact .ret _
  · refine (heartbeat_returns _).bind fun before => (returns_caught execute_rests).bind fun body =>
      (heartbeat_returns _).bind fun after => (returns_caught signal_rests).bind fun stopped => ?_
    rcases stopped with error | _
    · exact .ret _
    · rcases body with error | _
      · exact .ret _
      · cases after with
        | error error => exact .ret _
        | ok failures => exact .ret _

end Supervision

/-- An attempt ends with the outcome of its course, or with a failure of the database. -/
private def Attempted (admits : Request → Bool) (start : Service) (pid : ℕ) (claim : Claim) :
    Except Exc (JobStatus × Option Exc) → Option Tx → List Step → Prop
  | .ok (outcome, escaping), _, now =>
      ∃ course, outcome = course.outcome ∧ Took admits start pid claim escaping now course
  | .error error, _, _ => Failure error

section Attempts

variable (fresh : Fresh start) {before : List Step} (claimed : Logged admits start pid (.claimed (some claim)) before)

include fresh claimed

/-- The failure of an attempt is counted, whatever recording it came to. -/
private theorem failed_told (error : Exc) (escaping : Option Exc) (since : before <+: past) :
    ((Processor.recordFailure claim error).bind fun _ => .ret (JobStatus.failed, escaping)).Silent (service admits)
      start pid (Attempted admits start pid claim) none past := by
  refine (recordFailure_told fresh claimed error since).bind ?_ fun _ _ _ failure => failure.2
  rintro status tx now ⟨_, rfl | ⟨first, late⟩, logged⟩
  · exact ⟨.recorded, rfl, logged⟩
  · exact ⟨.late first, rfl, late⟩

private theorem conclude_told (lost : Option Exc) (error : Exc) (since : before <+: past) :
    (Processor.conclude claim lost error).Silent (service admits) start pid (Attempted admits start pid claim)
      none past := by
  cases error with
  | jobCancelled =>
    refine ((acknowledgeCancellation_told fresh claimed since).since since).bind ?_ fun _ _ _ failure => failure.1.2
    rintro cancelled tx now ⟨⟨rfl, known, _⟩, since⟩
    cases cancelled with
    | true =>
      obtain ⟨first, acknowledged⟩ := known rfl
      exact ⟨.acknowledged first, rfl, acknowledged⟩
    | false => exact fun choice => failed_told fresh claimed _ none since
  | fatalCancellationMonitor jobId => exact failed_told fresh claimed _ _ since
  | _ => exact failed_told fresh claimed _ none since

private theorem attempt_told (since : before <+: past) :
    (Processor.attempt claim).Silent (service admits) start pid (Attempted admits start pid claim) none past := by
  refine ((supervise_returns past).since since).bind ?_ fun _ _ _ ends => (by cases ends.1.2.choose_spec)
  rintro ⟨lost, body⟩ tx now ⟨⟨rfl, _⟩, since⟩
  -- what the body raises, and what the token or `_finalize` raises, goes to the same handlers
  refine Program.Told.handle (P := fun result tx now => before <+: now ∧ match result with
    | .ok _ => Attempted admits start pid claim result tx now
    | .error _ => tx = none) ?_ (fun _ _ _ ends => ends.2) ?_
  · cases body with
    | error error => exact ⟨since, rfl⟩
    | ok _ =>
      refine ((signal_rests now).since since).bind ?_ fun _ _ _ closed => ⟨closed.2, closed.1⟩
      rintro _ tx now ⟨rfl, since⟩
      refine ((finalize_told fresh claimed since).since since).bind ?_ fun _ _ _ failure => ⟨failure.2, failure.1.1⟩
      rintro outcome tx now ⟨⟨_, rfl | ⟨rfl, first, missed⟩, logged⟩, since⟩
      · exact ⟨since, .finished, rfl, logged⟩
      · exact ⟨since, .missed first, rfl, missed⟩
  · rintro error tx now ⟨since, rfl⟩
    exact conclude_told fresh claimed lost error since

end Attempts

section Calls

/-- The exception with which a program ends. -/
def escaping? {α : Type} : Prog α → Option Exc
  | .raise error => some error
  | _ => none

/-- What `process_next` counts is the outcome of the course that it took since its claim. -/
def Tallied (admits : Request → Bool) (start : Service) (pid : ℕ) (call : Call) (label : Label) (left : Prog Return)
    (now : List Step) : Prop :=
  call = .processNext → ∀ claim outcome, label = .processed claim outcome →
    Logged admits start pid (.claimed (some claim)) now ∧
    ∃ course, outcome = course.outcome ∧ Took admits start pid claim (escaping? left) now course

variable (fresh : Fresh start)

private theorem recordStale_mute (error : String) (jobs : List StaleJob) :
    (Processor.recordStale error jobs).Mute (service admits) start pid := by
  induction jobs with
  | nil => exact .ret _
  | cons job rest ih =>
    refine (Program.Mute.exec _).bind fun _ => ?_
    change Program.Mute _ _ _ (if MAX_ATTEMPTS ≤ job.attempts then _ else _)
    split
    · exact (Program.Mute.exec _).bind fun _ => ih
    · exact ih

private theorem recoverStaleJobs_rests : Rests admits start pid Processor.recoverStaleJobs :=
  .transaction ((Program.Mute.exec _).bind fun _ => (Program.Mute.exec _).bind fun jobs =>
    (recordStale_mute _ jobs).bind fun _ => .ret _)

private theorem claimNext_told (workerId : ℕ) :
    (Processor.claimNext workerId).Silent (service admits) start pid (fun result tx now => tx = none ∧
      ∀ claim, result = .ok claim → Logged admits start pid (.claimed claim) now) none past := by
  have held : ∀ {α : Type} (q : Sql) (next : q.Answer → Prog α),
      (∀ answer opened now, (next answer).Silent (service admits) start pid (fun result tx _ =>
        ∀ value, result = .ok value → tx.isSome = true) (some opened) now) →
      ∀ tx now, ((exec q).bind next).Silent (service admits) start pid (fun result tx _ =>
        ∀ value, result = .ok value → tx.isSome = true) tx now := by
    intro α q next rest tx now
    refine exec_told.bind ?_ fun _ _ _ _ _ same => (by cases same)
    rintro answer tx now ⟨isOpen, _⟩
    obtain ⟨opened, rfl⟩ := Option.isSome_iff_exists.mp isOpen
    exact rest answer opened now
  refine Program.Told.transaction (P := fun result tx _ => ∀ value, result = .ok value → tx.isSome = true) ?_ ?_
    fun _ _ _ _ _ _ => ⟨rfl, fun _ same => (by cases same)⟩
  · refine held _ _ (fun _ opened now => held _ _ ?_ _ _) _ _
    rintro (_ | job) opened now
    · exact fun _ _ => rfl
    · refine held _ _ ?_ _ _
      rintro (_ | lease) opened now
      · intro _ same
        cases same
      · exact fun _ _ => rfl
  · intro claim tx past isOpen now world turns
    obtain ⟨opened, rfl⟩ := Option.isSome_iff_exists.mp (isOpen claim rfl)
    refine ⟨fun action after ran committed => ⟨rfl, fun other same => ?_⟩, fun error fault =>
      ⟨rfl, fun _ same => (by cases same)⟩⟩
    cases same
    refine ⟨after, ran, ?_⟩
    rw [committed]
    exact List.mem_append_right _ (List.mem_singleton_self _)

include fresh

private theorem processNext_told :
    (code pid .processNext).Told (service admits) start pid (Tallied admits start pid .processNext) (fun _ _ _ => True)
      none past := by
  change ((Processor.recoverStaleJobs.bind fun _ => (Processor.claimNext pid).bind _).bind _).Told _ _ _ _ _ _ _
  rw [Program.bind_assoc]
  refine (recoverStaleJobs_rests past).bind ?_ fun _ _ _ _ => trivial
  rintro _ tx past rfl
  rw [Program.bind_assoc]
  refine (claimNext_told pid).bind ?_ fun _ _ _ _ => trivial
  rintro (_ | claim) tx past ⟨rfl, logged⟩
  · trivial
  have claimed := logged _ rfl
  change (((Program.bind _ _).bind _).bind _).Told _ _ _ _ _ _ _
  rw [Program.bind_assoc, Program.bind_assoc]
  refine Program.Told.bind (P := fun result tx now => past <+: now ∧ ∃ outcome escaping, result = .ok (outcome, escaping) ∧
    ∃ course, outcome = course.outcome ∧ Took admits start pid claim escaping now course) ?_ ?_ fun _ _ _ _ => trivial
  · refine ((attempt_told fresh claimed (List.prefix_refl past)).since (List.prefix_refl past)).handle ?_ ?_
    · rintro ⟨outcome, escaping⟩ tx now ⟨took, since⟩
      exact ⟨since, outcome, escaping, rfl, took⟩
    · rintro error tx now ⟨failure, since⟩
      exact ⟨since, .failed, some error, rfl, .raised, rfl, error, rfl, failure⟩
  · rintro _ tx before ⟨since, outcome, escaping, same, course, rfl, took⟩ now world turns
    cases same
    refine ⟨fun _ _ _ same => ?_, ?_⟩
    · cases same
      refine ⟨claimed.later fresh (since.trans turns.later) turns.ran, course, rfl, ?_⟩
      cases escaping with
      | none => exact took.later fresh turns.later turns.ran
      | some error => exact took.later fresh turns.later turns.ran
    · cases escaping with
      | none => trivial
      | some error => trivial

/-- A call that is about to count an outcome took the course of that outcome. -/
theorem counted_of_run {actions : List Step} (ran : start.runActions (service admits) actions = some world)
    {proc : Proc ℕ Mode Call Tx Sql Sql.Answer Choice Exc Label Return} (member : proc ∈ world.procs.rows)
    (called : proc.call = some .processNext) {claim : Claim} {outcome : JobStatus} {left : Prog Return}
    (present : proc.program = some (.publish (.processed claim outcome) left)) :
    Logged admits start proc.pid (.claimed (some claim)) actions ∧
    ∃ course, outcome = course.outcome ∧ Took admits start proc.pid claim (escaping? left) actions course := by
  have told : proc.Told (service admits) start (Tallied admits start) (fun _ _ _ _ _ => True) actions :=
    World.told ?_ fresh.procs ran proc member
  · obtain ⟨past, later, told⟩ := told.left _ _ called present
    have turns : World.Turns (service admits) start proc.pid none proc.tx past actions world :=
      ⟨ran, later, proc, member, rfl, rfl, by rw [present]; rfl⟩
    exact (told actions world turns).1 rfl claim outcome rfl
  · intro pid call past
    cases call with
    | processNext => exact processNext_told fresh
    | _ => exact .of_forall (fun _ _ _ other => (by cases other)) fun _ _ _ => trivial

end Calls

end JobRelay.Soundness
