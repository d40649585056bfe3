import JobRelay.Model.Heartbeat
import Mathlib.Algebra.Order.Field.Basic
import Mathlib.Data.List.Induction
import Mathlib.Tactic.FieldSimp

/-! # The lease of a supervised job

Three intervals of the heartbeat are exactly the timeout of the lease. A third attempt in a row therefore ends
in time only if nothing since the last renewal took any time at all.
-/

namespace JobRelay.Guarantees

open Model

/-- A time of the database in seconds. -/
def inSeconds (time : Micros) : ℚ := time / 1000000

/-- `recover_stale_jobs` takes a running job exactly if its `locked_at` is stale. -/
theorem leaseExpired_iff {job : Job} (running : job.status = .running) {lockedAt : Micros}
    (locked : job.lockedAt = some lockedAt) (now : Micros) (failures : ℕ) (cancelled : Bool) :
    job.leaseExpired Processor.LEASE_TIMEOUT now = true ↔
      (Watch.mk (inSeconds now) (inSeconds lockedAt) failures cancelled).Stale := by
  have scaled : lockedAt < now - Processor.LEASE_TIMEOUT ↔
      (lockedAt : ℚ) < now - 30 * 1000000 := by
    rw [← Int.cast_lt (R := ℚ)]
    norm_num [Processor.LEASE_TIMEOUT, seconds]
  simp only [Job.leaseExpired, running, locked, Option.all_some, decide_true, Bool.true_and, decide_eq_true_eq,
    Watch.Stale, inSeconds, LEASE_TIMEOUT_S, scaled]
  constructor <;> intro older <;> linarith

/-- The clock changes nothing in what the loop decides. -/
theorem heartbeatLoop_succ (claim : Claim) (ticks : ℕ) {watch : Watch} (going : watch.cancelled = false)
    (timed : Option Exc → Attempt) (outcome : ∀ raised, (timed raised).outcome = Renewal.of raised) :
    Processor.heartbeatLoop claim (ticks + 1) watch.transientFailures =
      (tryCatch (do Processor.renewLease claim; return none) fun error => return some error) >>= fun raised =>
        match raised, watch.attempt (timed raised) with
        | some error, some next =>
            if next.cancelled then return .error error
            else Processor.heartbeatLoop claim ticks next.transientFailures
        | none, some next => Processor.heartbeatLoop claim ticks next.transientFailures
        | _, none => return .ok watch.transientFailures := by
  rw [Processor.heartbeatLoop]
  congr 1
  funext raised
  have ends := outcome raised
  cases raised with
  | none => simp [Watch.attempt, going, ends, Renewal.of]
  | some error => cases error <;> simp [Watch.attempt, going, ends, Renewal.of]

/-- The time from the `now()` that `locked_at` holds to the end of the renewal, or to the start of the heartbeat. -/
def age (lag : ℚ) (before : List Attempt) : ℚ :=
  match before.getLast? with
  | none => lag
  | some renewal => renewal.updating

/-- The time to the end of the next attempt, or to the end of the body if it comes first. -/
def remaining (tail : ℚ) : List Attempt → ℚ
  | [] => tail
  | attempt :: _ => attempt.span

/-- From the claim or a renewal on, at most `LEASE_TIMEOUT_S` pass until the end of each attempt before which
fewer than `HEARTBEAT_MAX_FAILURES` failed, or until the end of the body. -/
def Timely (lag : ℚ) (attempts : List Attempt) (tail : ℚ) : Prop :=
  ∀ before failures after, attempts = before ++ failures ++ after →
    (∀ renewal ∈ before.getLast?, renewal.outcome = .renewed) →
    (∀ attempt ∈ failures, attempt.outcome = .failed) → failures.length < Processor.HEARTBEAT_MAX_FAILURES →
    age lag before + (failures.map Attempt.span).sum + remaining tail after ≤ LEASE_TIMEOUT_S

section Run

variable {watch mid last : Watch} {attempts past after : List Attempt}

private theorem attempt_going {attempt : Attempt} (turned : watch.attempt attempt = some mid) :
    watch.cancelled = false := by
  cases going : watch.cancelled with
  | false => rfl
  | true => simp [Watch.attempt, going] at turned

private theorem attempt_now {attempt : Attempt} (turned : watch.attempt attempt = some mid) :
    mid.now = watch.now + attempt.span := by
  rw [Watch.attempt, attempt_going turned] at turned
  cases ends : attempt.outcome <;> simp [ends] at turned <;> rw [← turned]

private theorem run_cons {attempt : Attempt} (ran : watch.run (attempt :: attempts) = some last) :
    ∃ next, watch.attempt attempt = some next ∧ next.run attempts = some last := by
  rw [Watch.run, List.foldlM_cons] at ran
  exact Option.bind_eq_some_iff.mp ran

private theorem run_append (ran : watch.run (past ++ after) = some last) :
    ∃ next, watch.run past = some next ∧ next.run after = some last := by
  rw [Watch.run, List.foldlM_append] at ran
  exact Option.bind_eq_some_iff.mp ran

private theorem run_now_le (ran : watch.run attempts = some last) : watch.now ≤ last.now := by
  induction attempts generalizing watch with
  | nil =>
    cases ran
    exact le_rfl
  | cons attempt rest ih =>
    obtain ⟨next, turned, ran⟩ := run_cons ran
    have later := ih ran
    have pos := attempt.span_pos
    rw [attempt_now turned] at later
    linarith

private theorem at_eq (ran : watch.run past = some mid) {time : ℚ} (reached : mid.now ≤ time)
    (before : ∀ attempt ∈ after.head?, time < mid.now + attempt.span) :
    watch.at (past ++ after) time = { mid with now := time } := by
  induction past generalizing watch with
  | nil =>
    cases ran
    cases after with
    | nil => rfl
    | cons attempt rest =>
      rw [List.nil_append, Watch.at]
      cases turned : mid.attempt attempt with
      | none => rfl
      | some next =>
        have early := before attempt rfl
        rw [← attempt_now turned] at early
        exact if_neg (not_le.mpr early)
  | cons attempt rest ih =>
    obtain ⟨next, turned, ran⟩ := run_cons ran
    rw [List.cons_append, Watch.at, turned]
    exact (if_pos ((run_now_le ran).trans reached)).trans (ih ran)

/-- Every time during the turns is before the end of the next one. -/
private theorem at_cases (ran : watch.run attempts = some last) {time : ℚ} (began : watch.now ≤ time) :
    ∃ past after mid, attempts = past ++ after ∧ watch.run past = some mid ∧ mid.now ≤ time ∧
      ∀ attempt ∈ after.head?, time < mid.now + attempt.span := by
  induction attempts generalizing watch with
  | nil => exact ⟨[], [], watch, rfl, rfl, began, by simp⟩
  | cons attempt rest ih =>
    obtain ⟨next, turned, ran⟩ := run_cons ran
    rcases le_or_gt next.now time with passed | early
    · obtain ⟨past, after, mid, rfl, ran', reached, before⟩ := ih ran passed
      refine ⟨attempt :: past, after, mid, rfl, ?_, reached, before⟩
      rw [Watch.run, List.foldlM_cons, turned]
      exact ran'
    · rw [attempt_now turned] at early
      exact ⟨[], attempt :: rest, watch, rfl, rfl, began, by simpa using early⟩

end Run

section Stretch

variable {claimedAt lag ends tail : ℚ} {watch last : Watch} {attempts past after before failures : List Attempt}

private theorem three_pos : 0 < Processor.HEARTBEAT_MAX_FAILURES := by decide

/-- A heartbeat that goes on has only failed since the last renewal. -/
private theorem run_going (ran : (Watch.start claimedAt lag).run past = some watch)
    (going : watch.cancelled = false) :
    ∃ before failures, past = before ++ failures ∧
      (∀ renewal ∈ before.getLast?, renewal.outcome = .renewed) ∧
      (∀ attempt ∈ failures, attempt.outcome = .failed) ∧ failures.length = watch.transientFailures ∧
      watch.transientFailures < Processor.HEARTBEAT_MAX_FAILURES ∧
      watch.now = watch.lockedAt + age lag before + (failures.map Attempt.span).sum := by
  induction past using List.reverseRecOn generalizing watch with
  | nil =>
    cases ran
    exact ⟨[], [], rfl, by simp, by simp, rfl, three_pos, by simp [Watch.start, age]⟩
  | append_singleton past attempt ih =>
    obtain ⟨mid, ran, turned⟩ := run_append ran
    obtain ⟨_, turned, same⟩ := run_cons turned
    cases same
    obtain ⟨before, failures, rfl, renewed, failed, count, _, elapsed⟩ := ih ran (attempt_going turned)
    rw [Watch.attempt, attempt_going turned] at turned
    cases outcome : attempt.outcome with
    | renewed =>
      simp [outcome] at turned
      rw [← turned]
      exact ⟨before ++ failures ++ [attempt], [], by simp, by simp [outcome], by simp, rfl, three_pos,
        by simp [age]⟩
    | leaseLost =>
      simp [outcome] at turned
      simp [← turned] at going
    | failed =>
      simp [outcome] at turned
      rw [← turned] at going ⊢
      refine ⟨before, failures ++ [attempt], by simp, renewed, ?_, ?_, ?_, ?_⟩
      · simpa [or_imp, forall_and, outcome] using failed
      · simp [count]
      · simpa using going
      · simp only [List.map_append, List.sum_append, List.map_cons, List.map_nil, List.sum_singleton, elapsed, add_assoc]

/-- After a renewal the heartbeat goes on until too many attempts have failed. -/
private theorem run_stretch (ran : (Watch.start claimedAt lag).run (before ++ failures) = some watch)
    (renewed : ∀ renewal ∈ before.getLast?, renewal.outcome = .renewed)
    (failed : ∀ attempt ∈ failures, attempt.outcome = .failed)
    (few : failures.length < Processor.HEARTBEAT_MAX_FAILURES) :
    watch.cancelled = false ∧ watch.transientFailures = failures.length ∧
      watch.now = watch.lockedAt + age lag before + (failures.map Attempt.span).sum := by
  induction failures using List.reverseRecOn generalizing watch with
  | nil =>
    rw [List.append_nil] at ran
    induction before using List.reverseRecOn with
    | nil =>
      cases ran
      simp [Watch.start, age]
    | append_singleton before renewal _ =>
      obtain ⟨mid, _, turned⟩ := run_append ran
      obtain ⟨_, turned, same⟩ := run_cons turned
      cases same
      rw [Watch.attempt, attempt_going turned] at turned
      simp [renewed renewal (by simp)] at turned
      simp [← turned, age]
  | append_singleton failures attempt ih =>
    rw [← List.append_assoc] at ran
    obtain ⟨mid, ran, turned⟩ := run_append ran
    obtain ⟨_, turned, same⟩ := run_cons turned
    cases same
    rw [List.length_append, List.length_singleton] at few
    obtain ⟨_, count, elapsed⟩ := ih ran (fun attempt member => failed attempt (by simp [member])) (by omega)
    rw [Watch.attempt, attempt_going turned] at turned
    simp [failed attempt (by simp)] at turned
    rw [← turned]
    refine ⟨?_, by simp [count], ?_⟩
    · simpa [count] using few
    · simp only [List.map_append, List.sum_append, List.map_cons, List.map_nil, List.sum_singleton, elapsed, add_assoc]

/-- Between two turns nothing changes but the time. -/
private theorem between (ran : (Watch.start claimedAt lag).run (past ++ after) = some last)
    (turned : (Watch.start claimedAt lag).run past = some watch) (running : last.now < ends) :
    watch.now < watch.now + remaining (ends - last.now) after ∧
      watch.now + remaining (ends - last.now) after ≤ ends ∧
      ∀ time, watch.now ≤ time → time < watch.now + remaining (ends - last.now) after →
        (Watch.start claimedAt lag).at (past ++ after) time = { watch with now := time } := by
  obtain ⟨_, ran', rest⟩ := run_append ran
  rw [turned] at ran'
  cases ran'
  cases after with
  | nil =>
    cases rest
    exact ⟨by simpa [remaining] using running, by simp [remaining],
      fun time reached _ => at_eq turned reached (by simp)⟩
  | cons attempt after =>
    obtain ⟨next, turn, rest⟩ := run_cons rest
    have later := run_now_le rest
    rw [attempt_now turn] at later
    refine ⟨by simpa [remaining] using attempt.span_pos, later.trans running.le, fun time reached early => ?_⟩
    exact at_eq turned reached (by simpa [remaining] using early)

/-- A stretch without a renewal is stale at some time exactly if it lasts too long. -/
private theorem stale_iff {finish locked : ℚ} (opens : watch.now < finish) (same : locked = watch.lockedAt) :
    (∃ time, watch.now ≤ time ∧ time < finish ∧ { watch with now := time }.Stale) ↔
      locked + LEASE_TIMEOUT_S < finish := by
  simp only [Watch.Stale, ← same]
  constructor
  · rintro ⟨time, _, early, older⟩
    linarith
  · intro late
    obtain ⟨time, later, early⟩ := exists_between (max_lt opens late)
    exact ⟨time, (le_max_left _ _).trans later.le, early, by linarith [le_max_right watch.now (locked + LEASE_TIMEOUT_S)]⟩

end Stretch

/-- A call of `_renew_lease` that takes a second before and a second after its transaction begins. -/
def slow (outcome : Renewal) : Attempt := ⟨1, 1, outcome, by norm_num, by norm_num⟩

/-- Two attempts fail and the third is under way when the lease has expired. -/
theorem stale_not_cancelled : ∃ last,
    (Watch.start 0 0).run [slow .failed, slow .failed, slow .failed] = some last ∧ last.now < 60 ∧
    ((Watch.start 0 0).at [slow .failed, slow .failed, slow .failed] 35).Stale ∧
    ((Watch.start 0 0).at [slow .failed, slow .failed, slow .failed] 35).cancelled = false := by
  exact ⟨⟨36, 0, 3, true⟩, by decide +kernel, by norm_num, by decide +kernel, by decide +kernel⟩

/-- While the body of a job runs, its token is set whenever `recover_stale_jobs` would take the job, exactly if
every stretch from the claim or a renewal to the next renewal, to the heartbeat giving up or to the end of the
body is `Timely`. -/
theorem stale_cancelled_iff {claimedAt lag ends : ℚ} {attempts : List Attempt} {last : Watch}
    (ran : (Watch.start claimedAt lag).run attempts = some last) (running : last.now < ends) :
    (∀ time, claimedAt + lag ≤ time → time < ends →
      ((Watch.start claimedAt lag).at attempts time).Stale →
      ((Watch.start claimedAt lag).at attempts time).cancelled = true) ↔
    Timely lag attempts (ends - last.now) := by
  constructor
  · rintro supervised before failures after rfl renewed failed few
    obtain ⟨watch, turned, _⟩ := run_append ran
    obtain ⟨going, _, elapsed⟩ := run_stretch turned renewed failed few
    obtain ⟨opens, closes, frozen⟩ := between ran turned running
    by_contra late
    have overdue : watch.lockedAt + LEASE_TIMEOUT_S < watch.now + remaining (ends - last.now) after := by linarith
    obtain ⟨time, reached, early, stale⟩ := (stale_iff opens rfl).mpr overdue
    have set := supervised time ((run_now_le turned).trans reached) (early.trans_le closes)
    rw [frozen time reached early] at set
    have cancelled : watch.cancelled = true := set stale
    rw [going] at cancelled
    exact Bool.noConfusion cancelled
  · intro timely time began early stale
    obtain ⟨past, after, watch, rfl, turned, reached, next⟩ := at_cases ran began
    obtain ⟨opens, _, frozen⟩ := between ran turned running
    have inside : time < watch.now + remaining (ends - last.now) after := by
      cases after with
      | nil =>
        rw [List.append_nil] at ran
        rw [turned] at ran
        cases ran
        simpa [remaining] using early
      | cons attempt after => exact next attempt rfl
    rw [frozen time reached inside] at stale ⊢
    cases going : watch.cancelled with
    | true => rfl
    | false =>
      obtain ⟨before, failures, rfl, renewed, failed, count, few, elapsed⟩ := run_going turned going
      have bound := timely before failures after rfl renewed failed (by rwa [count])
      have overdue := (stale_iff opens rfl).mp ⟨time, reached, inside, stale⟩
      linarith

theorem stale_cancelled_office :
    (∀ time, (0 : ℚ) + 0 ≤ time → time < 30 → ((Watch.start 0 0).at [slow .renewed] time).Stale →
      ((Watch.start 0 0).at [slow .renewed] time).cancelled = true) ∧ Timely 0 [slow .renewed] 18 := by
  have ran : (Watch.start 0 0).run [slow .renewed] = some ⟨12, 11, 0, false⟩ := by decide +kernel
  have turned : (Watch.start 0 0).attempt (slow .renewed) = some ⟨12, 11, 0, false⟩ := by decide +kernel
  have supervised : ∀ time, (0 : ℚ) + 0 ≤ time → time < 30 →
      ((Watch.start 0 0).at [slow .renewed] time).Stale →
      ((Watch.start 0 0).at [slow .renewed] time).cancelled = true := by
    intro time _ early stale
    simp only [Watch.at, turned, Watch.Stale, LEASE_TIMEOUT_S] at stale
    split at stale <;> simp [Watch.start] at stale <;> linarith
  have timely := (stale_cancelled_iff ran (show (12 : ℚ) < 30 by norm_num)).mp supervised
  exact ⟨supervised, by norm_num at timely; exact timely⟩

/-- A third attempt in a row is in time only if nothing has taken any time. -/
theorem third_attempt {lag tail : ℚ} {before after : List Attempt} {first second third : Attempt}
    (timely : Timely lag (before ++ [first, second] ++ third :: after) tail)
    (renewed : ∀ renewal ∈ before.getLast?, renewal.outcome = .renewed)
    (failed : first.outcome = .failed ∧ second.outcome = .failed) :
    age lag before + ([first, second, third].map fun attempt => attempt.connecting + attempt.updating).sum ≤ 0 := by
  have bound := timely before [first, second] (third :: after) rfl renewed (by simp [failed])
    (by simp [Processor.HEARTBEAT_MAX_FAILURES])
  simp only [remaining, Attempt.span, HEARTBEAT_INTERVAL_S, LEASE_TIMEOUT_S, List.map_cons, List.map_nil,
    List.sum_cons, List.sum_nil] at bound ⊢
  linarith

end JobRelay.Guarantees
