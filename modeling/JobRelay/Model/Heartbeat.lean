import JobRelay.Model.Processor
import Mathlib.Data.Rat.Defs
import Mathlib.Algebra.Order.Field.Rat
import Mathlib.Algebra.BigOperators.Group.List.Basic
import Mathlib.Tactic.Linarith
import Mathlib.Tactic.NormNum

/-! # The heartbeat in time

The loop of `lease_heartbeat` with its clock. An attempt starts `HEARTBEAT_INTERVAL_S` after the previous one
finished, takes as long as it takes, and ends as `Processor.renewLease` ends. The transaction of a renewal reads
`now()` when it begins, so `locked_at` is already old when the renewal commits.
-/

namespace JobRelay.Model

def LEASE_TIMEOUT_S : ℚ := 30
def HEARTBEAT_INTERVAL_S : ℚ := LEASE_TIMEOUT_S / 3

/-- How a call of `_renew_lease` ends. -/
inductive Renewal where
  | renewed
  | failed
  | leaseLost
deriving DecidableEq

/-- The `except` clauses of the loop. -/
def Renewal.of : Option Exc → Renewal
  | none => .renewed
  | some (.leaseLost _) => .leaseLost
  | some _ => .failed

/-- A call of `_renew_lease`. -/
structure Attempt where
  /-- Until its transaction begins. -/
  connecting : ℚ
  /-- From then until it commits or raises. -/
  updating : ℚ
  outcome : Renewal
  connecting_nonneg : 0 ≤ connecting
  updating_nonneg : 0 ≤ updating

/-- The wait before an attempt and the attempt. -/
def Attempt.span (attempt : Attempt) : ℚ := HEARTBEAT_INTERVAL_S + attempt.connecting + attempt.updating

theorem Attempt.span_pos (attempt : Attempt) : 0 < attempt.span := by
  have connecting := attempt.connecting_nonneg
  have updating := attempt.updating_nonneg
  norm_num [span, HEARTBEAT_INTERVAL_S, LEASE_TIMEOUT_S]
  linarith

/-- The heartbeat thread, the `locked_at` that is committed and the token of the job. -/
structure Watch where
  now : ℚ
  lockedAt : ℚ
  transientFailures : ℕ
  cancelled : Bool
deriving DecidableEq

namespace Watch

variable (watch : Watch)

/-- The heartbeat starts some time after the claim's transaction has read `now()`. -/
def start (claimedAt lag : ℚ) : Watch := ⟨claimedAt + lag, claimedAt, 0, false⟩

/-- One turn of the loop: it waits and calls `_renew_lease`. After `give_up` there is none. -/
def attempt (attempt : Attempt) : Option Watch :=
  if watch.cancelled then none
  else
    let ended := watch.now + attempt.span
    match attempt.outcome with
    | .renewed => some ⟨ended, ended - attempt.updating, 0, false⟩
    | .leaseLost => some { watch with now := ended, cancelled := true }
    | .failed =>
        let failures := watch.transientFailures + 1
        some { watch with
          now := ended
          transientFailures := failures
          cancelled := decide (Processor.HEARTBEAT_MAX_FAILURES ≤ failures) }

/-- The turns of the loop. -/
def run (attempts : List Attempt) : Option Watch := attempts.foldlM Watch.attempt watch

/-- What holds at a time during the turns. -/
def «at» : Watch → List Attempt → ℚ → Watch
  | watch, [], time => { watch with now := time }
  | watch, attempt :: rest, time =>
      match watch.attempt attempt with
      | none => { watch with now := time }
      | some next => if next.now ≤ time then next.at rest time else { watch with now := time }

/-- `locked_at < now() - make_interval(secs => LEASE_TIMEOUT_S)`. -/
def Stale : Prop := watch.lockedAt < watch.now - LEASE_TIMEOUT_S

instance : Decidable watch.Stale := inferInstanceAs (Decidable (_ < _))

end Watch

end JobRelay.Model
