import Mathlib.Algebra.BigOperators.Group.List.Basic
import Mathlib.Algebra.Group.Action.Defs
import Mathlib.Algebra.Order.BigOperators.Group.List
import Mathlib.Algebra.Order.Ring.Nat
import JobRelay.Guarantees.Diagnosis
import JobRelay.Guarantees.Fencing
import JobRelay.Soundness.Endings

/-! # The attempts of a job

The counter of a job is the number of claims of it, so the claims are numbered from one on without a gap, and there
are no more of them than three for each job. Every one of them has one fate: its job still runs under the worker that
claimed it, or one step of the run has ended the attempt for good.
-/

namespace JobRelay.Guarantees

open Model Sessions Soundness

variable {admits : Request → Bool} {start world : Service}

/-- The attempts that a job has come to. -/
def attemptsOf (s : Store) (jobId : ℕ) : ℕ := (s.job? jobId).elim 0 Job.attempts

/-- The job that a transaction claimed. -/
def claimed? : ℕ × Label → Option ℕ
  | (_, .claimed (some claim)) => some claim.id
  | _ => none

theorem attemptsOf_stored {s : Store} {jobId : ℕ} {row : Job} (stored : s.job? jobId = some row) :
    attemptsOf s jobId = row.attempts := by
  rw [attemptsOf, stored]
  rfl

/-- How often a job was claimed. -/
def claimsOf (s : Store) (jobId : ℕ) : ℕ := s.history.countP fun entry => decide (claimed? entry = some jobId)

private theorem of_claims {pid : ℕ} {label : Label} {jobId n : ℕ} (counted : claims jobId n (pid, label) = true) :
    ∃ claim, label = .claimed (some claim) ∧ claim.id = jobId ∧ claim.attempts = n := by
  cases label with
  | claimed found =>
    cases found with
    | none => cases counted
    | some claim => exact ⟨claim, rfl, of_decide_eq_true counted⟩
  | _ => cases counted

/-- The claims of a job are as many as its attempts, and numbered from one on. -/
structure Numbered (s : Store) : Prop where
  total : ∀ jobId, claimsOf s jobId = attemptsOf s jobId
  each : ∀ jobId n, claimCount s jobId n = if 1 ≤ n ∧ n ≤ attemptsOf s jobId then 1 else 0

section Steps

variable {pid : ℕ} {tx : Tx} {s after : Store} {label : Label}

/-- A commit that changes no counter of the jobs that it writes changes none. -/
private theorem attemptsOf_view (opened : tx.Open s)
    (stays : ∀ jobId, (s.job? jobId).isSome → ((tx.view s).job? jobId).isSome)
    (kept : ∀ row ∈ tx.writes.filterMap Write.job?, row.attempts = attemptsOf s row.id) (jobId : ℕ) :
    attemptsOf (tx.view s) jobId = attemptsOf s jobId := by
  cases found : (tx.view s).job? jobId with
  | none =>
    have absent : s.job? jobId = none := by
      by_contra present
      have some := stays jobId (Option.isSome_iff_ne_none.mpr present)
      rw [found] at some
      cases some
    rw [attemptsOf, attemptsOf, found, absent]
  | some row =>
    rw [attemptsOf_stored found]
    rcases Entitled.job?_cases opened found with written | same
    · rw [kept row written, Store.job?_id found]
    · exact (attemptsOf_stored same).symm

/-- A commit moves the counter of the job that it claims, and no other. -/
private theorem commit_attempts (commit : Commit admits pid tx s label) (opened : tx.Open s)
    (stays : ∀ jobId, (s.job? jobId).isSome → ((tx.view s).job? jobId).isSome) (jobId : ℕ) :
    attemptsOf (tx.view s) jobId = attemptsOf s jobId + if claimed? (pid, label) = some jobId then 1 else 0 := by
  have still (silent : claimed? (pid, label) = none)
      (kept : ∀ row ∈ tx.writes.filterMap Write.job?, row.attempts = attemptsOf s row.id) :
      attemptsOf (tx.view s) jobId = attemptsOf s jobId + if claimed? (pid, label) = some jobId then 1 else 0 := by
    rw [attemptsOf_view opened stays kept, silent]
    rfl
  -- the one row that a commit writes, with the counter as it was
  have single (silent : claimed? (pid, label) = none) (found written : Job) (stored : s.job? found.id = some found)
      (id : written.id = found.id) (attempts : written.attempts = found.attempts)
      (writes : tx.writes.filterMap Write.job? = [written]) :
      attemptsOf (tx.view s) jobId = attemptsOf s jobId + if claimed? (pid, label) = some jobId then 1 else 0 := by
    refine still silent fun row member => ?_
    rw [writes] at member
    rw [List.mem_singleton.mp member, attempts, id, attemptsOf_stored stored]
  cases commit with
  | @quiet label writes facts =>
    refine still ?_ fun row member => ?_
    · cases label with
      | claimed claim =>
        obtain rfl : claim = none := facts
        rfl
      | _ => rfl
    · rw [writes] at member
      cases member
  | @create companyId kind traceId key submittedBy id events company admitted writes =>
    refine still rfl fun row member => ?_
    have absent : s.job? id = none := by
      have head := opened
      rw [Tx.Open, writes] at head
      exact head.1.2.2.1
    have job : tx.writes.filterMap Write.job? = [.new id companyId kind traceId key tx.now] := by
      simp [writes, Write.job?, List.filterMap_cons]
    rw [job] at member
    rw [List.mem_singleton.mp member, attemptsOf]
    change 0 = (s.job? id).elim 0 Job.attempts
    rw [absent]
    rfl
  | @cancel row cancelledBy traceId event stored active recorded writes =>
    exact single rfl row (row.cancel tx.now) stored rfl rfl (by rw [writes]; rfl)
  | @retry row requestedBy traceId event stored failed left recorded writes =>
    exact single rfl row (row.retry traceId tx.now) stored rfl rfl (by rw [writes]; rfl)
  | @renew row claim stored running mine id attempts writes =>
    exact single rfl row (row.renew tx.now) stored rfl rfl (by rw [writes]; rfl)
  | @finish row claim result event company stored running mine id attempts produced recorded owner writes =>
    exact single rfl row (row.finish tx.now) stored rfl rfl (by rw [writes]; rfl)
  | @fail f claim error valid mine id attempts writes =>
    exact single rfl f.row (f.row.fail error tx.now) valid.stored rfl rfl (by rw [writes, Failing.writes_job?]; rfl)
  | @recover failing error distinct valid writes =>
    refine still rfl fun row member => ?_
    rw [writes, Failing.writes_job?] at member
    obtain ⟨f, inside, rfl⟩ := List.mem_map.mp member
    exact (attemptsOf_stored (valid f inside).stored).symm
  | @claim row wait stored queued left writes =>
    have claiming : tx.writes.filterMap Write.job? = [row.claim pid tx.now] := by
      rw [writes]
      rfl
    have after := view_job?_of_single opened claiming jobId
    rw [attemptsOf, after]
    change (if row.id = jobId then _ else _ : Option Job).elim 0 Job.attempts = _ + if some row.id = some jobId then 1 else 0
    by_cases same : row.id = jobId
    · rw [if_pos same, if_pos (congrArg some same), ← same, attemptsOf_stored stored]
      rfl
    · rw [if_neg same, if_neg fun other => same (Option.some.inj other)]
      rfl

/-- A commit claims the next attempt of a job. -/
private theorem commit_claims (commit : Commit admits pid tx s label) (jobId n : ℕ) :
    claims jobId n (pid, label) = true ↔ claimed? (pid, label) = some jobId ∧ n = attemptsOf s jobId + 1 := by
  cases commit with
  | @quiet label writes facts =>
    cases label with
    | claimed claim =>
      obtain rfl : claim = none := facts
      simp [claims, claimed?]
    | _ => simp [claims, claimed?]
  | @claim row wait stored queued left writes =>
    simp only [claims, claimed?, decide_eq_true_eq, Option.some.injEq]
    constructor
    · rintro ⟨rfl, rfl⟩
      exact ⟨rfl, by rw [attemptsOf_stored stored]⟩
    · rintro ⟨rfl, rfl⟩
      exact ⟨rfl, by rw [attemptsOf_stored stored]⟩
  | _ => simp [claims, claimed?]

private theorem Numbered.same (numbered : Numbered s) (history : after.history = s.history)
    (attempts : ∀ jobId, attemptsOf after jobId = attemptsOf s jobId) : Numbered after where
  total jobId := by
    rw [claimsOf, history, ← claimsOf, attempts]
    exact numbered.total jobId
  each jobId n := by
    rw [claimCount, history, ← claimCount, attempts]
    exact numbered.each jobId n

/-- A label in the log counts for the job that it claims. -/
private theorem claimsOf_log (s : Store) (pid : ℕ) (label : Label) (jobId : ℕ) :
    claimsOf (s.log pid label) jobId = claimsOf s jobId + if claimed? (pid, label) = some jobId then 1 else 0 := by
  simp only [claimsOf, Store.log, List.countP_append, List.countP_singleton, decide_eq_true_eq]

private theorem Numbered.log (numbered : Numbered s) (silent : claimed? (pid, label) = none)
    (unclaimed : ∀ jobId n, claims jobId n (pid, label) = false) : Numbered (s.log pid label) where
  total jobId := by
    rw [claimsOf_log, silent, numbered.total jobId]
    rfl
  each jobId n := by
    rw [claimCount_log, unclaimed, numbered.each jobId n]
    rfl

private theorem Numbered.commit (numbered : Numbered s) (orphans : NoOrphans s) (opened : tx.Open s)
    (commit : Commit admits pid tx s label) : Numbered ((tx.view s).log pid label) := by
  have stays : ∀ jobId, (s.job? jobId).isSome → ((tx.view s).job? jobId).isSome := by
    intro jobId present
    obtain ⟨row, stored⟩ := Option.isSome_iff_exists.mp present
    obtain ⟨row', stored', _⟩ := (commit.jobStep orphans opened jobId).identity stored
    exact Option.isSome_iff_exists.mpr ⟨row', stored'⟩
  constructor
  · intro jobId
    have counted : claimsOf (tx.view s) jobId = claimsOf s jobId := by
      rw [claimsOf, Tx.view, foldl_history, claimsOf]
    change _ = attemptsOf (tx.view s) jobId
    rw [claimsOf_log, counted, numbered.total jobId, commit_attempts commit opened stays jobId]
  · intro jobId n
    have counted : claimCount (tx.view s) jobId n = claimCount s jobId n := by
      rw [claimCount, Tx.view, foldl_history, claimCount]
    change _ = if 1 ≤ n ∧ n ≤ attemptsOf (tx.view s) jobId then 1 else 0
    rw [claimCount_log, counted, numbered.each jobId n, commit_attempts commit opened stays jobId]
    by_cases claimed : claimed? (pid, label) = some jobId
    · have next := commit_claims commit jobId n
      by_cases last : claims jobId n (pid, label) = true
      · obtain ⟨_, rfl⟩ := next.mp last
        rw [if_pos last, if_pos claimed, if_neg (by omega), if_pos (by omega)]
      · have other : n ≠ attemptsOf s jobId + 1 := fun same => last (next.mpr ⟨claimed, same⟩)
        rw [if_neg last, if_pos claimed, Nat.add_zero]
        exact if_congr (by omega) rfl rfl
    · have silent : ¬ claims jobId n (pid, label) = true := fun last => claimed ((commit_claims commit jobId n).mp last).1
      rw [if_neg silent, if_neg claimed, Nat.add_zero, Nat.add_zero]

end Steps

theorem reachable_numbered (fresh : Fresh start) (reached : World.Reaches (service admits) start world) :
    Numbered world.state := by
  refine reachable_preserves fresh reached ?_ ?_ fun _ numbered => numbered.same rfl fun _ => rfl
  · have absent (jobId : ℕ) : attemptsOf start.state jobId = 0 := by
      rw [attemptsOf, Store.job?, Table.find?, fresh.jobs]
      rfl
    constructor
    · intro jobId
      rw [claimsOf, fresh.history, absent]
      rfl
    · intro jobId n
      rw [claimCount, fresh.history, absent, if_neg (by omega)]
      rfl
  · intro pid tx before after valid guar numbered
    cases guar with
    | drawn drawn => cases drawn <;> exact numbered.same rfl fun _ => rfl
    | commit opened commit => exact numbered.commit valid.orphans opened commit
    | @aborted _ _ label facts =>
      cases label with
      | claimed claim => cases facts
      | _ => exact numbered.log rfl fun _ _ => rfl
    | processed => exact numbered.log rfl fun _ _ => rfl

section Sums

private theorem sum_indicator (key : ℕ) (keys : List ℕ) :
    (keys.map fun other => if some key = some other then 1 else 0).sum = keys.count key := by
  induction keys with
  | nil => rfl
  | cons other keys ih =>
    rw [List.map_cons, List.sum_cons, ih, List.count_cons, add_comm]
    by_cases same : key = other
    · simp [same]
    · simp [same, Ne.symm same]

/-- The entries of a list that name a key, counted key by key. -/
private theorem sum_countP_keys {α : Type} (f : α → Option ℕ) {keys : List ℕ} (nodup : keys.Nodup) {entries : List α}
    (named : ∀ entry ∈ entries, ∀ key, f entry = some key → key ∈ keys) :
    (keys.map fun key => entries.countP fun entry => decide (f entry = some key)).sum =
      entries.countP fun entry => (f entry).isSome := by
  induction entries with
  | nil => simp
  | cons entry entries ih =>
    have rest := ih fun other member => named other (List.mem_cons_of_mem _ member)
    have here : (keys.map fun key => if f entry = some key then 1 else 0).sum = if (f entry).isSome then 1 else 0 := by
      cases found : f entry with
      | none => simp
      | some key =>
        rw [sum_indicator, List.count_eq_one_of_mem nodup (named entry List.mem_cons_self key found)]
        rfl
    simp only [List.countP_cons, decide_eq_true_eq]
    rw [List.sum_map_add, rest, here]

end Sums

/-- Every claim in the log is of a stored job. -/
private theorem stored_of_claimed {s : Store} (numbered : Numbered s) {entry : ℕ × Label} (member : entry ∈ s.history)
    {jobId : ℕ} (claimed : claimed? entry = some jobId) : jobId ∈ s.jobs.rows.map Job.id := by
  have counted : 0 < claimsOf s jobId := List.countP_pos_iff.mpr ⟨entry, member, decide_eq_true claimed⟩
  rw [numbered.total, attemptsOf] at counted
  cases stored : s.job? jobId with
  | none =>
    rw [stored] at counted
    exact absurd counted (lt_irrefl 0)
  | some row => exact List.mem_map.mpr ⟨row, Table.find?_mem stored, Store.job?_id stored⟩

/-- The attempts of a job are its claims, one each and numbered from one on; a job has at most three, and all claims
of a run together are the attempts of all jobs. -/
theorem attempts_claimed (fresh : Fresh start) (reached : World.Reaches (service admits) start world) :
    (∀ row ∈ world.state.jobs.rows, row.attempts ≤ MAX_ATTEMPTS ∧ claimsOf world.state row.id = row.attempts ∧
      ∀ n, claimCount world.state row.id n = if 1 ≤ n ∧ n ≤ row.attempts then 1 else 0) ∧
    (∀ jobId, world.state.job? jobId = none → claimsOf world.state jobId = 0) ∧
    (world.state.history.countP fun entry => (claimed? entry).isSome) = (world.state.jobs.rows.map Job.attempts).sum ∧
    (world.state.history.countP fun entry => (claimed? entry).isSome) ≤ MAX_ATTEMPTS * world.state.jobs.rows.length := by
  have numbered := reachable_numbered fresh reached
  have few : ∀ row ∈ world.state.jobs.rows, row.attempts ≤ MAX_ATTEMPTS := fun row member =>
    ((reachable_valid fresh reached).wellFormed (Store.mem_jobs.mp member)).attempts_le
  have all : (world.state.history.countP fun entry => (claimed? entry).isSome) =
      (world.state.jobs.rows.map Job.attempts).sum := by
    rw [← sum_countP_keys claimed? world.state.jobs.unique fun entry member jobId claimed =>
      stored_of_claimed numbered member claimed, List.map_map]
    congr 1
    refine List.map_congr_left fun row member => ?_
    exact (numbered.total row.id).trans (attemptsOf_stored (Store.mem_jobs.mp member))
  refine ⟨fun row member => ⟨few row member, ?_, fun n => ?_⟩, fun jobId absent => ?_, all, ?_⟩
  · rw [numbered.total, attemptsOf_stored (Store.mem_jobs.mp member)]
  · rw [numbered.each, attemptsOf_stored (Store.mem_jobs.mp member)]
  · rw [numbered.total, attemptsOf, absent]
    rfl
  · have bound := List.sum_le_card_nsmul (world.state.jobs.rows.map Job.attempts) MAX_ATTEMPTS fun attempts member => by
      obtain ⟨row, inside, rfl⟩ := List.mem_map.mp member
      exact few row inside
    rwa [List.length_map, smul_eq_mul, mul_comm, ← all] at bound

/-- A job fails, waits for its second attempt and is claimed again. -/
def claimedTwice : List Step :=
  runningJob ++ jobFails ++ .start 0 (.request (.retryJob 1 1 "1:user" none)) :: statements 0 5 ++
    [.environment (.advance 6000000), .start 1 .processNext] ++ statements 1 11

theorem attempts_claimed_office : ∃ world, office.runActions (service fun _ => true) claimedTwice = some world ∧
    claimsOf world.state 1 = 2 ∧ claimCount world.state 1 1 = 1 ∧ claimCount world.state 1 2 = 1 := by
  have counted : (office.runActions (service fun _ => true) claimedTwice).map
      (fun world => (world.state.job? 1).map Job.attempts) = some (some 2) := by decide +kernel
  obtain ⟨world, ran, same⟩ := Option.map_eq_some_iff.mp counted
  obtain ⟨row, stored, attempts⟩ := Option.map_eq_some_iff.mp same
  obtain ⟨_, total, each⟩ := (attempts_claimed office_fresh ⟨claimedTwice, ran⟩).1 row (Table.find?_mem stored)
  rw [Store.job?_id stored, attempts] at total
  rw [Store.job?_id stored] at each
  refine ⟨world, ran, total, (each 1).trans ?_, (each 2).trans ?_⟩ <;> rw [attempts] <;> decide

/-- The attempt of a claim has one fate: the job still runs in it under the worker, or a step of the run has ended it,
in one way, and the job never runs in it again. -/
theorem attempt_ends_once (fresh : Fresh start) {now : List Step}
    (ran : start.runActions (service admits) now = some world) {pid : ℕ} {claim : Claim}
    (claimed : (pid, .claimed (some claim)) ∈ world.state.history) :
    claim.workerId = some pid ∧
    ((RunningUnder claim pid world.state ∧ ∀ ending, ¬ Ended admits start claim pid ending now) ∨
      ((∃! ending, Ended admits start claim pid ending now) ∧
        ∀ later, World.Reaches (service admits) world later → ¬ Running claim later.state)) := by
  obtain ⟨mine, running | ⟨ending, ended⟩⟩ := running_or_ended fresh ran claimed
  · refine ⟨mine, .inl ⟨running, fun ending ended => ?_⟩⟩
    obtain ⟨row, stored, status, attempts, _⟩ := running
    exact (ended.over fresh ran).not_running ⟨row, stored, status, attempts⟩
  · refine ⟨mine, .inr ⟨⟨ending, ended, fun other ended' => ended'.unique fresh ended⟩, fun later onward => ?_⟩⟩
    exact ((ended.over fresh ran).later fresh ⟨now, ran⟩ onward).not_running

/-- The first attempt has ended, for the job runs in its second. -/
theorem attempt_ends_once_office : ∃ world claim, office.runActions (service fun _ => true) claimedTwice = some world ∧
    claim.attempts = 1 ∧ Running { claim with attempts := 2 } world.state ∧
    ∃! ending, Ended (fun _ => true) office claim 1 ending claimedTwice := by
  have facts : (office.runActions (service fun _ => true) claimedTwice).map (fun world =>
      (world.state.history.any (fun entry => claims 1 1 entry && decide (entry.1 = 1)),
        (world.state.job? 1).map fun row => (row.status, row.attempts))) =
      some (true, some (.running, 2)) := by decide +kernel
  obtain ⟨world, ran, same⟩ := Option.map_eq_some_iff.mp facts
  rw [Prod.mk.injEq] at same
  obtain ⟨row, stored, shape⟩ := Option.map_eq_some_iff.mp same.2
  rw [Prod.mk.injEq] at shape
  obtain ⟨⟨pid, label⟩, member, first⟩ := List.any_eq_true.mp same.1
  rw [Bool.and_eq_true, decide_eq_true_eq] at first
  obtain ⟨counted, rfl⟩ := first
  obtain ⟨claim, rfl, id, attempts⟩ := of_claims counted
  obtain ⟨_, ⟨⟨other, found, _, earlier, _⟩, _⟩ | ⟨ended, _⟩⟩ := attempt_ends_once office_fresh ran member
  · rw [id, stored, Option.some.injEq] at found
    rw [← found, shape.2, attempts] at earlier
    cases earlier
  · exact ⟨world, claim, ran, attempts, ⟨row, id ▸ stored, shape.1, shape.2⟩, ended⟩

end JobRelay.Guarantees
