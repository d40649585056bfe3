import Mathlib.Data.List.Induction
import JobRelay.Soundness.Calls

/-! # How an attempt ends

From its claim on a job runs under its worker, until one step of the run ends the attempt. The step shows in the
log: the worker finished the job or recorded its failure, another worker recovered it, or a client cancelled it.
No later step ends the same attempt again.
-/

namespace JobRelay.Soundness

open Model Sessions

/-- The ways in which an attempt ends. -/
inductive Ending where
  | finished
  | failed
  | cancelled
deriving DecidableEq

namespace Ending

/-- The status that an attempt leaves its job in. -/
def status : Ending → JobStatus
  | .finished => .done
  | .failed => .failed
  | .cancelled => .cancelled

/-- The entry of the log under which the attempt of a job by a worker ends. -/
def Logs (jobId attempts pid : ℕ) (entry : ℕ × Label) : Ending → Prop
  | .finished => ∃ claim, entry = (pid, .finalized claim .done) ∧ claim.id = jobId ∧ claim.attempts = attempts
  | .failed => (∃ claim, entry = (pid, .failureRecorded claim .failed) ∧ claim.id = jobId ∧
      claim.attempts = attempts) ∨ ∃ other jobs, entry = (other, .recovered jobs)
  | .cancelled => ∃ other companyId cancelledBy traceId response,
      entry = (other, .request (.cancelJob companyId jobId cancelledBy traceId) (.ok response))

theorem status_ne_running (ending : Ending) : ending.status ≠ .running := by
  cases ending <;> decide

theorem status_injective {first second : Ending} (same : first.status = second.status) : first = second := by
  cases first <;> cases second <;> first | rfl | cases same

end Ending

/-- The job of a claim runs in the attempt of the claim. -/
def Running (claim : Claim) (s : Store) : Prop :=
  ∃ row, s.job? claim.id = some row ∧ row.status = .running ∧ row.attempts = claim.attempts

/-- The job of a claim runs in its attempt, under its worker. -/
def RunningUnder (claim : Claim) (pid : ℕ) (s : Store) : Prop :=
  ∃ row, s.job? claim.id = some row ∧ row.status = .running ∧ row.attempts = claim.attempts ∧
    row.workerId = some pid

/-- The job of a claim has come to its attempt, and does not run in it any more. -/
def Over (claim : Claim) (s : Store) : Prop :=
  ∃ row, s.job? claim.id = some row ∧ claim.attempts ≤ row.attempts ∧
    (row.status = .running → row.attempts ≠ claim.attempts)

/-- This step of the run ends the attempt of a claim. -/
def Ends (admits : Request → Bool) (start : Service) (claim : Claim) (pid : ℕ) (ending : Ending)
    (first : List Step) (action : Step) : Prop :=
  ∃ before after entry, start.runActions (service admits) first = some before ∧
    before.step (service admits) action = some after ∧ Running claim before.state ∧
    after.state.history = before.state.history ++ [entry] ∧ ending.Logs claim.id claim.attempts pid entry ∧
    ∃ row, after.state.job? claim.id = some row ∧ row.status = ending.status

/-- A step of the run has ended the attempt of a claim. -/
def Ended (admits : Request → Bool) (start : Service) (claim : Claim) (pid : ℕ) (ending : Ending)
    (now : List Step) : Prop :=
  ∃ first action, first ++ [action] <+: now ∧ Ends admits start claim pid ending first action

variable {admits : Request → Bool} {start world next : Service} {claim : Claim} {pid : ℕ} {ending : Ending}
  {past now : List Step}

theorem Ended.later (ended : Ended admits start claim pid ending past) (later : past <+: now) :
    Ended admits start claim pid ending now := by
  obtain ⟨first, action, early, ends⟩ := ended
  exact ⟨first, action, early.trans later, ends⟩

section Commits

variable {tx : Tx} {s : Store} {label : Label}

/-- A commit that writes one job leaves the row of every other as it is. -/
theorem view_job?_of_single (opened : tx.Open s) {written : Job}
    (single : tx.writes.filterMap Write.job? = [written]) (jobId : ℕ) :
    (tx.view s).job? jobId = if written.id = jobId then some written else s.job? jobId := by
  rw [Tx.view, Entitled.job? opened, single]
  split
  · next same => simp [same]
  · next other => simp [other]

/-- What a commit under this label may make of a job that runs: it runs on, or its attempt has ended. -/
private def Onward (pid : ℕ) (label : Label) (row row' : Job) : Prop :=
  (row'.status = .running ∧ row'.attempts = row.attempts ∧ row'.workerId = row.workerId) ∨
    ∃ ending : Ending, row'.status = ending.status ∧
      ∀ worker, row.workerId = some worker → ending.Logs row.id row.attempts worker (pid, label)

/-- A commit keeps a running job under its worker, or ends its attempt under a label that says how. -/
private theorem Commit.onward (commit : Commit admits pid tx s label) (opened : tx.Open s) {row : Job}
    (stored : s.job? row.id = some row) (running : row.status = .running) :
    ∃ row', (tx.view s).job? row.id = some row' ∧ Onward pid label row row' := by
  have kept : (tx.view s).job? row.id = s.job? row.id →
      ∃ row', (tx.view s).job? row.id = some row' ∧ Onward pid label row row' :=
    fun same => ⟨row, same.trans stored, .inl ⟨running, rfl, rfl⟩⟩
  -- a commit that writes the row of one job, found as it was
  have single : ∀ found written : Job, s.job? found.id = some found → written.id = found.id →
      tx.writes.filterMap Write.job? = [written] → (found = row → Onward pid label row written) →
      ∃ row', (tx.view s).job? row.id = some row' ∧ Onward pid label row row' := by
    intro found written held id single onward
    have after := view_job?_of_single opened single row.id
    by_cases same : found.id = row.id
    · rw [if_pos (id.trans same)] at after
      rw [same, stored, Option.some.injEq] at held
      exact ⟨written, after, onward held.symm⟩
    · rw [if_neg (id.symm ▸ same)] at after
      exact kept after
  cases commit with
  | quiet writes _ =>
    refine kept ?_
    rw [Tx.view, writes]
    rfl
  | @create companyId kind traceId key submittedBy id events company admitted writes =>
    refine kept (Entitled.job?_of_other opened fun other member same => ?_)
    have absent : s.job? id = none := by
      have head := opened
      rw [Tx.Open, writes] at head
      exact head.1.2.2.1
    rw [writes] at member
    simp only [Write.job?, List.cons_append, List.filterMap_cons, List.filterMap_append, List.filterMap_map,
      Function.comp_def, List.filterMap_none, List.filterMap_nil, List.append_nil, List.mem_singleton] at member
    rw [member] at same
    change id = row.id at same
    rw [same, stored] at absent
    cases absent
  | @cancel found cancelledBy traceId event held active recorded writes =>
    refine single found (found.cancel tx.now) held rfl (by rw [writes]; rfl) ?_
    rintro rfl
    exact .inr ⟨.cancelled, rfl, fun _ _ => ⟨_, _, _, _, _, rfl⟩⟩
  | @retry found requestedBy traceId event held failed left recorded writes =>
    refine single found (found.retry traceId tx.now) held rfl (by rw [writes]; rfl) ?_
    rintro rfl
    rw [running] at failed
    cases failed
  | @claim found wait held queued left writes =>
    refine single found (found.claim pid tx.now) held rfl (by rw [writes]; rfl) ?_
    rintro rfl
    rw [running] at queued
    cases queued
  | @renew found _ held _ mine id attempts writes =>
    refine single found (found.renew tx.now) held rfl (by rw [writes]; rfl) ?_
    rintro rfl
    exact .inl ⟨running, rfl, rfl⟩
  | @finish found other result event company held _ mine id attempts produced recorded owner writes =>
    refine single found (found.finish tx.now) held rfl (by rw [writes]; rfl) ?_
    rintro rfl
    refine .inr ⟨.finished, rfl, fun worker leased => ⟨other, ?_, id.symm, attempts.symm⟩⟩
    rw [mine, Option.some.injEq] at leased
    rw [leased]
  | @fail f other error valid mine id attempts writes =>
    refine single f.row (f.row.fail error tx.now) valid.stored rfl (by rw [writes, Failing.writes_job?]; rfl) ?_
    rintro rfl
    refine .inr ⟨.failed, rfl, fun worker leased => .inl ⟨other, ?_, id.symm, attempts.symm⟩⟩
    rw [mine, Option.some.injEq] at leased
    rw [leased]
  | @recover failing error distinct valid writes =>
    by_cases stale : ∃ f ∈ failing, f.row.id = row.id
    · obtain ⟨f, member, same⟩ := stale
      refine ⟨f.row.fail error tx.now, ?_, .inr ⟨.failed, rfl, fun _ _ => .inr ⟨_, _, rfl⟩⟩⟩
      rw [← same]
      change (tx.view s).job? (f.row.fail error tx.now).id = _
      refine Entitled.job?_of_unique opened ?_ ?_
      · rw [writes, Failing.writes_job?, List.map_map]
        exact distinct
      · rw [writes, Failing.writes_job?]
        exact List.mem_map_of_mem member
    · refine kept (Entitled.job?_of_other opened fun other member same => stale ?_)
      rw [writes, Failing.writes_job?] at member
      obtain ⟨f, inside, rfl⟩ := List.mem_map.mp member
      exact ⟨f, inside, same⟩

/-- A commit that claims a job leaves it running under the claim. -/
private theorem claimed_running (opened : tx.Open s)
    (commit : Commit admits pid tx s (.claimed (some claim))) :
    claim.workerId = some pid ∧ RunningUnder claim pid (tx.view s) := by
  cases commit with
  | quiet _ facts => cases facts
  | @claim row wait stored queued left writes =>
    have single : tx.writes.filterMap Write.job? = [row.claim pid tx.now] := by
      rw [writes]
      rfl
    refine ⟨rfl, row.claim pid tx.now, ?_, rfl, rfl, rfl⟩
    rw [view_job?_of_single opened single]
    exact if_pos rfl

/-- What a commit of `_finalize` or `_record_failure` does, it does to the attempt of its claim. -/
private theorem Commit.ends (commit : Commit admits pid tx s label) (opened : tx.Open s)
    (reports : label = .finalized claim .done ∧ ending = .finished ∨
      label = .failureRecorded claim .failed ∧ ending = .failed) :
    Running claim s ∧ ∃ row, (tx.view s).job? claim.id = some row ∧ row.status = ending.status := by
  cases commit with
  | quiet _ facts => rcases reports with ⟨rfl, _⟩ | ⟨rfl, _⟩ <;> cases facts
  | @finish row other result event company stored running mine id attempts produced recorded owner writes =>
    rcases reports with ⟨same, rfl⟩ | ⟨impossible, _⟩
    · cases same
      have single : tx.writes.filterMap Write.job? = [row.finish tx.now] := by
        rw [writes]
        rfl
      refine ⟨⟨row, id ▸ stored, running, attempts⟩, row.finish tx.now, ?_, rfl⟩
      rw [view_job?_of_single opened single]
      exact if_pos id
    · cases impossible
  | @fail f other error valid mine id attempts writes =>
    rcases reports with ⟨impossible, _⟩ | ⟨same, rfl⟩
    · cases impossible
    · cases same
      have single : tx.writes.filterMap Write.job? = [f.row.fail error tx.now] := by
        rw [writes, Failing.writes_job?]
        rfl
      refine ⟨⟨f.row, id ▸ valid.stored, valid.running, attempts⟩, f.row.fail error tx.now, ?_, rfl⟩
      rw [view_job?_of_single opened single]
      exact if_pos id
  | _ => rcases reports with ⟨impossible, _⟩ | ⟨impossible, _⟩ <;> cases impossible

/-- The log shows that a client cancelled the job. -/
def Cancels (jobId : ℕ) (entry : ℕ × Label) : Prop := Ending.Logs jobId 0 0 entry .cancelled

/-- The commit of a cancellation leaves the job cancelled. -/
private theorem Commit.cancels (commit : Commit admits pid tx s label) (opened : tx.Open s) {jobId : ℕ}
    (cancels : Cancels jobId (pid, label)) :
    ∃ row, (tx.view s).job? jobId = some row ∧ row.status = .cancelled := by
  obtain ⟨_, companyId, cancelledBy, traceId, response, same⟩ := cancels
  cases same
  cases commit with
  | quiet _ facts => cases facts
  | @cancel row _ _ event stored active recorded writes =>
    have single : tx.writes.filterMap Write.job? = [row.cancel tx.now] := by
      rw [writes]
      rfl
    refine ⟨row.cancel tx.now, ?_, rfl⟩
    rw [view_job?_of_single opened single]
    exact if_pos rfl

/-- Only a cancellation writes a cancelled row. -/
private theorem Commit.of_cancelled (commit : Commit admits pid tx s label) {row : Job}
    (written : row ∈ tx.writes.filterMap Write.job?) (settled : row.status = .cancelled) :
    Cancels row.id (pid, label) := by
  have single : ∀ other : Job, tx.writes.filterMap Write.job? = [other] → other.status = .cancelled := by
    intro other single
    rw [single, List.mem_singleton] at written
    exact written ▸ settled
  cases commit with
  | quiet writes _ => rw [writes] at written; cases written
  | @create companyId kind traceId key _ id events _ _ writes =>
    have impossible := single (.new id companyId kind traceId key tx.now)
      (by simp [writes, Write.job?, List.filterMap_cons])
    cases impossible
  | @cancel found _ _ event stored active recorded writes =>
    rw [writes] at written
    obtain rfl := List.mem_singleton.mp written
    exact ⟨_, _, _, _, _, rfl⟩
  | @retry found _ traceId event stored failed left recorded writes =>
    cases single (found.retry traceId tx.now) (by rw [writes]; rfl)
  | @claim found wait stored queued left writes =>
    cases single (found.claim pid tx.now) (by rw [writes]; rfl)
  | @renew found _ stored running mine id attempts writes =>
    have same : found.status = .cancelled := single (found.renew tx.now) (by rw [writes]; rfl)
    rw [running] at same
    cases same
  | @finish found _ result event company stored running mine id attempts produced recorded owner writes =>
    cases single (found.finish tx.now) (by rw [writes]; rfl)
  | fail valid mine id attempts writes | recover distinct valid writes =>
    rw [writes, Failing.writes_job?] at written
    obtain ⟨f, _, rfl⟩ := List.mem_map.mp written
    cases settled

end Commits

section Steps

/-- A job that has left an attempt does not come back to it. -/
theorem Over.step {opening : List EventType → Prop} {s after : Store} (isOver : Over claim s)
    (step : JobStep opening s after claim.id) : Over claim after := by
  obtain ⟨row, stored, reached, left⟩ := isOver
  cases step with
  | same job _ => exact ⟨row, job.trans stored, reached, left⟩
  | created absent => rw [absent] at stored; cases stored
  | @moved d d' before stored' step =>
    have same := Store.job?_of_dossier before
    rw [stored] at same
    cases same
    refine ⟨d'.job, Store.job?_of_dossier stored', ?_⟩
    cases step with
    | claim workerId now queued _ =>
      change claim.attempts ≤ d.job.attempts + 1 ∧ (_ → d.job.attempts + 1 ≠ claim.attempts)
      exact ⟨by omega, fun _ => by omega⟩
    | renew now running => exact ⟨reached, fun _ => left running⟩
    | finish now running recorded => exact ⟨reached, fun impossible => (by cases impossible)⟩
    | fail error now running recorded entered => exact ⟨reached, fun impossible => (by cases impossible)⟩
    | cancel now active recorded => exact ⟨reached, fun impossible => (by cases impossible)⟩
    | retry traceId now failed left' recorded => exact ⟨reached, fun impossible => (by cases impossible)⟩

theorem Over.later (fresh : Fresh start) (reached : World.Reaches (service admits) start world)
    (isOver : Over claim world.state) (later : World.Reaches (service admits) world next) : Over claim next.state :=
  later_preserves fresh reached later isOver fun _ step still => still.step (step claim.id)

theorem Over.not_running {s : Store} (isOver : Over claim s) : ¬ Running claim s := by
  rintro ⟨row, stored, running, attempts⟩
  obtain ⟨_, stored', _, left⟩ := isOver
  rw [stored, Option.some.injEq] at stored'
  subst stored'
  exact left running attempts

/-- A status that no transition leaves stays. -/
theorem final_stays (fresh : Fresh start) (reached : World.Reaches (service admits) start world)
    (later : World.Reaches (service admits) world next) {jobId : ℕ} {row : Job} {status : JobStatus}
    (final : status = .done ∨ status = .cancelled) (stored : world.state.job? jobId = some row)
    (settled : row.status = status) : ∃ row', next.state.job? jobId = some row' ∧ row'.status = status := by
  refine later_preserves fresh reached later (P := fun s => ∃ row', s.job? jobId = some row' ∧ row'.status = status)
    ⟨row, stored, settled⟩ ?_
  rintro before after _ step ⟨row, stored, settled⟩
  cases step jobId with
  | same job _ => exact ⟨row, job.trans stored, settled⟩
  | created absent => rw [absent] at stored; cases stored
  | moved held _ step =>
    have same := Store.job?_of_dossier held
    rw [stored] at same
    cases same
    rcases final with rfl | rfl <;>
      rcases step.status with h | h | h | h | h | h | h <;> rw [h.1] at settled <;> cases settled

end Steps

section Runs

variable (fresh : Fresh start)

include fresh

/-- After the step that ends an attempt, the attempt is over. -/
theorem Ends.over {first : List Step} {action : Step} (ends : Ends admits start claim pid ending first action)
    (ran : start.runActions (service admits) (first ++ [action]) = some world) : Over claim world.state := by
  obtain ⟨before, after, entry, reached, stepped, ⟨row, stored, running, attempts⟩, _, _, row', stored', status⟩ := ends
  rw [World.runActions_append, reached, Option.bind_some, World.runActions_cons, stepped] at ran
  cases ran
  obtain ⟨_, same, _, _, _, grown⟩ := (reachable_jobStep fresh ⟨first, reached⟩ stepped claim.id).identity stored
  rw [stored', Option.some.injEq] at same
  subst same
  refine ⟨row', stored', attempts ▸ grown, fun impossible => ?_⟩
  exact absurd (status.symm.trans impossible) ending.status_ne_running

/-- Two points of a run at which attempts of one claim end are the same. -/
private theorem Ends.same_step {other : Ending} {first second : List Step} {action action' : Step}
    (ends : Ends admits start claim pid ending first action)
    (ends' : Ends admits start claim pid other second action') (order : first ++ [action] <+: second ++ [action']) :
    first = second ∧ action = action' := by
  rcases List.prefix_concat_iff.mp order with same | earlier
  · exact (List.append_inj' same rfl).imp id fun single => (List.cons.inj single).1
  · -- the second step finds an attempt that is over
    obtain ⟨before, _, _, reached, _, running, _⟩ := ends'
    obtain ⟨rest, rfl⟩ := earlier
    have both := reached
    rw [World.runActions_append] at both
    obtain ⟨middle, ran, onward⟩ := Option.bind_eq_some_iff.mp both
    exact absurd running ((ends.over fresh ran).later fresh ⟨_, ran⟩ ⟨rest, onward⟩).not_running

/-- An attempt ends in one way. -/
theorem Ended.unique {other : Ending} (ended : Ended admits start claim pid ending now)
    (ended' : Ended admits start claim pid other now) : ending = other := by
  obtain ⟨first, action, early, ends⟩ := ended
  obtain ⟨second, action', early', ends'⟩ := ended'
  have same : first = second ∧ action = action' := by
    rcases List.prefix_or_prefix_of_prefix early early' with order | order
    · exact ends.same_step fresh ends' order
    · exact (ends'.same_step fresh ends order).imp Eq.symm Eq.symm
  obtain ⟨rfl, rfl⟩ := same
  obtain ⟨before, after, _, reached, stepped, _, _, _, row, stored, status⟩ := ends
  obtain ⟨before', after', _, reached', stepped', _, _, _, row', stored', status'⟩ := ends'
  rw [reached, Option.some.injEq] at reached'
  subst reached'
  rw [stepped, Option.some.injEq] at stepped'
  subst stepped'
  rw [stored, Option.some.injEq] at stored'
  subst stored'
  exact Ending.status_injective (status.symm.trans status')

/-- What is over at the end of a run stays over, and what runs there has not ended. -/
theorem Ended.over (ran : start.runActions (service admits) now = some world)
    (ended : Ended admits start claim pid ending now) : Over claim world.state := by
  obtain ⟨first, action, ⟨rest, rfl⟩, ends⟩ := ended
  rw [World.runActions_append] at ran
  obtain ⟨middle, reached, onward⟩ := Option.bind_eq_some_iff.mp ran
  exact (ends.over fresh reached).later fresh ⟨_, reached⟩ ⟨rest, onward⟩

/-- A step commits a transaction, or changes no job and claims none. -/
private theorem committed_or_idle (reached : World.Reaches (service admits) start world) {action : Step}
    (stepped : world.step (service admits) action = some next) :
    (∃ writer tx label, tx.Open world.state ∧ Commit admits writer tx world.state label ∧
      next.state = (tx.view world.state).log writer label) ∨
    (∀ jobId, next.state.job? jobId = world.state.job? jobId) ∧
      ∀ pid claim, (pid, .claimed (some claim)) ∈ next.state.history →
        (pid, .claimed (some claim)) ∈ world.state.history := by
  have moved := reachable_moved fresh reached stepped
  generalize next.state = after at moved
  cases moved with
  | same unchanged =>
    subst unchanged
    exact .inr ⟨fun _ => rfl, fun _ _ => id⟩
  | environment event _ moved =>
    subst moved
    cases event
    exact .inr ⟨fun _ => rfl, fun _ _ => id⟩
  | guar writer tx _ guar _ =>
    -- a report of another kind is not a claim
    have silent : ∀ label : Label, (∀ claim, label ≠ .claimed (some claim)) →
        ∀ pid claim, (pid, .claimed (some claim)) ∈ (world.state.log writer label).history →
          (pid, .claimed (some claim)) ∈ world.state.history := by
      intro label other pid claim member
      rcases List.mem_append.mp member with old | new
      · exact old
      · have same := List.mem_singleton.mp new
        exact absurd (Prod.mk.inj same).2.symm (other claim)
    cases guar with
    | drawn drawn => exact .inr (by cases drawn <;> exact ⟨fun _ => rfl, fun _ _ => id⟩)
    | commit opened commit => exact .inl ⟨writer, _, _, opened, commit, rfl⟩
    | @aborted _ _ label facts =>
      refine .inr ⟨fun _ => rfl, silent label ?_⟩
      rintro claim rfl
      cases facts
    | processed =>
      refine .inr ⟨fun _ => rfl, silent _ ?_⟩
      intro claim same
      cases same

/-- From its claim on, a job runs under the worker until its attempt has ended. -/
theorem running_or_ended (ran : start.runActions (service admits) now = some world)
    (claimed : (pid, .claimed (some claim)) ∈ world.state.history) :
    claim.workerId = some pid ∧
      (RunningUnder claim pid world.state ∨ ∃ ending, Ended admits start claim pid ending now) := by
  induction now using List.reverseRecOn generalizing world with
  | nil =>
    cases ran
    rw [fresh.history] at claimed
    cases claimed
  | append_singleton now action ih =>
    have whole := ran
    rw [World.runActions_append] at ran
    obtain ⟨before, reached, stepped⟩ := Option.bind_eq_some_iff.mp ran
    rw [World.runActions_cons] at stepped
    obtain ⟨next, stepped, same⟩ := Option.bind_eq_some_iff.mp stepped
    cases same
    rcases committed_or_idle fresh ⟨now, reached⟩ stepped with
      ⟨writer, tx, label, opened, commit, moved⟩ | ⟨jobs, claims⟩
    · have logged : world.state.history = before.state.history ++ [(writer, label)] := by
        rw [moved, Store.log, Tx.view, foldl_history]
      rw [logged] at claimed
      rcases List.mem_append.mp claimed with old | new
      · obtain ⟨mine, ⟨row, stored, running, attempts, leased⟩ | ⟨ending, ended⟩⟩ := ih reached old
        · refine ⟨mine, ?_⟩
          have id : row.id = claim.id := Store.job?_id stored
          obtain ⟨row', stored', onward⟩ := commit.onward opened (id.symm ▸ stored) running
          rw [id] at stored'
          have found : world.state.job? claim.id = some row' := by rw [moved]; exact stored'
          rcases onward with ⟨still, same, under⟩ | ⟨ending, settled, logs⟩
          · exact .inl ⟨row', found, still, same.trans attempts, under.trans leased⟩
          · refine .inr ⟨ending, now, action, List.prefix_refl _, before, world, _, reached, stepped,
              ⟨row, stored, running, attempts⟩, logged, ?_, row', found, settled⟩
            rw [← id, ← attempts]
            exact logs pid leased
        · exact ⟨mine, .inr ⟨ending, ended.later (List.prefix_append ..)⟩⟩
      · obtain ⟨rfl, rfl⟩ := Prod.mk.inj (List.mem_singleton.mp new)
        obtain ⟨mine, running⟩ := claimed_running opened commit
        refine ⟨mine, .inl ?_⟩
        rw [moved]
        exact running
    · obtain ⟨mine, ⟨row, stored, rest⟩ | ⟨ending, ended⟩⟩ := ih reached (claims pid claim claimed)
      · exact ⟨mine, .inl ⟨row, (jobs claim.id).trans stored, rest⟩⟩
      · exact ⟨mine, .inr ⟨ending, ended.later (List.prefix_append ..)⟩⟩

/-- What the log shows at the end of a run, a step of the run has logged. -/
theorem logged_step (ran : start.runActions (service admits) now = some world) {label : Label}
    (logged : (pid, label) ∈ world.state.history) :
    ∃ first action before after, first ++ [action] <+: now ∧
      start.runActions (service admits) first = some before ∧ before.step (service admits) action = some after ∧
      after.state.history = before.state.history ++ [(pid, label)] := by
  induction now using List.reverseRecOn generalizing world with
  | nil =>
    cases ran
    rw [fresh.history] at logged
    cases logged
  | append_singleton now action ih =>
    rw [World.runActions_append] at ran
    obtain ⟨before, reached, stepped⟩ := Option.bind_eq_some_iff.mp ran
    rw [World.runActions_cons] at stepped
    obtain ⟨next, stepped, same⟩ := Option.bind_eq_some_iff.mp stepped
    cases same
    have both : (pid, label) ∈ before.state.history ∨
        world.state.history = before.state.history ++ [(pid, label)] := by
      rcases reachable_history fresh ⟨now, reached⟩ stepped with same | ⟨writer, other, grown⟩
      · exact .inl (same ▸ logged)
      · rw [grown] at logged
        rcases List.mem_append.mp logged with kept | new
        · exact .inl kept
        · rw [List.mem_singleton.mp new]
          exact .inr grown
    rcases both with kept | grown
    · obtain ⟨first, other, middle, after, early, rest⟩ := ih reached kept
      exact ⟨first, other, middle, after, early.trans (List.prefix_append ..), rest⟩
    · exact ⟨now, action, before, world, List.prefix_refl _, reached, stepped, grown⟩

/-- What a worker reports of its claim has ended the attempt. -/
theorem ended_of_logged (ran : start.runActions (service admits) now = some world) {label : Label}
    (reports : label = .finalized claim .done ∧ ending = .finished ∨
      label = .failureRecorded claim .failed ∧ ending = .failed)
    (logged : (pid, label) ∈ world.state.history) : Ended admits start claim pid ending now := by
  obtain ⟨first, action, before, after, early, reached, stepped, grown⟩ := logged_step fresh ran logged
  have logs : ending.Logs claim.id claim.attempts pid (pid, label) := by
    rcases reports with ⟨rfl, rfl⟩ | ⟨rfl, rfl⟩
    · exact ⟨claim, rfl, rfl, rfl⟩
    · exact .inl ⟨claim, rfl, rfl, rfl⟩
  have reported := reachable_reported fresh ⟨first, reached⟩ stepped grown
  have settles : Running claim before.state ∧ ∃ row, after.state.job? claim.id = some row ∧ row.status = ending.status := by
    generalize after.state = s at reported
    cases reported with
    | commit opened commit => exact commit.ends opened reports
    | aborted facts => rcases reports with ⟨rfl, _⟩ | ⟨rfl, _⟩ <;> cases facts
    | processed counted =>
      obtain ⟨_, _, rfl⟩ := counted
      rcases reports with ⟨impossible, _⟩ | ⟨impossible, _⟩ <;> cases impossible
  exact ⟨first, action, early, before, after, _, reached, stepped, settles.1, grown, logs, settles.2⟩

/-- A job is cancelled exactly if the log shows its cancellation. -/
theorem cancelled_iff_logged (ran : start.runActions (service admits) now = some world) (jobId : ℕ) :
    (∃ row, world.state.job? jobId = some row ∧ row.status = .cancelled) ↔
      ∃ entry ∈ world.state.history, Cancels jobId entry := by
  constructor
  · rintro ⟨row, stored, settled⟩
    refine reachable_preserves fresh ⟨now, ran⟩ (P := fun s => ∀ jobId row, s.job? jobId = some row →
      row.status = .cancelled → ∃ entry ∈ s.history, Cancels jobId entry) ?_ ?_ (fun _ holds => holds) jobId row
      stored settled
    · intro jobId row stored
      have member := Table.find?_mem stored
      rw [fresh.jobs] at member
      cases member
    · intro writer tx before after valid guar known jobId row stored settled
      cases guar with
      | drawn drawn => exact known jobId row (by cases drawn <;> exact stored) settled |> fun ⟨entry, member, cancels⟩ =>
          ⟨entry, by cases drawn <;> exact member, cancels⟩
      | @commit tx _ label opened commit =>
        rcases Entitled.job?_cases opened stored with written | kept
        · refine ⟨(writer, label), List.mem_append_right _ (List.mem_singleton_self _), ?_⟩
          rw [← Store.job?_id stored]
          exact commit.of_cancelled written settled
        · obtain ⟨entry, member, cancels⟩ := known jobId row kept settled
          refine ⟨entry, List.mem_append_left _ ?_, cancels⟩
          rwa [Tx.view, foldl_history]
      | aborted _ | processed =>
        obtain ⟨entry, member, cancels⟩ := known jobId row stored settled
        exact ⟨entry, List.mem_append_left _ member, cancels⟩
  · rintro ⟨⟨writer, label⟩, logged, cancels⟩
    obtain ⟨first, action, before, after, ⟨rest, rfl⟩, reached, stepped, grown⟩ := logged_step fresh ran logged
    rw [World.runActions_append] at ran
    obtain ⟨middle, halfway, onward⟩ := Option.bind_eq_some_iff.mp ran
    have same : middle = after := by
      rw [World.runActions_append, reached, Option.bind_some, World.runActions_cons, stepped] at halfway
      exact (Option.some.inj halfway).symm
    subst same
    have reported := reachable_reported fresh ⟨first, reached⟩ stepped grown
    have settled : ∃ row, middle.state.job? jobId = some row ∧ row.status = .cancelled := by
      generalize middle.state = s at reported
      obtain ⟨_, _, _, _, _, same⟩ := id cancels
      cases same
      cases reported with
      | commit opened commit => exact commit.cancels opened cancels
      | aborted facts => cases facts
      | processed counted => obtain ⟨_, _, impossible⟩ := counted; cases impossible
    obtain ⟨row, stored, status⟩ := settled
    exact final_stays fresh ⟨_, halfway⟩ ⟨rest, onward⟩ (.inr rfl) stored status

end Runs

end JobRelay.Soundness
