import JobRelay.Soundness.Requests

/-! # The transactions of the worker keep the contract

Every transaction that a worker runs starts either idle or with one claimed job, and says which of the
two it leaves. A conditional update that matches no row shows that the claim is gone; one that matches
shows that the row is still in the attempt of the claim.
-/

namespace JobRelay.Soundness

open Model Sessions

variable {admits : Request → Bool} {origin : Store} {pid : ℕ} {claim : Claim} {s : Store} {tx : Tx}

theorem Job.runningUnder_iff {row : Job} :
    row.runningUnder (some pid) = true ↔ row.status = .running ∧ row.workerId = some pid := by
  simp [Job.runningUnder]

/-- If the claimed job is not running under the process any more, nothing is. -/
theorem Held.released (held : Held pid claim s) (valid : Valid admits origin s)
    (gone : ∀ row, s.job? claim.id = some row → row.runningUnder claim.workerId = false) : Idle pid s := by
  intro jobId row stored leased
  obtain ⟨id, _, _⟩ := held.2 jobId row stored leased
  have same : s.job? claim.id = some row := by rw [← id, Store.job?_id stored, stored]
  have running : row.runningUnder claim.workerId = true := by
    rw [held.1]
    exact Job.runningUnder_iff.mpr ⟨(valid.consistent stored).running leased, leased⟩
  rw [gone row same] at running
  cases running

/-- Writing the claimed job alone, without its lease, leaves nothing leased. -/
theorem Held.view (held : Held pid claim s) (opened : tx.Open s) (row' : Job)
    (written : tx.writes.filterMap Write.job? = [row']) (id : row'.id = claim.id)
    (freed : row'.workerId = none) : Idle pid (tx.view s) := by
  intro jobId row stored leased
  rcases Entitled.job?_cases opened stored with member | kept
  · rw [written, List.mem_singleton] at member
    rw [member, freed] at leased
    cases leased
  · obtain ⟨same, _, _⟩ := held.2 jobId row kept leased
    have found : (tx.view s).job? jobId = some row' := by
      rw [Tx.view, Entitled.job? opened, written]
      simp [← Store.job?_id stored, same, id]
    rw [stored, Option.some.injEq] at found
    rw [found, freed] at leased
    cases leased

/-- Writing rows of the same claim keeps the claim held. -/
theorem Held.view_of_same (held : Held pid claim s) (opened : tx.Open s)
    (written : ∀ row ∈ tx.writes.filterMap Write.job?, row.workerId = some pid →
      row.id = claim.id ∧ row.attempts = claim.attempts ∧ row.companyId = claim.companyId) :
    Held pid claim (tx.view s) := by
  refine ⟨held.1, fun jobId row stored leased => ?_⟩
  rcases Entitled.job?_cases opened stored with member | kept
  · exact written row member leased
  · exact held.2 jobId row kept leased

section Transactions

variable (admits origin)

/-- A triple for a transaction of the worker. -/
abbrev Works (pid : ℕ) {α : Type} (before : Assertion (contract admits origin) pid) (program : Prog α)
    (returned : α → Assertion (contract admits origin) pid)
    (raised : Assertion (contract admits origin) pid) : Prop :=
  Runs (service admits) (contract admits origin) pid before program returned raised

variable {admits origin}

theorem renewLease_works : Works admits origin pid (held admits origin pid claim) (Processor.renewLease claim)
    (fun _ => held admits origin pid claim) (held admits origin pid claim) := by
  refine runs_connTransaction (fun _ => id) fun tx s since silent _ => ?_
  refine Body.query since (fun _ _ => trivial) (fun _ => rfl) fun now _ _ answer _ _ here ran after => ?_
  obtain ⟨⟨found, _, _⟩, inner, same⟩ := map_ok ran
  cases same
  obtain ⟨rfl, ⟨rfl, rfl, _⟩ | ⟨row, stored, condition, rfl, rfl⟩⟩ := updateJob_ok inner
  · exact Body.raise after fun _ _ => trivial
  · rw [view_of_silent silent] at stored
    have mine := here.raises.1
    rw [mine, Job.runningUnder_iff] at condition
    obtain ⟨running, leased⟩ := condition
    obtain ⟨id, attempts, company⟩ := here.raises.2 _ row stored leased
    have written : ((tx.hold (.job claim.id) .noKeyUpdate).add (.putJob (row.renew tx.now))).writes =
        [.putJob (row.renew tx.now)] := by
      rw [Tx.add_writes, Tx.hold_writes, silent]
      rfl
    refine Body.ret after.rebase fun final there => ?_
    have still := (there.job? ⟨_, Tx.mem_hold tx _ .noKeyUpdate, rfl⟩).trans stored
    have kept : Held pid claim (Tx.view _ final) := there.raises.view_of_same there.opened fun other member _ => by
      rw [written] at member
      rw [List.mem_singleton.mp member]
      exact ⟨id, attempts, company⟩
    exact ⟨.renew (id.symm ▸ still) running leased id attempts written, kept, kept⟩

theorem acknowledgeCancellation_works :
    Works admits origin pid (held admits origin pid claim) (Processor.acknowledgeCancellation claim)
      (fun cancelled => if cancelled then idle admits origin pid else held admits origin pid claim)
      (held admits origin pid claim) := by
  refine runs_connTransaction (fun _ => id) fun tx s since silent _ => ?_
  refine Body.query since (fun _ _ => trivial) (fun _ => rfl) fun now _ _ answer _ _ here ran after => ?_
  cases ran
  rw [view_of_silent silent]
  refine Body.query after.rebase (fun _ _ => trivial) (fun _ => rfl)
    fun later _ _ answer _ _ here' ran last => ?_
  obtain ⟨⟨found, _, _⟩, inner, same⟩ := map_ok ran
  cases same
  -- a cancelled job has no lease, so the update of its lease matches no row
  obtain ⟨rfl, ⟨rfl, rfl, _⟩ | ⟨row, stored, condition, rfl, rfl⟩⟩ := updateJob_ok inner
  · refine Body.quiet last silent fun final there => ⟨trivial, ?_⟩
    change Assertion.holds (if decide ((now.job? claim.id).map Job.status = some .cancelled) then _ else _) final
    split
    · next cancelled =>
      have cancelled := of_decide_eq_true cancelled
      obtain ⟨row, stored, status⟩ := Option.map_eq_some_iff.mp cancelled
      refine (idle admits origin pid).stable there.moved ?_
      refine here.raises.released here.valid fun row' stored' => ?_
      rw [stored] at stored'
      cases stored'
      simp [Job.runningUnder, status]
    · exact there.raises
  · rw [view_of_silent silent] at stored
    rw [here'.raises.1] at condition
    simp only [Bool.and_eq_true, decide_eq_true_eq] at condition
    have running := (here'.valid.consistent stored).running condition.2
    rw [condition.1.1] at running
    cases running

/-- The transaction of the job body reads the company and changes nothing. -/
theorem checked_works : Works admits origin pid (held admits origin pid claim)
    (Processor.transaction (fun _ => .checked claim) (Model.exec (.selectCompany claim.companyId)))
    (fun _ => held admits origin pid claim) (held admits origin pid claim) := by
  refine runs_connTransaction (fun _ => id) fun tx s since silent _ => ?_
  refine Body.query since (fun _ _ => trivial) (fun _ => rfl) fun now _ _ answer _ _ here ran after => ?_
  cases ran
  exact Body.quiet after silent fun final there => ⟨trivial, there.raises⟩

/-- What claiming knows afterwards. -/
def claimed (admits : Request → Bool) (origin : Store) (pid : ℕ) :
    Option Claim → Assertion (contract admits origin) pid
  | none => idle admits origin pid
  | some claim => held admits origin pid claim

theorem claimNext_works : Works admits origin pid (idle admits origin pid) (Processor.claimNext pid)
    (claimed admits origin pid) (anything admits origin pid) := by
  refine runs_connTransaction (fun _ _ => trivial) fun tx s since silent resting => ?_
  refine Body.query since (fun _ _ => ⟨tx, rfl, silent⟩) (fun _ => rfl)
    fun now _ _ answer _ _ here ran after => ?_
  have rests : Idle pid now := (idle admits origin pid).stable here.moved resting
  obtain ⟨⟨found, _, _⟩, inner, same⟩ := map_ok ran
  cases same
  obtain ⟨rfl, ⟨rfl, rfl, _⟩ | ⟨row, stored, claimable, rfl, rfl⟩⟩ := lockClaimable_ok inner
  · refine Body.quiet after.rebase silent fun final there => ⟨rfl, ?_⟩
    exact (idle admits origin pid).stable there.moved rests
  · rw [view_of_silent silent] at stored
    simp only [Job.claimable, Bool.and_eq_true, decide_eq_true_eq] at claimable
    obtain ⟨⟨queued, left⟩, _⟩ := claimable
    have locked := LockSet.Exclusive.of_update (Tx.mem_hold tx (.job row.id) .update)
    refine Body.query after.rebase (fun _ _ => trivial) (fun _ => rfl)
      fun later _ _ answer _ opened here' ran last => ?_
    have still := (here'.job? locked).trans stored
    have silent' : (tx.hold (.job row.id) .update).writes = [] := silent
    obtain ⟨⟨found, _, _⟩, inner, same⟩ := map_ok ran
    cases same
    obtain ⟨rfl, ⟨_, _, missed⟩ | ⟨row', stored', _, rfl, moved⟩⟩ := updateJob_ok inner
    · rw [view_of_silent silent'] at missed
      cases missed row still
    · rw [view_of_silent silent'] at stored'
      obtain rfl : row' = row := Option.some.inj (stored'.symm.trans still)
      have written : opened.writes = [.putJob (row'.claim pid tx.now)] := by
        rw [moved, Tx.add_writes, Tx.hold_writes, silent']
        rfl
      have sameNow : opened.now = tx.now := by rw [moved]; rfl
      refine Body.ret last fun final there => ⟨?_, ?_, trivial⟩
      · exact sameNow ▸ .claim ((there.job? locked).trans stored) queued left (sameNow ▸ written)
      · refine ⟨rfl, fun jobId other stored leased => ?_⟩
        rcases Entitled.job?_cases there.opened stored with member | kept
        · rw [written] at member
          rw [List.mem_singleton.mp member]
          exact ⟨rfl, rfl, rfl⟩
        · exact absurd leased ((idle admits origin pid).stable there.moved rests jobId other kept)

/-- Every stored job's company is stored. -/
theorem Valid.owner (valid : Valid admits origin s) {jobId : ℕ} {row : Job}
    (stored : s.job? jobId = some row) : (s.company? row.companyId).isSome := by
  rw [valid.companies, Option.isSome_map]
  exact valid.owners stored

theorem finalize_works : Works admits origin pid (held admits origin pid claim) (Processor.finalize claim)
    (fun _ => idle admits origin pid) (held admits origin pid claim) := by
  refine runs_connTransaction (fun _ => id) fun tx s since silent _ => ?_
  refine Body.query since (fun _ _ => trivial) (fun _ => rfl) fun now _ _ answer _ opened here ran after => ?_
  obtain ⟨⟨found, _, _⟩, inner, same⟩ := map_ok ran
  cases same
  obtain ⟨rfl, ⟨rfl, rfl, missed⟩ | ⟨row, stored, condition, rfl, moved⟩⟩ := updateJob_ok inner
  · rw [view_of_silent silent] at missed
    refine Body.quiet after.rebase silent fun final there => ⟨rfl, ?_⟩
    exact (idle admits origin pid).stable there.moved (here.raises.released here.valid missed)
  · rw [view_of_silent silent] at stored
    rw [here.raises.1, Job.runningUnder_iff] at condition
    obtain ⟨running, leased⟩ := condition
    obtain ⟨id, attempts, company⟩ := here.raises.2 _ row stored leased
    have wrote : opened.writes = [.putJob (row.finish tx.now)] := by
      rw [moved, Tx.add_writes, Tx.hold_writes, silent]
      rfl
    have locked : opened.locks.Exclusive (.job claim.id) := by
      rw [moved]
      exact ⟨_, Tx.mem_hold tx _ .noKeyUpdate, rfl⟩
    refine Body.query after.rebase (fun _ _ => trivial) (fun _ => rfl)
      fun s2 _ _ count _ opened2 here2 ran2 after2 => ?_
    obtain ⟨rfl, ⟨_, _, taken⟩ | ⟨rfl, _, moved2⟩⟩ := insertResultRow_ok ran2
    · -- a running job has no result to conflict with
      have still := (here2.job? locked).trans stored
      rw [Tx.view, here2.opened.result?, wrote] at taken
      have done := (here2.valid.done_iff still).mpr taken
      rw [running] at done
      cases done
    obtain ⟨result, produced, wrote2⟩ : ∃ result : JobResult, result.jobId = claim.id ∧
        opened2.writes = [.putJob (row.finish tx.now), .insertResult result] := by
      refine ⟨⟨claim.id, "resultado sensível da empresa " ++ toString claim.companyId⟩, rfl, ?_⟩
      rw [moved2, Tx.add_writes, Tx.hold_writes, Tx.hold_writes, wrote]
      rfl
    refine Body.query after2 (fun _ now => ⟨opened2, rfl, locked.mono now.locks⟩) (fun _ => rfl)
      fun s3 _ _ _ _ opened3 here3 ran3 after3 => ?_
    obtain ⟨rfl, ⟨_, unique, _⟩ | moved3⟩ := insertAuditRow_ok ran3
    · cases unique
    obtain ⟨event, recorded, wrote3⟩ : ∃ event : AuditEvent, event.Records row .completed ∧
        opened3.writes = [.putJob (row.finish tx.now), .insertResult result, .insertAudit event] := by
      refine ⟨newEvent s3 opened2 claim.id claim.companyId .completed Processor.SYSTEM_ACTOR claim.traceId,
        ⟨id.symm, company.symm, rfl⟩, ?_⟩
      rw [moved3, Tx.add_writes]
      simp only [Tx.hold_writes, wrote2]
      rfl
    refine Body.query after3 (fun _ _ => trivial) (fun _ => rfl) fun s4 _ _ _ _ opened4 here4 ran4 after4 => ?_
    have still := (here4.job? locked).trans stored
    have owned := here4.valid.owner still
    obtain ⟨rfl, ⟨absent, _⟩ | ⟨owner, found, moved4⟩⟩ := debitCompany_ok ran4
    · rw [Tx.view, here4.opened.company?, wrote3] at absent
      rw [company] at owned
      change Store.company? _ claim.companyId = none at absent
      rw [absent] at owned
      cases owned
    rw [Tx.view, here4.opened.company?, wrote3] at found
    have sameNow : opened4.now = tx.now := after4.now.trans (by rw [moved]; rfl)
    have wrote4 : opened4.writes = [.putJob (row.finish opened4.now), .insertResult result,
        .insertAudit event, .putCompany { owner with jobQuota := owner.jobQuota - 1 }] := by
      rw [sameNow, moved4, Tx.add_writes, Tx.hold_writes, wrote3]
      rfl
    have debited : opened4.locks.Exclusive (.company claim.companyId) := by
      rw [moved4]
      exact ⟨_, Tx.mem_hold opened3 _ .noKeyUpdate, rfl⟩
    refine Body.ret after4.rebase fun final there => ?_
    have final_row := (there.job? (locked.mono after4.locks)).trans still
    have final_owner := ((there.moved.agree _ rfl).companies _ debited).trans found
    have rests := there.raises.view there.opened (row.finish opened4.now)
      (by rw [wrote4]; rfl) id rfl
    exact ⟨.finish (id.symm ▸ final_row) running leased id attempts (produced.trans id.symm) recorded
      (company.symm ▸ final_owner) wrote4, rests, rests.held there.raises.1⟩

end Transactions

/-- How far a transaction has come in failing jobs: the rows of all are written, and the events and
entries of those that are behind it. -/
structure Failing.Progress (error : String) (first : Tx) (base : Store) (failing : List Failing)
    (rest : List Job) (tx : Tx) : Prop where
  writes : tx.writes = (failing.map Failing.row ++ rest).map (fun row => .putJob (row.fail error first.now)) ++
    failing.flatMap fun f => .insertAudit f.event :: f.entered.map .insertDeadLetter
  rows : ∀ row ∈ failing.map Failing.row ++ rest, first.locks.Exclusive (.job row.id) ∧
    base.job? row.id = some row ∧ row.status = .running
  distinct : ((failing.map Failing.row ++ rest).map Job.id).Nodup
  recorded : ∀ f ∈ failing, f.event.Records f.row .failed ∧
    Dossier.Entered (f.row.fail error first.now) f.entered

namespace Failing.Progress

variable {error : String} {first opened : Tx} {base : Store} {failing : List Failing} {rest : List Job}
  {row : Job}

theorem advance {f : Failing} (progress : Progress error first base failing (f.row :: rest) tx)
    (writes : opened.writes = tx.writes ++ .insertAudit f.event :: f.entered.map .insertDeadLetter)
    (recorded : f.event.Records f.row .failed)
    (entered : Dossier.Entered (f.row.fail error first.now) f.entered) :
    Progress error first base (failing ++ [f]) rest opened := by
  have same : (failing ++ [f]).map Failing.row ++ rest = failing.map Failing.row ++ f.row :: rest := by simp
  refine ⟨?_, ?_, ?_, ?_⟩
  · rw [same, writes, progress.writes]
    simp
  · rw [same]
    exact progress.rows
  · rw [same]
    exact progress.distinct
  · intro other member
    rcases List.mem_append.mp member with earlier | latest
    · exact progress.recorded other earlier
    · rw [List.mem_singleton.mp latest]
      exact ⟨recorded, entered⟩

theorem job? (progress : Progress error first base failing rest tx) :
    tx.writes.filterMap Write.job? =
      (failing.map Failing.row ++ rest).map fun row => row.fail error first.now := by
  rw [progress.writes, List.filterMap_append, List.filterMap_flatMap]
  simp [Write.job?, List.filterMap_map, Function.comp_def]

/-- When its event is recorded, a job has its failed row, and no entry so far. -/
theorem next (progress : Progress error first base failing (row :: rest) tx) {event : AuditEvent}
    (wrote : opened.writes = tx.writes ++ [.insertAudit event]) (isOpen : opened.Open s)
    (valid : Soundness.Valid admits origin s) (stored : s.job? row.id = some row) :
    (opened.view s).job? row.id = some (row.fail error first.now) ∧ (opened.view s).entriesOf row.id = [] := by
  have running := (progress.rows row (by simp)).2.2
  refine ⟨?_, ?_⟩
  · have rows : opened.writes.filterMap Write.job? =
        (failing.map Failing.row ++ row :: rest).map fun row => row.fail error first.now := by
      rw [wrote, List.filterMap_append, progress.job?]
      exact List.append_nil _
    change (opened.view s).job? (row.fail error first.now).id = _
    refine Entitled.job?_of_unique isOpen ?_ ?_
    · rw [rows, List.map_map]
      exact progress.distinct
    · rw [rows]
      exact List.mem_map_of_mem (by simp)
  · have listed : s.entriesOf row.id = [] := (valid.wellFormed stored).entries.nil fun exhausted => by
      rw [exhausted.1] at running
      cases running
    rw [Tx.view, isOpen.entriesOf, listed, List.nil_append, List.filter_eq_nil_iff]
    intro entry member same
    rw [wrote, progress.writes] at member
    simp only [List.filterMap_append, List.filterMap_map, Function.comp_def, Write.deadLetter?,
      List.filterMap_flatMap, List.filterMap_cons, List.filterMap_none, List.filterMap_some, List.nil_append,
      List.filterMap_nil, List.append_nil, List.mem_flatMap] at member
    obtain ⟨f, inside, listed⟩ := member
    have entered := (progress.recorded f inside).2
    have distinct := progress.distinct
    rw [List.map_append, List.nodup_append] at distinct
    refine distinct.2.2 f.row.id (List.mem_map_of_mem (List.mem_map_of_mem inside)) row.id (by simp) ?_
    have owner := entered_jobId entered entry listed
    rw [of_decide_eq_true same] at owner
    exact (Option.some.inj owner).symm

/-- When every job is recorded, the writes are those that a failure commits. -/
theorem finished (progress : Progress error first base failing [] tx) (sameNow : tx.now = first.now)
    (still : ∀ row, first.locks.Exclusive (.job row.id) → base.job? row.id = some row →
      s.job? row.id = some row) :
    tx.writes = Failing.writes error tx.now failing ∧ (∀ f ∈ failing, f.Valid s error tx.now) ∧
      (failing.map fun f => f.row.id).Nodup := by
  refine ⟨?_, ?_, ?_⟩
  · rw [progress.writes, sameNow, Failing.writes, List.append_nil, List.map_map]
    rfl
  · intro f member
    obtain ⟨locked, stored, running⟩ := progress.rows f.row (by
      rw [List.append_nil]
      exact List.mem_map_of_mem member)
    obtain ⟨recorded, entered⟩ := progress.recorded f member
    exact ⟨still f.row locked stored, running, recorded, sameNow ▸ entered⟩
  · have distinct := progress.distinct
    rw [List.append_nil, List.map_map] at distinct
    exact distinct

end Failing.Progress

section Failures

variable {α : Type} {committed : α → Label} {aborted : Exc → Label}
  {returned : α → Assertion (contract admits origin) pid} {raised : Assertion (contract admits origin) pid}

/-- The event of one failed job, and its entry if it failed at its last attempt. -/
theorem Body.recordFailed {error : String} {first : Tx} {base : Store} {failing : List Failing} {row : Job}
    {rest : List Job} {jobId companyId attempts : ℕ} {traceId : Option String} {tx : Tx} {s : Store}
    {next : Except Exc Unit → Prog α} (later : Prog α) (since : Since raised first base tx s)
    (progress : Failing.Progress error first base failing (row :: rest) tx) (id : jobId = row.id)
    (company : companyId = row.companyId) (tried : attempts = row.attempts)
    (raises : ∀ error, next (.error error) = .raise error)
    (enters : MAX_ATTEMPTS ≤ attempts →
      next (.ok ()) = Program.bind (Processor.sendToDlq jobId error) fun _ => later)
    (skips : ¬ MAX_ATTEMPTS ≤ attempts → next (.ok ()) = later)
    (done : ∀ f opened now, Since raised first base opened now → f.row = row →
      Failing.Progress error first base (failing ++ [f]) rest opened →
      Body committed aborted returned raised later opened now) :
    Body committed aborted returned raised
      (.query (.insertAuditEvent jobId companyId .failed Processor.SYSTEM_ACTOR traceId false) next) tx s := by
  subst id company tried
  obtain ⟨locked, stored, running⟩ := progress.rows row (by simp)
  refine Body.query since (fun _ now => ⟨tx, rfl, locked.mono now.locks⟩) raises
    fun now _ _ _ _ opened here ran after => ?_
  obtain ⟨rfl, ⟨_, unique, _⟩ | moved⟩ := insertAuditRow_ok ran
  · cases unique
  obtain ⟨event, recorded, wrote⟩ : ∃ event : AuditEvent, event.Records row .failed ∧
      opened.writes = tx.writes ++ [.insertAudit event] := by
    refine ⟨newEvent now tx row.id row.companyId .failed Processor.SYSTEM_ACTOR traceId, ⟨rfl, rfl, rfl⟩, ?_⟩
    rw [moved, Tx.add_writes]
    rfl
  by_cases last : MAX_ATTEMPTS ≤ row.attempts
  · rw [enters last]
    refine Body.query after (fun _ _ => trivial) (fun _ => rfl) fun now' _ _ _ _ opened' here' ran after' => ?_
    have still := (here'.job? locked).trans stored
    obtain ⟨view, unlisted⟩ := progress.next wrote here'.opened here'.valid still
    have exhausted : (row.fail error first.now).Exhausted := by
      have shape := here'.valid.consistent still
      simp only [Job.Consistent, running] at shape
      exact ⟨rfl, Nat.le_antisymm shape.1.2 last⟩
    rcases insertDeadLetterRow_ok ran with ⟨absent, _, _⟩ | ⟨job, found, rfl, ⟨_, listed⟩ | moved'⟩
    · rw [view] at absent
      cases absent
    · exact absurd unlisted listed
    · rw [view] at found
      cases found
      obtain ⟨entry, records, wrote'⟩ : ∃ entry : DeadLetter, entry.Records (row.fail error first.now) ∧
          opened'.writes = tx.writes ++ .insertAudit event :: [entry].map .insertDeadLetter := by
        refine ⟨newEntry now' opened error (row.fail error first.now), ⟨rfl, rfl, rfl, rfl, rfl, rfl⟩, ?_⟩
        rw [moved', Tx.add_writes]
        simp only [Tx.hold_writes, wrote, List.append_assoc]
        rfl
      refine done ⟨row, event, [entry]⟩ opened' _ after' rfl (progress.advance wrote' recorded ?_)
      rw [Dossier.Entered, if_pos exhausted]
      exact ⟨entry, rfl, records⟩
  · rw [skips last]
    refine done ⟨row, event, []⟩ opened _ after rfl (progress.advance wrote recorded ?_)
    refine Dossier.entered_of_not fun exhausted => last ?_
    exact exhausted.2.ge

/-- What `recover_stale_jobs` returns of a job that it failed. -/
def staleOf (row : Job) : StaleJob := ⟨row.id, row.companyId, row.kind, row.traceId, row.attempts⟩

/-- The events and entries of failed jobs, one job after the other. -/
theorem Body.recordStale {error : String} {next : Unit → Prog α} {first : Tx} {base : Store}
    {rest : List Job} {failing : List Failing} {tx : Tx} {s : Store} (since : Since raised first base tx s)
    (progress : Failing.Progress error first base failing rest tx)
    (done : ∀ failing' opened now, Since raised first base opened now →
      Failing.Progress error first base failing' [] opened →
      failing'.map Failing.row = failing.map Failing.row ++ rest →
      Body committed aborted returned raised (next ()) opened now) :
    Body committed aborted returned raised
      (Program.bind (Processor.recordStale error (rest.map staleOf)) next) tx s := by
  induction rest generalizing failing tx s with
  | nil => exact done failing tx s since progress (List.append_nil _).symm
  | cons row rest ih =>
    refine Body.recordFailed (Program.bind (Processor.recordStale error (rest.map staleOf)) next) since
      progress rfl rfl rfl (fun _ => rfl) (fun last => ?_) (fun left => ?_) ?_
    · change Program.bind (if MAX_ATTEMPTS ≤ row.attempts then _ else _) next = _
      rw [if_pos last]
      exact Program.bind_assoc ..
    · change Program.bind (if MAX_ATTEMPTS ≤ row.attempts then _ else _) next = _
      rw [if_neg left]
    · intro f opened now since same progress
      refine ih since progress fun failing' opened now since progress rows => ?_
      refine done failing' opened now since progress ?_
      rw [rows, List.map_append, List.append_assoc, List.map_singleton, same]
      rfl

end Failures

theorem recordFailure_works (error : Exc) :
    Works admits origin pid (held admits origin pid claim) (Processor.recordFailure claim error)
      (fun _ => idle admits origin pid) (held admits origin pid claim) := by
  refine runs_connTransaction (fun _ => id) fun tx s since silent _ => ?_
  refine Body.query since (fun _ _ => trivial) (fun _ => rfl) fun _ _ _ answer now opened here ran after => ?_
  obtain ⟨⟨found, _, _⟩, inner, same⟩ := map_ok ran
  cases same
  obtain ⟨rfl, ⟨rfl, rfl, missed⟩ | ⟨row, stored, condition, rfl, moved⟩⟩ := updateJob_ok inner
  · rw [view_of_silent silent] at missed
    refine Body.quiet after.rebase silent fun final there => ⟨rfl, ?_⟩
    exact (idle admits origin pid).stable there.moved (here.raises.released here.valid missed)
  · rw [view_of_silent silent] at stored
    rw [here.raises.1, Job.runningUnder_iff] at condition
    obtain ⟨running, leased⟩ := condition
    obtain ⟨id, attempts, company⟩ := here.raises.2 _ row stored leased
    have sameNow : opened.now = tx.now := by rw [moved]; rfl
    have progress : Failing.Progress error.describe opened now [] [row] opened := by
      refine ⟨?_, ?_, by simp, fun f member => absurd member List.not_mem_nil⟩
      · rw [sameNow, moved, Tx.add_writes, Tx.hold_writes, silent]
        rfl
      · intro other member
        obtain rfl := List.mem_singleton.mp member
        rw [moved, id]
        exact ⟨⟨_, Tx.mem_hold tx _ .noKeyUpdate, rfl⟩, stored, running⟩
    refine Body.recordFailed (.ret .failed) after.rebase progress id.symm company.symm attempts.symm
      (fun _ => rfl) (fun last => if_pos last) (fun left => if_neg left) ?_
    intro f opened' now' since' same progress'
    refine Body.ret since' fun final there => ?_
    obtain ⟨writes, valid, _⟩ := progress'.finished there.now fun row locked stored =>
      (there.job? locked).trans stored
    have rests := there.raises.view there.opened (f.row.fail error.describe opened'.now)
      (by rw [writes, Failing.writes_job?]; rfl) (same ▸ id) rfl
    exact ⟨.fail (valid f (List.mem_singleton_self f)) (same ▸ leased) (same ▸ id) (same ▸ attempts) writes,
      rests, rests.held there.raises.1⟩

theorem recoverStaleJobs_works : Works admits origin pid (idle admits origin pid)
    Processor.recoverStaleJobs (fun _ => idle admits origin pid) (idle admits origin pid) := by
  refine runs_connTransaction (fun _ => id) fun tx s since silent _ => ?_
  refine Body.query since (fun _ _ => trivial) (fun _ => rfl) fun _ _ choice answer now opened here ran after => ?_
  obtain ⟨⟨found, _, _⟩, inner, same⟩ := map_ok ran
  cases same
  obtain ⟨rfl, rfl, moved⟩ := updateStale_ok inner
  have sameNow : opened.now = tx.now := by rw [moved]
  have progress : Failing.Progress Processor.LEASE_EXPIRED opened now []
      (staleJobs now tx Processor.LEASE_TIMEOUT choice.snapshot) opened := by
    refine ⟨?_, ?_, ?_, fun f member => absurd member List.not_mem_nil⟩
    · rw [sameNow, moved, silent, List.map_map]
      simp [Function.comp_def]
    · intro row member
      have inside := List.mem_filter.mp member
      rw [view_of_silent silent, Bool.and_eq_true] at inside
      simp only [Job.leaseExpired, Bool.and_eq_true, decide_eq_true_eq] at inside
      refine ⟨⟨.noKeyUpdate, ?_, rfl⟩, Store.mem_jobs.mp inside.1, inside.2.1.1⟩
      rw [moved]
      exact List.mem_append_right _ (List.mem_map.mpr ⟨_, List.mem_map.mpr ⟨row, member, rfl⟩, rfl⟩)
    · rw [List.map_nil, List.nil_append, staleJobs, view_of_silent silent]
      exact now.jobs.unique.sublist (List.filter_sublist.map Job.id)
  have described : ((staleJobs now tx Processor.LEASE_TIMEOUT choice.snapshot).map fun job =>
      job.fail Processor.LEASE_EXPIRED tx.now).map (fun job =>
        StaleJob.mk job.id job.companyId job.kind job.traceId job.attempts) =
      (staleJobs now tx Processor.LEASE_TIMEOUT choice.snapshot).map staleOf := by
    rw [List.map_map]
    rfl
  rw [described]
  refine Body.recordStale after.rebase progress fun failing opened' now' since' progress' rows => ?_
  refine Body.ret since' fun final there => ?_
  obtain ⟨writes, valid, distinct⟩ := progress'.finished there.now fun row locked stored =>
    (there.job? locked).trans stored
  have count : ((staleJobs now tx Processor.LEASE_TIMEOUT choice.snapshot).map staleOf).length =
      failing.length := by
    have lengths := congrArg List.length rows
    simpa using lengths.symm
  have rests := Idle.view there.raises there.opened fun row member => by
    rw [writes, Failing.writes_job?] at member
    obtain ⟨f, _, rfl⟩ := List.mem_map.mp member
    rfl
  refine ⟨?_, rests, rests⟩
  rw [count]
  exact .recover distinct valid writes

end JobRelay.Soundness
