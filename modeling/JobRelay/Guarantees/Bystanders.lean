import JobRelay.Guarantees.TenantWrites

/-! # What a call alone leaves untouched

Whatever call a process executes alone, the constraints still hold after each of its statements, and a request
changes no row of a company that it does not name.
-/

namespace JobRelay.Guarantees

open Model Sessions Soundness

variable {quiet : ℕ → Prop} {origin s s' u v : Store} {tx tx' : Tx}

section Statements

/-- From one store to a later one, the constraints are kept, the companies of `quiet` keep their rows and every job
its company. -/
structure Advances (quiet : ℕ → Prop) (s s' : Store) : Prop where
  kept : WellKept s → WellKept s'
  untouched : ∀ companyId, quiet companyId → Untouched companyId s s'
  owned : ∀ {jobId companyId}, owner? s jobId = some companyId → owner? s' jobId = some companyId

namespace Advances

theorem of_contents (same : contents s' = contents s) : Advances quiet s s' where
  kept kept := kept.of_contents same
  untouched _ _ := .of_contents same
  owned owned := (owner?_of_contents same _).trans owned

theorem trans (first : Advances quiet s u) (second : Advances quiet u s') : Advances quiet s s' where
  kept kept := second.kept (first.kept kept)
  untouched companyId silent := (first.untouched companyId silent).trans (second.untouched companyId silent)
  owned owned := second.owned (first.owned owned)

theorem apply {locks : LockSet Resource} {write : Write} (entitled : write.Entitled locks s)
    (proper : Proper s write) (elsewhere : ∀ companyId, touches? s write = some companyId → ¬quiet companyId) :
    Advances quiet s (write.apply s) where
  kept kept := kept.apply entitled proper
  untouched companyId silent := .apply entitled proper fun touched => elsewhere companyId touched silent
  owned := owner?_apply entitled proper

/-- What a statement leaves that writes nothing. -/
theorem of_silent (opened : tx.Open s) (drawn : Drawn s s') (writes : tx'.writes = tx.writes) :
    Advances quiet (tx.view s) (tx'.view s') := by
  apply of_contents
  rw [Tx.view, writes]
  exact contents_view opened drawn

/-- What a statement leaves that writes once. -/
theorem of_write {write : Write} (opened : tx.Open s) (drawn : Drawn s s') (opened' : tx'.Open s')
    (writes : tx'.writes = tx.writes ++ [write]) (proper : Proper (tx.view s') write)
    (elsewhere : ∀ companyId, touches? (tx.view s') write = some companyId → ¬quiet companyId) :
    Advances quiet (tx.view s) (tx'.view s') := by
  have view : tx'.view s' = write.apply (tx.view s') := by
    rw [Tx.view, writes, List.foldl_append]
    rfl
  rw [Tx.Open, writes, Entitled.append_singleton] at opened'
  rw [view]
  exact (of_contents (contents_view opened drawn)).trans (apply opened'.2 proper elsewhere)

end Advances

/-- What a statement needs: it records an event of a stored job, and it writes for no company of `quiet`. -/
def Allowed (quiet : ℕ → Prop) (view : Store) : Sql → Prop
  | .insertAuditEvent jobId companyId .. => owner? view jobId = some companyId ∧ ¬quiet companyId
  | .insertJob companyId .. | .cancelJob companyId _ | .retryJob companyId .. => ¬quiet companyId
  | .claimJob .. | .finishJob .. | .failJob .. | .renewLease .. | .releaseCancelled .. | .recoverStale ..
  | .insertResult .. | .debitQuota .. => ∀ companyId, ¬quiet companyId
  | _ => True

/-- The jobs whose company an answer tells. -/
def learnt : (q : Sql) → q.Answer → List (ℕ × ℕ)
  | .insertJob companyId .., some job => [(job.id, companyId)]
  | .cancelJob companyId jobId, some job => [(jobId, companyId), (job.id, companyId)]
  | .retryJob companyId jobId .., some job => [(jobId, companyId), (job.id, companyId)]
  | .findByIdempotencyKey companyId _, some job => [(job.id, companyId)]
  | .selectJob companyId _, some row => [(row.id, companyId)]
  | .listJobs companyId .., rows => rows.map fun row => (row.id, companyId)
  | .recoverStale .., rows => rows.map fun job => (job.id, job.companyId)
  | .selectClaimable _, some job => [(job.id, job.companyId)]
  | _, _ => []

/-- The last write of an open transaction is one it is entitled to. -/
theorem entitled_last {write : Write} (opened : (tx.add write).Open s) : write.Entitled tx.locks (tx.view s) :=
  (Entitled.append_singleton.mp opened).2

private theorem updateJob_advances {jobId : ℕ} {condition : Job → Bool} {set : Job → Job} {found : Option Job}
    (opened : tx.Open s) (ran : updateJob s tx jobId condition set = .ok (found, s', tx'))
    (same : ∀ row, (set row).id = row.id ∧ (set row).companyId = row.companyId ∧
      (set row).idempotencyKey = row.idempotencyKey)
    (elsewhere : ∀ row, condition row = true → ¬quiet row.companyId) :
    Advances quiet (tx.view s) (tx'.view s') ∧
      ∀ row, found = some row → row.id = jobId ∧ owner? (tx'.view s') jobId = some row.companyId ∧
        ∃ old, condition old = true ∧ row.companyId = old.companyId := by
  have opened' := (updateJob_keeps ran fun row => (same row).1).opened opened
  obtain ⟨rfl, ⟨rfl, rfl, _⟩ | ⟨row, stored, holds, rfl, rfl⟩⟩ := updateJob_ok ran
  · exact ⟨.of_contents rfl, fun _ missing => by cases missing⟩
  · obtain ⟨id, company, key⟩ := same row
    have id' : (set row).id = jobId := id.trans (Store.job?_id stored)
    have advances : Advances quiet (tx.view s') (((tx.hold (.job jobId) .noKeyUpdate).add (.putJob (set row))).view s') := by
      refine .of_write opened .none opened' rfl ⟨row, id' ▸ stored, company, key⟩ ?_
      rintro companyId touched
      cases touched
      exact company ▸ elsewhere row holds
    refine ⟨advances, fun other equal => ?_⟩
    cases equal
    exact ⟨id', company ▸ advances.owned (owner?_of_job stored), row, holds, company⟩

/-- An update of a job that belongs to a company. -/
private theorem ownJob_advances {companyId jobId : ℕ} {condition : Job → Bool} {set : Job → Job} {found : Option Job}
    {told : List (ℕ × ℕ)} (opened : tx.Open s) (ran : updateJob s tx jobId condition set = .ok (found, s', tx'))
    (same : ∀ row, (set row).id = row.id ∧ (set row).companyId = row.companyId ∧
      (set row).idempotencyKey = row.idempotencyKey)
    (mine : ∀ row, condition row = true → row.companyId = companyId) (elsewhere : ¬quiet companyId)
    (tells : ∀ job ∈ told, ∃ row, found = some row ∧ (job = (jobId, companyId) ∨ job = (row.id, companyId))) :
    Advances quiet (tx.view s) (tx'.view s') ∧ ∀ job ∈ told, owner? (tx'.view s') job.1 = some job.2 := by
  obtain ⟨advances, owned⟩ := updateJob_advances opened ran same fun row holds => (mine row holds).symm ▸ elsewhere
  refine ⟨advances, fun job member => ?_⟩
  obtain ⟨row, rfl, told⟩ := tells job member
  obtain ⟨same, owner, old, holds, company⟩ := owned row rfl
  rcases told with rfl | rfl
  · exact owner.trans (congrArg Option.some (company.trans (mine old holds)))
  · exact same ▸ owner.trans (congrArg Option.some (company.trans (mine old holds)))

private theorem insertJobRow_advances {companyId : ℕ} {kind : String} {traceId : Option String} {key : String}
    {found : Option Job} (opened : tx.Open s)
    (ran : insertJobRow s tx companyId kind traceId key = .ok (found, s', tx')) (elsewhere : ¬quiet companyId) :
    Advances quiet (tx.view s) (tx'.view s') ∧
      ∀ row, found = some row → owner? (tx'.view s') row.id = some companyId := by
  have opened' := (insertJobRow_keeps ran).opened opened
  obtain ⟨rfl, ⟨rfl, rfl, _⟩ | ⟨_, unused, _, rfl, rfl⟩⟩ := insertJobRow_ok ran
  · exact ⟨.of_silent opened .job rfl, fun _ missing => by cases missing⟩
  · have jobs : (tx.view { s with jobs := s.jobs.draw }).jobs.toTable = (tx.view s).jobs.toTable :=
      congrArg Contents.jobs (contents_view opened .job)
    refine ⟨.of_write opened .job opened' rfl ?_ ?_, ?_⟩
    · rintro key' same
      cases same
      rw [Store.jobByKey?, jobs]
      exact unused
    · rintro other touched
      cases touched
      exact elsewhere
    · rintro row same
      cases same
      rw [Tx.view_add, owner?, job?_of_job (entitled_last opened') rfl, if_pos rfl]
      rfl

private theorem insertAuditRow_advances {jobId companyId : ℕ} {eventType : EventType} {actor : String}
    {traceId : Option String} {ignoreConflict : Bool} {done : Unit} (opened : tx.Open s)
    (ran : insertAuditRow s tx jobId companyId eventType actor traceId ignoreConflict = .ok (done, s', tx'))
    (owned : owner? (tx.view s) jobId = some companyId) (elsewhere : ¬quiet companyId) :
    Advances quiet (tx.view s) (tx'.view s') := by
  have opened' := (insertAuditRow_keeps ran).opened opened
  obtain ⟨rfl, ⟨rfl, _⟩ | rfl⟩ := insertAuditRow_ok ran
  · exact .of_silent opened .event rfl
  · refine .of_write opened .event opened' rfl ((owner?_of_contents (contents_view opened .event) _).trans owned) ?_
    rintro other touched
    cases touched
    exact elsewhere

private theorem insertResultRow_advances {jobId : ℕ} {payload : String} {count : ℕ} (opened : tx.Open s)
    (ran : insertResultRow s tx jobId payload = .ok (count, s', tx')) (elsewhere : ∀ companyId, ¬quiet companyId) :
    Advances quiet (tx.view s) (tx'.view s') := by
  have opened' := (insertResultRow_keeps ran).opened opened
  have present : (tx.view s).results.find? jobId = none → (owner? (tx.view s) jobId).isSome := by
    intro free
    rw [owner?, Option.isSome_map]
    cases stored : (tx.view s).job? jobId with
    | some row => rfl
    | none =>
      simp only [insertResultRow, free, stored, Option.isSome_none, Option.isNone_none] at ran
      split at ran <;> cases ran
  obtain ⟨rfl, ⟨rfl, rfl, _⟩ | ⟨rfl, free, rfl⟩⟩ := insertResultRow_ok ran
  · exact .of_contents rfl
  · exact .of_write opened .none opened' rfl (present free) fun companyId _ => elsewhere companyId

private theorem debitCompany_advances {companyId : ℕ} {done : Unit} (opened : tx.Open s)
    (ran : debitCompany s tx companyId = .ok (done, s', tx')) (elsewhere : ∀ companyId, ¬quiet companyId) :
    Advances quiet (tx.view s) (tx'.view s') := by
  have opened' := (debitCompany_keeps ran).opened opened
  obtain ⟨rfl, ⟨_, rfl⟩ | ⟨company, stored, rfl⟩⟩ := debitCompany_ok ran
  · exact .of_contents rfl
  · exact .of_write opened .none opened' rfl trivial fun companyId _ => elsewhere companyId

private theorem insertDeadLetterRow_advances {error : String} {jobId : ℕ} {done : Unit} (opened : tx.Open s)
    (ran : insertDeadLetterRow s tx error jobId = .ok (done, s', tx')) :
    Advances quiet (tx.view s) (tx'.view s') := by
  have opened' := (insertDeadLetterRow_keeps ran).opened opened
  obtain ⟨_, rfl, rfl⟩ | ⟨job, _, rfl, ⟨rfl, _⟩ | rfl⟩ := insertDeadLetterRow_ok ran
  · exact .of_contents rfl
  · exact .of_silent opened .deadLetter rfl
  · exact .of_write opened .deadLetter opened' rfl trivial fun _ touched => by cases touched

/-- Rows that replace stored ones of the same company and key, one after the other. -/
private theorem advances_puts {locks : LockSet Resource} {rows : List Job} {s : Store}
    (entitled : Entitled locks s (rows.map Write.putJob)) (elsewhere : ∀ companyId, ¬quiet companyId)
    (stored : ∀ row ∈ rows, Proper s (.putJob row)) :
    Advances quiet s ((rows.map Write.putJob).foldl Write.apply s) := by
  induction rows generalizing s with
  | nil => exact .of_contents rfl
  | cons row rest ih =>
    have first := stored row List.mem_cons_self
    refine (Advances.apply entitled.1 first fun companyId _ => elsewhere companyId).trans (ih entitled.2 ?_)
    intro other member
    obtain ⟨old, found, company, key⟩ := stored other (List.mem_cons_of_mem _ member)
    rw [Proper, job?_of_job entitled.1 rfl]
    by_cases same : row.id = other.id
    · obtain ⟨old', found', company', key'⟩ := first
      rw [same, found, Option.some.injEq] at found'
      subst found'
      exact ⟨row, if_pos same, company.trans company'.symm, key.trans key'.symm⟩
    · exact ⟨old, (if_neg same).trans found, company, key⟩

private theorem updateStale_advances {error : String} {leaseTimeout : Micros} {snapshot : List ℕ} {found : List Job}
    (opened : tx.Open s) (ran : updateStale s tx error leaseTimeout snapshot = .ok (found, s', tx'))
    (elsewhere : ∀ companyId, ¬quiet companyId) : Advances quiet (tx.view s) (tx'.view s') ∧
      ∀ row ∈ found, owner? (tx'.view s') row.id = some row.companyId := by
  have opened' := (updateStale_keeps ran).opened opened
  obtain ⟨rfl, rfl, rfl⟩ := updateStale_ok ran
  have stored : ∀ row ∈ (staleJobs s' tx leaseTimeout snapshot).map (fun job => job.fail error tx.now),
      Proper (tx.view s') (.putJob row) := by
    intro row member
    obtain ⟨job, stale, rfl⟩ := List.mem_map.mp member
    exact ⟨job, Store.mem_jobs.mp (List.mem_filter.mp stale).1, rfl, rfl⟩
  have advances : Advances quiet (tx.view s') _ := advances_puts (Entitled.append.mp opened').2 elsewhere stored
  have view : ∀ later : List Write, (Tx.mk tx.now (tx.writes ++ later) (tx.locks ++
      ((staleJobs s' tx leaseTimeout snapshot).map fun job => job.fail error tx.now).map fun job =>
        (Resource.job job.id, LockMode.noKeyUpdate))).view s' = later.foldl Write.apply (tx.view s') :=
    fun later => List.foldl_append
  rw [view]
  refine ⟨advances, fun row member => advances.owned ?_⟩
  obtain ⟨old, kept, company, _⟩ := stored row member
  exact owner?_eq_some.mpr ⟨old, kept, company.symm⟩

/-- Every allowed statement advances what its transaction sees, and tells the truth about the jobs it names. -/
theorem answer_advances {q : Sql} {others : List Tx} {choice : Choice} {answer : q.Answer} (opened : tx.Open s)
    (allowed : Allowed quiet (tx.view s) q) (ran : q.answer s others choice tx = .ok (answer, s', tx')) :
    Advances quiet (tx.view s) (tx'.view s') ∧
      ∀ job ∈ learnt q answer, owner? (tx'.view s') job.1 = some job.2 := by
  cases q with
  | lockCompany companyId =>
    simp only [Sql.answer] at ran
    split at ran <;> cases ran <;> exact ⟨.of_contents rfl, fun _ missing => by cases missing⟩
  | notify channel payload =>
    cases ran
    refine ⟨.of_contents ?_, fun _ missing => by cases missing⟩
    rw [Tx.view_add]
    rfl
  | insertJob companyId kind traceId key =>
    obtain ⟨⟨found, _, _⟩, inner, same⟩ := map_ok ran
    cases same
    obtain ⟨advances, owned⟩ := insertJobRow_advances opened inner allowed
    refine ⟨advances, fun job member => ?_⟩
    cases found with
    | none => cases member
    | some row =>
      obtain rfl := List.mem_singleton.mp member
      exact owned row rfl
  | insertAuditEvent jobId companyId eventType actor traceId ignoreConflict =>
    exact ⟨insertAuditRow_advances opened ran allowed.1 allowed.2, fun _ missing => by cases missing⟩
  | insertResult jobId payload =>
    exact ⟨insertResultRow_advances opened ran allowed, fun _ missing => by cases missing⟩
  | insertDeadLetter error jobId =>
    exact ⟨insertDeadLetterRow_advances opened ran, fun _ missing => by cases missing⟩
  | debitQuota companyId =>
    exact ⟨debitCompany_advances opened ran allowed, fun _ missing => by cases missing⟩
  | recoverStale error leaseTimeout =>
    obtain ⟨⟨found, _, _⟩, inner, same⟩ := map_ok ran
    cases same
    obtain ⟨advances, owned⟩ := updateStale_advances opened inner allowed
    refine ⟨advances, fun job member => ?_⟩
    obtain ⟨stale, inside, rfl⟩ := List.mem_map.mp member
    obtain ⟨row, found, rfl⟩ := List.mem_map.mp inside
    exact owned row found
  | selectClaimable maxAttempts =>
    obtain ⟨⟨found, _, _⟩, inner, same⟩ := map_ok ran
    cases same
    obtain ⟨rfl, ⟨rfl, rfl, _⟩ | ⟨row, stored, _, rfl, rfl⟩⟩ := lockClaimable_ok inner
    · exact ⟨.of_contents rfl, fun _ missing => by cases missing⟩
    · refine ⟨.of_contents rfl, fun job member => ?_⟩
      obtain rfl := List.mem_singleton.mp member
      exact owner?_of_job stored
  | cancelJob companyId jobId =>
    obtain ⟨⟨found, _, _⟩, inner, same⟩ := map_ok ran
    cases same
    refine ownJob_advances opened inner (fun _ => ⟨rfl, rfl, rfl⟩) (fun row holds => ?_) allowed ?_
    · rw [Bool.and_eq_true, decide_eq_true_eq] at holds
      exact holds.1
    · intro job member
      cases found with
      | none => cases member
      | some row => exact ⟨row, rfl, List.mem_pair.mp member⟩
  | retryJob companyId jobId traceId maxAttempts =>
    obtain ⟨⟨found, _, _⟩, inner, same⟩ := map_ok ran
    cases same
    refine ownJob_advances opened inner (fun _ => ⟨rfl, rfl, rfl⟩) (fun row holds => ?_) allowed ?_
    · simp only [Bool.and_eq_true, decide_eq_true_eq] at holds
      exact holds.1.1
    · intro job member
      cases found with
      | none => cases member
      | some row => exact ⟨row, rfl, List.mem_pair.mp member⟩
  | findByIdempotencyKey companyId key =>
    cases ran
    refine ⟨.of_contents rfl, fun job member => ?_⟩
    cases found : (tx.view s).jobByKey? companyId key with
    | none =>
      rw [found] at member
      cases member
    | some row =>
      rw [found] at member
      obtain rfl := List.mem_singleton.mp member
      obtain ⟨stored, mine, _⟩ := jobByKey?_some found
      exact owner?_of_owned stored mine
  | selectJob companyId jobId =>
    cases ran
    refine ⟨.of_contents rfl, fun job member => ?_⟩
    cases found : ((tx.view s).job? jobId).filter fun job => decide (job.companyId = companyId) with
    | none =>
      rw [found] at member
      cases member
    | some row =>
      rw [found] at member
      obtain rfl := List.mem_singleton.mp member
      obtain ⟨stored, mine⟩ := Option.filter_eq_some_iff.mp found
      exact owner?_of_owned ((Store.job?_id stored).symm ▸ stored) (of_decide_eq_true mine)
  | listJobs companyId limit offset status =>
    cases ran
    refine ⟨.of_contents rfl, fun job member => ?_⟩
    obtain ⟨summary, inside, rfl⟩ := List.mem_map.mp member
    obtain ⟨row, listed, rfl⟩ := List.mem_map.mp inside
    obtain ⟨stored, mine, _⟩ := mem_jobsOf.mp
      ((List.mem_insertionSort _).mp (List.mem_of_mem_drop (List.mem_of_mem_take listed)))
    exact owner?_of_owned stored mine
  | claimJob | finishJob | releaseCancelled | failJob | renewLease =>
    obtain ⟨⟨found, _, _⟩, inner, same⟩ := map_ok ran
    cases same
    exact ⟨(updateJob_advances opened inner (fun _ => ⟨rfl, rfl, rfl⟩) fun row _ => allowed row.companyId).1,
      fun _ missing => by cases missing⟩
  | _ =>
    cases ran
    exact ⟨.of_contents rfl, fun _ missing => by cases missing⟩

end Statements

section Execution

/-- The rows that a transaction sees, or the committed ones where none is open. -/
def seen (tx : Option Tx) (s : Store) : Store := tx.elim s fun tx => tx.view s

/-- Since the origin the constraints hold, and the companies of `quiet` have their rows. -/
structure Intact (quiet : ℕ → Prop) (origin s : Store) : Prop where
  kept : WellKept s
  untouched : ∀ companyId, quiet companyId → Untouched companyId origin s

theorem Intact.advance (intact : Intact quiet origin s) (advances : Advances quiet s s') : Intact quiet origin s' where
  kept := advances.kept intact.kept
  untouched companyId silent := (intact.untouched companyId silent).trans (advances.untouched companyId silent)

/-- Where an execution stands: what is committed and what its transaction sees are intact, and it knows the company
of the committed jobs of `lasting` and of the jobs of `learned` that its transaction sees. -/
structure Watched (quiet : ℕ → Prop) (origin : Store) (lasting learned : List (ℕ × ℕ)) (tx : Option Tx) (s : Store) :
    Prop where
  opened : ∀ opened, tx = some opened → opened.Open s
  base : Intact quiet origin s
  view : Intact quiet origin (seen tx s)
  lasting : ∀ job ∈ lasting, owner? s job.1 = some job.2 ∧ owner? (seen tx s) job.1 = some job.2
  learned : ∀ job ∈ learned, owner? (seen tx s) job.1 = some job.2

variable {lasting learned : List (ℕ × ℕ)} {tx : Option Tx}

/-- It may know less. -/
theorem Watched.mono {less : List (ℕ × ℕ)} (watched : Watched quiet origin lasting learned tx s) (sub : less ⊆ learned) :
    Watched quiet origin lasting less tx s :=
  ⟨watched.opened, watched.base, watched.view, watched.lasting, fun job member => watched.learned job (sub member)⟩

theorem Watched.committed {kept : List (ℕ × ℕ)} (intact : Intact quiet origin s)
    (owned : ∀ job ∈ kept, owner? s job.1 = some job.2) : Watched quiet origin kept [] none s where
  opened _ missing := by cases missing
  base := intact
  view := intact
  lasting job member := ⟨owned job member, owned job member⟩
  learned _ missing := by cases missing

/-- Rolled back, an execution stands at the committed rows. -/
theorem Watched.rollback (watched : Watched quiet origin lasting learned tx s) (same : contents s' = contents s) :
    Watched quiet origin lasting [] none s' := by
  have advances : Advances quiet s s' := .of_contents same
  exact .committed (watched.base.advance advances) fun job member => advances.owned (watched.lasting job member).1

/-- Committed, it stands at the rows that its transaction saw. -/
theorem Watched.commit (watched : Watched quiet origin lasting learned tx s) (same : contents s' = contents (seen tx s)) :
    Watched quiet origin (lasting ++ learned) [] none s' := by
  have advances : Advances quiet (seen tx s) s' := .of_contents same
  refine .committed (watched.view.advance advances) fun job member => advances.owned ?_
  rcases List.mem_append.mp member with old | new
  · exact (watched.lasting job old).2
  · exact watched.learned job new

variable (quiet origin lasting) (pid : ℕ) (choice : Choice)

/-- A part of a transaction keeps what the execution stands on. -/
def Minds {α : Type} (learned : List (ℕ × ℕ)) (program : Prog α) (told : α → List (ℕ × ℕ)) : Prop :=
  Program.Yields postgres pid choice (Watched quiet origin lasting learned) program
    (fun value => Watched quiet origin lasting (learned ++ told value))
    (fun _ => Watched quiet origin lasting [])

/-- So does a program that begins and ends without an open transaction. -/
def Rests {α : Type} (program : Prog α) (told : α → List (ℕ × ℕ)) : Prop :=
  Program.Yields postgres pid choice (fun tx s => tx = none ∧ Watched quiet origin lasting [] none s) program
    (fun value tx s => tx = none ∧ Watched quiet origin (lasting ++ told value) [] none s)
    (fun _ tx s => tx = none ∧ Watched quiet origin lasting [] none s)

variable {quiet origin lasting pid choice}

section Rules

variable {α β : Type} {program : Prog α} {told : α → List (ℕ × ℕ)}

namespace Minds

theorem ret {value : α} (told : α → List (ℕ × ℕ)) (known : told value ⊆ learned) :
    Minds quiet origin lasting pid choice learned (.ret value) told :=
  Program.Yields.ret fun _ _ watched => watched.mono (List.append_subset.mpr ⟨List.Subset.refl _, known⟩)

theorem done (value : α) : Minds quiet origin lasting pid choice learned (.ret value) fun _ => [] :=
  .ret _ (List.nil_subset _)

theorem raise (error : Exc) (told : α → List (ℕ × ℕ)) :
    Minds quiet origin lasting pid choice learned (.raise error : Prog α) told :=
  Program.Yields.raise fun _ _ watched => watched.mono (List.nil_subset _)

theorem exec {q : Sql} (allowed : ∀ tx s, Watched quiet origin lasting learned tx s → Allowed quiet (seen tx s) q) :
    Minds quiet origin lasting pid choice learned (Model.exec q) (learnt q) := by
  refine Program.Yields.exec (fun tx s answer after opened watched ran => ?_)
    fun tx s _ watched => watched.rollback rfl
  have begun : (tx.getD (Tx.start s)).Open s := by
    cases tx with
    | none => trivial
    | some opened => exact watched.opened opened rfl
  have view : (tx.getD (Tx.start s)).view s = seen tx s := by cases tx <;> rfl
  have allowed' : Allowed quiet ((tx.getD (Tx.start s)).view s) q := view.symm ▸ allowed tx s watched
  obtain ⟨advances, owned⟩ := answer_advances begun allowed' ran
  rw [view] at advances
  have base : Advances quiet s after := .of_contents (by cases (answer_keeps ran).drawn <;> rfl)
  constructor
  · intro other same
    cases same
    exact (answer_keeps ran).opened begun
  · exact watched.base.advance base
  · exact watched.view.advance advances
  · exact fun job member => ⟨base.owned (watched.lasting job member).1, advances.owned (watched.lasting job member).2⟩
  · intro job member
    rcases List.mem_append.mp member with old | new
    · exact advances.owned (watched.learned job old)
    · exact owned job new

theorem bind {next : α → Prog β} {goal : β → List (ℕ × ℕ)}
    (first : Minds quiet origin lasting pid choice learned program told)
    (rest : ∀ value, Minds quiet origin lasting pid choice (learned ++ told value) (next value) goal) :
    Minds quiet origin lasting pid choice learned (program.bind next) goal :=
  Program.Yields.bind first fun value => (rest value).weaken (fun _ _ => id)
    (fun _ _ _ watched => watched.mono (List.append_subset.mpr
      ⟨List.Subset.trans (List.subset_append_left _ _) (List.subset_append_left _ _), List.subset_append_right _ _⟩))
    fun _ _ _ => id

end Minds

namespace Rests

theorem ret {value : α} (told : α → List (ℕ × ℕ)) (known : told value ⊆ lasting) :
    Rests quiet origin lasting pid choice (.ret value) told := by
  refine Program.Yields.ret fun tx s holds => ⟨holds.1, .committed holds.2.base fun job member => ?_⟩
  refine (holds.2.lasting job ?_).1
  exact (List.mem_append.mp member).elim id fun new => known new

theorem done (value : α) : Rests quiet origin lasting pid choice (.ret value) fun _ => [] :=
  .ret _ (List.nil_subset _)

theorem raise (error : Exc) (told : α → List (ℕ × ℕ)) :
    Rests quiet origin lasting pid choice (.raise error : Prog α) told := Program.Yields.raise fun _ _ holds => holds

theorem transaction {committed : α → Label} {aborted : Exc → Label}
    (body : Minds quiet origin lasting pid choice [] program told) :
    Rests quiet origin lasting pid choice (connTransaction program committed aborted) told := by
  have begun : Minds quiet origin lasting pid choice [] (Model.exec .begin) fun _ => [] :=
    .exec (q := .begin) fun _ _ _ => trivial
  refine Program.Yields.transaction ((begun.bind fun _ => body).weaken ?_ ?_ ?_)
  · rintro tx s ⟨rfl, watched⟩
    exact watched
  · intro value tx s watched
    refine ⟨rfl, watched.commit ?_⟩
    cases tx <;> rfl
  · intro error tx s watched
    refine ⟨rfl, watched.rollback ?_⟩
    cases tx <;> rfl

theorem bind {next : α → Prog β} {goal : β → List (ℕ × ℕ)}
    (first : Rests quiet origin lasting pid choice program told)
    (rest : ∀ value, Rests quiet origin (lasting ++ told value) pid choice (next value) goal) :
    Rests quiet origin lasting pid choice (program.bind next) goal := by
  refine Program.Yields.bind first fun value => (rest value).weaken (fun _ _ => id) ?_ ?_
  · rintro last tx s ⟨rfl, watched⟩
    refine ⟨rfl, .committed watched.base fun job member => (watched.lasting job ?_).1⟩
    rw [List.append_assoc]
    exact (List.mem_append.mp member).elim (fun old => List.mem_append.mpr (.inl old))
      fun new => List.mem_append.mpr (.inr (List.mem_append.mpr (.inr new)))
  · rintro error tx s ⟨rfl, watched⟩
    exact ⟨rfl, .committed watched.base fun job member => (watched.lasting job (List.mem_append.mpr (.inl member))).1⟩

theorem handle {handler : Exc → Prog α} (first : Rests quiet origin lasting pid choice program told)
    (rest : ∀ error, Rests quiet origin lasting pid choice (handler error) told) :
    Rests quiet origin lasting pid choice (program.handle handler) told := Program.Yields.handle first rest

theorem await {next : Choice → Prog α} (rest : Rests quiet origin lasting pid choice (next choice) told) :
    Rests quiet origin lasting pid choice (.await next) told := Program.Yields.await rest

theorem publish {label : Label} {next : Prog α} (rest : Rests quiet origin lasting pid choice next told) :
    Rests quiet origin lasting pid choice (.publish label next) told := by
  refine Program.Yields.publish ?_ rest
  rintro tx s ⟨rfl, watched⟩
  exact ⟨rfl, watched.rollback rfl⟩

/-- Catching what a program raises. -/
theorem caught (rests : Rests quiet origin lasting pid choice program told) (value : Exc → α)
    (known : ∀ error, told (value error) ⊆ lasting) :
    Rests quiet origin lasting pid choice (program.handle fun error => .ret (value error)) told :=
  rests.handle fun error => .ret told (known error)

end Rests

end Rules

section Requests

variable {companyId jobId : ℕ}

/-- The job that creating one answers with. -/
def answered (companyId : ℕ) (result : JobState × Bool) : List (ℕ × ℕ) := [(result.1.id, companyId)]

/-- The company that a request names. -/
def tenantOf : Request → ℕ
  | .listJobs companyId .. | .countJobs companyId _ | .listPage companyId .. | .getJob companyId _
  | .getResult companyId _ | .createJob companyId .. | .cancelJob companyId .. | .retryJob companyId .. => companyId

end Requests

section Worker

/-- The job that a claim names, with its company. -/
def named (claim : Claim) : ℕ × ℕ := (claim.id, claim.companyId)

variable (loud : ∀ companyId, ¬quiet companyId) {claim : Claim}

include loud

theorem workerEvent_minds {jobId companyId : ℕ} {traceId : Option String} {eventType : EventType}
    (known : (jobId, companyId) ∈ lasting ∨ (jobId, companyId) ∈ learned) : Minds quiet origin lasting pid choice learned
      (Processor.recordAuditEvent jobId companyId traceId eventType) fun _ => [] :=
  .exec (q := .insertAuditEvent jobId companyId eventType Processor.SYSTEM_ACTOR traceId false) fun _ _ watched =>
    ⟨known.elim (fun old => (watched.lasting _ old).2) (fun new => watched.learned _ new), loud companyId⟩

theorem renewLease_rests : Rests quiet origin lasting pid choice (Processor.renewLease claim) fun _ => [] := by
  refine .transaction (Minds.bind (Minds.exec (q := .renewLease claim.id claim.workerId) fun _ _ _ => loud) fun found => ?_)
  cases found with
  | none => exact .raise _ _
  | some _ => exact .done _

omit loud in
theorem signal_rests : Rests quiet origin lasting pid choice Processor.signal fun _ => [] := by
  refine .await ?_
  cases choice.raises with
  | none => exact .done _
  | some error => exact .raise _ _

theorem recordStale_minds {error : String} (jobs : List StaleJob)
    (known : ∀ job ∈ jobs, (job.id, job.companyId) ∈ learned) :
    Minds quiet origin lasting pid choice learned (Processor.recordStale error jobs) fun _ => [] := by
  induction jobs generalizing learned with
  | nil => exact .done _
  | cons job rest ih =>
    refine (workerEvent_minds loud (.inr (known job List.mem_cons_self))).bind fun _ => ?_
    have later : ∀ other ∈ rest, (other.id, other.companyId) ∈ learned ++ [] := fun other member =>
      List.mem_append.mpr (.inl (known other (List.mem_cons_of_mem _ member)))
    change Minds _ _ _ _ _ _ (if MAX_ATTEMPTS ≤ job.attempts then Program.bind _ _ else _) _
    split
    · exact Minds.bind (Minds.exec (q := .insertDeadLetter error job.id) fun _ _ _ => trivial) fun _ =>
        ih fun other member => List.mem_append.mpr (.inl (later other member))
    · exact ih later

theorem recoverStaleJobs_rests :
    Rests quiet origin lasting pid choice Processor.recoverStaleJobs fun _ => [] := by
  refine .transaction (Minds.bind (Minds.exec (q := .recoverStale _ _) fun _ _ _ => loud) fun stale => ?_)
  refine (recordStale_minds loud stale fun job member => ?_).bind fun _ => .done _
  exact List.mem_append.mpr (.inr (List.mem_map_of_mem member))

omit loud in
theorem execute_rests : Rests quiet origin lasting pid choice (Processor.execute claim) fun _ => [] := by
  have checked : Rests quiet origin (lasting ++ []) pid choice
      (Processor.transaction (fun _ => .checked claim) (Model.exec (.selectCompany claim.companyId))) fun _ => [] :=
    .transaction (Minds.exec (q := .selectCompany claim.companyId) fun _ _ _ => trivial)
  refine signal_rests.bind fun _ => checked.bind fun company => ?_
  cases company with
  | none => exact .raise _ _
  | some _ => exact .done _

end Worker

end Execution

end JobRelay.Guarantees
