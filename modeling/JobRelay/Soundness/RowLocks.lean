import JobRelay.Model.RowLocks
import JobRelay.Soundness.Answers

/-! # The lock requests of the nine transactions

`create_job` starts with its company, every update of a single job starts with that job, and `_finalize` comes
to its company last. Only `recover_stale_jobs` updates several jobs.
-/

namespace JobRelay.Soundness

open Model Sessions

/-- The lock of a foreign key. -/
def Shares (request : LockRequest Resource) : Prop := request.mode = .keyShare

/-- One job is updated first, and a company is debited last. -/
def UpdatesOne (asked : List (LockRequest Resource)) : Prop :=
  asked = [] ∨ ∃ jobId shares last, asked = request (.job jobId) .noKeyUpdate :: (shares ++ last) ∧
    (∀ share ∈ shares, Shares share) ∧ (last = [] ∨ ∃ companyId, last = [request (.company companyId) .noKeyUpdate])

/-- The requests of each transaction; where it fails, it has made some of them from the first on. -/
def Shaped : Operation → List (LockRequest Resource) → Prop
  | .createJob companyId .., asked => asked = [] ∨ ∃ shares,
      asked = request (.company companyId) .update :: shares ∧ ∀ share ∈ shares, Shares share ∧
        ∀ other, share.resource = .company other → other = companyId
  | .claimNext _, asked => asked = [] ∨ ∃ jobId rest, asked = ⟨.job jobId, .update, true⟩ :: rest ∧
      ∀ made ∈ rest, made = request (.job jobId) .noKeyUpdate
  | .recoverStaleJobs, asked => ∃ ids shares, asked = updates ids ++ shares ∧ ids.Nodup ∧
      ∀ share ∈ shares, Shares share
  | _, asked => UpdatesOne asked

section Shared

variable {companyId jobId : ℕ}

private theorem eventKeys_shares : ∀ share ∈ eventKeys jobId companyId,
    Shares share ∧ ∀ other, share.resource = .company other → other = companyId := by
  simp [eventKeys, request, Shares]

private theorem insertAuditEvent_shares {eventType : EventType} {actor : String} {traceId : Option String}
    {ignoreConflict : Bool} :
    (exec (.insertAuditEvent jobId companyId eventType actor traceId ignoreConflict)).AsksOnly Sql.Requests
      fun share => Shares share ∧ ∀ other, share.resource = .company other → other = companyId := by
  refine .exec fun _ asked sends share member => ?_
  rcases sends with rfl | ⟨_, rfl⟩
  · exact eventKeys_shares share member
  · cases member

private theorem notify_shares {channel : Channel} {P : LockRequest Resource → Prop} :
    (exec (.notify channel jobId)).AsksOnly Sql.Requests P := by
  refine .exec fun _ asked sends share member => ?_
  rw [show asked = [] from sends] at member
  cases member

private theorem sendToDlq_shares {error : String} :
    (Processor.sendToDlq jobId error).AsksOnly Sql.Requests Shares := by
  refine .exec fun _ asked sends share member => ?_
  rcases sends with rfl | rfl
  · rw [List.mem_singleton.mp member]
    rfl
  · cases member

private theorem reads_nothing {q : Sql} (reads : ∀ answer asked, Sql.Requests q answer asked → asked = []) :
    (exec q).AsksOnly Sql.Requests fun _ => False := by
  refine .exec fun answer asked sends share member => ?_
  rw [reads answer asked sends] at member
  cases member

private theorem getJob_nothing :
    (JobsService.getJob companyId jobId).AsksOnly Sql.Requests fun _ => False := by
  refine .bind (reads_nothing fun _ _ => id) fun row => ?_
  cases row with
  | none => exact .raise _
  | some row => exact .bind (reads_nothing fun _ _ => id) fun events => .ret _

end Shared

section Updates

variable {α : Type} {asked : List (LockRequest Resource)} {jobId : ℕ}

/-- A transaction makes the requests of its body. -/
private theorem asks_body {body : Prog α} {committed : α → Label} {aborted : Exc → Label}
    {result : Option (Except Exc α)}
    (asks : (connTransaction body committed aborted).Asks Sql.Requests asked result) :
    asked = [] ∨ ∃ middle, body.Asks Sql.Requests asked middle := by
  obtain ⟨middle, asks⟩ := asks.transaction
  rcases asks.exec_bind with ⟨_, first, rest, begins, onward, rfl⟩ | nothing
  · rw [show first = [] from begins]
    exact .inr ⟨middle, onward⟩
  · exact .inl nothing

/-- The update of one job, and then the foreign keys of what is recorded of it. -/
private theorem updates_one (q : Sql) (found : q.Answer → Bool) {next : q.Answer → Prog α}
    {result : Option (Except Exc α)}
    (locks : ∀ answer asked, Sql.Requests q answer asked → UpdatesJob jobId (found answer) asked)
    (shares : ∀ answer, found answer = true → (next answer).AsksOnly Sql.Requests Shares)
    (nothing : ∀ answer, found answer = false → (next answer).AsksOnly Sql.Requests fun _ => False)
    (asks : ((exec q).bind next).Asks Sql.Requests asked result) :
    UpdatesOne asked := by
  rcases asks.exec_bind with ⟨answer, first, rest, sends, onward, rfl⟩ | nothing
  · cases present : found answer with
    | true =>
      rcases locks answer first sends with rfl | ⟨absent, _⟩
      · exact .inr ⟨jobId, rest, [], by simp, shares answer present rest _ onward, .inl rfl⟩
      · rw [present] at absent
        cases absent
    | false =>
      have none : rest = [] := List.eq_nil_iff_forall_not_mem.mpr (nothing answer present rest _ onward)
      subst none
      rcases locks answer first sends with rfl | ⟨_, rfl⟩
      · exact .inr ⟨jobId, [], [], rfl, by simp, .inl rfl⟩
      · exact .inl rfl
  · exact .inl nothing

/-- Recording the outcome of an update of one job. -/
private theorem recorded_shares {companyId other payload : ℕ} {eventType : EventType} {actor : String}
    {traceId : Option String} {channel : Channel} {value : α} :
    ((JobsService.recordAuditEvent other companyId eventType actor traceId).bind fun _ =>
      (exec (.notify channel payload)).bind fun _ => .ret value).AsksOnly Sql.Requests Shares :=
  .bind (fun _ _ asks share member => (insertAuditEvent_shares _ _ asks share member).1) fun _ =>
    .bind notify_shares fun _ => .ret _

/-- A response asks for nothing more. -/
private theorem asks_response {β : Type} {body : Prog α} {respond : α → β} {result : Option (Except Exc β)}
    (asks : (body.bind fun value => .ret (respond value)).Asks Sql.Requests asked result) :
    ∃ middle, body.Asks Sql.Requests asked middle := by
  obtain ⟨first, middle, asks, after⟩ := asks.bind
  refine ⟨middle, ?_⟩
  rcases middle with _ | error | value
  · rwa [after.1]
  · rwa [after.1]
  · obtain ⟨rest, ⟨rfl, _⟩, same⟩ := after
    rwa [same, List.append_nil]

private theorem cancelJob_shaped {companyId : ℕ} {cancelledBy : String} {traceId : Option String}
    (asks : (Operation.cancelJob companyId jobId cancelledBy traceId).Asks asked) :
    Shaped (.cancelJob companyId jobId cancelledBy traceId) asked := by
  obtain ⟨result, asks⟩ := asks
  rcases asks_body asks with nothing | ⟨middle, asks⟩
  · exact .inl nothing
  · obtain ⟨_, asks⟩ := asks_response asks
    refine updates_one (.cancelJob companyId jobId) (fun row => row.isSome) (fun _ _ => id)
      (fun row present => ?_) (fun row absent => ?_) asks
    · obtain ⟨state, rfl⟩ := Option.isSome_iff_exists.mp present
      exact recorded_shares
    · cases row with
      | some state => cases absent
      | none => exact .bind getJob_nothing fun _ => .raise _

private theorem retryJob_shaped {companyId : ℕ} {requestedBy : String} {traceId : Option String}
    (asks : (Operation.retryJob companyId jobId requestedBy traceId).Asks asked) :
    Shaped (.retryJob companyId jobId requestedBy traceId) asked := by
  obtain ⟨result, asks⟩ := asks
  rcases asks_body asks with nothing | ⟨middle, asks⟩
  · exact .inl nothing
  · obtain ⟨_, asks⟩ := asks_response asks
    refine updates_one (.retryJob companyId jobId traceId MAX_ATTEMPTS) (fun row => row.isSome) (fun _ _ => id)
      (fun row present => ?_) (fun row absent => ?_) asks
    · obtain ⟨state, rfl⟩ := Option.isSome_iff_exists.mp present
      exact recorded_shares
    · cases row with
      | some state => cases absent
      | none =>
        refine .bind getJob_nothing fun current => ?_
        split <;> exact .raise _

private theorem renewLease_shaped {claim : Claim} (asks : (Operation.renewLease claim).Asks asked) :
    Shaped (.renewLease claim) asked := by
  obtain ⟨result, asks⟩ := asks
  rcases asks_body asks with nothing | ⟨middle, asks⟩
  · exact .inl nothing
  · refine updates_one (.renewLease claim.id claim.workerId) (fun row => row.isSome) (fun _ _ => id)
      (fun row present => ?_) (fun row absent => ?_) asks
    · obtain ⟨id, rfl⟩ := Option.isSome_iff_exists.mp present
      exact .ret _
    · cases row with
      | some id => cases absent
      | none => exact .raise _

private theorem recordFailure_shaped {claim : Claim} {error : Exc}
    (asks : (Operation.recordFailure claim error).Asks asked) : Shaped (.recordFailure claim error) asked := by
  obtain ⟨result, asks⟩ := asks
  rcases asks_body asks with nothing | ⟨middle, asks⟩
  · exact .inl nothing
  · refine updates_one (.failJob error.describe claim.id claim.workerId) (fun row => row.isSome) (fun _ _ => id)
      (fun row present => ?_) (fun row absent => ?_) asks
    · obtain ⟨status, rfl⟩ := Option.isSome_iff_exists.mp present
      refine .bind (fun _ _ asks share member => (insertAuditEvent_shares _ _ asks share member).1) fun _ => ?_
      dsimp only
      split
      · exact .bind sendToDlq_shares fun _ => .ret _
      · exact .ret _
    · cases row with
      | some status => cases absent
      | none => exact .ret _

private theorem acknowledgeCancellation_shaped {claim : Claim}
    (asks : (Operation.acknowledgeCancellation claim).Asks asked) :
    Shaped (.acknowledgeCancellation claim) asked := by
  obtain ⟨result, asks⟩ := asks
  rcases asks_body asks with nothing | ⟨middle, asks⟩
  · exact .inl nothing
  · rcases Program.Asks.exec_bind asks with ⟨status, first, rest, reads, onward, rfl⟩ | nothing
    · rw [show first = [] from reads, List.nil_append]
      exact updates_one (.releaseCancelled claim.id claim.workerId) (fun _ => false) (fun _ _ => id)
        (fun _ present => (by cases present)) (fun _ _ => .ret _) onward
    · exact .inl nothing

private theorem claimNext_shaped {workerId : ℕ} (asks : (Operation.claimNext workerId).Asks asked) :
    Shaped (.claimNext workerId) asked := by
  obtain ⟨result, asks⟩ := asks
  rcases asks_body asks with nothing | ⟨middle, asks⟩
  · exact .inl nothing
  · rcases Program.Asks.exec_bind asks with ⟨candidate, first, rest, sends, onward, rfl⟩ | nothing
    · cases candidate with
      | none =>
        rw [show first = [] from sends, onward.1]
        exact .inl rfl
      | some job =>
        rw [show first = [⟨.job job.id, .update, true⟩] from sends]
        refine .inr ⟨job.id, rest, rfl, fun made member => ?_⟩
        refine Program.AsksOnly.bind (P := fun made => made = request (.job job.id) .noKeyUpdate)
          (.exec fun lease asked sends made member => ?_) (fun lease => ?_) rest _ onward made member
        · rcases sends with rfl | ⟨_, rfl⟩
          · exact List.mem_singleton.mp member
          · cases member
        · cases lease with
          | none => exact .raise _
          | some lease => exact .ret _
    · exact .inl nothing

private theorem finalize_shaped {claim : Claim} (asks : (Operation.finalize claim).Asks asked) :
    Shaped (.finalize claim) asked := by
  obtain ⟨result, asks⟩ := asks
  rcases asks_body asks with nothing | ⟨middle, asks⟩
  · exact .inl nothing
  · rcases Program.Asks.exec_bind asks with ⟨row, first, rest, sends, onward, rfl⟩ | nothing
    · cases row with
      | none =>
        rw [onward.1]
        rcases sends with rfl | ⟨_, rfl⟩
        · exact .inr ⟨claim.id, [], [], rfl, by simp, .inl rfl⟩
        · exact .inl rfl
      | some id =>
        obtain rfl : first = [request (.job claim.id) .noKeyUpdate] := by
          rcases sends with same | ⟨absent, _⟩
          · exact same
          · cases absent
        refine .inr ⟨claim.id, ?_⟩
        -- what is inserted comes before the debit, which asks for the last lock
        rcases Program.Asks.exec_bind onward with ⟨inserted, second, later, inserts, records, rfl⟩ | rfl
        · have second_shares : ∀ share ∈ second, Shares share := by
            intro share member
            rw [show second = _ from inserts] at member
            split at member
            · cases member
            · rw [List.mem_singleton.mp member]
              rfl
          rcases Program.Asks.exec_bind records with ⟨_, third, last, keys, debits, rfl⟩ | rfl
          · have third_shares : ∀ share ∈ third, Shares share := by
              rcases keys with rfl | ⟨_, rfl⟩
              · exact fun share member => (eventKeys_shares share member).1
              · simp
            refine ⟨second ++ third, last, by simp, ?_, ?_⟩
            · simpa [or_imp, forall_and] using ⟨second_shares, third_shares⟩
            · dsimp only at debits
              split at debits
              · rcases Program.Asks.exec_bind debits with ⟨_, fourth, none, quota, ⟨rfl, _⟩, rfl⟩ | rfl
                · rcases quota with rfl | rfl
                  · exact .inr ⟨claim.companyId, rfl⟩
                  · exact .inl rfl
                · exact .inl rfl
              · exact .inl debits.1
          · exact ⟨second, [], by simp, second_shares, .inl rfl⟩
        · exact ⟨[], [], rfl, by simp, .inl rfl⟩
    · exact .inl nothing

private theorem recordStale_shares {error : String} (stale : List StaleJob) :
    (Processor.recordStale error stale).AsksOnly Sql.Requests Shares := by
  induction stale with
  | nil => exact .ret _
  | cons job rest ih =>
    refine .bind (fun _ _ asks share member => (insertAuditEvent_shares _ _ asks share member).1) fun _ => ?_
    dsimp only
    split
    · exact .bind sendToDlq_shares fun _ => ih
    · exact ih

private theorem recoverStaleJobs_shaped (asks : Operation.recoverStaleJobs.Asks asked) :
    Shaped .recoverStaleJobs asked := by
  obtain ⟨result, asks⟩ := asks
  rcases asks_body asks with rfl | ⟨middle, asks⟩
  · exact ⟨[], [], rfl, .nil, by simp⟩
  · rcases Program.Asks.exec_bind asks with ⟨stale, first, rest, ⟨ids, distinct, _, rfl⟩, onward, rfl⟩ | rfl
    · exact ⟨ids, rest, rfl, distinct, Program.AsksOnly.bind (recordStale_shares stale) (fun _ => .ret _) rest _ onward⟩
    · exact ⟨[], [], rfl, .nil, by simp⟩

end Updates

section Create

variable {companyId : ℕ} {asked : List (LockRequest Resource)}

/-- The foreign keys of a company's own rows. -/
private abbrev OwnShares (companyId : ℕ) (share : LockRequest Resource) : Prop :=
  Shares share ∧ ∀ other, share.resource = .company other → other = companyId

private theorem replay_shares {existing : Existing} {kind : String} {P : LockRequest Resource → Prop} :
    (JobsService.replay existing kind).AsksOnly Sql.Requests P := by
  rw [JobsService.replay]
  split
  · exact .raise _
  · exact .ret _

private theorem requireRow_shares {α : Type} {row : Option α} {P : LockRequest Resource → Prop} :
    (JobsService.requireRow row).AsksOnly Sql.Requests P := by
  cases row with
  | none => exact .raise _
  | some row => exact .ret _

private theorem reads_shares {q : Sql} {P : LockRequest Resource → Prop}
    (reads : ∀ answer asked, Sql.Requests q answer asked → asked = []) : (exec q).AsksOnly Sql.Requests P :=
  fun asked result asks share member => (reads_nothing reads asked result asks share member).elim

private theorem insertJob_shares {kind : String} {traceId : Option String} {key : String}
    {submittedBy : Option String} :
    (JobsService.insertJob companyId kind traceId key submittedBy).AsksOnly Sql.Requests (OwnShares companyId) := by
  refine .bind (.exec fun inserted asked sends share member => ?_) fun row => ?_
  · rw [show asked = _ from sends] at member
    split at member
    · rw [List.mem_singleton.mp member]
      exact ⟨rfl, fun other same => (Resource.company.inj same).symm⟩
    · cases member
  · cases row with
    | none =>
      exact .bind (reads_shares fun _ _ => id) fun _ => .bind requireRow_shares fun winner =>
        .bind replay_shares fun _ => .ret _
    | some job =>
      cases submittedBy with
      | some actor => exact .bind insertAuditEvent_shares fun _ => .bind notify_shares fun _ => .ret _
      | none => exact .bind notify_shares fun _ => .ret _

private theorem createJob_shaped {kind : String} {traceId : Option String} {key : String}
    {submittedBy : Option String} (asks : (Operation.createJob companyId kind traceId key submittedBy).Asks asked) :
    Shaped (.createJob companyId kind traceId key submittedBy) asked := by
  obtain ⟨result, asks⟩ := asks
  rcases asks_body asks with nothing | ⟨middle, asks⟩
  · exact .inl nothing
  · obtain ⟨_, asks⟩ := asks_response asks
    rcases Program.Asks.exec_bind asks with ⟨existing, first, rest, reads, onward, rfl⟩ | nothing
    · rw [show first = [] from reads, List.nil_append]
      cases existing with
      | some existing =>
        have nothing := Program.AsksOnly.bind (P := fun _ => False) replay_shares
          (fun _ => .ret _) rest _ onward
        exact .inl (List.eq_nil_iff_forall_not_mem.mpr nothing)
      | none =>
        rcases Program.Asks.exec_bind onward with ⟨company, second, later, locks, onward', rfl⟩ | nothing
        · cases company with
          | none =>
            rw [show second = [] from locks, onward'.1]
            exact .inl rfl
          | some limit =>
            rw [show second = [request (.company companyId) .update] from locks]
            refine .inr ⟨later, rfl, ?_⟩
            refine Program.AsksOnly.bind (P := OwnShares companyId) (reads_shares fun _ _ => id)
              (fun existing => ?_) later _ onward'
            cases existing with
            | some existing => exact .bind replay_shares fun _ => .ret _
            | none =>
              refine .bind (reads_shares fun _ _ => id) fun running => ?_
              split
              · exact .raise _
              · exact insertJob_shares
        · exact .inl nothing
    · exact .inl nothing

end Create

/-- What a transaction asks for has the shape of its operation. -/
theorem Operation.shaped {operation : Operation} {asked : List (LockRequest Resource)} (asks : operation.Asks asked) :
    Shaped operation asked := by
  cases operation with
  | createJob => exact createJob_shaped asks
  | cancelJob => exact cancelJob_shaped asks
  | retryJob => exact retryJob_shaped asks
  | claimNext => exact claimNext_shaped asks
  | finalize => exact finalize_shaped asks
  | recordFailure => exact recordFailure_shaped asks
  | renewLease => exact renewLease_shaped asks
  | acknowledgeCancellation => exact acknowledgeCancellation_shaped asks
  | recoverStaleJobs => exact recoverStaleJobs_shaped asks

section Shapes

variable {operation : Operation} {asked : List (LockRequest Resource)} {made : LockRequest Resource}

theorem Shares.mode_ne {share : LockRequest Resource} (shares : Shares share) {mode : LockMode}
    (other : mode ≠ .keyShare) : share.mode ≠ mode := by
  rw [show share.mode = .keyShare from shares]
  exact other.symm

theorem mem_updates {ids : List ℕ} : made ∈ updates ids ↔ ∃ id ∈ ids, made = request (.job id) .noKeyUpdate := by
  simp [updates, eq_comm]

private theorem UpdatesOne.mode_ne (updates : UpdatesOne asked) (member : made ∈ asked) :
    made.mode = .keyShare ∨ made.mode = .noKeyUpdate := by
  rcases updates with rfl | ⟨jobId, shares, last, rfl, shared, ends⟩
  · cases member
  · rcases List.mem_cons.mp member with rfl | member
    · exact .inr rfl
    · rcases List.mem_append.mp member with inside | inside
      · exact .inl (shared _ inside)
      · rcases ends with rfl | ⟨companyId, rfl⟩
        · cases inside
        · rw [List.mem_singleton.mp inside]
          exact .inr rfl

/-- Only the claim and the lock of a company exclude everybody. -/
theorem update_mode (shaped : Shaped operation asked) (member : made ∈ asked) (mode : made.mode = .update) :
    (∃ workerId, operation = .claimNext workerId) ∨
      ∃ companyId kind traceId key submittedBy,
        operation = .createJob companyId kind traceId key submittedBy ∧ made.resource = .company companyId := by
  have one : UpdatesOne asked → False := by
    intro updates
    have either := updates.mode_ne member
    rw [mode] at either
    simp at either
  cases operation with
  | claimNext workerId => exact .inl ⟨workerId, rfl⟩
  | createJob companyId kind traceId key submittedBy =>
    rcases shaped with rfl | ⟨shares, rfl, shared⟩
    · cases member
    · rcases List.mem_cons.mp member with rfl | inside
      · exact .inr ⟨companyId, kind, traceId, key, submittedBy, rfl, rfl⟩
      · exact absurd mode ((shared _ inside).1.mode_ne (by decide))
  | recoverStaleJobs =>
    obtain ⟨ids, shares, rfl, _, shared⟩ := shaped
    rcases List.mem_append.mp member with inside | inside
    · obtain ⟨id, _, rfl⟩ := mem_updates.mp inside
      cases mode
    · exact absurd mode ((shared _ inside).mode_ne (by decide))
  | _ => exact (one shaped).elim

variable {granted rest : List (LockRequest Resource)}

/-- After its job a transaction only comes to share locks, and to a company that it debits last. -/
theorem UpdatesOne.next (updates : UpdatesOne (granted ++ made :: rest)) (begun : granted ≠ [])
    (mode : made.mode ≠ .keyShare) : (∃ companyId, made = request (.company companyId) .noKeyUpdate) ∧ rest = [] := by
  rcases updates with nothing | ⟨jobId, shares, last, whole, shared, ends⟩
  · simp at nothing
  · obtain ⟨first, more, rfl⟩ := List.exists_cons_of_ne_nil begun
    rw [List.cons_append, List.cons.injEq] at whole
    have split := whole.2
    rcases List.append_eq_append_iff.mp split with ⟨between, same, suffix⟩ | ⟨between, same, suffix⟩
    · cases between with
      | nil =>
        rw [List.nil_append] at suffix
        rcases ends with rfl | ⟨companyId, rfl⟩
        · cases suffix
        · rw [List.cons.injEq] at suffix
          exact ⟨⟨companyId, suffix.1⟩, suffix.2⟩
      | cons between more' =>
        rw [List.cons_append, List.cons.injEq] at suffix
        exact absurd (shared made (by rw [same, suffix.1]; simp)) mode
    · rcases ends with rfl | ⟨companyId, rfl⟩
      · simp at suffix
      · rw [List.singleton_eq_append_iff] at suffix
        rcases suffix with ⟨_, suffix⟩ | ⟨_, suffix⟩
        · rw [List.cons.injEq] at suffix
          exact ⟨⟨companyId, suffix.1⟩, suffix.2⟩
        · cases suffix

theorem mode_ne_share (shaped : Shaped operation asked) (member : made ∈ asked) : made.mode ≠ .share := by
  have one : UpdatesOne asked → made.mode ≠ .share := fun updates => by
    rcases updates.mode_ne member with same | same <;> simp [same]
  cases operation with
  | claimNext workerId =>
    rcases shaped with rfl | ⟨jobId, rest, rfl, onJob⟩
    · cases member
    · rcases List.mem_cons.mp member with rfl | inside
      · exact LockMode.noConfusion
      · rw [onJob made inside]
        exact LockMode.noConfusion
  | createJob companyId kind traceId key submittedBy =>
    rcases shaped with rfl | ⟨shares, rfl, shared⟩
    · cases member
    · rcases List.mem_cons.mp member with rfl | inside
      · exact LockMode.noConfusion
      · exact (shared _ inside).1.mode_ne (by decide)
  | recoverStaleJobs =>
    obtain ⟨ids, shares, rfl, _, shared⟩ := shaped
    rcases List.mem_append.mp member with inside | inside
    · obtain ⟨id, _, rfl⟩ := mem_updates.mp inside
      exact LockMode.noConfusion
    · exact (shared _ inside).mode_ne (by decide)
  | _ => exact one shaped

/-- A transaction that has debited a company makes no other request. -/
theorem debit_last (shaped : Shaped operation (granted ++ made :: rest)) {debit : LockRequest Resource}
    (member : debit ∈ granted) {companyId : ℕ} (resource : debit.resource = .company companyId) :
    debit.mode ≠ .noKeyUpdate := by
  intro mode
  have one : UpdatesOne (granted ++ made :: rest) → False := by
    intro updates
    obtain ⟨before, after, rfl⟩ := List.append_of_mem member
    cases before with
    | nil =>
      rcases updates with nothing | ⟨jobId, shares, last, whole, _⟩
      · simp at nothing
      · simp only [List.nil_append, List.cons_append, List.cons.injEq] at whole
        rw [whole.1] at resource
        cases resource
    | cons first before =>
      rw [List.append_assoc, List.cons_append] at updates
      have ended := (updates.next (List.cons_ne_nil _ _) (by rw [mode]; exact LockMode.noConfusion)).2
      simp at ended
  cases operation with
  | claimNext workerId =>
    rcases shaped with nothing | ⟨jobId, more, whole, onJob⟩
    · simp at nothing
    · have inside : debit ∈ ⟨.job jobId, .update, true⟩ :: more := whole ▸ List.mem_append_left _ member
      rcases List.mem_cons.mp inside with rfl | inside
      · cases mode
      · rw [onJob debit inside] at resource
        cases resource
  | createJob companyId kind traceId key submittedBy =>
    rcases shaped with nothing | ⟨shares, whole, shared⟩
    · simp at nothing
    · have inside : debit ∈ request (.company companyId) .update :: shares := whole ▸ List.mem_append_left _ member
      rcases List.mem_cons.mp inside with rfl | inside
      · cases mode
      · exact (shared _ inside).1.mode_ne (by decide) mode
  | recoverStaleJobs =>
    obtain ⟨ids, shares, whole, _, shared⟩ := shaped
    have inside : debit ∈ updates ids ++ shares := whole ▸ List.mem_append_left _ member
    rcases List.mem_append.mp inside with inside | inside
    · obtain ⟨id, _, rfl⟩ := mem_updates.mp inside
      cases resource
    · exact (shared _ inside).mode_ne (by decide) mode
  | _ => exact one shaped

end Shapes

section Answers

/-- The locks on rows of `companies` and `jobs`. -/
def rowLocks (locks : LockSet Resource) : LockSet Resource :=
  locks.filter fun held =>
    match held.1 with
    | .company _ | .job _ => true
    | _ => false

/-- The row that a statement inserts is locked before anybody else sees it. -/
def inserts : (q : Sql) → q.Answer → LockSet Resource
  | .insertJob .., inserted => inserted.toList.map fun job => (.job job.id, .update)
  | _, _ => []

variable {s after : Store} {tx next : Tx}

@[simp] private theorem rowLocks_append (first second : LockSet Resource) :
    rowLocks (first ++ second) = rowLocks first ++ rowLocks second := List.filter_append ..

@[simp] private theorem rowLocks_updates (ids : List ℕ) :
    rowLocks ((updates ids).map LockRequest.lock) = (updates ids).map LockRequest.lock := by
  induction ids with
  | nil => rfl
  | cons id ids ih => exact congrArg ((Resource.job id, LockMode.noKeyUpdate) :: ·) ih

private theorem updateJob_requests {jobId : ℕ} {condition : Job → Bool} {set : Job → Job} {row : Option Job}
    (ran : updateJob s tx jobId condition set = .ok (row, after, next)) :
    ∃ asked, UpdatesJob jobId row.isSome asked ∧
      rowLocks next.locks = rowLocks tx.locks ++ asked.map LockRequest.lock := by
  obtain ⟨_, ⟨rfl, rfl, _⟩ | ⟨row, _, _, rfl, rfl⟩⟩ := updateJob_ok ran
  · exact ⟨[], .inr ⟨rfl, rfl⟩, (List.append_nil _).symm⟩
  · exact ⟨_, .inl rfl, rowLocks_append ..⟩

/-- The row locks that a statement takes are those that it asks for. -/
theorem answer_requests {q : Sql} {others : List Tx} {choice : Choice} {answer : q.Answer}
    (ran : q.answer s others choice tx = .ok (answer, after, next)) :
    ∃ asked, q.Requests answer asked ∧
      rowLocks next.locks = rowLocks tx.locks ++ inserts q answer ++ asked.map LockRequest.lock := by
  cases q with
  | lockCompany companyId =>
    simp only [Sql.answer] at ran
    split at ran <;> cases ran
    · exact ⟨[], rfl, by simp [inserts]⟩
    · exact ⟨_, rfl, by simp [inserts, Tx.hold, rowLocks, request, LockRequest.lock]⟩
  | insertJob companyId kind traceId key =>
    obtain ⟨⟨row, _, _⟩, inner, same⟩ := map_ok ran
    cases same
    obtain ⟨_, ⟨rfl, rfl, _⟩ | ⟨_, _, _, rfl, rfl⟩⟩ := insertJobRow_ok inner
    · exact ⟨[], rfl, by simp [inserts]⟩
    · exact ⟨_, rfl, by simp [inserts, Tx.hold, Tx.add, rowLocks, request, LockRequest.lock, Job.new]⟩
  | insertAuditEvent jobId companyId eventType actor traceId ignoreConflict =>
    simp only [Sql.answer, insertAuditRow] at ran
    repeat' split at ran
    all_goals cases ran
    · next ignores => exact ⟨[], .inr ⟨ignores, rfl⟩, by simp [inserts]⟩
    · exact ⟨_, .inl rfl, by simp [inserts, Tx.hold, Tx.add, rowLocks, request, LockRequest.lock, eventKeys]⟩
  | insertResult jobId payload =>
    obtain ⟨_, ⟨rfl, rfl, _⟩ | ⟨rfl, _, rfl⟩⟩ := insertResultRow_ok ran
    · exact ⟨[], rfl, by simp [inserts]⟩
    · exact ⟨_, rfl, by simp [inserts, Tx.hold, Tx.add, rowLocks, request, LockRequest.lock]⟩
  | insertDeadLetter error jobId =>
    obtain ⟨_, _, rfl⟩ | ⟨job, _, _, ⟨rfl, _⟩ | rfl⟩ := insertDeadLetterRow_ok ran
    · exact ⟨[], .inr rfl, by simp [inserts]⟩
    · exact ⟨[], .inr rfl, by simp [inserts]⟩
    · exact ⟨_, .inl rfl, by simp [inserts, Tx.hold, Tx.add, rowLocks, request, LockRequest.lock]⟩
  | debitQuota companyId =>
    obtain ⟨_, ⟨_, rfl⟩ | ⟨company, _, rfl⟩⟩ := debitCompany_ok ran
    · exact ⟨[], .inr rfl, by simp [inserts]⟩
    · exact ⟨_, .inl rfl, by simp [inserts, Tx.hold, Tx.add, rowLocks, request, LockRequest.lock]⟩
  | recoverStale error leaseTimeout =>
    obtain ⟨⟨rows, _, _⟩, inner, same⟩ := map_ok ran
    cases same
    obtain ⟨_, failed, rfl⟩ := updateStale_ok inner
    have distinct : (rows.map Job.id).Nodup := by
      have kept := (tx.view s).jobs.unique.sublist ((List.filter_sublist (l := (tx.view s).jobs.rows)
        (p := fun job => job.leaseExpired leaseTimeout tx.now && decide (job.id ∈ choice.snapshot))).map Job.id)
      simpa [failed, staleJobs, Function.comp_def, Job.fail] using kept
    have locks : (rows.map fun job => (Resource.job job.id, LockMode.noKeyUpdate)) =
        (updates (rows.map Job.id)).map LockRequest.lock := by
      simp [updates, request, LockRequest.lock, Function.comp_def]
    refine ⟨_, ⟨rows.map Job.id, distinct, ?_, rfl⟩, by simp [inserts, locks]⟩
    simp only [List.mem_map, forall_exists_index, and_imp]
    rintro _ job member rfl
    exact ⟨job, member, rfl⟩
  | selectClaimable maxAttempts =>
    obtain ⟨⟨row, _, _⟩, inner, same⟩ := map_ok ran
    cases same
    obtain ⟨_, ⟨rfl, rfl, _⟩ | ⟨row, _, _, rfl, rfl⟩⟩ := lockClaimable_ok inner
    · exact ⟨[], rfl, by simp [inserts]⟩
    · exact ⟨_, rfl, by simp [inserts, Tx.hold, rowLocks, LockRequest.lock]⟩
  | releaseCancelled jobId workerId =>
    obtain ⟨⟨row, _, _⟩, inner, same⟩ := map_ok ran
    cases same
    obtain ⟨asked, asks, locks⟩ := updateJob_requests inner
    refine ⟨asked, ?_, by simpa [inserts] using locks⟩
    exact asks.imp_right fun none => ⟨rfl, none.2⟩
  | cancelJob | retryJob | claimJob | finishJob | failJob | renewLease =>
    obtain ⟨⟨row, _, _⟩, inner, same⟩ := map_ok ran
    cases same
    obtain ⟨asked, asks, locks⟩ := updateJob_requests inner
    exact ⟨asked, by simpa [Sql.Requests] using asks, by simpa [inserts] using locks⟩
  | _ =>
    cases ran
    exact ⟨[], rfl, by simp [inserts, Tx.add]⟩

end Answers

end JobRelay.Soundness
