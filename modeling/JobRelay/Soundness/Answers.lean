import JobRelay.Soundness.Invariant

/-! # What each statement answers

One lemma per kind of statement says what a successful answer means: the rows it found, the locks it
took and the writes it buffered. From these, no statement changes the committed rows, and every
statement leaves the transaction entitled to its writes.
-/

namespace JobRelay.Model

open Sessions

variable {s s' : Store} {tx tx' : Tx}

/-- A statement moves nothing but a sequence. -/
inductive Drawn (s : Store) : Store → Prop
  | none : Drawn s s
  | job : Drawn s { s with jobs := s.jobs.draw }
  | event : Drawn s { s with audits := s.audits.draw }
  | deadLetter : Drawn s { s with deadLetters := s.deadLetters.draw }

theorem Drawn.agree (drawn : Drawn s s') (locks : LockSet Resource) : Agree locks s s' := by
  cases drawn with
  | none => exact .refl locks s
  | job =>
    exact ⟨fun _ _ => rfl, fun _ _ => rfl, fun _ _ => rfl, fun _ _ => rfl, fun _ _ => rfl,
      Nat.le_succ _, le_rfl, le_rfl⟩
  | event =>
    exact ⟨fun _ _ => rfl, fun _ _ => rfl, fun _ _ => rfl, fun _ _ => rfl, fun _ _ => rfl, le_rfl,
      Nat.le_succ _, le_rfl⟩
  | deadLetter =>
    exact ⟨fun _ _ => rfl, fun _ _ => rfl, fun _ _ => rfl, fun _ _ => rfl, fun _ _ => rfl, le_rfl, le_rfl,
      Nat.le_succ _⟩

namespace Tx

@[simp] theorem view_hold (tx : Tx) (resource : Resource) (mode : LockMode) (s : Store) :
    (tx.hold resource mode).view s = tx.view s := rfl

@[simp] theorem view_add (tx : Tx) (write : Write) (s : Store) :
    (tx.add write).view s = write.apply (tx.view s) := by
  rw [view, add, List.foldl_append]
  rfl

theorem mem_hold (tx : Tx) (resource : Resource) (mode : LockMode) :
    (resource, mode) ∈ (tx.hold resource mode).locks :=
  List.mem_append.mpr (.inr (List.mem_singleton_self _))

theorem hold_sub (tx : Tx) (resource : Resource) (mode : LockMode) :
    tx.locks ⊆ (tx.hold resource mode).locks := List.subset_append_left _ _

@[simp] theorem add_locks (tx : Tx) (write : Write) : (tx.add write).locks = tx.locks := rfl
@[simp] theorem hold_writes (tx : Tx) (resource : Resource) (mode : LockMode) :
    (tx.hold resource mode).writes = tx.writes := rfl
@[simp] theorem add_writes (tx : Tx) (write : Write) : (tx.add write).writes = tx.writes ++ [write] := rfl
@[simp] theorem hold_now (tx : Tx) (resource : Resource) (mode : LockMode) :
    (tx.hold resource mode).now = tx.now := rfl
@[simp] theorem add_now (tx : Tx) (write : Write) : (tx.add write).now = tx.now := rfl

end Tx

/-- Every write an open transaction has buffered is one it is entitled to. -/
def Tx.Open (tx : Tx) (s : Store) : Prop := Entitled tx.locks s tx.writes

namespace Tx.Open

theorem hold (opened : tx.Open s) (resource : Resource) (mode : LockMode) :
    (tx.hold resource mode).Open s := opened.mono (tx.hold_sub resource mode)

theorem add (opened : tx.Open s) {write : Write} (entitled : write.Entitled tx.locks (tx.view s)) :
    (tx.add write).Open s := Entitled.append_singleton.mpr ⟨opened, entitled⟩

theorem drawn (opened : tx.Open s) (drawn : Drawn s s') : tx.Open s' := opened.agree (drawn.agree _)

theorem view_job? (opened : tx.Open s) (drawn : Drawn s s') (jobId : ℕ) :
    (tx.view s').job? jobId = (tx.view s).job? jobId := by
  rw [Tx.view, Entitled.job? (opened.drawn drawn), Tx.view, Entitled.job? opened]
  cases drawn <;> rfl

theorem view_audits (opened : tx.Open s) (drawn : Drawn s s') :
    (tx.view s').audits.rows = (tx.view s).audits.rows := by
  rw [Tx.view, Entitled.audits (opened.drawn drawn), Tx.view, Entitled.audits opened]
  cases drawn <;> rfl

theorem view_deadLetters (opened : tx.Open s) (drawn : Drawn s s') :
    (tx.view s').deadLetters.rows = (tx.view s).deadLetters.rows := by
  rw [Tx.view, Entitled.deadLetters (opened.drawn drawn), Tx.view, Entitled.deadLetters opened]
  cases drawn <;> rfl

end Tx.Open

theorem updateJob_ok {jobId : ℕ} {condition : Job → Bool} {set : Job → Job} {found : Option Job}
    (ran : updateJob s tx jobId condition set = .ok (found, s', tx')) :
    s' = s ∧
    ((found = none ∧ tx' = tx ∧ ∀ row, (tx.view s).job? jobId = some row → condition row = false) ∨
     ∃ row, (tx.view s).job? jobId = some row ∧ condition row = true ∧ found = some (set row) ∧
      tx' = (tx.hold (.job jobId) .noKeyUpdate).add (.putJob (set row))) := by
  unfold updateJob at ran
  split at ran
  · next absent =>
    cases ran
    refine ⟨rfl, .inl ⟨rfl, rfl, fun row stored => ?_⟩⟩
    rw [absent] at stored
    cases stored
  · next row stored =>
    split at ran
    · next holds =>
      split at ran
      · cases ran
        exact ⟨rfl, .inr ⟨row, stored, holds, rfl, rfl⟩⟩
      · cases ran
    · next fails =>
      cases ran
      refine ⟨rfl, .inl ⟨rfl, rfl, fun other stored' => ?_⟩⟩
      rw [stored] at stored'
      cases stored'
      exact Bool.not_eq_true _ ▸ fails

theorem lockClaimable_ok {others : List Tx} {maxAttempts : ℕ} {found : Option Job}
    (ran : lockClaimable s tx others maxAttempts = .ok (found, s', tx')) :
    s' = s ∧
    ((found = none ∧ tx' = tx ∧ ∀ row ∈ (tx.view s).jobs.rows, row.claimable maxAttempts tx.now = true →
        ∃ other ∈ others, other.blocks (.job row.id) .update = true) ∨
     ∃ row, (tx.view s).job? row.id = some row ∧ row.claimable maxAttempts tx.now = true ∧
      found = some row ∧ tx' = tx.hold (.job row.id) .update) := by
  simp only [lockClaimable] at ran
  split at ran
  · next absent =>
    cases ran
    refine ⟨rfl, .inl ⟨rfl, rfl, fun row member claimable => ?_⟩⟩
    by_contra free
    have blocked : ∀ other ∈ others, other.blocks (.job row.id) .update = false := fun other inside => by
      by_contra blocks
      exact free ⟨other, inside, Bool.not_eq_false _ ▸ blocks⟩
    have candidate : row ∈ (tx.view s).jobs.rows.filter fun job =>
        job.claimable maxAttempts tx.now && !others.any fun other => other.blocks (.job job.id) .update := by
      rw [List.mem_filter, claimable, Bool.true_and, Bool.not_eq_true', List.any_eq_false]
      exact ⟨member, fun other inside => by rw [blocked other inside]; decide⟩
    have some := List.isSome_minOn?_of_mem (f := Job.id) candidate
    rw [absent] at some
    cases some
  · next row picked =>
    cases ran
    have candidate := List.mem_filter.mp (List.minOn?_mem picked)
    rw [Bool.and_eq_true] at candidate
    exact ⟨rfl, .inr ⟨row, Store.mem_jobs.mp candidate.1, candidate.2.1, rfl, rfl⟩⟩

/-- The jobs that a recovery update fails. -/
def staleJobs (s : Store) (tx : Tx) (leaseTimeout : Micros) (snapshot : List ℕ) : List Job :=
  (tx.view s).jobs.rows.filter fun job =>
    job.leaseExpired leaseTimeout tx.now && decide (job.id ∈ snapshot)

theorem updateStale_ok {error : String} {leaseTimeout : Micros} {snapshot : List ℕ} {found : List Job}
    (ran : updateStale s tx error leaseTimeout snapshot = .ok (found, s', tx')) :
    s' = s ∧ found = (staleJobs s tx leaseTimeout snapshot).map (fun job => job.fail error tx.now) ∧
      tx' = ⟨tx.now, tx.writes ++ found.map Write.putJob,
        tx.locks ++ found.map fun job => (Resource.job job.id, LockMode.noKeyUpdate)⟩ := by
  simp only [updateStale] at ran
  split at ran
  · cases ran
    exact ⟨rfl, rfl, rfl⟩
  · cases ran

theorem insertJobRow_ok {companyId : ℕ} {kind : String} {traceId : Option String} {key : String}
    {found : Option Job} (ran : insertJobRow s tx companyId kind traceId key = .ok (found, s', tx')) :
    s' = { s with jobs := s.jobs.draw } ∧
    ((found = none ∧ tx' = tx ∧ ((tx.view s).jobByKey? companyId key).isSome) ∨
     (serialRange s.jobs.next = true ∧ (tx.view s).jobByKey? companyId key = none ∧
      ((tx.view s).company? companyId).isSome ∧ found = some (.new s.jobs.next companyId kind traceId key tx.now) ∧
      tx' = (((tx.hold (.job s.jobs.next) .update).hold (.jobKey companyId key) .update).hold
        (.company companyId) .keyShare).add
          (.insertJob (.new s.jobs.next companyId kind traceId key tx.now)))) := by
  simp only [insertJobRow] at ran
  split at ran
  · next range =>
    split at ran
    · split at ran
      · next taken =>
        cases ran
        exact ⟨rfl, .inl ⟨rfl, rfl, taken⟩⟩
      · next free =>
        split at ran
        · cases ran
        · next owned =>
          cases ran
          rw [Bool.not_eq_true, Option.isNone_eq_false_iff] at owned
          exact ⟨rfl, .inr ⟨range, Option.not_isSome_iff_eq_none.mp free, owned, rfl, rfl⟩⟩
    · cases ran
  · cases ran

/-- The event that an insertion into the audit trail makes. -/
def newEvent (s : Store) (tx : Tx) (jobId companyId : ℕ) (eventType : EventType) (actor : String)
    (traceId : Option String) : AuditEvent :=
  { id := s.audits.next, jobId, companyId, eventType, actor, occurredAt := tx.now, traceId }

theorem insertAuditRow_ok {jobId companyId : ℕ} {eventType : EventType} {actor : String}
    {traceId : Option String} {ignoreConflict : Bool} {done : Unit}
    (ran : insertAuditRow s tx jobId companyId eventType actor traceId ignoreConflict =
      .ok (done, s', tx')) :
    s' = { s with audits := s.audits.draw } ∧
    ((tx' = tx ∧ eventType.unique = true ∧
        ∃ other ∈ (tx.view s).eventsOf jobId, other.eventType = eventType) ∨
     tx' = ((((tx.hold (.event s.audits.next) .update).hold (.eventOf jobId eventType) .update).hold
        (.job jobId) .keyShare).hold (.company companyId) .keyShare).add
          (.insertAudit (newEvent s tx jobId companyId eventType actor traceId))) := by
  simp only [insertAuditRow] at ran
  split at ran
  · split at ran
    · next taken =>
      split at ran
      · cases ran
        rw [Bool.and_eq_true, List.any_eq_true] at taken
        obtain ⟨unique, other, member, same⟩ := taken
        have same := of_decide_eq_true same
        refine ⟨rfl, .inl ⟨rfl, unique, other, ?_, same.2⟩⟩
        exact List.mem_filter.mpr ⟨member, decide_eq_true same.1⟩
      · cases ran
    · split at ran
      · cases ran
      · cases ran
        exact ⟨rfl, .inr rfl⟩
  · cases ran

theorem insertResultRow_ok {jobId : ℕ} {payload : String} {count : ℕ}
    (ran : insertResultRow s tx jobId payload = .ok (count, s', tx')) :
    s' = s ∧
    ((count = 0 ∧ tx' = tx ∧ ((tx.view s).results.find? jobId).isSome) ∨
     (count = 1 ∧ (tx.view s).results.find? jobId = none ∧
      tx' = ((tx.hold (.resultOf jobId) .update).hold (.job jobId) .keyShare).add
        (.insertResult ⟨jobId, payload⟩))) := by
  simp only [insertResultRow] at ran
  split at ran
  · split at ran
    · next taken =>
      cases ran
      exact ⟨rfl, .inl ⟨rfl, rfl, taken⟩⟩
    · next free =>
      split at ran
      · cases ran
      · cases ran
        exact ⟨rfl, .inr ⟨rfl, Option.not_isSome_iff_eq_none.mp free, rfl⟩⟩
  · cases ran

/-- The entry that an insertion into the dead-letter queue makes. -/
def newEntry (s : Store) (tx : Tx) (error : String) (job : Job) : DeadLetter :=
  { id := s.deadLetters.next, jobId := some job.id, companyId := job.companyId, kind := job.kind,
    attempts := job.attempts, lastError := some error, traceId := job.traceId,
    jobCreatedAt := some job.createdAt, failedAt := tx.now }

theorem insertDeadLetterRow_ok {error : String} {jobId : ℕ} {done : Unit}
    (ran : insertDeadLetterRow s tx error jobId = .ok (done, s', tx')) :
    ((tx.view s).job? jobId = none ∧ s' = s ∧ tx' = tx) ∨
    ∃ job, (tx.view s).job? jobId = some job ∧ s' = { s with deadLetters := s.deadLetters.draw } ∧
      ((tx' = tx ∧ (tx.view s).entriesOf jobId ≠ []) ∨
       tx' = (((tx.hold (.deadLetter s.deadLetters.next) .update).hold (.deadLetterOf jobId) .update).hold
        (.job jobId) .keyShare).add (.insertDeadLetter (newEntry s tx error job))) := by
  simp only [insertDeadLetterRow] at ran
  split at ran
  · next absent =>
    cases ran
    exact .inl ⟨absent, rfl, rfl⟩
  · next job stored =>
    split at ran
    · split at ran
      · next taken =>
        cases ran
        obtain ⟨other, member, same⟩ := List.any_eq_true.mp taken
        refine .inr ⟨job, stored, rfl, .inl ⟨rfl, fun none => ?_⟩⟩
        have inside : other ∈ (tx.view s).entriesOf jobId := List.mem_filter.mpr ⟨member, same⟩
        rw [none] at inside
        cases inside
      · cases ran
        exact .inr ⟨job, stored, rfl, .inr rfl⟩
    · cases ran

theorem debitCompany_ok {companyId : ℕ} {done : Unit}
    (ran : debitCompany s tx companyId = .ok (done, s', tx')) :
    s' = s ∧
    (((tx.view s).company? companyId = none ∧ tx' = tx) ∨
     ∃ company, (tx.view s).company? companyId = some company ∧
      tx' = (tx.hold (.company companyId) .noKeyUpdate).add
        (.putCompany { company with jobQuota := company.jobQuota - 1 })) := by
  simp only [debitCompany] at ran
  split at ran
  · next absent =>
    cases ran
    exact ⟨rfl, .inl ⟨absent, rfl⟩⟩
  · next company stored =>
    split at ran
    · cases ran
      exact ⟨rfl, .inr ⟨company, stored, rfl⟩⟩
    · cases ran

/-- What every statement leaves: the committed rows, and the transaction with more locks and writes. -/
structure Keeps (s : Store) (tx : Tx) (s' : Store) (tx' : Tx) : Prop where
  drawn : Drawn s s'
  opened : tx.Open s → tx'.Open s'
  locks : tx.locks ⊆ tx'.locks
  now : tx'.now = tx.now

theorem Keeps.refl (s : Store) (tx : Tx) : Keeps s tx s tx := ⟨.none, id, List.Subset.refl _, rfl⟩

theorem updateJob_keeps {jobId : ℕ} {condition : Job → Bool} {set : Job → Job} {found : Option Job}
    (ran : updateJob s tx jobId condition set = .ok (found, s', tx')) (kept : ∀ row, (set row).id = row.id) :
    Keeps s tx s' tx' := by
  obtain ⟨rfl, ⟨_, rfl, _⟩ | ⟨row, stored, _, _, rfl⟩⟩ := updateJob_ok ran
  · exact .refl s' tx'
  · refine ⟨.none, fun opened => (opened.hold _ _).add ?_, tx.hold_sub _ _, rfl⟩
    have id : (set row).id = jobId := (kept row).trans (Store.job?_id stored)
    refine ⟨⟨.noKeyUpdate, ?_, rfl⟩, ?_⟩
    · rw [id]
      exact tx.mem_hold _ _
    · rw [id, Tx.view_hold, stored]
      rfl

theorem lockClaimable_keeps {others : List Tx} {maxAttempts : ℕ} {found : Option Job}
    (ran : lockClaimable s tx others maxAttempts = .ok (found, s', tx')) : Keeps s tx s' tx' := by
  obtain ⟨rfl, ⟨_, rfl, _⟩ | ⟨row, _, _, _, rfl⟩⟩ := lockClaimable_ok ran
  · exact .refl s' tx'
  · exact ⟨.none, fun opened => opened.hold _ _, tx.hold_sub _ _, rfl⟩

/-- Writes of rows that are locked and present are entitled one after the other. -/
private theorem entitled_puts {locks : LockSet Resource} {rows : List Job} {s : Store}
    (held : ∀ row ∈ rows, locks.Exclusive (.job row.id)) (stored : ∀ row ∈ rows, (s.job? row.id).isSome) :
    Entitled locks s (rows.map Write.putJob) := by
  induction rows generalizing s with
  | nil => trivial
  | cons row rest ih =>
    have first : (Write.putJob row).Entitled locks s :=
      ⟨held row List.mem_cons_self, stored row List.mem_cons_self⟩
    refine ⟨first, ih (fun other member => held other (List.mem_cons_of_mem _ member)) ?_⟩
    intro other member
    rw [Write.apply_job? first, Option.isSome_or, stored other (List.mem_cons_of_mem _ member),
      Bool.or_true]

theorem updateStale_keeps {error : String} {leaseTimeout : Micros} {snapshot : List ℕ} {found : List Job}
    (ran : updateStale s tx error leaseTimeout snapshot = .ok (found, s', tx')) : Keeps s tx s' tx' := by
  obtain ⟨rfl, rfl, rfl⟩ := updateStale_ok ran
  refine ⟨.none, fun opened => ?_, List.subset_append_left _ _, rfl⟩
  refine Entitled.append.mpr ⟨opened.mono (List.subset_append_left _ _), entitled_puts ?_ ?_⟩
  · intro row member
    exact ⟨.noKeyUpdate, List.mem_append.mpr (.inr (List.mem_map_of_mem member)), rfl⟩
  · intro row member
    obtain ⟨job, stale, rfl⟩ := List.mem_map.mp member
    have stored := Store.mem_jobs.mp (List.mem_filter.mp stale).1
    exact Option.isSome_iff_exists.mpr ⟨job, stored⟩

theorem insertJobRow_keeps {companyId : ℕ} {kind : String} {traceId : Option String} {key : String}
    {found : Option Job} (ran : insertJobRow s tx companyId kind traceId key = .ok (found, s', tx')) :
    Keeps s tx s' tx' := by
  obtain ⟨rfl, ⟨_, rfl, _⟩ | ⟨_, _, _, _, rfl⟩⟩ := insertJobRow_ok ran
  · exact ⟨.job, fun opened => opened.drawn .job, List.Subset.refl _, rfl⟩
  · refine ⟨.job, fun opened => ?_, ?_, rfl⟩
    · refine (((opened.drawn .job).hold _ _).hold _ _ |>.hold _ _).add ?_
      refine ⟨.of_update ?_, ?_, ?_, Tx.mem_hold _ _ _⟩
      · exact Tx.hold_sub _ _ _ (Tx.hold_sub _ _ _ (Tx.mem_hold _ _ _))
      · simp [Job.new, Tx.view]
      · refine (opened.view_job? .job _).trans (SerialTable.find?_of_next_le ?_)
        rw [Tx.view, foldl_jobs_next]
        exact le_rfl
    · exact fun lock member => Tx.hold_sub _ _ _ (Tx.hold_sub _ _ _ (Tx.hold_sub _ _ _ member))

theorem insertAuditRow_keeps {jobId companyId : ℕ} {eventType : EventType} {actor : String}
    {traceId : Option String} {ignoreConflict : Bool} {done : Unit}
    (ran : insertAuditRow s tx jobId companyId eventType actor traceId ignoreConflict =
      .ok (done, s', tx')) : Keeps s tx s' tx' := by
  obtain ⟨rfl, ⟨rfl, _⟩ | rfl⟩ := insertAuditRow_ok ran
  · exact ⟨.event, fun opened => opened.drawn .event, List.Subset.refl _, rfl⟩
  · refine ⟨.event, fun opened => ?_, ?_, rfl⟩
    · refine ((((opened.drawn .event).hold _ _).hold _ _ |>.hold _ _).hold _ _).add ?_
      refine ⟨.of_update ?_, ?_, ?_, Tx.mem_hold _ _ _⟩
      · exact Tx.hold_sub _ _ _ (Tx.hold_sub _ _ _ (Tx.hold_sub _ _ _ (Tx.mem_hold _ _ _)))
      · simp [newEvent, Tx.view]
      · have absent : (tx.view s).audits.toTable.find? s.audits.next = none := by
          refine SerialTable.find?_of_next_le ?_
          rw [Tx.view, foldl_audits_next]
        rw [Table.find?_eq_none] at absent ⊢
        intro row member
        exact absent row (opened.view_audits .event ▸ member)
    · exact fun lock member =>
        Tx.hold_sub _ _ _ (Tx.hold_sub _ _ _ (Tx.hold_sub _ _ _ (Tx.hold_sub _ _ _ member)))

theorem insertResultRow_keeps {jobId : ℕ} {payload : String} {count : ℕ}
    (ran : insertResultRow s tx jobId payload = .ok (count, s', tx')) : Keeps s tx s' tx' := by
  obtain ⟨rfl, ⟨_, rfl, _⟩ | ⟨_, absent, rfl⟩⟩ := insertResultRow_ok ran
  · exact .refl s' tx'
  · refine ⟨.none, fun opened => ((opened.hold _ _).hold _ _).add ?_, ?_, rfl⟩
    · exact ⟨.of_update (Tx.hold_sub _ _ _ (Tx.mem_hold _ _ _)), absent⟩
    · exact fun lock member => Tx.hold_sub _ _ _ (Tx.hold_sub _ _ _ member)

theorem insertDeadLetterRow_keeps {error : String} {jobId : ℕ} {done : Unit}
    (ran : insertDeadLetterRow s tx error jobId = .ok (done, s', tx')) : Keeps s tx s' tx' := by
  obtain ⟨_, rfl, rfl⟩ | ⟨job, _, rfl, ⟨rfl, _⟩ | rfl⟩ := insertDeadLetterRow_ok ran
  · exact .refl s' tx'
  · exact ⟨.deadLetter, fun opened => opened.drawn .deadLetter, List.Subset.refl _, rfl⟩
  · refine ⟨.deadLetter, fun opened => ?_, ?_, rfl⟩
    · refine (((opened.drawn .deadLetter).hold _ _).hold _ _ |>.hold _ _).add ?_
      refine ⟨.of_update ?_, ?_, ?_⟩
      · exact Tx.hold_sub _ _ _ (Tx.hold_sub _ _ _ (Tx.mem_hold _ _ _))
      · simp [newEntry, Tx.view]
      · have absent : (tx.view s).deadLetters.toTable.find? s.deadLetters.next = none := by
          refine SerialTable.find?_of_next_le ?_
          rw [Tx.view, foldl_deadLetters_next]
        rw [Table.find?_eq_none] at absent ⊢
        intro row member
        exact absent row (opened.view_deadLetters .deadLetter ▸ member)
    · exact fun lock member => Tx.hold_sub _ _ _ (Tx.hold_sub _ _ _ (Tx.hold_sub _ _ _ member))

theorem debitCompany_keeps {companyId : ℕ} {done : Unit}
    (ran : debitCompany s tx companyId = .ok (done, s', tx')) : Keeps s tx s' tx' := by
  obtain ⟨rfl, ⟨_, rfl⟩ | ⟨company, stored, rfl⟩⟩ := debitCompany_ok ran
  · exact .refl s' tx'
  · refine ⟨.none, fun opened => (opened.hold _ _).add ?_, tx.hold_sub _ _, rfl⟩
    have id : company.id = companyId := Table.find?_key stored
    refine ⟨⟨.noKeyUpdate, ?_, rfl⟩, ?_⟩
    · rw [id]
      exact tx.mem_hold _ _
    · rw [id, Tx.view_hold, stored]
      rfl

theorem map_ok {α β : Type} {f : α × Store × Tx → β × Store × Tx} {outcome : Outcome α}
    {answer : β × Store × Tx} (ran : outcome.map f = .ok answer) :
    ∃ found, outcome = .ok found ∧ f found = answer := by
  cases outcome with
  | error error => cases ran
  | ok found => exact ⟨found, rfl, Except.ok.inj ran⟩

/-- Every statement keeps the committed rows, the locks, and the entitlement of the transaction. -/
theorem answer_keeps {q : Sql} {others : List Tx} {choice : Choice} {answer : q.Answer}
    (ran : q.answer s others choice tx = .ok (answer, s', tx')) : Keeps s tx s' tx' := by
  cases q with
  | lockCompany companyId =>
    simp only [Sql.answer] at ran
    split at ran <;> cases ran
    · exact .refl _ _
    · exact ⟨.none, fun opened => opened.hold _ _, tx.hold_sub _ _, rfl⟩
  | notify channel payload =>
    cases ran
    exact ⟨.none, fun opened => opened.add trivial, List.Subset.refl _, rfl⟩
  | insertJob companyId kind traceId key =>
    obtain ⟨⟨found, _, _⟩, inner, same⟩ := map_ok ran
    cases same
    exact insertJobRow_keeps inner
  | insertAuditEvent jobId companyId eventType actor traceId ignoreConflict =>
    exact insertAuditRow_keeps ran
  | insertResult jobId payload => exact insertResultRow_keeps ran
  | insertDeadLetter error jobId => exact insertDeadLetterRow_keeps ran
  | debitQuota companyId => exact debitCompany_keeps ran
  | recoverStale error leaseTimeout =>
    obtain ⟨⟨found, _, _⟩, inner, same⟩ := map_ok ran
    cases same
    exact updateStale_keeps inner
  | selectClaimable maxAttempts =>
    obtain ⟨⟨found, _, _⟩, inner, same⟩ := map_ok ran
    cases same
    exact lockClaimable_keeps inner
  | cancelJob | retryJob | claimJob | finishJob | releaseCancelled | failJob | renewLease =>
    obtain ⟨⟨found, _, _⟩, inner, same⟩ := map_ok ran
    cases same
    exact updateJob_keeps inner fun _ => rfl
  | _ => cases ran; exact .refl _ _

section Failures

variable {error : Exc}

private theorem map_error {α β : Type} {f : α × Store × Tx → β × Store × Tx} {outcome : Outcome α}
    (failed : outcome.map f = .error error) : outcome = .error error := by
  cases outcome with
  | error other => exact congrArg Except.error (Except.error.inj failed)
  | ok found => cases failed

private theorem updateJob_fails {jobId : ℕ} {condition : Job → Bool} {set : Job → Job}
    (failed : updateJob s tx jobId condition set = .error error) : error.fromDatabase = true := by
  unfold updateJob at failed
  split at failed
  · cases failed
  · split at failed
    · split at failed <;> cases failed
      rfl
    · cases failed

private theorem insertJobRow_fails {companyId : ℕ} {kind : String} {traceId : Option String} {key : String}
    (failed : insertJobRow s tx companyId kind traceId key = .error error) : error.fromDatabase = true := by
  simp only [insertJobRow] at failed
  split at failed
  · split at failed
    · split at failed
      · cases failed
      · split at failed <;> cases failed
        rfl
    · cases failed
      rfl
  · cases failed
    rfl

private theorem insertAuditRow_fails {jobId companyId : ℕ} {eventType : EventType} {actor : String}
    {traceId : Option String} {ignoreConflict : Bool}
    (failed : insertAuditRow s tx jobId companyId eventType actor traceId ignoreConflict = .error error) :
    error.fromDatabase = true := by
  simp only [insertAuditRow] at failed
  split at failed
  · split at failed
    · split at failed <;> cases failed
      rfl
    · split at failed <;> cases failed
      rfl
  · cases failed
    rfl

private theorem insertResultRow_fails {jobId : ℕ} {payload : String}
    (failed : insertResultRow s tx jobId payload = .error error) : error.fromDatabase = true := by
  simp only [insertResultRow] at failed
  split at failed
  · split at failed
    · cases failed
    · split at failed <;> cases failed
      rfl
  · cases failed
    rfl

private theorem insertDeadLetterRow_fails {text : String} {jobId : ℕ}
    (failed : insertDeadLetterRow s tx text jobId = .error error) : error.fromDatabase = true := by
  simp only [insertDeadLetterRow] at failed
  split at failed
  · cases failed
  · split at failed
    · split at failed <;> cases failed
    · cases failed
      rfl

/-- A statement fails only with an error of the database. -/
theorem answer_fails {q : Sql} {others : List Tx} {choice : Choice}
    (failed : q.answer s others choice tx = .error error) : error.fromDatabase = true := by
  cases q with
  | lockCompany companyId =>
    simp only [Sql.answer] at failed
    split at failed <;> cases failed
  | insertJob companyId kind traceId key => exact insertJobRow_fails (map_error failed)
  | insertAuditEvent jobId companyId eventType actor traceId ignoreConflict =>
    exact insertAuditRow_fails failed
  | insertResult jobId payload => exact insertResultRow_fails failed
  | insertDeadLetter text jobId => exact insertDeadLetterRow_fails failed
  | debitQuota companyId =>
    simp only [Sql.answer, debitCompany] at failed
    split at failed
    · cases failed
    · split at failed <;> cases failed
      rfl
  | recoverStale text leaseTimeout =>
    have inner := map_error failed
    simp only [updateStale] at inner
    split at inner <;> cases inner
    rfl
  | selectClaimable maxAttempts =>
    have inner := map_error failed
    simp only [lockClaimable] at inner
    split at inner <;> cases inner
  | cancelJob | retryJob | claimJob | finishJob | releaseCancelled | failJob | renewLease =>
    exact updateJob_fails (map_error failed)
  | _ => cases failed

end Failures

end JobRelay.Model
