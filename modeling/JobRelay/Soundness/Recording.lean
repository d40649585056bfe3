import JobRelay.Soundness.Deployment

/-! # When events are recorded

An event carries the time at which its transaction began and the id that the sequence of events drew when
it was inserted. It is inserted under the lock of its job, so the events of one job are committed in the
order of their ids.
-/

namespace JobRelay.Soundness

open Model Sessions

variable {admits : Request → Bool} {start world next : Service} {s s' : Store} {tx opened : Tx}

/-- The events that an open transaction has inserted. -/
def inserted (tx : Tx) : List AuditEvent := tx.writes.filterMap Write.audit?

@[simp] theorem inserted_hold (resource : Resource) (mode : LockMode) :
    inserted (tx.hold resource mode) = inserted tx := rfl

@[simp] theorem inserted_add (write : Write) : inserted (tx.add write) = inserted tx ++ write.audit?.toList := by
  rw [inserted, Tx.add_writes, List.filterMap_append]
  cases wrote : write.audit? <;> simp [wrote, inserted]

/-- A statement inserts no event, or the one that it is about. -/
private theorem answer_inserted {q : Sql} {others : List Tx} {choice : Choice} {answer : q.Answer}
    (ran : q.answer s others choice tx = .ok (answer, s', opened)) : inserted opened = inserted tx ∨
    ∃ jobId companyId eventType actor traceId ignoreConflict,
      q = .insertAuditEvent jobId companyId eventType actor traceId ignoreConflict ∧
      s'.audits.next = s.audits.next + 1 ∧
      inserted opened = inserted tx ++ [newEvent s tx jobId companyId eventType actor traceId] := by
  cases q with
  | lockCompany companyId =>
    simp only [Sql.answer] at ran
    split at ran <;> cases ran <;> exact .inl rfl
  | notify channel payload =>
    cases ran
    exact .inl (by simp [Write.audit?])
  | insertJob companyId kind traceId key =>
    obtain ⟨⟨found, _, _⟩, inner, same⟩ := map_ok ran
    cases same
    obtain ⟨_, ⟨_, rfl, _⟩ | ⟨_, _, _, _, rfl⟩⟩ := insertJobRow_ok inner
    · exact .inl rfl
    · exact .inl (by simp [Write.audit?])
  | insertAuditEvent jobId companyId eventType actor traceId ignoreConflict =>
    obtain ⟨rfl, ⟨rfl, _⟩ | rfl⟩ := insertAuditRow_ok ran
    · exact .inl rfl
    · exact .inr ⟨_, _, _, _, _, _, rfl, rfl, by simp [Write.audit?]⟩
  | insertResult jobId payload =>
    obtain ⟨_, ⟨_, rfl, _⟩ | ⟨_, _, rfl⟩⟩ := insertResultRow_ok ran
    · exact .inl rfl
    · exact .inl (by simp [Write.audit?])
  | insertDeadLetter error jobId =>
    obtain ⟨_, _, rfl⟩ | ⟨job, _, _, ⟨rfl, _⟩ | rfl⟩ := insertDeadLetterRow_ok ran
    · exact .inl rfl
    · exact .inl rfl
    · exact .inl (by simp [Write.audit?])
  | debitQuota companyId =>
    obtain ⟨_, ⟨_, rfl⟩ | ⟨company, _, rfl⟩⟩ := debitCompany_ok ran
    · exact .inl rfl
    · exact .inl (by simp [Write.audit?])
  | recoverStale error leaseTimeout =>
    obtain ⟨⟨found, _, _⟩, inner, same⟩ := map_ok ran
    cases same
    obtain ⟨_, _, rfl⟩ := updateStale_ok inner
    exact .inl (by simp [inserted, List.filterMap_map, Function.comp_def, Write.audit?])
  | selectClaimable maxAttempts =>
    obtain ⟨⟨found, _, _⟩, inner, same⟩ := map_ok ran
    cases same
    obtain ⟨_, ⟨_, rfl, _⟩ | ⟨_, _, _, _, rfl⟩⟩ := lockClaimable_ok inner <;> exact .inl rfl
  | cancelJob | retryJob | claimJob | finishJob | releaseCancelled | failJob | renewLease =>
    obtain ⟨⟨found, _, _⟩, inner, same⟩ := map_ok ran
    cases same
    obtain ⟨_, ⟨_, rfl, _⟩ | ⟨row, _, _, _, rfl⟩⟩ := updateJob_ok inner
    · exact .inl rfl
    · exact .inl (by simp [Write.audit?])
  | _ => cases ran; exact .inl rfl

/-- The events of an open transaction begin with it, under the lock of their job, and have ids above those of
the events committed for the job. -/
structure Stamped (s : Store) (tx : Tx) : Prop where
  occurred : ∀ event ∈ inserted tx, event.occurredAt = tx.now
  locked : ∀ event ∈ inserted tx, tx.locks.Exclusive (.job event.jobId)
  drawn : ∀ event ∈ inserted tx, event.id < s.audits.next
  later : ∀ event ∈ inserted tx, ∀ earlier ∈ s.eventsOf event.jobId, earlier.id < event.id
  ordered : (inserted tx).Pairwise fun first second => first.id < second.id

namespace Stamped

theorem silent (silent : inserted tx = []) : Stamped s tx := by
  constructor <;> simp [silent]

/-- A change of the store that records no event of these jobs keeps the stamps. -/
theorem of_same (stamped : Stamped s tx)
    (rows : ∀ jobId, tx.locks.Exclusive (.job jobId) → s'.eventsOf jobId = s.eventsOf jobId)
    (next : s.audits.next ≤ s'.audits.next) : Stamped s' tx where
  occurred := stamped.occurred
  locked := stamped.locked
  drawn event member := (stamped.drawn event member).trans_le next
  later event member earlier listed := by
    rw [rows event.jobId (stamped.locked event member)] at listed
    exact stamped.later event member earlier listed
  ordered := stamped.ordered

/-- A statement keeps the stamps, if an event is inserted under the lock of its job. -/
theorem answer {q : Sql} {others : List Tx} {choice : Choice} {answer : q.Answer} {isOpen : Option Tx}
    (stamped : ∀ tx, isOpen = some tx → Stamped s tx) (pre : Pre q isOpen s)
    (ran : q.answer s others choice (isOpen.getD (.start s)) = .ok (answer, s', opened)) : Stamped s' opened := by
  have stamped : Stamped s (isOpen.getD (.start s)) := by
    cases isOpen with
    | none => exact .silent rfl
    | some tx => exact stamped tx rfl
  have keeps := answer_keeps ran
  have rows : ∀ jobId, s'.eventsOf jobId = s.eventsOf jobId := by
    intro jobId
    cases keeps.drawn <;> rfl
  have next : s.audits.next ≤ s'.audits.next := (keeps.drawn.agree []).auditsNext
  obtain same | ⟨jobId, companyId, eventType, actor, traceId, _, rfl, drawn, added⟩ := answer_inserted ran
  · constructor <;> rw [same]
    · rw [keeps.now]
      exact stamped.occurred
    · exact fun event member => (stamped.locked event member).mono keeps.locks
    · exact fun event member => (stamped.drawn event member).trans_le next
    · intro event member earlier listed
      rw [rows] at listed
      exact stamped.later event member earlier listed
    · exact stamped.ordered
  · obtain ⟨_, rfl, locked⟩ := pre
    constructor <;> rw [added]
    · rw [keeps.now]
      intro event member
      rcases List.mem_append.mp member with earlier | latest
      · exact stamped.occurred event earlier
      · rw [List.mem_singleton.mp latest]
        rfl
    · intro event member
      rcases List.mem_append.mp member with earlier | latest
      · exact (stamped.locked event earlier).mono keeps.locks
      · rw [List.mem_singleton.mp latest]
        exact locked.mono keeps.locks
    · intro event member
      rcases List.mem_append.mp member with earlier | latest
      · exact (stamped.drawn event earlier).trans_le next
      · rw [List.mem_singleton.mp latest, drawn]
        exact Nat.lt_succ_self _
    · intro event member earlier listed
      rw [rows] at listed
      rcases List.mem_append.mp member with before | latest
      · exact stamped.later event before earlier listed
      · rw [List.mem_singleton.mp latest]
        exact s.audits.below earlier (List.mem_filter.mp listed).1
    · refine List.pairwise_append.mpr ⟨stamped.ordered, List.pairwise_singleton _ _, ?_⟩
      intro first member second latest
      rw [List.mem_singleton.mp latest]
      exact stamped.drawn first member

end Stamped

/-- The events of each job are committed in the order of their ids, and those of open transactions come later. -/
structure Recorded (world : Service) : Prop where
  ordered : ∀ jobId, (world.state.eventsOf jobId).Pairwise fun first second => first.id < second.id
  stamped : ∀ proc ∈ world.procs.rows, ∀ tx, proc.tx = some tx → Stamped world.state tx

/-- A commit appends the events of its transaction. -/
private theorem ordered_commit (opened : tx.Open s) (stamped : Stamped s tx)
    (ordered : ∀ jobId, (s.eventsOf jobId).Pairwise fun first second => first.id < second.id) (jobId : ℕ) :
    ((tx.view s).eventsOf jobId).Pairwise fun first second => first.id < second.id := by
  rw [Tx.view, opened.eventsOf]
  refine List.pairwise_append.mpr ⟨ordered jobId, stamped.ordered.filter _, ?_⟩
  intro earlier listed event member
  obtain ⟨inside, same⟩ := List.mem_filter.mp member
  have same := of_decide_eq_true same
  subst same
  exact stamped.later event inside earlier listed

private theorem next_foldl (writes : List Write) (s : Store) :
    (writes.foldl Write.apply s).audits.next = s.audits.next := by
  induction writes generalizing s with
  | nil => rfl
  | cons write rest ih =>
    rw [List.foldl_cons, ih]
    cases write <;> simp [Write.apply]

/-- The commit of another transaction records no event of a job that this one has locked. -/
private theorem Stamped.commit {theirs : Tx} (stamped : Stamped s tx) (opened : theirs.Open s)
    (others : Stamped s theirs) (apart : theirs.locks.compatible tx.locks = true) :
    Stamped (theirs.view s) tx := by
  refine stamped.of_same (fun jobId locked => ?_) (next_foldl _ _).ge
  rw [Tx.view, opened.eventsOf, List.filter_eq_nil_iff.mpr, List.append_nil]
  intro event member same
  have held := others.locked event member
  rw [of_decide_eq_true same] at held
  exact held.not_exclusive apart locked

/-- What one process does to the store and to its own transaction keeps the order of events. -/
private theorem recorded_set {proc later : Proc ℕ Mode Call Tx Sql Sql.Answer Choice Exc Label Return} {after : Store}
    (recorded : Recorded world) (member : proc ∈ world.procs.rows) (kept : later.pid = proc.pid)
    (ordered : ∀ jobId, (after.eventsOf jobId).Pairwise fun first second => first.id < second.id)
    (mine : ∀ tx, later.tx = some tx → Stamped after tx)
    (theirs : ∀ other ∈ world.procs.rows, proc.pid ≠ other.pid → ∀ tx, other.tx = some tx →
      Stamped world.state tx → Stamped after tx) : Recorded (world.set after later) where
  ordered := ordered
  stamped other inside tx open' := by
    have stored := Table.find?_of_key member rfl
    rw [← kept] at stored
    rcases (Table.mem_put stored).mp inside with rfl | ⟨inside, distinct⟩
    · exact mine tx open'
    · exact theirs other inside (fun same => distinct (same.symm.trans kept.symm)) tx open' (recorded.stamped other inside tx open')

/-- A store with the same events. -/
private structure SameEvents (s s' : Store) : Prop where
  rows : ∀ jobId, s'.eventsOf jobId = s.eventsOf jobId
  next : s.audits.next ≤ s'.audits.next

private theorem SameEvents.refl (s : Store) : SameEvents s s := ⟨fun _ => rfl, le_rfl⟩

/-- The process that moved has a stamped transaction, and the store has the same events. -/
private theorem recorded_same {proc later : Proc ℕ Mode Call Tx Sql Sql.Answer Choice Exc Label Return} {after : Store}
    (recorded : Recorded world) (member : proc ∈ world.procs.rows) (kept : later.pid = proc.pid)
    (same : SameEvents world.state after) (mine : ∀ tx, later.tx = some tx → Stamped after tx) :
    Recorded (world.set after later) := by
  refine recorded_set recorded member kept (fun jobId => ?_) mine fun _ _ _ _ _ stamped =>
    stamped.of_same (fun jobId _ => same.rows jobId) same.next
  rw [same.rows]
  exact recorded.ordered jobId

/-- A process commits its transaction. -/
private theorem recorded_commit {proc later : Proc ℕ Mode Call Tx Sql Sql.Answer Choice Exc Label Return}
    (fresh : Fresh start) (reached : World.Reaches (service admits) start world) (recorded : Recorded world)
    (member : proc ∈ world.procs.rows) (kept : later.pid = proc.pid) (closed : later.tx = none) (label : Label) :
    Recorded (world.set
      (proc.tx.elim world.state fun tx => (service admits).commit proc.pid label tx world.state) later) := by
  have sound := reachable_sound fresh reached
  have ended : ∀ after : Store, ∀ tx, later.tx = some tx → Stamped after tx := by
    rw [closed]
    exact nofun
  cases isOpen : proc.tx with
  | none => exact recorded_same recorded member kept (.refl _) (ended _)
  | some tx =>
    have opened := sound.opened proc member tx isOpen
    have stamped := recorded.stamped proc member tx isOpen
    refine recorded_set recorded member kept (ordered_commit opened stamped recorded.ordered) (ended _) ?_
    intro other inside distinct theirs isOpen' stamped'
    have apart := sound.apart proc member other inside distinct tx isOpen theirs isOpen'
    exact (stamped'.commit opened stamped apart).of_same (fun _ _ => rfl) le_rfl

private theorem recorded_step (fresh : Fresh start) (reached : World.Reaches (service admits) start world)
    (recorded : Recorded world) {action : Step} (stepped : world.step (service admits) action = some next) :
    Recorded next := by
  cases World.step_turn stepped with
  | environment event =>
    cases event
    exact ⟨recorded.ordered, fun proc member tx isOpen =>
      (recorded.stamped proc member tx isOpen).of_same (fun _ _ => rfl) le_rfl⟩
  | @spawned pid mode absent spawns =>
    refine ⟨recorded.ordered, fun proc member tx isOpen => ?_⟩
    have rows := @Table.rows_insert _ _ _ _ world.procs ⟨pid, mode, none, none, none⟩ absent
    rcases List.mem_append.mp (rows ▸ member) with member | new
    · exact recorded.stamped proc member tx isOpen
    · rw [List.mem_singleton.mp new] at isOpen
      cases isOpen
  | @turned _ proc later after acting stored kept becomes =>
    have member := Table.find?_mem stored
    cases becomes with
    | same idle => exact absurd acting idle
    | started | moved => exact recorded_same recorded member rfl (.refl _) (recorded.stamped proc member)
    | finished | died => exact recorded_same recorded member rfl (.refl _) nofun
    | @advanced program left tx after running advances =>
      cases advances with
      | failed | uncommitted => exact recorded_same recorded member rfl (.refl _) nofun
      | chosen => exact recorded_same recorded member rfl (.refl _) (recorded.stamped proc member)
      | rolledBack =>
        refine recorded_same recorded member rfl ?_ nofun
        cases proc.tx with
        | none => exact .refl _
        | some tx => exact ⟨fun _ => rfl, le_rfl⟩
      | published =>
        refine recorded_same recorded member rfl ⟨fun _ => rfl, le_rfl⟩ fun tx isOpen => ?_
        exact (recorded.stamped proc member tx isOpen).of_same (fun _ _ => rfl) le_rfl
      | @answered q next _ choice answer after opened ran free =>
        have keeps := answer_keeps ran
        refine recorded_same recorded member rfl ⟨fun jobId => ?_, (keeps.drawn.agree []).auditsNext⟩ ?_
        · cases keeps.drawn <;> rfl
        · rintro _ ⟨⟩
          have pre := reachable_pre fresh reached member running
          exact .answer (recorded.stamped proc member) pre ran
      | committed | lost => exact recorded_commit fresh reached recorded member (by rfl) (by rfl) _

/-- In every reachable deployment the events of a job are recorded in the order of their ids. -/
theorem reachable_recorded (fresh : Fresh start) (reached : World.Reaches (service admits) start world) :
    Recorded world := by
  have both : World.Reaches (service admits) start world ∧ Recorded world := by
    refine reached.preserves (P := fun world => World.Reaches (service admits) start world ∧ Recorded world)
      ⟨.refl _ _, fun jobId => ?_, ?_⟩ fun world action next ⟨reached, recorded⟩ stepped =>
        ⟨reached.step stepped, recorded_step fresh reached recorded stepped⟩
    · rw [Store.eventsOf, fresh.audits]
      exact .nil
    · rw [fresh.procs]
      exact fun proc member => absurd member List.not_mem_nil
  exact both.2

/-- One step records at most one event of a job. -/
theorem jobStep_events {jobId : ℕ} (step : JobStep (Opening admits) s s' jobId) (orphans : NoOrphans s) :
    s'.eventsOf jobId = s.eventsOf jobId ∨ ∃ event, s'.eventsOf jobId = s.eventsOf jobId ++ [event] := by
  cases step with
  | same _ traces =>
    simp only [Store.traces, Prod.mk.injEq] at traces
    exact .inl traces.2.1
  | @created d absent stored created =>
    have silent := orphans jobId absent
    simp only [Store.traces, Prod.mk.injEq] at silent
    rw [silent.2.1]
    obtain ⟨job, _, rfl⟩ := Option.map_eq_some_iff.mp stored
    have events : Opening admits ((s'.eventsOf jobId).map AuditEvent.eventType) := created.events
    rcases events with single | ⟨none, _⟩
    · obtain ⟨event, only, _⟩ := List.map_eq_singleton_iff.mp single
      exact .inr ⟨event, only⟩
    · exact .inl (List.map_eq_nil_iff.mp none)
  | @moved d d' before stored step =>
    obtain ⟨job, _, rfl⟩ := Option.map_eq_some_iff.mp before
    obtain ⟨job', _, rfl⟩ := Option.map_eq_some_iff.mp stored
    exact step.events

/-- An event that a step records carries the time at which the transaction of the acting process began. -/
theorem reachable_event (fresh : Fresh start) (reached : World.Reaches (service admits) start world) {action : Step}
    (stepped : world.step (service admits) action = some next) (jobId : ℕ) :
    next.state.eventsOf jobId = world.state.eventsOf jobId ∨
      ∃ proc ∈ world.procs.rows, ∃ tx event, action.pid? = some proc.pid ∧ proc.tx = some tx ∧
        event.occurredAt = tx.now ∧ next.state.eventsOf jobId = world.state.eventsOf jobId ++ [event] := by
  have sound := reachable_sound fresh reached
  have recorded := reachable_recorded fresh reached
  refine (jobStep_events (reachable_jobStep fresh reached stepped jobId) sound.inv.orphans).imp_right ?_
  rintro ⟨event, grown⟩
  have changed : next.state.eventsOf jobId ≠ world.state.eventsOf jobId := by
    rw [grown]
    exact fun same => by simp at same
  have commits : ∀ proc ∈ world.procs.rows, ∀ label, action.pid? = some proc.pid →
      next.state = (proc.tx.elim world.state fun tx => (service admits).commit proc.pid label tx world.state) →
      ∃ proc ∈ world.procs.rows, ∃ tx event, action.pid? = some proc.pid ∧ proc.tx = some tx ∧
        event.occurredAt = tx.now ∧ next.state.eventsOf jobId = world.state.eventsOf jobId ++ [event] := by
    intro proc member label acting same
    cases isOpen : proc.tx with
    | none =>
      rw [isOpen] at same
      exact absurd (congrArg (Store.eventsOf · jobId) same) changed
    | some tx =>
      rw [isOpen] at same
      have appended : next.state.eventsOf jobId = world.state.eventsOf jobId ++
          (inserted tx).filter fun event => decide (event.jobId = jobId) := by
        rw [same]
        exact (sound.opened proc member tx isOpen).eventsOf jobId
      rw [grown] at appended
      have single := List.append_cancel_left appended
      have inside : event ∈ inserted tx := by
        refine List.mem_of_mem_filter (p := fun event => decide (event.jobId = jobId)) ?_
        rw [← single]
        exact List.mem_singleton_self event
      exact ⟨proc, member, tx, event, acting, isOpen, (recorded.stamped proc member tx isOpen).occurred event inside,
        grown⟩
  cases World.step_turn stepped with
  | environment event => exact absurd rfl changed
  | spawned => exact absurd rfl changed
  | @turned _ proc later after acting stored kept becomes =>
    have member := Table.find?_mem stored
    cases becomes with
    | same idle => exact absurd acting idle
    | started | moved | finished | died => exact absurd rfl changed
    | @advanced program left tx after running advances =>
      cases advances with
      | failed | uncommitted | chosen | published => exact absurd rfl changed
      | rolledBack =>
        refine absurd ?_ changed
        cases proc.tx <;> rfl
      | answered ran =>
        refine absurd ?_ changed
        cases (answer_keeps ran).drawn <;> rfl
      | committed | lost => exact commits proc member _ acting rfl

/-- In a valid state, all events of a job are its company's. -/
theorem auditEventsOf_eq {origin : Store} (valid : Valid admits origin s) {jobId : ℕ} {row : Job}
    (stored : s.job? jobId = some row) : s.auditEventsOf row.companyId jobId = s.eventsOf jobId := by
  refine List.filter_congr fun event member => ?_
  by_cases same : event.jobId = jobId
  · have owner := (valid.wellFormed stored).companies event
      (List.mem_filter.mpr ⟨member, decide_eq_true same⟩)
    simp only [same, owner, and_self]
  · simp only [same, false_and]

end JobRelay.Soundness
