import JobRelay.Guarantees.Diagnosis
import JobRelay.Soundness.Recording
import Mathlib.Data.List.Induction
import Mathlib.Data.List.Infix

/-! # The displayed order of events

`get_job` orders the events of a job by the time at which their transactions began. The transitions happen
when the transactions commit, so a transaction that began before the one it follows is displayed first.
-/

namespace JobRelay.Guarantees

open Model Sessions Soundness

variable {admits : Request → Bool} {start world next : Service}

/-- The events of a job in the order in which `get_job` lists them. -/
def displayed (s : Store) (companyId jobId : ℕ) : List AuditEvent :=
  (s.auditEventsOf companyId jobId).insertionSort AuditEvent.NotLater

/-- The events of a job that the steps of a run record, in the order in which they commit. -/
def recordings (admits : Request → Bool) (jobId : ℕ) : Service → List Step → List AuditEvent
  | _, [] => []
  | world, action :: rest =>
      match world.step (service admits) action with
      | none => []
      | some next =>
          (next.state.eventsOf jobId).drop (world.state.eventsOf jobId).length ++ recordings admits jobId next rest

/-- If the step records an event of a job, its transaction began no earlier than the one that recorded the
event before it. -/
def Follows (world next : Service) (action : Step) (jobId : ℕ) : Prop :=
  ∀ previous event, (world.state.eventsOf jobId).getLast? = some previous →
    next.state.eventsOf jobId = world.state.eventsOf jobId ++ [event] →
    ∀ proc ∈ world.procs.rows, ∀ tx, action.pid? = some proc.pid → proc.tx = some tx →
      previous.occurredAt ≤ tx.now

instance : Std.Total AuditEvent.NotLater where
  total first second := by
    rcases lt_trichotomy first.occurredAt second.occurredAt with earlier | same | later
    · exact .inl (.inl earlier)
    · rcases le_total first.id second.id with before | after
      · exact .inl (.inr ⟨same, before⟩)
      · exact .inr (.inr ⟨same.symm, after⟩)
    · exact .inr (.inl later)

private theorem NotLater.trans {first second third : AuditEvent} (left : first.NotLater second)
    (right : second.NotLater third) : first.NotLater third := by
  rcases left with earlier | ⟨same, before⟩ <;> rcases right with earlier' | ⟨same', before'⟩
  · exact .inl (earlier.trans earlier')
  · exact .inl (same' ▸ earlier)
  · exact .inl (same ▸ earlier')
  · exact .inr ⟨same.trans same', before.trans before'⟩

instance : IsTrans AuditEvent AuditEvent.NotLater where
  trans _ _ _ := NotLater.trans

private theorem NotLater.le {first second : AuditEvent} (ordered : first.NotLater second) :
    first.occurredAt ≤ second.occurredAt := by
  rcases ordered with earlier | ⟨same, _⟩
  · exact earlier.le
  · exact same.le

/-- An event with the largest id keeps the order if it occurred no earlier than the last one. -/
private theorem pairwise_append_iff {events : List AuditEvent} {event : AuditEvent}
    (ids : (events ++ [event]).Pairwise fun first second => first.id < second.id) :
    (events ++ [event]).Pairwise AuditEvent.NotLater ↔ events.Pairwise AuditEvent.NotLater ∧
      ∀ previous, events.getLast? = some previous → previous.occurredAt ≤ event.occurredAt := by
  rw [List.pairwise_append]
  constructor
  · rintro ⟨ordered, _, later⟩
    exact ⟨ordered, fun previous last => NotLater.le (later previous (List.mem_of_getLast? last) event
      (List.mem_singleton_self event))⟩
  · rintro ⟨ordered, later⟩
    refine ⟨ordered, List.pairwise_singleton _ _, fun earlier member _ only => ?_⟩
    rw [List.mem_singleton.mp only]
    have apart := (List.pairwise_append.mp ids).2.2
    induction events using List.reverseRecOn with
    | nil => cases member
    | append_singleton rest previous _ =>
      have last : previous.NotLater event := by
        have before := apart previous (by simp) event (List.mem_singleton_self event)
        rcases (later previous (by simp)).lt_or_eq with earlier | same
        · exact .inl earlier
        · exact .inr ⟨same, before.le⟩
      rcases List.mem_append.mp member with inside | is
      · have before := (List.pairwise_append.mp ordered).2.2 earlier inside previous (List.mem_singleton_self _)
        exact NotLater.trans before last
      · rw [List.mem_singleton.mp is]
        exact last

/-- What the steps record is what is stored, in the order in which it is stored. -/
private theorem recordings_eq (fresh : Fresh start) (reached : World.Reaches (service admits) start world)
    {actions : List Step} {last : Service} (ran : world.runActions (service admits) actions = some last)
    (jobId : ℕ) :
    last.state.eventsOf jobId = world.state.eventsOf jobId ++ recordings admits jobId world actions := by
  induction actions generalizing world with
  | nil =>
    cases ran
    exact (List.append_nil _).symm
  | cons action rest ih =>
    obtain ⟨next, stepped, ran⟩ := Option.bind_eq_some_iff.mp ran
    rw [ih (reached.step stepped) ran, recordings, stepped, ← List.append_assoc]
    congr 1
    rcases reachable_event fresh reached stepped jobId with same | ⟨_, _, _, event, _, _, _, grown⟩
    · simp [same]
    · simp [grown]

/-- A step keeps the events of a job in order exactly if it follows the event before. -/
private theorem inOrder_step (fresh : Fresh start) (reached : World.Reaches (service admits) start world)
    {action : Step} (stepped : world.step (service admits) action = some next) (jobId : ℕ) :
    (next.state.eventsOf jobId).Pairwise AuditEvent.NotLater ↔
      (world.state.eventsOf jobId).Pairwise AuditEvent.NotLater ∧ Follows world next action jobId := by
  have ids := (Soundness.reachable_recorded fresh (reached.step stepped)).ordered jobId
  rcases reachable_event fresh reached stepped jobId with same | ⟨proc, member, tx, event, acting, isOpen, began, grown⟩
  · rw [same]
    refine ⟨fun ordered => ⟨ordered, fun previous event _ grown => ?_⟩, And.left⟩
    rw [same] at grown
    simp at grown
  · rw [grown] at ids
    rw [grown, pairwise_append_iff ids]
    refine and_congr_right fun _ => forall_congr' fun previous => ?_
    constructor
    · intro later event' last grown' proc' member' tx' acting' isOpen'
      rw [acting, Option.some.injEq] at acting'
      have same : proc = proc' := by
        have stored := Table.find?_of_key member' acting'.symm
        rw [Table.find?_of_key member rfl] at stored
        exact Option.some.inj stored
      subst same
      rw [isOpen, Option.some.injEq] at isOpen'
      rw [← isOpen', ← began]
      exact later last
    · intro follows last
      rw [began]
      exact follows event last grown proc member tx acting isOpen

/-- Along a run, the events of a job are in order exactly if every recording follows the one before. -/
private theorem inOrder_run (fresh : Fresh start) (jobId : ℕ) {actions : List Step}
    (ran : start.runActions (service admits) actions = some world) :
    (world.state.eventsOf jobId).Pairwise AuditEvent.NotLater ↔
      ∀ before action middle next, before ++ [action] <+: actions →
        start.runActions (service admits) before = some middle →
        middle.step (service admits) action = some next → Follows middle next action jobId := by
  -- the run is followed to its end, one action at a time
  induction actions using List.reverseRecOn generalizing world with
  | nil =>
    cases ran
    rw [Store.eventsOf, fresh.audits]
    refine ⟨fun _ before action middle next early => ?_, fun _ => .nil⟩
    simp at early
  | append_singleton actions last ih =>
    rw [World.runActions_append] at ran
    obtain ⟨middle, ran, tail⟩ := Option.bind_eq_some_iff.mp ran
    rw [World.runActions_cons] at tail
    obtain ⟨_, stepped, same⟩ := Option.bind_eq_some_iff.mp tail
    cases same
    rw [inOrder_step fresh ⟨actions, ran⟩ stepped, ih ran]
    constructor
    · rintro ⟨earlier, follows⟩ before action middle' next early ran' stepped'
      rcases List.prefix_concat_iff.mp early with whole | early
      · obtain ⟨rfl, only⟩ := List.append_inj' whole rfl
        cases only
        rw [ran] at ran'
        cases ran'
        rw [stepped] at stepped'
        cases stepped'
        exact follows
      · exact earlier before action middle' next early ran' stepped'
    · intro all
      exact ⟨fun before action middle' next early => all before action middle' next
        (early.trans (List.prefix_append _ _)), all actions last middle world List.prefix_rfl ran stepped⟩

/-- A retry begins, the first attempt fails five seconds later, and the retry goes on. -/
def earlyRetry : List Step :=
  runningJob ++ .start 0 (.request (.retryJob 1 1 "1:user" none)) :: statements 0 1 ++
    .environment (.advance 5000000) :: jobFails ++ statements 0 4

/-- The retry begins after the failure. -/
def laterRetry : List Step :=
  runningJob ++ .environment (.advance 5000000) :: jobFails ++
    .start 0 (.request (.retryJob 1 1 "1:user" none)) :: statements 0 5

/-- The failure was committed before the retry, and is displayed after it. -/
theorem displayed_out_of_order : Fresh office ∧ ∃ world,
    office.runActions (service fun _ => true) earlyRetry = some world ∧
    (displayed world.state 1 1).map AuditEvent.eventType = [.submitted, .retryRequested, .failed] ∧
    (recordings (fun _ => true) 1 office earlyRetry).map AuditEvent.eventType =
      [.submitted, .failed, .retryRequested] := by
  have shown : (office.runActions (service fun _ => true) earlyRetry).map
      (fun world => (displayed world.state 1 1).map AuditEvent.eventType) =
        some [.submitted, .retryRequested, .failed] := by decide +kernel
  obtain ⟨world, ran, same⟩ := Option.map_eq_some_iff.mp shown
  exact ⟨office_fresh, world, ran, same, by decide +kernel⟩

/-- `get_job` displays the events of a job in the order in which they were committed exactly if no transaction
that records one of them began before the transaction that recorded the event before it. -/
theorem displayed_in_order_iff (fresh : Fresh start) {actions : List Step}
    (ran : start.runActions (service admits) actions = some world) {jobId : ℕ} {row : Job}
    (stored : world.state.job? jobId = some row) :
    displayed world.state row.companyId jobId = recordings admits jobId start actions ↔
      ∀ before action middle next, before ++ [action] <+: actions →
        start.runActions (service admits) before = some middle →
        middle.step (service admits) action = some next → Follows middle next action jobId := by
  have recorded : recordings admits jobId start actions = world.state.eventsOf jobId := by
    have whole := recordings_eq fresh (.refl _ _) ran jobId
    rw [show start.state.eventsOf jobId = [] by rw [Store.eventsOf, fresh.audits]; rfl, List.nil_append] at whole
    exact whole.symm
  rw [← inOrder_run fresh jobId ran, recorded, displayed,
    auditEventsOf_eq (reachable_valid fresh ⟨actions, ran⟩) stored]
  constructor
  · intro same
    rw [← same]
    exact List.pairwise_insertionSort _ _
  · exact List.Pairwise.insertionSort_eq

theorem displayed_in_order_office : ∃ world,
    office.runActions (service fun _ => true) laterRetry = some world ∧
    (displayed world.state 1 1).map AuditEvent.eventType = [.submitted, .failed, .retryRequested] ∧
    ∀ before action middle next, before ++ [action] <+: laterRetry →
      office.runActions (service fun _ => true) before = some middle →
      middle.step (service fun _ => true) action = some next → Follows middle next action 1 := by
  have shown : (office.runActions (service fun _ => true) laterRetry).map (fun world =>
      ((displayed world.state 1 1).map AuditEvent.eventType, (world.state.job? 1).map Job.companyId,
        decide (displayed world.state 1 1 = recordings (fun _ => true) 1 office laterRetry))) =
        some ([.submitted, .failed, .retryRequested], some 1, true) := by decide +kernel
  obtain ⟨world, ran, same⟩ := Option.map_eq_some_iff.mp shown
  simp only [Prod.mk.injEq, decide_eq_true_eq] at same
  obtain ⟨row, stored, owner⟩ := Option.map_eq_some_iff.mp same.2.1
  refine ⟨world, ran, same.1, (displayed_in_order_iff office_fresh ran stored).mp ?_⟩
  rw [owner]
  exact same.2.2

end JobRelay.Guarantees
