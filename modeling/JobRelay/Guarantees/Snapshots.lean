import JobRelay.Guarantees.DeadLetters
import JobRelay.Soundness.Recording
import JobRelay.Soundness.Reports

/-! # What reads show

A job detail and a page of jobs are each made of two statements, and each statement sees the rows that are
committed when it runs. A detail takes the row from the first state and the events from the second, a page
the rows from the first and the total from the second; so either is what one state gives if nothing that it
shows was committed in between.
-/

namespace JobRelay.Guarantees

open Model Sessions Soundness

variable {admits : Request → Bool} {start world : Service}

/-- The detail of a job that one state gives. -/
def detail? (s : Store) (companyId jobId : ℕ) : Option JobDetail :=
  ((s.job? jobId).filter fun row => decide (row.companyId = companyId)).map fun row =>
    detailOf row (Listed s companyId jobId)

/-- A detail that agrees with itself. -/
structure Agrees (detail : JobDetail) : Prop where
  cancelled : detail.status = .cancelled ↔ detail.cancellation.isSome
  done : detail.status = .done ↔ ∃ event ∈ detail.auditEvents, event.eventType = .completed

/-- The last event listed agrees with the status. -/
structure Last (detail : JobDetail) : Prop where
  done : detail.status = .done ↔ (detail.auditEvents.map AuditEntry.eventType).getLast? = some .completed
  cancelled : detail.status = .cancelled ↔
    (detail.auditEvents.map AuditEntry.eventType).getLast? = some .cancelled
  failed : detail.status = .failed ↔ (detail.auditEvents.map AuditEntry.eventType).getLast? = some .failed

/-- The events of a job were recorded in the order in which they are listed. -/
def InOrder (s : Store) (companyId jobId : ℕ) : Prop :=
  (s.auditEventsOf companyId jobId).Pairwise AuditEvent.NotLater

/-- What a detail shows of the events is what was recorded. -/
private theorem mem_listed {s : Store} {companyId jobId : ℕ} {eventType : EventType} :
    (∃ event ∈ Listed s companyId jobId, event.eventType = eventType) ↔
      eventType ∈ (s.auditEventsOf companyId jobId).map AuditEvent.eventType := by
  simp only [Listed, List.mem_map, List.mem_insertionSort]
  constructor
  · rintro ⟨_, ⟨event, member, rfl⟩, same⟩
    exact ⟨event, member, same⟩
  · rintro ⟨event, member, same⟩
    exact ⟨_, ⟨event, member, rfl⟩, same⟩

/-- The events of a job in order are listed as they were recorded. -/
private theorem listed_inOrder {s : Store} {companyId jobId : ℕ} (ordered : InOrder s companyId jobId) :
    (Listed s companyId jobId).map AuditEntry.eventType =
      (s.auditEventsOf companyId jobId).map AuditEvent.eventType := by
  rw [Listed, ordered.insertionSort_eq, List.map_map]
  rfl

/-- A single committed state gives a detail that agrees with itself. -/
private theorem agrees_of_valid {origin s : Store} (valid : Valid admits origin s) {companyId jobId : ℕ}
    {detail : JobDetail} (found : detail? s companyId jobId = some detail) :
    Agrees detail ∧ (InOrder s companyId jobId → Last detail) := by
  obtain ⟨row, kept, rfl⟩ := Option.map_eq_some_iff.mp found
  obtain ⟨stored, owned⟩ := Option.filter_eq_some_iff.mp kept
  obtain rfl : row.companyId = companyId := of_decide_eq_true owned
  obtain ⟨first, retries, opening, trail⟩ := (valid.wellFormed stored).trail
  have opens : first = [.submitted] ∨ first = [] := opening.imp_right And.left
  have events := auditEventsOf_eq valid stored
  refine ⟨⟨?_, ?_⟩, fun ordered => ?_⟩
  · change row.status = .cancelled ↔ (Option.map _ _).isSome = true
    rw [Option.isSome_map, List.find?_isSome, trail.mem_iff opens (show closing .cancelled = [.cancelled] from rfl) nofun, ← events,
      ← mem_listed]
    simp only [decide_eq_true_eq]
  · change row.status = .done ↔ _
    rw [trail.mem_iff opens (show closing .done = [.completed] from rfl) nofun, ← events, ← mem_listed]
    rfl
  · have listed : (detailOf row (Listed s row.companyId jobId)).auditEvents.map AuditEntry.eventType =
        (s.eventsOf jobId).map AuditEvent.eventType := by
      rw [← events]
      exact listed_inOrder ordered
    constructor <;> rw [listed]
    · exact trail.last_iff opens rfl
    · exact trail.last_iff opens rfl
    · exact trail.last_iff opens rfl

/-- A stored job stays its company's, and is not changed any more once it is done or cancelled. -/
private theorem detail?_later (fresh : Fresh start) (reached : World.Reaches (service admits) start world)
    {later : Service} (onward : World.Reaches (service admits) world later) {companyId jobId : ℕ} {row : Job}
    (stored : world.state.job? jobId = some row) (owned : row.companyId = companyId) :
    ∃ row', later.state.job? jobId = some row' ∧
      detail? later.state companyId jobId = some (detailOf row' (Listed later.state companyId jobId)) ∧
      (row.status = .done ∨ row.status = .cancelled → row' = row) := by
  have id : row.id = jobId := Store.job?_id stored
  subst id
  have kept : ∃ row', later.state.job? row.id = some row' ∧ row'.companyId = row.companyId ∧
      (row.status = .done ∨ row.status = .cancelled → row' = row) := by
    refine later_preserves fresh reached onward (P := fun s => ∃ row', s.job? row.id = some row' ∧
      row'.companyId = row.companyId ∧ (row.status = .done ∨ row.status = .cancelled → row' = row))
      ⟨row, stored, rfl, fun _ => rfl⟩ ?_
    rintro before after _ step ⟨row', stored', owned', settled⟩
    obtain ⟨next, found, owner, _⟩ := (step row.id).identity stored'
    refine ⟨next, found, owner.trans owned', fun ended => ?_⟩
    have same := settled ended
    subst same
    have final := (settled_jobStep (step row'.id) stored' ended).1
    rw [found] at final
    exact Option.some.inj final
  obtain ⟨row', stored', owned', settled⟩ := kept
  refine ⟨row', stored', ?_, settled⟩
  rw [detail?, stored', Option.filter_some, decide_eq_true (owned'.trans owned), if_pos rfl, Option.map_some]

private theorem length_pageOf (s : Store) (companyId limit offset : ℕ) (status : Option JobStatus) :
    (pageOf s companyId limit offset status).length =
      min limit ((s.jobsOf companyId status).length - offset) := by
  rw [pageOf, List.length_map, List.length_take, List.length_drop, List.length_insertionSort]

/-- A job is cancelled, and the row is read before and the events after the commit. -/
def detailMeetsCancel : List Step :=
  .spawn 0 .client :: submission 0 "a" ++ .start 0 (.request (.getJob 1 1)) :: statements 0 2 ++
    .spawn 2 .client :: .start 2 (.request (.cancelJob 1 1 "2:user" none)) :: statements 2 5 ++ statements 0 2

/-- A job is created between the listing of no job and the count. -/
def listingMeetsCreate : List Step :=
  .spawn 0 .client :: .start 0 (.request (.listPage 1 50 0 none)) :: statements 0 2 ++
    .spawn 2 .client :: submission 2 "a" ++ statements 0 2

/-- A queued job has a cancellation, and an empty page is one of one job. -/
theorem reads_two_states : Fresh office ∧
    (∃ world detail, Answered (fun _ => true) office world 0 (.getJob 1 1) (.ok (.job detail)) ∧
      detail.status = .queued ∧ detail.cancellation.isSome) ∧
    ∃ world, Answered (fun _ => true) office world 0 (.listPage 1 50 0 none) (.ok (.page [] 1)) := by
  have detail : (office.runActions (service fun _ => true) detailMeetsCancel).bind (answer? · 0) =
      some (.getJob 1 1, .ok (.job ⟨⟨1, 1, "report", .queued, 0, none⟩, some ⟨"2:user", 0⟩,
        [⟨.submitted, "1:user", 0, none⟩, ⟨.cancelled, "2:user", 0, none⟩]⟩)) := by decide +kernel
  have page : (office.runActions (service fun _ => true) listingMeetsCreate).bind (answer? · 0) =
      some (.listPage 1 50 0 none, .ok (.page [] 1)) := by decide +kernel
  obtain ⟨world, answered⟩ := answered_of_run detail
  exact ⟨office_fresh, ⟨world, _, answered, rfl, rfl⟩, answered_of_run page⟩

/-- A detail is the row of one state with the events of a later one, and a page the rows of one state with
the total of a later one; either is the response of one state if what the two show has not changed. -/
theorem reads_committed (fresh : Fresh start) {pid : ℕ} :
    (∀ companyId jobId detail, Answered admits start world pid (.getJob companyId jobId) (.ok (.job detail)) →
      ∃ first second before after, Asked admits start pid (.selectJob companyId jobId) first second ∧
        Asked admits start pid (.selectAuditEvents companyId jobId) second world ∧
        detail? first.state companyId jobId = some before ∧ detail? second.state companyId jobId = some after ∧
        detail = { after with toJobRow := before.toJobRow } ∧ Agrees before ∧ Agrees after ∧
        (InOrder second.state companyId jobId → Last after) ∧
        (before.toJobRow = after.toJobRow ∨ detail.status = .done ∨ detail.status = .cancelled → detail = after)) ∧
    ∀ companyId limit offset status rows total,
      Answered admits start world pid (.listPage companyId limit offset status) (.ok (.page rows total)) →
      ∃ first second, Asked admits start pid (.listJobs companyId limit offset status) first second ∧
        Asked admits start pid (.countJobs companyId status) second world ∧
        rows = pageOf first.state companyId limit offset status ∧
        total = (second.state.jobsOf companyId status).length ∧
        ((first.state.jobsOf companyId status).length = (second.state.jobsOf companyId status).length →
          rows.length = min limit (total - offset)) := by
  constructor
  · intro companyId jobId detail answered
    obtain ⟨first, second, row, asked, listed, stored, owned, rfl⟩ := answered.seen fresh detail rfl
    have before : detail? first.state companyId jobId =
        some (detailOf row (Listed first.state companyId jobId)) := by
      rw [detail?, stored, Option.filter_some, decide_eq_true owned, if_pos rfl, Option.map_some]
    obtain ⟨row', stored', after, settled⟩ := detail?_later fresh asked.reached asked.later stored owned
    refine ⟨first, second, _, _, asked, listed, before, after, rfl,
      (agrees_of_valid (reachable_valid fresh asked.reached) before).1,
      (agrees_of_valid (reachable_valid fresh listed.reached) after).1,
      (agrees_of_valid (reachable_valid fresh listed.reached) after).2, ?_⟩
    rintro (same | ended)
    · exact congrArg (JobDetail.mk · _ _) same
    · rw [settled ended]
  · intro companyId limit offset status rows total answered
    obtain ⟨first, second, asked, counted, rfl, rfl⟩ := answered.seen fresh rows total rfl
    refine ⟨first, second, asked, counted, rfl, rfl, fun same => ?_⟩
    rw [length_pageOf, same]

/-- Read after its cancellation, the job is cancelled and its detail is that of one state. -/
theorem reads_committed_office : ∃ world detail, ∃ state : Service,
    Answered (fun _ => true) office world 0 (.getJob 1 1) (.ok (.job detail)) ∧
    detail.status = .cancelled ∧ detail? state.state 1 1 = some detail := by
  have ran : (office.runActions (service fun _ => true)
      (.spawn 0 .client :: submission 0 "a" ++
        .start 0 (.request (.cancelJob 1 1 "1:user" none)) :: statements 0 5 ++
        .finish 0 :: .start 0 (.request (.getJob 1 1)) :: statements 0 4)).bind (answer? · 0) =
      some (.getJob 1 1, .ok (.job ⟨⟨1, 1, "report", .cancelled, 0, none⟩, some ⟨"1:user", 0⟩,
        [⟨.submitted, "1:user", 0, none⟩, ⟨.cancelled, "1:user", 0, none⟩]⟩)) := by decide +kernel
  obtain ⟨world, answered⟩ := answered_of_run ran
  obtain ⟨_, second, _, _, _, _, _, found, _, _, _, _, settled⟩ :=
    (reads_committed office_fresh).1 1 1 _ answered
  exact ⟨world, _, second, answered, rfl, found.trans (congrArg some (settled (.inr (.inr rfl))).symm)⟩

end JobRelay.Guarantees
