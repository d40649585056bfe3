import JobRelay.Guarantees.DeadLetters
import JobRelay.Model.SubmitButton
import JobRelay.Soundness.Origins
import JobRelay.Soundness.Reports

/-! # The key of the submit button

The API answers a replay with the current status of the job, and the page accepts a created job only while it
is queued. So a response that was lost and a job that has moved on leave the page with a used key.
-/

namespace JobRelay.Guarantees

open Model Sessions Soundness Web

variable {admits : Request → Bool} {start : Service} {button : SubmitButton} {session after : Session}

/-- The request that the page waits for is served under the key that the page holds, or its process died. -/
def Awaited (session : Session) : Prop :=
  ∀ pid, session.button.pending = some pid → ∃ proc, session.world.proc? pid = some proc ∧
    ((proc.mode = .client ∧ proc.program.isSome ∧
        ∃ traceId, proc.call = some (.request (session.button.request traceId))) ∨
      proc.mode = .dead ∧ proc.program = none)

private theorem settle_pending (reply : Option Reply) (uuid : String) :
    (button.settle reply uuid).pending = none := by
  rw [SubmitButton.settle]
  split <;> rfl

/-- No step of the services takes the request away from the page. -/
private theorem awaited_service {action : Step} {world : Service}
    (stays : ∀ pid, session.button.pending = some pid → action ≠ .finish pid)
    (stepped : session.world.step (service admits) action = some world) (awaited : Awaited session) :
    Awaited ⟨world, session.button⟩ := by
  intro pid sent
  obtain ⟨proc, found, serves⟩ := awaited pid sent
  have same : proc.pid = pid := Table.find?_key found
  obtain ⟨later, found', becomes⟩ := World.step_becomes stepped found
  refine ⟨later, found', ?_⟩
  generalize world.state = state at becomes
  cases becomes with
  | same => exact serves
  | started call free starts =>
    rcases serves with ⟨_, running, _⟩ | ⟨dead, _⟩
    · rw [free] at running
      cases running
    · rw [dead] at starts
      cases starts
  | advanced running advances =>
    rcases serves with ⟨client, _, called⟩ | ⟨_, ended⟩
    · exact .inl ⟨client, rfl, called⟩
    · rw [ended] at running
      cases running
  | finished _ acting => exact absurd (same ▸ acting) (stays pid sent)
  | moved mode _ moves =>
    rcases serves with ⟨client, _⟩ | ⟨dead, _⟩
    · rw [client] at moves
      cases moves
    · rw [dead] at moves
      cases moves
  | died => exact .inr ⟨rfl, rfl⟩

/-- A click sends a request under the current key. -/
private theorem awaited_click {pid : ℕ} {traceId : Option String} {world : Service}
    (stepped : session.world.step (service admits)
      (.start pid (.request (session.button.request traceId))) = some world) :
    Awaited ⟨world, { session.button with pending := some pid }⟩ := by
  rintro _ ⟨⟩
  obtain ⟨proc, found, ran⟩ := Option.bind_eq_some_iff.mp stepped
  split at ran
  · next allowed =>
    cases ran
    refine ⟨_, World.proc?_set found rfl, .inl ⟨?_, rfl, traceId, rfl⟩⟩
    rw [Bool.and_eq_true] at allowed
    cases mode : proc.mode <;> simp [service, Mode.starts, mode] at allowed ⊢
  · cases ran

/-- One event keeps the services on a run and the page waiting for nothing but its own request. -/
private theorem awaited_step {event : SessionEvent} (stepped : session.step admits event = some after)
    (reached : World.Reaches (service admits) start session.world) (awaited : Awaited session) :
    World.Reaches (service admits) start after.world ∧ Awaited after := by
  have settled : ∀ reply uuid world, Awaited ⟨world, session.button.settle reply uuid⟩ := by
    intro reply uuid world pid sent
    rw [settle_pending] at sent
    cases sent
  cases event with
  | service action =>
    simp only [Session.step] at stepped
    split at stepped
    · cases stepped
    · next stays =>
      obtain ⟨world, moved, rfl⟩ := Option.map_eq_some_iff.mp stepped
      refine ⟨reached.step moved, awaited_service (fun pid sent acting => stays ?_) moved awaited⟩
      simp [sent, acting, finishes?]
  | click pid traceId =>
    simp only [Session.step] at stepped
    split at stepped
    · cases stepped
    · obtain ⟨world, moved, rfl⟩ := Option.map_eq_some_iff.mp stepped
      exact ⟨reached.step moved, awaited_click moved⟩
  | deliver uuid =>
    simp only [Session.step] at stepped
    split at stepped
    · cases stepped
    · obtain ⟨pid, _, stepped⟩ := Option.bind_eq_some_iff.mp stepped
      obtain ⟨⟨_, result⟩, _, stepped⟩ := Option.bind_eq_some_iff.mp stepped
      obtain ⟨world, moved, rfl⟩ := Option.map_eq_some_iff.mp stepped
      exact ⟨reached.step moved, settled _ _ _⟩
  | lose =>
    obtain ⟨_, _, rfl⟩ := Option.map_eq_some_iff.mp stepped
    exact ⟨reached, settled _ _ _⟩

private theorem awaited_run (idle : button.pending = none) {events : List SessionEvent}
    (ran : Session.run admits ⟨start, button⟩ events = some session) :
    World.Reaches (service admits) start session.world ∧ Awaited session := by
  have initial : World.Reaches (service admits) start (Session.mk start button).world ∧
      Awaited ⟨start, button⟩ := by
    refine ⟨.refl _ _, fun pid sent => ?_⟩
    rw [idle] at sent
    cases sent
  generalize Session.mk start button = first at ran initial
  induction events generalizing first with
  | nil => cases ran; exact initial
  | cons event rest ih =>
    obtain ⟨next, stepped, ran⟩ := Option.bind_eq_some_iff.mp ran
    exact ih next ran (awaited_step stepped initial.1 initial.2)

/-- The page reads the body of a created job exactly if the job is queued. -/
private theorem parseJobCreated_body {job : JobState} (range : serialRange job.id = true) :
    parseJobCreated job.body = if job.status = .queued then .ok ⟨job.id, .queued⟩
      else .error ("Status inválido: esperado " ++ JobStatus.queued.text) := by
  have bounds := of_decide_eq_true range
  have number : requirePositiveInteger (.number (some (job.id : ℚ))) "id" = .ok job.id :=
    requirePositiveInteger_natCast _ (by omega) (by omega)
  change (requirePositiveInteger (.number (some (job.id : ℚ))) "id").bind (fun id =>
    (requireExpectedStatus (.string job.status.text) .queued).bind fun status => .ok (JobCreated.mk id status)) = _
  rw [number, requireExpectedStatus_text]
  split
  · next queued => rw [queued]; rfl
  · rfl

/-- The page has read the created job, shown it and drawn a new key. -/
structure Succeeds (button after : SubmitButton) (job : JobState) (uuid : String) : Prop where
  idempotencyKey : after.idempotencyKey = uuid
  toasts : after.toasts = button.toasts ++ [⟨.success, "Job #" ++ toString (job.id : Int) ++ " criado",
    "Na fila para processamento."⟩]
  pending : after.pending = none

/-- A `201` is settled with a new key exactly if it reports a queued job. -/
private theorem settle_created {job : JobState} {created : Bool} {uuid : String} (range : serialRange job.id = true)
    (unused : uuid ≠ button.idempotencyKey) :
    (Succeeds button (button.settle (some (createJobReply (.ok (.created job created)))) uuid) job uuid ↔
      job.status = .queued) ∧
    (job.status ≠ .queued →
      (button.settle (some (createJobReply (.ok (.created job created)))) uuid).idempotencyKey =
        button.idempotencyKey) := by
  have positive : 0 < job.id := (of_decide_eq_true range).1
  have posted : post (some (createJobReply (.ok (.created job created)))) parseJobCreated =
      (parseJobCreated job.body).mapError Thrown.error := by
    rw [createJobReply, if_pos positive]
    rfl
  rw [SubmitButton.settle, posted, parseJobCreated_body range]
  by_cases queued : job.status = .queued
  · rw [if_pos queued]
    exact ⟨⟨fun _ => queued, fun _ => ⟨rfl, rfl, rfl⟩⟩, fun other => absurd queued other⟩
  · rw [if_neg queued]
    exact ⟨⟨fun succeeds => absurd succeeds.idempotencyKey.symm unused, fun other => absurd other queued⟩, fun _ => rfl⟩

/-- A page of the office that holds its first key. -/
def page : Session := ⟨office, ⟨1, "1:user", "first", none, []⟩⟩

/-- The response to the first click is lost, a worker finishes the job if there is one, and the button is
clicked again. -/
def clickedAgain (work : List Step) : List SessionEvent :=
  .service (.spawn 0 .client) :: .click 0 none :: (statements 0 9).map .service ++
    [.lose, .service (.finish 0)] ++ work.map .service ++ .click 0 none :: (statements 0 3).map .service

/-- A worker finishes the job. -/
def jobFinishes : List Step := [.spawn 1 (.draining 1), .start 1 .processNext] ++ statements 1 23 ++ [.finish 1]

private def delivers (events : List SessionEvent) (status : JobStatus) (key : String) (tones : List Tone) : Bool :=
  (page.run (fun _ => true) events).any fun session =>
    (session.step (fun _ => true) (.deliver "second")).any fun after =>
      decide (session.button.pending = some 0) && decide (session.button.idempotencyKey = "first") &&
        decide (answer? session.world 0 =
          some (.createJob 1 "report" none "first" (some "1:user"), .ok (.created ⟨1, status⟩ false))) &&
        decide (after.button.idempotencyKey = key) && decide (after.button.toasts.map Toast.tone = tones)

private theorem delivers_eq {events : List SessionEvent} {status : JobStatus} {key : String} {tones : List Tone}
    (delivered : delivers events status key tones = true) : ∃ session after,
      page.run (fun _ => true) events = some session ∧ session.step (fun _ => true) (.deliver "second") = some after ∧
      session.button.pending = some 0 ∧ session.button.idempotencyKey = "first" ∧
      answer? session.world 0 =
        some (.createJob 1 "report" none "first" (some "1:user"), .ok (.created ⟨1, status⟩ false)) ∧
      after.button.idempotencyKey = key ∧ after.button.toasts.map Toast.tone = tones := by
  obtain ⟨session, ran, delivered⟩ := (Option.any_eq_true _ _).mp delivered
  obtain ⟨after, stepped, facts⟩ := (Option.any_eq_true _ _).mp delivered
  simp only [Bool.and_eq_true, decide_eq_true_eq] at facts
  obtain ⟨⟨⟨⟨sent, held⟩, answered⟩, kept⟩, shown⟩ := facts
  exact ⟨session, after, ran, stepped, sent, held, answered, kept, shown⟩

/-- The replay of a finished job is a `201`, the page shows an error and keeps the used key. -/
theorem stuck_on_used_key : Fresh page.world ∧ ∃ session after,
    page.run (fun _ => true) (clickedAgain jobFinishes) = some session ∧
    session.step (fun _ => true) (.deliver "second") = some after ∧
    session.button.pending = some 0 ∧ session.button.idempotencyKey = "first" ∧
    answer? session.world 0 =
      some (.createJob 1 "report" none "first" (some "1:user"), .ok (.created ⟨1, .done⟩ false)) ∧
    after.button.idempotencyKey = "first" ∧ after.button.toasts.map Toast.tone = [.error, .error] :=
  ⟨office_fresh, delivers_eq (by decide +kernel)⟩

/-- A delivered `201` frees the button exactly if the job was queued when the request created or found it. -/
theorem rotates_iff (fresh : Fresh start) (idle : button.pending = none) {events : List SessionEvent}
    (ran : Session.run admits ⟨start, button⟩ events = some session) {uuid : String}
    (delivered : session.step admits (.deliver uuid) = some after) {pid : ℕ}
    (sent : session.button.pending = some pid) {request : Request} {job : JobState} {created : Bool}
    (answered : answer? session.world pid = some (request, .ok (.created job created))) :
    (∃ traceId, request = session.button.request traceId) ∧
    ((created = true ∧ Succeeds session.button after.button job uuid) ∨
      (created = false ∧ ∃ lookup row,
        Asked admits start pid (.findByIdempotencyKey session.button.companyId session.button.idempotencyKey)
          lookup session.world ∧
        lookup.state.jobByKey? session.button.companyId session.button.idempotencyKey = some row ∧
        job = ⟨row.id, row.status⟩ ∧
        (Succeeds session.button after.button job uuid ↔ row.status = .queued) ∧
        (row.status ≠ .queued → after.button.idempotencyKey = session.button.idempotencyKey))) := by
  obtain ⟨reached, awaited⟩ := awaited_run idle ran
  obtain ⟨proc, found, serves⟩ := awaited pid sent
  have known : ∃ traceId, request = session.button.request traceId ∧
      Answered admits start session.world pid request (.ok (.created job created)) := by
    obtain ⟨proc', found', same⟩ := Option.bind_eq_some_iff.mp answered
    rw [found] at found'
    cases found'
    split at same
    · next called returned =>
      cases same
      rcases serves with ⟨_, _, traceId, sends⟩ | ⟨_, ended⟩
      · rw [sends] at called
        cases called
        exact ⟨traceId, rfl, reached, proc, Table.find?_mem found, Table.find?_key found, sends, returned⟩
      · rw [ended] at returned
        cases returned
    · cases same
  obtain ⟨traceId, rfl, served⟩ := known
  refine ⟨⟨traceId, rfl⟩, ?_⟩
  have settled : uuid ≠ session.button.idempotencyKey ∧
      after.button = session.button.settle (some (createJobReply (.ok (.created job created)))) uuid := by
    simp only [Session.step, sent, answered, Option.bind_some] at delivered
    split at delivered
    · cases delivered
    · next unused =>
      obtain ⟨world, _, rfl⟩ := Option.map_eq_some_iff.mp delivered
      exact ⟨unused, rfl⟩
  obtain ⟨unused, same⟩ := settled
  rw [same]
  rcases served.replies fresh with ⟨new, queued, range⟩ | ⟨old, lookup, row, asked, stored, rfl⟩
  · exact .inl ⟨new, (settle_created range unused).1.mpr queued⟩
  · have range := (reachable_sourced fresh asked.reached (jobByKey?_some stored).1).range
    exact .inr ⟨old, lookup, row, asked, stored, rfl, settle_created range unused⟩

/-- A replay while the job is still queued frees the button. -/
theorem rotates_office : ∃ session after lookup row,
    page.run (fun _ => true) (clickedAgain []) = some session ∧
    session.step (fun _ => true) (.deliver "second") = some after ∧
    Asked (fun _ => true) office 0 (.findByIdempotencyKey session.button.companyId "first") lookup session.world ∧
    lookup.state.jobByKey? session.button.companyId "first" = some row ∧ row.status = .queued ∧
    Succeeds session.button after.button ⟨1, .queued⟩ "second" := by
  obtain ⟨session, after, ran, delivered, sent, held, answered, _⟩ :=
    delivers_eq (show delivers (clickedAgain []) .queued "second" [.error, .success] = true by decide +kernel)
  obtain ⟨_, ⟨other, _⟩ | ⟨_, lookup, row, asked, stored, same, succeeds, _⟩⟩ :=
    rotates_iff office_fresh rfl ran delivered sent answered
  · cases other
  · rw [held] at asked stored
    have queued : row.status = .queued := (congrArg JobState.status same).symm
    exact ⟨session, after, lookup, row, ran, delivered, asked, stored, queued, succeeds.mpr queued⟩

end JobRelay.Guarantees
