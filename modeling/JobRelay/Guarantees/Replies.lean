import JobRelay.Guarantees.Bystanders
import JobRelay.Guarantees.Decoding
import JobRelay.Guarantees.Diagnosis
import JobRelay.Guarantees.Settlement
import JobRelay.Soundness.Replies

/-! # What the routes reply

In every interleaving a route replies with a status that it declares, unless the database fails it: the response
models refuse nothing that the operations return, so a reply is a success exactly if the operation was committed.
What a reply shows is, or was, stored for the company that asked, and a job that is not the company's is not found.
-/

namespace JobRelay.Guarantees

open Model Sessions Soundness

variable {start world : Service}

/-- The page reads the replies to a cancellation and to a retry as what was done. -/
def MutationDecodes : Request → Reply → Prop
  | .cancelJob _ jobId .., reply =>
      ∃ body, reply.body = some body ∧ Web.parseJobCancelled body = .ok ⟨jobId, .cancelled⟩
  | .retryJob _ jobId .., reply =>
      ∃ body attempts, reply.body = some body ∧ Web.parseJobRetried body = .ok ⟨jobId, .queued, attempts⟩
  | _, _ => True

/-- A reply that the documentation of its route announces. -/
structure Documented (request : Request) (result : Except Exc Response) (reply : Reply) : Prop where
  status : reply.status ∈ request.responses
  body : reply.body.isSome
  ok : reply.ok = result.isOk
  decodes : result.isOk = true → MutationDecodes request reply

section Bodies

variable (isoformat : Micros → String)

theorem summary_body {row : JobSummary} (shown : Presentable row.id row.kind) (single : row.resultCount ≤ 1) :
    (row.body isoformat).isSome := by
  simp [JobSummary.body, shown.kind, shown.positive, single, guard]

theorem detail_body {detail : JobDetail} (shown : Presentable detail.id detail.kind) (owner : 0 < detail.companyId)
    (attempted : detail.attempts ≤ 3) : (detail.body isoformat).isSome := by
  simp [JobDetail.body, shown.kind, shown.positive, owner, attempted, guard]

/-- A page has a body if each of its rows has one. -/
private theorem mapM_present {α β : Type} {f : α → Option β} {rows : List α} (each : ∀ row ∈ rows, (f row).isSome) :
    (rows.mapM f).isSome := by
  induction rows with
  | nil => rfl
  | cons row rows ih =>
    obtain ⟨value, first⟩ := Option.isSome_iff_exists.mp (each row List.mem_cons_self)
    obtain ⟨values, rest⟩ := Option.isSome_iff_exists.mp (ih fun other member => each other (List.mem_cons_of_mem _ member))
    rw [List.mapM_cons, first, rest]
    rfl

/-- A body that the response model accepts is sent with the status of success. -/
private theorem documented_model {request : Request} {response : Response} {body : Option Value} (present : body.isSome)
    (declared : 200 ∈ request.responses) (decodes : ∀ value, body = some value → MutationDecodes request ⟨200, some value⟩) :
    Documented request (.ok response) (.model body) := by
  obtain ⟨value, rfl⟩ := Option.isSome_iff_exists.mp present
  exact ⟨declared, rfl, rfl, fun _ => decodes value rfl⟩

private theorem documented_exception {request : Request} {error : Exc} {status : ℕ} {detail : String}
    (declared : status ∈ request.responses) (client : 400 ≤ status) :
    Documented request (.error error) (.exception status detail) := by
  refine ⟨declared, rfl, ?_, fun impossible => (by cases impossible)⟩
  exact decide_eq_false fun success => by
    have bound : status ≤ 299 := success.2
    omega

end Bodies

section Requests

variable {pid : ℕ} {request : Request}

private theorem presentable_of_owns (fresh : Fresh start) (reached : World.Reaches (service Request.served) start world)
    {companyId jobId : ℕ} (owns : Owns world.state companyId jobId) : 0 < jobId ∧ jobId ≤ 2147483647 := by
  obtain ⟨row, stored, _⟩ := owns
  have shown := (stored_presentable fresh reached stored).1
  rw [Store.job?_id stored] at shown
  exact ⟨shown.positive, shown.small⟩

/-- What a request that succeeded returns passes the response model of its route. -/
private theorem documented_ok (isoformat : Micros → String) (fresh : Fresh start) {response : Response}
    (answered : Answered Request.served start world pid request (.ok response)) :
    Documented request (.ok response) (request.reply isoformat (.ok response)) := by
  have shaped := answered.shaped fresh
  obtain ⟨after, reached, _, confirmed⟩ := answered.confirmed fresh
  cases request with
  | listJobs | countJobs =>
    have admitted := answered.admitted fresh
    cases admitted
  | listPage companyId limit offset status =>
    obtain ⟨rows, total, rfl⟩ := shaped
    obtain ⟨first, _, asked, _, listed, _⟩ := answered.seen fresh rows total rfl
    have bodies : (rows.mapM (JobSummary.body isoformat)).isSome := by
      refine mapM_present fun row member => ?_
      obtain ⟨shown, single⟩ := page_presentable fresh asked.reached (listed ▸ member)
      exact summary_body isoformat shown single
    refine documented_model ?_ List.mem_cons_self fun _ _ => trivial
    rwa [Option.isSome_map]
  | getJob companyId jobId =>
    obtain ⟨detail, rfl⟩ := shaped
    obtain ⟨first, second, row, asked, _, stored, _, rfl⟩ := answered.seen fresh detail rfl
    obtain ⟨shown, positive⟩ := stored_presentable fresh asked.reached stored
    have attempted := ((reachable_valid fresh asked.reached).wellFormed stored).attempts_le
    exact documented_model (detail_body isoformat shown positive attempted) List.mem_cons_self fun _ _ => trivial
  | getResult companyId jobId =>
    obtain ⟨payload, rfl⟩ := shaped
    obtain ⟨first, asked, found⟩ := answered.seen fresh payload rfl
    obtain ⟨result, stored, kept⟩ := Option.bind_eq_some_iff.mp found
    obtain ⟨job, _, kept⟩ := Option.bind_eq_some_iff.mp kept
    split at kept
    · cases kept
      obtain ⟨legible, clean⟩ := (reachable_texts fresh asked.reached).payloads jobId result stored
      have body : (resultBody result.payload).isSome := by simp [resultBody, jobPayload_some legible.python clean]
      exact documented_model body List.mem_cons_self fun _ _ => trivial
    · cases kept
  | createJob companyId kind traceId key submittedBy =>
    obtain ⟨job, created, row, rfl, stored, owner, _⟩ := confirmed
    have reply : createJobReply (.ok (.created job created)) = ⟨201, some job.body⟩ :=
      if_pos (presentable_of_owns fresh reached ⟨row, stored, owner⟩).1
    rw [Request.reply, reply]
    exact ⟨List.mem_cons_self, rfl, rfl, fun _ => trivial⟩
  | cancelJob companyId jobId cancelledBy traceId =>
    obtain ⟨row, rfl, stored, owner, _⟩ := confirmed
    obtain ⟨positive, small⟩ := presentable_of_owns fresh reached ⟨row, stored, owner⟩
    have body : cancelledBody ⟨jobId, .cancelled⟩ = some (JobState.body ⟨jobId, .cancelled⟩) := by
      simp [cancelledBody, positive, guard]
    refine documented_model (by rw [body]; rfl) List.mem_cons_self fun value same => ⟨value, rfl, ?_⟩
    rw [body] at same
    cases same
    have id := Web.requirePositiveInteger_natCast "id" (by omega : jobId ≤ 9007199254740991) positive
    simp [Web.parseJobCancelled, Web.requireRecord, JobState.body, Web.property, List.lookup_cons, id,
      Web.requireExpectedStatus_text]
    rfl
  | retryJob companyId jobId requestedBy traceId =>
    obtain ⟨row, rfl, stored, owner, _, left⟩ := confirmed
    obtain ⟨positive, small⟩ := presentable_of_owns fresh reached ⟨row, stored, owner⟩
    generalize row.attempts = attempts at left
    have few : attempts ≤ 3 := le_of_lt left
    have body : JobRetried.body ⟨⟨jobId, .queued⟩, attempts⟩ = some (.object [("id", .number (some (jobId : ℚ))),
        ("status", .string JobStatus.queued.text), ("attempts", .number (some (attempts : ℚ)))]) := by
      simp [JobRetried.body, positive, few, guard]
    refine documented_model (by rw [body]; rfl) List.mem_cons_self fun value same => ⟨value, attempts, rfl, ?_⟩
    rw [body] at same
    cases same
    have id := Web.requirePositiveInteger_natCast "id" (by omega : jobId ≤ 9007199254740991) positive
    have tried := Web.requireNonNegativeInteger_natCast "attempts"
      (by omega : attempts ≤ 9007199254740991) (some 3) (decide_eq_false (by omega))
    simp [Web.parseJobRetried, Web.requireRecord, Web.property, List.lookup_cons, id, tried,
      Web.requireExpectedStatus_text]
    rfl

/-- Every error that an operation raises by itself is handled by its route. -/
private theorem documented_error (isoformat : Micros → String) {error : Exc} (refuses : Refuses request error) :
    Documented request (.error error) (request.reply isoformat (.error error)) := by
  cases request with
  | listJobs | countJobs | listPage => exact refuses.elim
  | getJob companyId jobId =>
    cases refuses
    exact documented_exception (by simp [Request.responses]) (by decide)
  | getResult companyId jobId =>
    cases refuses
    exact documented_exception (by simp [Request.responses]) (by decide)
  | createJob companyId kind traceId key submittedBy =>
    rcases refuses with rfl | ⟨existing, rfl⟩ | ⟨limit, running, rfl⟩ <;>
      exact documented_exception (by simp [Request.responses]) (by decide)
  | cancelJob companyId jobId cancelledBy traceId =>
    rcases refuses with rfl | ⟨status, rfl⟩ <;> exact documented_exception (by simp [Request.responses]) (by decide)
  | retryJob companyId jobId requestedBy traceId =>
    rcases refuses with rfl | ⟨status, rfl⟩ | ⟨attempts, rfl⟩ <;>
      exact documented_exception (by simp [Request.responses]) (by decide)

/-- The last report of a process is the commit of the request. -/
def CommittedLast (s : Store) (pid : ℕ) (request : Request) : Prop :=
  ∃ response, (reports s pid).getLast? = some (.request request (.ok response))

private theorem committed_iff {s : Store} {result : Except Exc Response}
    (reported : (reports s pid).getLast? = some (.request request result)) :
    result.isOk = true ↔ CommittedLast s pid request := by
  cases result with
  | ok response => exact iff_of_true rfl ⟨response, reported⟩
  | error error =>
    refine iff_of_false nofun ?_
    rintro ⟨response, committed⟩
    rw [reported] at committed
    cases committed

/-- Every reply is documented, is a success exactly if the operation was committed, and is read by the page if it
acknowledges a cancellation or a retry, unless the database failed the request. -/
theorem replies_documented (isoformat : Micros → String) (fresh : Fresh start) {result : Except Exc Response}
    (answered : Answered Request.served start world pid request result) :
    (Documented request result (request.reply isoformat result) ∧
      ((request.reply isoformat result).ok = true ↔ CommittedLast world.state pid request)) ∨
      ∃ error, result = .error error ∧ error.fromDatabase = true := by
  have documented : Documented request result (request.reply isoformat result) ∨
      ∃ error, result = .error error ∧ error.fromDatabase = true := by
    cases result with
    | ok response => exact .inl (documented_ok isoformat fresh answered)
    | error error =>
      refine (answered.refuses fresh).imp (documented_error isoformat) fun failure => ?_
      exact ⟨error, rfl, failure⟩
  rcases answered.reported fresh with reported | failure
  · exact documented.imp_left fun documented => ⟨documented, by rw [documented.ok]; exact committed_iff reported⟩
  · exact .inr failure

/-- A job is submitted and cancelled. -/
def cancelledJob : List Step :=
  .spawn 0 .client :: submission 0 "a" ++ .start 0 (.request (.cancelJob 1 1 "1:user" none)) :: statements 0 5

/-- The cancellation is acknowledged, and the page reads the acknowledgement. -/
theorem replies_documented_office : ∃ world,
    Answered Request.served office world 0 (.cancelJob 1 1 "1:user" none) (.ok (.cancelled ⟨1, .cancelled⟩)) ∧
    CommittedLast world.state 0 (.cancelJob 1 1 "1:user" none) ∧
    Documented (.cancelJob 1 1 "1:user" none) (.ok (.cancelled ⟨1, .cancelled⟩))
      ⟨200, some (.object [("id", .number (some 1)), ("status", .string "cancelled")])⟩ := by
  have ran : (office.runActions (service Request.served) cancelledJob).bind (answer? · 0) =
      some (.cancelJob 1 1 "1:user" none, .ok (.cancelled ⟨1, .cancelled⟩)) := by decide +kernel
  obtain ⟨world, answered⟩ := answered_of_run ran
  rcases replies_documented epoch.isoformat office_fresh answered with ⟨documented, committed⟩ | ⟨_, same, _⟩
  · exact ⟨world, answered, committed.mp documented.ok, documented⟩
  · cases same

end Requests

/-- An event as it is shown. -/
def shownEvent (event : AuditEvent) : AuditEntry := ⟨event.eventType, event.actor, event.occurredAt, event.traceId⟩

/-- A world on the way to another. -/
structure Passed (start world earlier : Service) : Prop where
  reached : World.Reaches (service Request.served) start earlier
  later : World.Reaches (service Request.served) earlier world

/-- On the way to the world, a job of the company had a row that is shown so. -/
def HadRow (start world : Service) (companyId jobId : ℕ) (shown : Job → Prop) : Prop :=
  ∃ earlier, Passed start world earlier ∧
    ∃ row, earlier.state.job? jobId = some row ∧ row.companyId = companyId ∧ shown row

/-- A job as a page shows it. -/
def shownRow (s : Store) (job : Job) : JobSummary :=
  ⟨job.id, job.kind, job.status, job.createdAt, s.results.rows.countP fun result => decide (result.jobId = job.id)⟩

/-- All that a response shows is, or was on the way, stored for the company that asked. -/
def Discloses (start world : Service) : Request → Response → Prop
  | .listPage companyId _ _ status, .page rows total =>
      (∃ earlier, Passed start world earlier ∧ ∀ row ∈ rows, ∃ job, earlier.state.job? row.id = some job ∧
        job.companyId = companyId ∧ row = shownRow earlier.state job) ∧
      ∃ earlier, Passed start world earlier ∧ total = (earlier.state.jobsOf companyId status).length
  | .getJob companyId jobId, .job detail =>
      HadRow start world companyId jobId (fun row =>
        detail.toJobRow = ⟨row.id, row.companyId, row.kind, row.status, row.attempts, row.lastError⟩) ∧
      (∀ shown ∈ detail.auditEvents, ∃ event ∈ world.state.eventsOf jobId, event.companyId = companyId ∧
        shown = shownEvent event) ∧
      ∀ shown, detail.cancellation = some shown → ∃ event ∈ world.state.eventsOf jobId,
        event.companyId = companyId ∧ event.eventType = .cancelled ∧ shown = ⟨event.actor, event.occurredAt⟩
  | .getResult companyId jobId, .result payload => Owns world.state companyId jobId ∧
      ∃ result, world.state.results.find? jobId = some result ∧ result.payload = payload
  | .createJob companyId .., .created job _ => HadRow start world companyId job.id fun row => row.status = job.status
  | .cancelJob companyId jobId .., .cancelled job =>
      HadRow start world companyId jobId fun row => job = ⟨row.id, row.status⟩
  | .retryJob companyId jobId .., .retried job =>
      HadRow start world companyId jobId fun row => job = ⟨⟨row.id, row.status⟩, row.attempts⟩
  | _, _ => False

/-- The job that a request names. -/
def namedJob? : Request → Option ℕ
  | .getJob _ jobId | .getResult _ jobId | .cancelJob _ jobId .. | .retryJob _ jobId .. => some jobId
  | _ => none

/-- The reply to a request that names no job of the company. -/
def notFound : Request → Reply
  | .getResult .. => .exception 404 "no result"
  | _ => .exception 404 "not found"

section Confidential

variable {target : Service} {companyId jobId pid : ℕ} {request : Request}

private theorem event_later (fresh : Fresh start) (reached : World.Reaches (service Request.served) start world)
    (later : World.Reaches (service Request.served) world target) {event : AuditEvent}
    (recorded : event ∈ world.state.eventsOf jobId) : event ∈ target.state.eventsOf jobId := by
  refine later_preserves fresh reached later (P := fun s => event ∈ s.eventsOf jobId) recorded ?_
  intro before after valid step recorded
  rcases jobStep_events (step jobId) valid.orphans with same | ⟨other, grown⟩
  · rwa [same]
  · rw [grown]
    exact List.mem_append_left _ recorded

private theorem result_later (fresh : Fresh start) (reached : World.Reaches (service Request.served) start world)
    (later : World.Reaches (service Request.served) world target) {row : Job} (stored : world.state.job? row.id = some row)
    {result : JobResult} (found : world.state.results.find? row.id = some result) :
    target.state.results.find? row.id = some result := by
  have done : row.status = .done := ((reachable_valid fresh reached).done_iff stored).mpr (by rw [found]; rfl)
  have both : target.state.job? row.id = some row ∧ target.state.results.find? row.id = some result := by
    refine later_preserves fresh reached later (P := fun s => s.job? row.id = some row ∧
      s.results.find? row.id = some result) ⟨stored, found⟩ ?_
    rintro before after _ step ⟨stored, found⟩
    obtain ⟨stored', found'⟩ := settled_jobStep (step row.id) stored (.inl done)
    exact ⟨stored', found'.trans found⟩
  exact both.2

/-- A detail shows what the events of its job say. -/
private theorem listed_event {s : Store} {shown : AuditEntry} (member : shown ∈ Listed s companyId jobId) :
    ∃ event ∈ s.eventsOf jobId, event.companyId = companyId ∧ shown = shownEvent event := by
  obtain ⟨event, inside, rfl⟩ := List.mem_map.mp member
  obtain ⟨stored, owned⟩ := List.mem_filter.mp ((List.mem_insertionSort _).mp inside)
  obtain ⟨named, owner⟩ := of_decide_eq_true owned
  exact ⟨event, List.mem_filter.mpr ⟨stored, decide_eq_true named⟩, owner, rfl⟩

/-- A result is read with the row of its job. -/
private theorem resultOf?_some {s : Store} {payload : String} (found : s.resultOf? companyId jobId = some payload) :
    ∃ row result, s.job? jobId = some row ∧ row.companyId = companyId ∧ s.results.find? jobId = some result ∧
      result.payload = payload := by
  obtain ⟨result, stored, kept⟩ := Option.bind_eq_some_iff.mp found
  obtain ⟨row, job, kept⟩ := Option.bind_eq_some_iff.mp kept
  split at kept
  · next owned =>
    cases kept
    rw [Table.find?_key stored] at job
    exact ⟨row, result, job, owned, stored, rfl⟩
  · cases kept

/-- A response shows what is stored for the company that asked. -/
theorem discloses_of_answered (fresh : Fresh start) {response : Response}
    (answered : Answered Request.served start world pid request (.ok response)) :
    Discloses start world request response := by
  have shaped := answered.shaped fresh
  obtain ⟨after, reached, onward, confirmed⟩ := answered.confirmed fresh
  cases request with
  | listJobs | countJobs =>
    have admitted := answered.admitted fresh
    cases admitted
  | listPage companyId limit offset status =>
    obtain ⟨rows, total, rfl⟩ := shaped
    obtain ⟨first, second, asked, counted, rfl, rfl⟩ := answered.seen fresh rows total rfl
    refine ⟨⟨first, ⟨asked.reached, asked.later.trans counted.later⟩, fun row member => ?_⟩,
      second, ⟨counted.reached, counted.later⟩, rfl⟩
    obtain ⟨job, inside, rfl⟩ := List.mem_map.mp member
    have listed : job ∈ first.state.jobsOf companyId status :=
      (List.mem_insertionSort _).mp (List.mem_of_mem_drop (List.mem_of_mem_take inside))
    obtain ⟨stored, owned⟩ := List.mem_filter.mp listed
    rw [Bool.and_eq_true, decide_eq_true_eq] at owned
    exact ⟨job, Store.mem_jobs.mp stored, owned.1, rfl⟩
  | getJob companyId jobId =>
    obtain ⟨detail, rfl⟩ := shaped
    obtain ⟨first, second, row, asked, listed, stored, owned, rfl⟩ := answered.seen fresh detail rfl
    refine ⟨⟨first, ⟨asked.reached, asked.later.trans listed.later⟩, row, stored, owned, rfl⟩,
      fun shown member => ?_, fun shown same => ?_⟩
    · obtain ⟨event, recorded, facts⟩ := listed_event member
      exact ⟨event, event_later fresh listed.reached listed.later recorded, facts⟩
    · obtain ⟨entry, found, rfl⟩ := Option.map_eq_some_iff.mp same
      obtain ⟨event, recorded, owner, rfl⟩ := listed_event (List.mem_of_find?_eq_some found)
      have cancelled := List.find?_some found
      exact ⟨event, event_later fresh listed.reached listed.later recorded, owner, of_decide_eq_true cancelled, rfl⟩
  | getResult companyId jobId =>
    obtain ⟨payload, rfl⟩ := shaped
    obtain ⟨first, asked, found⟩ := answered.seen fresh payload rfl
    obtain ⟨row, result, job, owned, stored, rfl⟩ := resultOf?_some found
    obtain rfl : row.id = jobId := Store.job?_id job
    exact ⟨Owns.later fresh asked.reached asked.later ⟨row, job, owned⟩,
      result, result_later fresh asked.reached asked.later job stored, rfl⟩
  | createJob companyId kind traceId key submittedBy =>
    obtain ⟨job, created, row, rfl, stored, owner, status⟩ := confirmed
    rcases answered.replies fresh with ⟨new, _⟩ | ⟨_, lookup, found, asked, used, same⟩
    · exact ⟨after, ⟨reached, onward⟩, row, stored, owner, status new⟩
    · obtain ⟨present, owned, _⟩ := jobByKey?_some used
      rw [same]
      exact ⟨lookup, ⟨asked.reached, asked.later⟩, found, present, owned, rfl⟩
  | cancelJob companyId jobId cancelledBy traceId =>
    obtain ⟨row, rfl, stored, owner, status⟩ := confirmed
    exact ⟨after, ⟨reached, onward⟩, row, stored, owner, by simp only [Store.job?_id stored, status]⟩
  | retryJob companyId jobId requestedBy traceId =>
    obtain ⟨row, rfl, stored, owner, status, _⟩ := confirmed
    exact ⟨after, ⟨reached, onward⟩, row, stored, owner, by simp only [Store.job?_id stored, status]⟩

/-- A refusal to change a job is of a job of the company. -/
private theorem owns_of_refusal (fresh : Fresh start) {error : Exc}
    (answered : Answered Request.served start world pid request (.error error))
    (changes : changes? request = some (companyId, jobId)) (refusal : Refusal error) :
    Owns world.state companyId jobId := by
  have accounted := answered.accounted fresh (Diagnosed Request.served start request companyId jobId)
    (fun pid => diagnosed_lasting request companyId jobId pid)
    fun pid since tx _ silent => diagnosed_traced changes silent
  rcases accounted with diagnosed | ⟨_, same, failure⟩
  · obtain ⟨reread, row, asked, stored, owned, _⟩ := diagnosed error rfl refusal
    exact Owns.later fresh asked.reached asked.later ⟨row, stored, owned⟩
  · cases same
    cases error <;> first | exact refusal.elim | cases failure

/-- A request that names a job succeeds only if the job is the company's. -/
private theorem owns_of_ok (fresh : Fresh start) {response : Response}
    (answered : Answered Request.served start world pid request (.ok response)) (named : namedJob? request = some jobId) :
    Owns world.state (tenantOf request) jobId := by
  have shaped := answered.shaped fresh
  obtain ⟨after, reached, onward, confirmed⟩ := answered.confirmed fresh
  cases request with
  | getJob companyId jobId =>
    cases named
    obtain ⟨detail, rfl⟩ := shaped
    obtain ⟨first, second, row, asked, listed, stored, owned, _⟩ := answered.seen fresh detail rfl
    exact Owns.later fresh asked.reached (asked.later.trans listed.later) ⟨row, stored, owned⟩
  | getResult companyId jobId =>
    cases named
    obtain ⟨payload, rfl⟩ := shaped
    obtain ⟨first, asked, found⟩ := answered.seen fresh payload rfl
    obtain ⟨row, _, stored, owned, _⟩ := resultOf?_some found
    exact Owns.later fresh asked.reached asked.later ⟨row, stored, owned⟩
  | cancelJob companyId jobId cancelledBy traceId =>
    cases named
    obtain ⟨row, _, stored, owner, _⟩ := confirmed
    exact Owns.later fresh reached onward ⟨row, stored, owner⟩
  | retryJob companyId jobId requestedBy traceId =>
    cases named
    obtain ⟨row, _, stored, owner, _⟩ := confirmed
    exact Owns.later fresh reached onward ⟨row, stored, owner⟩
  | _ => cases named

/-- Whatever the interleaving, all that a response shows is, or was on the way, stored for the company that asked, and a
job that is not the company's is not found: the reply is the one to a job that does not exist. -/
theorem replies_confidential (isoformat : Micros → String) (fresh : Fresh start) {result : Except Exc Response}
    (answered : Answered Request.served start world pid request result) :
    (∀ response, result = .ok response → Discloses start world request response) ∧
    ∀ jobId, namedJob? request = some jobId → ¬ Owns world.state (tenantOf request) jobId →
      request.reply isoformat result = notFound request ∨ ∃ error, result = .error error ∧ error.fromDatabase = true := by
  constructor
  · rintro response rfl
    exact discloses_of_answered fresh answered
  · intro jobId named foreign
    cases result with
    | ok response => exact absurd (owns_of_ok fresh answered named) foreign
    | error error =>
      refine (answered.refuses fresh).imp (fun refuses => ?_) fun failure => ⟨error, rfl, failure⟩
      cases request with
      | getJob | getResult =>
        cases refuses
        rfl
      | cancelJob companyId jobId cancelledBy traceId =>
        cases named
        rcases refuses with rfl | ⟨status, rfl⟩
        · rfl
        · exact absurd (owns_of_refusal fresh answered rfl trivial) foreign
      | retryJob companyId jobId requestedBy traceId =>
        cases named
        rcases refuses with rfl | ⟨status, rfl⟩ | ⟨attempts, rfl⟩
        · rfl
        · exact absurd (owns_of_refusal fresh answered rfl trivial) foreign
        · exact absurd (owns_of_refusal fresh answered rfl trivial) foreign
      | _ => cases named

/-- Another company asks for the job that was submitted, and is told what it would be told if there were none. -/
theorem replies_confidential_office : ∃ world, Owns world.state 1 1 ∧
    Answered Request.served office world 0 (.getJob 2 1) (.error (.jobNotFound 1)) ∧
    Request.reply epoch.isoformat (.getJob 2 1) (.error (.jobNotFound 1)) = .exception 404 "not found" := by
  have ran : (office.runActions (service Request.served)
      (.spawn 0 .client :: submission 0 "a" ++ .start 0 (.request (.getJob 2 1)) :: statements 0 3)).map
        (fun world => (answer? world 0, (world.state.job? 1).map Job.companyId)) =
      some (some (.getJob 2 1, .error (.jobNotFound 1)), some 1) := by decide +kernel
  obtain ⟨world, ran', same⟩ := Option.map_eq_some_iff.mp ran
  rw [Prod.mk.injEq] at same
  obtain ⟨row, stored, owner⟩ := Option.map_eq_some_iff.mp same.2
  have answered := answered_of_world ran' same.1
  obtain ⟨_, notFound⟩ := replies_confidential epoch.isoformat office_fresh answered
  refine ⟨world, ⟨row, stored, owner⟩, answered, (notFound 1 rfl ?_).resolve_right ?_⟩
  · rintro ⟨other, found, owner'⟩
    rw [stored] at found
    cases found
    have absurd' : (1 : ℕ) = 2 := owner.symm.trans owner'
    omega
  · rintro ⟨_, ⟨⟩, failure⟩
    cases failure

end Confidential

end JobRelay.Guarantees
