import JobRelay.Guarantees.JobRows
import JobRelay.Soundness.Origins
import JobRelay.Soundness.Reports
import JobRelay.Soundness.Texts

/-! # What the page makes of the bodies

The API refuses a kind that is blank in the sense of `White_Space`, the database one that is blank in the sense
of `[[:space:]]`, and the page one that `trim` leaves empty. The first two nest; the third also strips U+FEFF,
so a kind of it alone is stored, and no body that shows it is decoded.
-/

namespace JobRelay.Guarantees

open Model Sessions Soundness

/-- How a `datetime` is written into JSON, and that the page can read it. -/
structure Dates where
  isoformat : Micros → String
  dateParse : String → Option Int
  visible : ∀ moment, Visible isTrimmed (isoformat moment)
  parses : ∀ moment, (dateParse (isoformat moment)).isSome

def ResultDecodes (payload : String) : Prop :=
  ∃ body, getResultReply (.ok (.result payload)) = ⟨200, some body⟩ ∧ Web.parseJobResult body = .ok ⟨payload⟩

namespace Dates

variable (dates : Dates)

/-- A row as the page has it when nothing was lost. -/
def job (row : JobSummary) : Web.Job :=
  ⟨row.id, row.kind, row.status, dates.isoformat row.createdAt, row.resultCount⟩

def event (event : AuditEntry) : Web.AuditEvent :=
  ⟨event.eventType, event.actor, dates.isoformat event.occurredAt, event.traceId⟩

def cancellation (cancellation : Cancellation) : Web.CancellationAudit :=
  ⟨cancellation.cancelledBy, dates.isoformat cancellation.cancelledAt⟩

def detail (detail : JobDetail) : Web.JobDetail :=
  ⟨detail.id, detail.companyId, detail.kind, detail.status, detail.attempts, detail.lastError,
    detail.cancellation.map dates.cancellation, detail.auditEvents.map dates.event⟩

/-- The body of a page is read as what was listed. -/
def PageDecodes (rows : List JobSummary) (total : ℕ) : Prop :=
  ∃ body, listJobsReply dates.isoformat (.ok (.page rows total)) = ⟨200, some body⟩ ∧
    Web.parseJobs dates.dateParse body = .ok (rows.map dates.job)

def DetailDecodes (detail : JobDetail) : Prop :=
  ∃ body, getJobReply dates.isoformat (.ok (.job detail)) = ⟨200, some body⟩ ∧
    Web.parseJobDetail dates.dateParse body = .ok (dates.detail detail)

theorem requireDateTime (moment : Micros) (field : String) :
    Web.requireDateTime dates.dateParse (.string (dates.isoformat moment)) field = .ok (dates.isoformat moment) :=
  Web.requireDateTime_string _ (dates.visible moment) (dates.parses moment)

end Dates

section Bodies

variable (dates : Dates)

/-- The columns of a job that a stored row cannot have otherwise. -/
structure Presentable (id : ℕ) (kind : String) : Prop where
  positive : 0 < id
  small : id ≤ 2147483647
  kind : jobKind kind = some kind

/-- A row whose kind the page takes for blank is refused, and any other is read as it is. -/
theorem parseJob_body {row : JobSummary} (shown : Presentable row.id row.kind) (single : row.resultCount ≤ 1) :
    ∃ value, row.body dates.isoformat = some value ∧
      (Visible isTrimmed row.kind → Web.parseJob dates.dateParse value = .ok (dates.job row)) ∧
      (¬ Visible isTrimmed row.kind →
        Web.parseJob dates.dateParse value = .error (Web.invalidField "kind")) := by
  have small := shown.small
  have id := Web.requirePositiveInteger_natCast "id" (by omega : row.id ≤ 9007199254740991) shown.positive
  have count := Web.requireNonNegativeInteger_natCast "result_count"
    (by omega : row.resultCount ≤ 9007199254740991) none rfl
  have created := dates.requireDateTime row.createdAt "created_at"
  have body : row.body dates.isoformat = some (.object [("id", .number (some (row.id : ℚ))), ("kind", .string row.kind),
      ("status", .string row.status.text), ("created_at", .string (dates.isoformat row.createdAt)),
      ("result_count", .number (some (row.resultCount : ℚ)))]) := by
    simp [JobSummary.body, shown.kind, shown.positive, single, guard]
  refine ⟨_, body, fun visible => ?_, fun blank => ?_⟩
  · have kind := Web.requireNonEmptyString_visible "kind" visible
    simp [Web.parseJob, Web.requireRecord, Web.property, List.lookup_cons, id, kind, count, created]
    rfl
  · have kind := Web.requireNonEmptyString_blank "kind" blank
    simp [Web.parseJob, Web.requireRecord, Web.property, List.lookup_cons, id, kind]
    rfl

/-- A page is read row by row, and one refused row refuses it. -/
theorem parse_rows {α β γ : Type} {ε : Type} {body : α → Option β} {parse : β → Except ε γ} {shown : α → γ}
    {good : α → Prop} {error : ε} {rows : List α}
    (each : ∀ row ∈ rows, ∃ value, body row = some value ∧ (good row → parse value = .ok (shown row)) ∧
      (¬ good row → parse value = .error error)) :
    ∃ values, rows.mapM body = some values ∧
      ((∀ row ∈ rows, good row) → values.mapM parse = .ok (rows.map shown)) ∧
      ((∃ row ∈ rows, ¬ good row) → values.mapM parse = .error error) := by
  induction rows with
  | nil => exact ⟨[], rfl, fun _ => rfl, fun ⟨row, member, _⟩ => absurd member List.not_mem_nil⟩
  | cons row rows ih =>
    obtain ⟨value, first, accepted, refused⟩ := each row List.mem_cons_self
    obtain ⟨values, rest, all, one⟩ := ih fun other member => each other (List.mem_cons_of_mem _ member)
    refine ⟨value :: values, by rw [List.mapM_cons, first, rest]; rfl, fun every => ?_, fun some => ?_⟩
    · rw [List.mapM_cons, accepted (every row List.mem_cons_self),
        all fun other member => every other (List.mem_cons_of_mem _ member)]
      rfl
    · rw [List.mapM_cons]
      by_cases fine : good row
      · obtain ⟨other, member, bad⟩ := some
        have later : other ∈ rows := by
          rcases List.mem_cons.mp member with rfl | later
          · exact absurd fine bad
          · exact later
        rw [accepted fine, one ⟨other, later, bad⟩]
        rfl
      · rw [refused fine]
        rfl

private theorem requireNullableString_optional (text : Option String) (field : String) :
    Web.requireNullableString (optional text) field = .ok text := by
  cases text <;> rfl

private theorem parseAuditEvent_body {event : AuditEntry} (actor : Visible isTrimmed event.actor) :
    Web.parseAuditEvent dates.dateParse (event.body dates.isoformat) = .ok (dates.event event) := by
  have named := Web.requireNonEmptyString_visible "audit_events.actor" actor
  have occurred := dates.requireDateTime event.occurredAt "audit_events.occurred_at"
  have traced := requireNullableString_optional event.traceId "audit_events.trace_id"
  simp [Web.parseAuditEvent, AuditEntry.body, Web.requireRecord, Web.property, List.lookup_cons, named, occurred, traced]
  rfl

private theorem parseAuditEvents_body {events : List AuditEntry}
    (actors : ∀ event ∈ events, Visible isTrimmed event.actor) :
    Web.parseAuditEvents dates.dateParse (.array (events.map (AuditEntry.body dates.isoformat))) =
      .ok (events.map dates.event) := by
  change (events.map _).mapM _ = _
  induction events with
  | nil => rfl
  | cons event events ih =>
    rw [List.map_cons, List.mapM_cons, parseAuditEvent_body dates (actors event List.mem_cons_self),
      ih fun other member => actors other (List.mem_cons_of_mem _ member)]
    rfl

private theorem parseCancellation_body {cancellation : Option Cancellation}
    (actors : ∀ audit, cancellation = some audit → Visible isTrimmed audit.cancelledBy) :
    Web.parseCancellation dates.dateParse (cancellation.elim .null (Cancellation.body dates.isoformat)) =
      .ok (cancellation.map dates.cancellation) := by
  cases cancellation with
  | none => rfl
  | some audit =>
    have named := Web.requireNonEmptyString_visible "cancellation.cancelled_by" (actors audit rfl)
    have requested := dates.requireDateTime audit.cancelledAt "cancellation.cancelled_at"
    simp [Web.parseCancellation, Cancellation.body, Web.property, List.lookup_cons, named, requested]
    rfl

/-- A detail is refused only for its kind. -/
private theorem parseJobDetail_body (detail : JobDetail) (shown : Presentable detail.id detail.kind)
    (owner : 0 < detail.companyId ∧ detail.companyId ≤ 2147483647) (attempted : detail.attempts ≤ 3)
    (actors : ∀ event ∈ detail.auditEvents, Visible isTrimmed event.actor)
    (cancelled : ∀ audit, detail.cancellation = some audit → Visible isTrimmed audit.cancelledBy) :
    ∃ value, detail.body dates.isoformat = some value ∧
      (Visible isTrimmed detail.kind → Web.parseJobDetail dates.dateParse value = .ok (dates.detail detail)) ∧
      (¬ Visible isTrimmed detail.kind →
        Web.parseJobDetail dates.dateParse value = .error (Web.invalidField "kind")) := by
  have small := shown.small
  have id := Web.requirePositiveInteger_natCast "id" (by omega : detail.id ≤ 9007199254740991) shown.positive
  have company := Web.requirePositiveInteger_natCast "company_id"
    (by omega : detail.companyId ≤ 9007199254740991) owner.1
  have attempts := Web.requireNonNegativeInteger_natCast "attempts"
    (by omega : detail.attempts ≤ 9007199254740991) (some 3) (decide_eq_false (by omega))
  have failed := requireNullableString_optional detail.lastError "last_error"
  have events := parseAuditEvents_body dates actors
  have cancellation := parseCancellation_body dates cancelled
  have body : detail.body dates.isoformat = some (.object [("id", .number (some (detail.id : ℚ))),
      ("company_id", .number (some (detail.companyId : ℚ))), ("kind", .string detail.kind),
      ("status", .string detail.status.text), ("attempts", .number (some (detail.attempts : ℚ))),
      ("last_error", optional detail.lastError),
      ("cancellation", detail.cancellation.elim .null (Cancellation.body dates.isoformat)),
      ("audit_events", .array (detail.auditEvents.map (AuditEntry.body dates.isoformat)))]) := by
    simp [JobDetail.body, shown.kind, shown.positive, owner.1, attempted, guard]
  refine ⟨_, body, fun visible => ?_, fun blank => ?_⟩
  · have kind := Web.requireNonEmptyString_visible "kind" visible
    simp [Web.parseJobDetail, Web.requireRecord, Web.property, List.lookup_cons, id, company, kind, attempts, failed,
      events, cancellation]
    rfl
  · have kind := Web.requireNonEmptyString_blank "kind" blank
    simp [Web.parseJobDetail, Web.requireRecord, Web.property, List.lookup_cons, id, company, kind, failed, cancellation]
    rfl

private theorem parseJobResult_body {payload : String} (trimmed : Visible isTrimmed payload)
    (python : Visible isPythonSpace payload) (clean : payload.toList.any isControl = false) :
    ∃ value, resultBody payload = some value ∧ Web.parseJobResult value = .ok ⟨payload⟩ := by
  have text := Web.requireNonEmptyString_visible "payload" trimmed
  refine ⟨.object [("payload", .string payload)], ?_, ?_⟩
  · simp [resultBody, jobPayload_some python clean]
  · simp [Web.parseJobResult, Web.requireRecord, Web.property, text]

end Bodies

section Rows

variable {start world : Service}

/-- What the routes and the checks of the tables say about a stored job. -/
theorem stored_presentable (fresh : Fresh start)
    (reached : World.Reaches (service Request.served) start world) {jobId : ℕ} {row : Job}
    (stored : world.state.job? jobId = some row) : Presentable row.id row.kind ∧ 0 < row.companyId := by
  obtain ⟨range, traceId, key, submittedBy, requested⟩ := reachable_sourced fresh reached stored
  simp only [Request.served, Bool.and_eq_true, decide_eq_true_eq] at requested
  obtain ⟨positive, small⟩ := of_decide_eq_true range
  exact ⟨⟨positive, small, requested.1.1.2⟩, requested.1.1.1⟩

/-- The rows of a page are presentable, and have at most one result. -/
theorem page_presentable (fresh : Fresh start)
    (reached : World.Reaches (service Request.served) start world) {companyId limit offset : ℕ}
    {status : Option JobStatus} {row : JobSummary}
    (member : row ∈ pageOf world.state companyId limit offset status) :
    Presentable row.id row.kind ∧ row.resultCount ≤ 1 := by
  obtain ⟨job, inside, rfl⟩ := List.mem_map.mp member
  have listed : job ∈ world.state.jobsOf companyId status :=
    (List.mem_insertionSort _).mp (List.mem_of_mem_drop (List.mem_of_mem_take inside))
  have stored := Store.mem_jobs.mp (List.mem_filter.mp listed).1
  exact ⟨(stored_presentable fresh reached stored).1, world.state.results.countP_key_le_one job.id⟩

/-- The events that a detail lists have legible actors. -/
private theorem listed_actors (fresh : Fresh start)
    (reached : World.Reaches (service Request.served) start world) (companyId jobId : ℕ) :
    ∀ event ∈ Listed world.state companyId jobId, Visible isTrimmed event.actor := by
  intro event member
  obtain ⟨stored, inside, rfl⟩ := List.mem_map.mp member
  have kept := (List.mem_insertionSort _).mp inside
  exact ((reachable_texts fresh reached).actors stored (List.mem_filter.mp kept).1).trimmed

/-- A job is cancelled, another is created whose kind is U+FEFF, and the jobs are listed. -/
def blankKind : List Step :=
  .spawn 0 .client :: submission 0 "a" ++ .start 0 (.request (.cancelJob 1 1 "1:user" none)) :: statements 0 5 ++
    .finish 0 :: .start 0 (.request (.createJob 1 "\uFEFF" none "b" (some "1:user"))) :: statements 0 9 ++
    .finish 0 :: .start 0 (.request (.listPage 1 50 0 none)) :: statements 0 4

/-- At the start of the clock, which is when everything happens here. -/
def epoch : Dates where
  isoformat _ := "1970-01-01T00:00:00Z"
  dateParse text := if text = "1970-01-01T00:00:00Z" then some 0 else none
  visible _ := ⟨'1', by simp, by decide⟩
  parses _ := rfl

/-- The kind is accepted by the API and by the database, and the whole listing is refused for it. -/
theorem listing_refused : jobKind "\uFEFF" = some "\uFEFF" ∧
    kindAccepted office.state.isSpace "\uFEFF" = true ∧
    ∃ world rows total, Answered Request.served office world 0 (.listPage 1 50 0 none) (.ok (.page rows total)) ∧
      rows.map JobSummary.kind = ["\uFEFF", "report"] ∧
      (listJobsReply epoch.isoformat (.ok (.page rows total))).body.map (Web.parseJobs epoch.dateParse) =
        some (.error "Campo inválido: kind") := by
  have accepted : jobKind "\uFEFF" = some "\uFEFF" := by decide +kernel
  have page : (office.runActions (service Request.served) blankKind).bind (answer? · 0) =
      some (.listPage 1 50 0 none, .ok (.page [⟨2, "\uFEFF", .queued, 0, 0⟩, ⟨1, "report", .cancelled, 0, 0⟩] 2)) := by
    decide +kernel
  obtain ⟨world, answered⟩ := answered_of_run page
  exact ⟨accepted, by decide +kernel, world, _, _, answered, rfl, by decide +kernel⟩

/-- The database accepts every kind that the API accepts, and the page reads every result. It reads a page
exactly if the kind of every listed job has a character that `trim` keeps, and a detail exactly if the kind of
the job has one. -/
theorem decodes_iff (dates : Dates) (fresh : Fresh start)
    (spaces : ∀ c, start.state.isSpace c = true → isWhiteSpace c = true)
    (serial : ∀ company ∈ start.state.companies.rows, serialRange company.id = true) {pid : ℕ} :
    (∀ value kind, jobKind value = some kind →
      kindAccepted start.state.isSpace kind = true ∧ jobKind kind = some kind) ∧
    (∀ companyId limit offset status rows total,
      Answered Request.served start world pid (.listPage companyId limit offset status) (.ok (.page rows total)) →
        (dates.PageDecodes rows total ↔ ∀ row ∈ rows, Visible isTrimmed row.kind)) ∧
    (∀ companyId jobId detail,
      Answered Request.served start world pid (.getJob companyId jobId) (.ok (.job detail)) →
        (dates.DetailDecodes detail ↔ Visible isTrimmed detail.kind)) ∧
    ∀ companyId jobId payload,
      Answered Request.served start world pid (.getResult companyId jobId) (.ok (.result payload)) →
        ResultDecodes payload := by
  refine ⟨fun value kind accepted => ⟨kindAccepted_of_jobKind spaces accepted, strippedText_again accepted⟩,
    ?_, ?_, ?_⟩
  · intro companyId limit offset status rows total answered
    obtain ⟨first, _, asked, _, listed, _⟩ := answered.seen fresh rows total rfl
    have each : ∀ row ∈ rows, ∃ value, row.body dates.isoformat = some value ∧
        (Visible isTrimmed row.kind → Web.parseJob dates.dateParse value = .ok (dates.job row)) ∧
        (¬ Visible isTrimmed row.kind →
          Web.parseJob dates.dateParse value = .error (Web.invalidField "kind")) := by
      intro row member
      obtain ⟨shown, single⟩ := page_presentable fresh asked.reached (listed ▸ member)
      exact parseJob_body dates shown single
    obtain ⟨values, bodies, accepted, refused⟩ := parse_rows each
    have reply : listJobsReply dates.isoformat (.ok (.page rows total)) = ⟨200, some (.array values)⟩ := by
      rw [listJobsReply, bodies]
      rfl
    constructor
    · rintro ⟨body, same, decoded⟩
      rw [reply] at same
      cases same
      by_contra some
      push Not at some
      have error := refused some
      rw [Web.parseJobs, error] at decoded
      cases decoded
    · exact fun visible => ⟨_, reply, accepted visible⟩
  · intro companyId jobId detail answered
    obtain ⟨first, second, row, asked, listed, stored, _, rfl⟩ := answered.seen fresh detail rfl
    obtain ⟨shown, positive⟩ := stored_presentable fresh asked.reached stored
    have valid := reachable_valid fresh asked.reached
    have actors := listed_actors fresh listed.reached companyId jobId
    have small : row.companyId ≤ 2147483647 := by
      obtain ⟨company, found⟩ := Option.isSome_iff_exists.mp (valid.owners stored)
      have range := of_decide_eq_true (serial company (Table.find?_mem found))
      rw [← Table.find?_key found]
      exact range.2
    have cancelled : ∀ audit, (detailOf row (Listed second.state companyId jobId)).cancellation = some audit →
        Visible isTrimmed audit.cancelledBy := by
      intro audit same
      obtain ⟨event, found, rfl⟩ := Option.map_eq_some_iff.mp same
      exact actors event (List.mem_of_find?_eq_some found)
    obtain ⟨value, body, accepted, refused⟩ := parseJobDetail_body dates
      (detailOf row (Listed second.state companyId jobId)) shown ⟨positive, small⟩
      (valid.wellFormed stored).attempts_le actors cancelled
    have reply : getJobReply dates.isoformat (.ok (.job (detailOf row (Listed second.state companyId jobId)))) =
        ⟨200, some value⟩ := by
      rw [getJobReply, body]
      rfl
    constructor
    · rintro ⟨body, same, decoded⟩
      rw [reply] at same
      cases same
      by_contra blank
      rw [refused blank] at decoded
      cases decoded
    · exact fun visible => ⟨_, reply, accepted visible⟩
  · intro companyId jobId payload answered
    obtain ⟨first, asked, found⟩ := answered.seen fresh payload rfl
    obtain ⟨result, stored, kept⟩ := Option.bind_eq_some_iff.mp found
    obtain ⟨job, _, kept⟩ := Option.bind_eq_some_iff.mp kept
    split at kept
    · cases kept
      obtain ⟨legible, clean⟩ := (reachable_texts fresh asked.reached).payloads jobId result stored
      obtain ⟨value, body, decoded⟩ := parseJobResult_body legible.trimmed legible.python clean
      refine ⟨value, ?_, decoded⟩
      rw [getResultReply, body]
      rfl
    · cases kept

/-- A finished job is listed, and the page reads the listing. -/
theorem decodes_office : ∃ world rows total,
    Answered Request.served office world 0 (.listPage 1 50 0 none) (.ok (.page rows total)) ∧
    rows.map JobSummary.status = [.done] ∧ epoch.PageDecodes rows total := by
  have page : (office.runActions (service Request.served)
      (finishedJob ++ .start 0 (.request (.listPage 1 50 0 none)) :: statements 0 4)).bind (answer? · 0) =
        some (.listPage 1 50 0 none, .ok (.page [⟨1, "report", .done, 0, 1⟩] 1)) := by decide +kernel
  obtain ⟨world, answered⟩ := answered_of_run page
  have spaces : ∀ c, office.state.isSpace c = true → isWhiteSpace c = true := by
    intro c blank
    rw [of_decide_eq_true blank]
    decide
  have serial : ∀ company ∈ office.state.companies.rows, serialRange company.id = true := by
    intro company member
    rw [List.mem_singleton.mp member]
    decide
  obtain ⟨_, pages, _⟩ := @decodes_iff _ world epoch office_fresh spaces serial 0
  refine ⟨world, _, _, answered, rfl, (pages 1 50 0 none _ _ answered).mpr fun row member => ?_⟩
  rw [List.mem_singleton.mp member]
  exact ⟨'r', by simp, by decide⟩

end Rows

end JobRelay.Guarantees
