import JobRelay.Sessions.Traces
import JobRelay.Soundness.Calls

/-! # What a response was made from

A request answers with the outcome of its one transaction body, or with a failure of the database or the
connection. So what the body saw at its statements, in worlds of the run, accounts for every response.
-/

namespace JobRelay.Soundness

open Model Sessions

variable {admits : Request → Bool} {start world : Service}

/-- A fact about an outcome that no later world takes back. -/
def Lasting (admits : Request → Bool) (saw : Except Exc Response → Service → Prop) : Prop :=
  ∀ outcome before after, saw outcome before → World.Reaches (service admits) before after → saw outcome after

/-- What is known of what a request returns: the outcome its body accounts for, or a failure. -/
def Accounted (saw : Except Exc Response → Service → Prop) (value : Return) (world : Service) : Prop :=
  ∃ outcome, value = .response outcome ∧ (saw outcome world ∨ ∃ error, outcome = .error error ∧ Failure error)

theorem failure_of_fails {q : Sql} {tx : Option Tx} {s : Store} {error : Exc}
    (fails : (service admits).Fails q tx s error) : Failure error := by
  rcases fails with fault | ⟨_, _, failed⟩
  · exact fault
  · exact answer_fails failed

/-- What a body accounts for, or a failure. -/
def Accounts (saw : Except Exc Response → Service → Prop) (outcome : Except Exc Response) (_ : Option Tx)
    (world : Service) : Prop :=
  saw outcome world ∨ ∃ error, outcome = .error error ∧ Failure error

/-- The transaction around a body passes its outcome on, or fails. -/
theorem ending_traced {request : Request} {body : Prog Response} {saw : Except Exc Response → Service → Prop}
    (lasting : Lasting admits saw) {pid : ℕ} {tx : Option Tx} {since : Service}
    (traced : body.Traced (service admits) start pid (Accounts saw) tx since) :
    (ending request body).Traced (service admits) start pid
      (fun result _ world => ∃ value, result = .ok value ∧ Accounted saw value world) tx since := by
  induction body generalizing tx since with
  | ret response =>
    intro world visited
    refine ⟨⟨_, rfl, _, rfl, ?_⟩, fun error fault => ⟨_, rfl, _, rfl, .inr ⟨error, rfl, fault⟩⟩⟩
    exact traced.imp_left fun seen => lasting _ _ _ seen visited.later
  | raise error =>
    intro world visited
    exact ⟨_, rfl, _, rfl, traced.imp_left fun seen => lasting _ _ _ seen visited.later⟩
  | query q next ih =>
    exact fun world visited => ⟨fun choice answer after opened ran =>
      ih _ ((traced world visited).1 choice answer after opened ran),
      fun error fails => ih _ ((traced world visited).2 error fails)⟩
  | commit label next ih =>
    exact fun world visited => ⟨ih _ (traced world visited).1, fun error fault =>
      ih _ ((traced world visited).2 error fault)⟩
  | rollback label next ih | publish label next ih => exact fun world visited => ih (traced world visited)
  | await next ih => exact fun choice => ih choice (traced choice)

/-- What its body accounts for from an empty transaction on, a request accounts for when it returns. -/
theorem reachable_accounted (fresh : Fresh start) (reached : World.Reaches (service admits) start world)
    {saw : ℕ → Except Exc Response → Service → Prop} (lasting : ∀ pid, Lasting admits (saw pid)) {request : Request}
    (serves : ∀ pid since tx, World.Reaches (service admits) start since → tx.writes = [] →
      (JobsService.serve request).Traced (service admits) start pid (Accounts (saw pid)) (some tx) since)
    {proc : Proc ℕ Mode Call Tx Sql Sql.Answer Choice Exc Label Return} (member : proc ∈ world.procs.rows)
    (called : proc.call = some (.request request)) {value : Return}
    (returned : proc.program = some (.ret value)) : Accounted (saw proc.pid) value world := by
  have traces := World.traced (R := Return) (P := fun pid call result _ world => call = .request request →
      ∃ value, result = .ok value ∧ Accounted (saw pid) value world) ?_ fresh.procs reached proc member
  · obtain ⟨since, _, later, traced⟩ := traces.left _ _ called returned
    obtain ⟨_, same, outcome, rfl, seen⟩ := traced rfl
    cases same
    exact ⟨outcome, rfl, seen.imp_left fun seen => lasting _ _ _ _ seen later⟩
  · intro pid call since early
    by_cases same : call = .request request
    · subst same
      change (ending request (do exec .begin; JobsService.serve request)).Traced _ _ _ _ _ _
      refine (ending_traced (lasting pid) ?_).weaken fun result tx world accounted _ => accounted
      refine Program.Traced.bind (Program.Traced.exec (P := fun result tx world =>
        (result = .ok () → World.Reaches (service admits) start world ∧ ∃ opened, tx = some opened ∧ opened.writes = []) ∧
          ∀ error, result = .error error → Failure error) ?_ ?_) ?_ ?_
      · intro world visited choice answer after opened ran
        cases ran
        exact ⟨fun _ => ⟨visited.reached, _, rfl, rfl⟩, nofun⟩
      · exact fun world error fails => ⟨nofun, fun _ same => by cases same; exact failure_of_fails fails⟩
      · intro value tx world began
        obtain ⟨reached, opened, rfl, silent⟩ := began.1 rfl
        exact serves pid world opened reached silent
      · exact fun error tx world began => .inr ⟨error, rfl, began.2 error rfl⟩
    · exact Program.Traced.of_forall fun _ _ _ other => absurd other same

/-- In a world of the run, a request has been answered. -/
structure Answered (admits : Request → Bool) (start world : Service) (pid : ℕ) (request : Request)
    (result : Except Exc Response) : Prop where
  reached : World.Reaches (service admits) start world
  returned : ∃ proc ∈ world.procs.rows, proc.pid = pid ∧ proc.call = some (.request request) ∧
    proc.program = some (.ret (.response result))

/-- An answer is what the body accounts for, or a failure. -/
theorem Answered.accounted (fresh : Fresh start) {pid : ℕ} {request : Request} {result : Except Exc Response}
    (answered : Answered admits start world pid request result) (saw : ℕ → Except Exc Response → Service → Prop)
    (lasting : ∀ pid, Lasting admits (saw pid))
    (serves : ∀ pid since tx, World.Reaches (service admits) start since → tx.writes = [] →
      (JobsService.serve request).Traced (service admits) start pid (Accounts (saw pid)) (some tx) since) :
    saw pid result world ∨ ∃ error, result = .error error ∧ Failure error := by
  obtain ⟨proc, member, rfl, called, returned⟩ := answered.returned
  obtain ⟨_, same, accounted⟩ := reachable_accounted fresh answered.reached lasting serves member called returned
  cases same
  exact accounted

theorem answered_of_run {actions : List Step} {pid : ℕ} {request : Request} {result : Except Exc Response}
    (ran : (start.runActions (service admits) actions).bind (answer? · pid) = some (request, result)) :
    ∃ world, Answered admits start world pid request result := by
  obtain ⟨world, ran, found⟩ := Option.bind_eq_some_iff.mp ran
  obtain ⟨proc, stored, same⟩ := Option.bind_eq_some_iff.mp found
  refine ⟨world, ⟨actions, ran⟩, proc, Table.find?_mem stored, Table.find?_key stored, ?_⟩
  split at same
  · next called returned => cases same; exact ⟨called, returned⟩
  · cases same

/-- A process sent a statement in an earlier world of the run. -/
structure Asked (admits : Request → Bool) (start : Service) (pid : ℕ) (q : Sql) (asked world : Service) :
    Prop where
  reached : World.Reaches (service admits) start asked
  later : World.Reaches (service admits) asked world
  running : ∃ proc ∈ asked.procs.rows, proc.pid = pid ∧ proc.program.bind Program.query? = some q

theorem Asked.last {pid : ℕ} {q : Sql} {asked after : Service} (sent : Asked admits start pid q asked world)
    (later : World.Reaches (service admits) world after) : Asked admits start pid q asked after :=
  ⟨sent.reached, sent.later.trans later, sent.running⟩

private theorem asked_of_visited {pid : ℕ} {q : Sql} {tx : Option Tx} {since : Service}
    (visited : World.Visited (service admits) start pid (some q) tx since world) :
    Asked admits start pid q world world := by
  obtain ⟨proc, member, same, _, asks⟩ := visited.running
  exact ⟨visited.reached, .refl _ _, proc, member, same, asks⟩

/-- What holds when a call has answered, and of the error when it has not. -/
def Replied {α : Type} (P : α → Option Tx → Service → Prop) (F : Exc → Prop) :
    Except Exc α → Option Tx → Service → Prop
  | .ok value, tx, world => P value tx world
  | .error error, _, _ => F error

/-- A statement that reads: what holds of its answer on the committed rows of some world. -/
theorem read_traced {pid : ℕ} {q : Sql} {tx : Tx} {since : Service} (silent : tx.writes = [])
    {P : Except Exc q.Answer → Option Tx → Service → Prop}
    (reads : ∀ s others choice answer after opened, q.answer s others choice tx = .ok (answer, after, opened) →
      opened.writes = tx.writes)
    (answered : ∀ world opened answer, Asked admits start pid q world world →
      World.Reaches (service admits) since world → opened.writes = [] →
      (∃ others choice after, q.answer world.state others choice tx = .ok (answer, after, opened)) →
        P (.ok answer) (some opened) world)
    (failed : ∀ world error, Failure error → P (.error error) none world) :
    (exec q).Traced (service admits) start pid P (some tx) since := by
  refine Program.Traced.exec (fun world visited choice answer after opened ran => ?_)
    fun world error fails => failed world error (failure_of_fails fails)
  exact answered world opened answer (asked_of_visited visited) visited.later
    ((reads _ _ _ _ _ _ ran).trans silent) ⟨_, choice, after, ran⟩

/-- Whatever a statement answers, it raises nothing but a failure. -/
theorem exec_traced {q : Sql} {pid : ℕ} {tx : Option Tx} {since : Service} :
    (exec q).Traced (service admits) start pid (fun result _ _ => match result with
      | .ok _ => True
      | .error error => Failure error) tx since :=
  Program.Traced.exec (fun _ _ _ _ _ _ _ => trivial) fun _ _ fails => failure_of_fails fails

/-- A statement that writes nothing and is only asked for what it locks or counts. -/
theorem silent_traced {q : Sql} {pid : ℕ} {tx : Tx} {since : Service} (silent : tx.writes = [])
    (keeps : ∀ s others choice answer after opened, q.answer s others choice tx = .ok (answer, after, opened) →
      opened.writes = tx.writes) :
    (exec q).Traced (service admits) start pid (fun result tx _ => match result with
      | .ok _ => ∃ opened, tx = some opened ∧ opened.writes = []
      | .error error => Failure error) (some tx) since :=
  read_traced silent keeps (fun _ opened _ _ _ written _ => ⟨opened, rfl, written⟩) fun _ _ failure => failure

/-- The detail of a job as a row and its events make it. -/
def detailOf (row : Job) (events : List AuditEntry) : JobDetail :=
  ⟨⟨row.id, row.companyId, row.kind, row.status, row.attempts, row.lastError⟩,
    (events.find? fun event => decide (event.eventType = .cancelled)).map
      fun event => ⟨event.actor, event.occurredAt⟩, events⟩

/-- The events of a job as `get_job` lists them. -/
def Listed (s : Store) (companyId jobId : ℕ) : List AuditEntry :=
  ((s.auditEventsOf companyId jobId).insertionSort AuditEvent.NotLater).map
    fun event => ⟨event.eventType, event.actor, event.occurredAt, event.traceId⟩

/-- `get_job` reads the row in one world and the events in a later one. -/
def Detailed (admits : Request → Bool) (start : Service) (pid companyId jobId : ℕ) (detail : JobDetail)
    (world : Service) : Prop :=
  ∃ first second row, Asked admits start pid (.selectJob companyId jobId) first second ∧
    Asked admits start pid (.selectAuditEvents companyId jobId) second world ∧
    first.state.job? jobId = some row ∧ row.companyId = companyId ∧
    detail = detailOf row (Listed second.state companyId jobId)

theorem getJob_traced {pid companyId jobId : ℕ} {tx : Tx} {since : Service} (silent : tx.writes = []) :
    (JobsService.getJob companyId jobId).Traced (service admits) start pid
      (fun result _ world => match result with
        | .ok detail => Detailed admits start pid companyId jobId detail world
        | .error error => error = .jobNotFound jobId ∨ Failure error) (some tx) since := by
  refine Program.Traced.bind (read_traced silent (P := Replied (fun found tx world =>
      ∃ opened, tx = some opened ∧ opened.writes = [] ∧
        Asked admits start pid (.selectJob companyId jobId) world world ∧
        ∀ head, found = some head → ∃ row, world.state.job? jobId = some row ∧ row.companyId = companyId ∧
          head = ⟨row.id, row.companyId, row.kind, row.status, row.attempts, row.lastError⟩) Failure) ?_ ?_ fun _ _ fails => fails) ?_ ?_
  · intro s others choice answer after opened ran
    cases ran
    rfl
  · rintro world opened found asked _ written ⟨others, choice, after, ran⟩
    refine ⟨opened, rfl, written, asked, fun head same => ?_⟩
    cases ran
    rw [Tx.view, silent, List.foldl_nil, Option.map_eq_some_iff] at same
    obtain ⟨row, kept, rfl⟩ := same
    obtain ⟨stored, owned⟩ := Option.filter_eq_some_iff.mp kept
    exact ⟨row, stored, of_decide_eq_true owned, rfl⟩
  · rintro (_ | head) tx first ⟨opened, rfl, written, asked, known⟩
    · exact .inl rfl
    · obtain ⟨row, stored, owned, rfl⟩ := known head rfl
      refine Program.Traced.bind (read_traced written (P := Replied (fun events _ second =>
          ∃ seen, Asked admits start pid (.selectJob companyId jobId) first seen ∧
            Asked admits start pid (.selectAuditEvents companyId jobId) seen second ∧
            events = Listed seen.state companyId jobId) Failure) ?_ ?_ fun _ _ fails => fails) ?_ fun _ _ _ fails => .inr fails
      · intro s others choice answer after opened ran
        cases ran
        rfl
      · rintro second opened events seen later _ ⟨others, choice, after, ran⟩
        cases ran
        refine ⟨second, asked.last later, seen, ?_⟩
        rw [Tx.view, written, List.foldl_nil]
        rfl
      · rintro events tx world ⟨seen, before, after, rfl⟩
        exact ⟨first, seen, row, before, after, stored, owned, rfl⟩
  · exact fun error tx world fails => .inr fails

/-- A page of a company's jobs as `list_jobs` returns it. -/
def pageOf (s : Store) (companyId limit offset : ℕ) (status : Option JobStatus) : List JobSummary :=
  ((((s.jobsOf companyId status).insertionSort Job.NotOlder).drop offset).take limit).map fun job =>
    ⟨job.id, job.kind, job.status, job.createdAt,
      s.results.rows.countP fun result => decide (result.jobId = job.id)⟩

/-- `GET /jobs` lists the jobs in one world and counts them in a later one. -/
def Paged (admits : Request → Bool) (start : Service) (pid companyId limit offset : ℕ) (status : Option JobStatus)
    (rows : List JobSummary) (total : ℕ) (world : Service) : Prop :=
  ∃ first second, Asked admits start pid (.listJobs companyId limit offset status) first second ∧
    Asked admits start pid (.countJobs companyId status) second world ∧
    rows = pageOf first.state companyId limit offset status ∧
    total = (second.state.jobsOf companyId status).length

theorem listPage_traced {pid companyId limit offset : ℕ} {status : Option JobStatus} {tx : Tx} {since : Service}
    (silent : tx.writes = []) :
    (JobsService.serve (.listPage companyId limit offset status)).Traced (service admits) start pid
      (fun result _ world => match result with
        | .ok response => ∃ rows total, response = .page rows total ∧
            Paged admits start pid companyId limit offset status rows total world
        | .error error => Failure error) (some tx) since := by
  refine Program.Traced.bind (read_traced silent (P := Replied (fun rows tx world =>
      ∃ opened, tx = some opened ∧ opened.writes = [] ∧
        Asked admits start pid (.listJobs companyId limit offset status) world world ∧
        rows = pageOf world.state companyId limit offset status) Failure) ?_ ?_ fun _ _ fails => fails) ?_ fun _ _ _ fails => fails
  · intro s others choice answer after opened ran
    cases ran
    rfl
  · rintro world opened rows asked _ written ⟨others, choice, after, ran⟩
    refine ⟨opened, rfl, written, asked, ?_⟩
    cases ran
    rw [Tx.view, silent, List.foldl_nil]
    rfl
  · rintro rows tx first ⟨opened, rfl, written, asked, listed⟩
    refine Program.Traced.bind (read_traced written (P := Replied (fun total _ second =>
        Asked admits start pid (.listJobs companyId limit offset status) first second ∧
          Asked admits start pid (.countJobs companyId status) second second ∧
          total = (second.state.jobsOf companyId status).length) Failure) ?_ ?_ fun _ _ fails => fails) ?_ fun _ _ _ fails => fails
    · intro s others choice answer after opened ran
      cases ran
      rfl
    · rintro second opened total seen later _ ⟨others, choice, after, ran⟩
      refine ⟨asked.last later, seen, ?_⟩
      cases ran
      rw [Tx.view, written, List.foldl_nil]
    · rintro total tx second ⟨before, after, counted⟩
      exact ⟨rows, total, rfl, first, second, before, after, listed, counted⟩

/-- `get_result` reads the payload in one world. -/
def Fetched (admits : Request → Bool) (start : Service) (pid companyId jobId : ℕ) (payload : String)
    (world : Service) : Prop :=
  ∃ first, Asked admits start pid (.selectResult companyId jobId) first world ∧
    first.state.resultOf? companyId jobId = some payload

theorem getResult_traced {pid companyId jobId : ℕ} {tx : Tx} {since : Service} (silent : tx.writes = []) :
    (JobsService.getResult companyId jobId).Traced (service admits) start pid
      (fun result _ world => match result with
        | .ok payload => Fetched admits start pid companyId jobId payload world
        | .error error => error = .resultNotFound jobId ∨ Failure error) (some tx) since := by
  refine Program.Traced.bind (read_traced silent (P := fun result _ world => match result with
    | .ok found => Asked admits start pid (.selectResult companyId jobId) world world ∧
        found = world.state.resultOf? companyId jobId
    | .error error => Failure error) ?_ ?_ fun _ _ fails => fails) ?_ fun _ _ _ fails => .inr fails
  · intro s others choice answer after opened ran
    cases ran
    rfl
  · rintro world opened found asked _ _ ⟨others, choice, after, ran⟩
    cases ran
    rw [Tx.view, silent, List.foldl_nil]
    exact ⟨asked, rfl⟩
  · rintro (_ | payload) tx world ⟨asked, found⟩
    · exact .inl rfl
    · exact ⟨world, asked, found.symm⟩

/-- What the reads of a request account for. -/
def Seen (admits : Request → Bool) (start : Service) (request : Request) (pid : ℕ)
    (outcome : Except Exc Response) (world : Service) : Prop :=
  match request with
  | .getJob companyId jobId => ∀ detail, outcome = .ok (.job detail) →
      Detailed admits start pid companyId jobId detail world
  | .listPage companyId limit offset status => ∀ rows total, outcome = .ok (.page rows total) →
      Paged admits start pid companyId limit offset status rows total world
  | .getResult companyId jobId => ∀ payload, outcome = .ok (.result payload) →
      Fetched admits start pid companyId jobId payload world
  | _ => True

private theorem seen_lasting (request : Request) (pid : ℕ) : Lasting admits (Seen admits start request pid) := by
  intro outcome before after seen later
  cases request with
  | getJob companyId jobId =>
    intro detail same
    obtain ⟨first, second, row, asked, listed, found⟩ := seen detail same
    exact ⟨first, second, row, asked, listed.last later, found⟩
  | listPage companyId limit offset status =>
    intro rows total same
    obtain ⟨first, second, asked, counted, found⟩ := seen rows total same
    exact ⟨first, second, asked, counted.last later, found⟩
  | getResult companyId jobId =>
    intro payload same
    obtain ⟨first, asked, found⟩ := seen payload same
    exact ⟨first, asked.last later, found⟩
  | _ => trivial

private theorem seen_traced (request : Request) {pid : ℕ} {tx : Tx} {since : Service} (silent : tx.writes = []) :
    (JobsService.serve request).Traced (service admits) start pid
      (Accounts (Seen admits start request pid)) (some tx) since := by
  cases request with
  | getJob companyId jobId =>
    refine (getJob_traced silent).bind ?_ ?_
    · rintro detail tx world detailed
      refine .inl fun _ same => ?_
      cases same
      exact detailed
    · rintro error tx world _
      exact .inl fun _ same => (by cases same)
  | listPage companyId limit offset status =>
    refine (listPage_traced silent).weaken ?_
    rintro (error | _) tx world accounted
    · exact .inl fun _ _ same => (by cases same)
    · obtain ⟨rows, total, rfl, paged⟩ := accounted
      refine .inl fun _ _ same => ?_
      cases same
      exact paged
  | getResult companyId jobId =>
    refine (getResult_traced silent).bind ?_ ?_
    · rintro payload tx world fetched
      refine .inl fun _ same => ?_
      cases same
      exact fetched
    · rintro error tx world _
      exact .inl fun _ same => (by cases same)
  | _ => exact Program.Traced.of_forall fun _ _ _ => .inl trivial

/-- What an answered request read accounts for its response. -/
theorem Answered.seen (fresh : Fresh start) {pid : ℕ} {request : Request} {response : Response}
    (answered : Answered admits start world pid request (.ok response)) :
    Seen admits start request pid (.ok response) world := by
  refine (answered.accounted fresh (Seen admits start request) (fun pid => seen_lasting request pid)
    fun pid since tx _ silent => seen_traced request silent).resolve_right ?_
  rintro ⟨_, other, _⟩
  cases other

/-- A reply to a creation: a new job, or what a lookup of the key has found. -/
def Replies (admits : Request → Bool) (start : Service) (pid companyId : ℕ) (key : String) (job : JobState)
    (created : Bool) (world : Service) : Prop :=
  (created = true ∧ job.status = .queued ∧ serialRange job.id = true) ∨
    (created = false ∧ ∃ lookup row, Asked admits start pid (.findByIdempotencyKey companyId key) lookup world ∧
      lookup.state.jobByKey? companyId key = some row ∧ job = ⟨row.id, row.status⟩)

section Creation

variable {pid companyId : ℕ} {kind : String} {traceId : Option String} {key : String} {submittedBy : Option String}
  {tx : Tx} {since : Service}

/-- The answer of a creation, however it fails. -/
private abbrev Created (admits : Request → Bool) (start : Service) (pid companyId : ℕ) (key : String)
    (result : Except Exc (JobState × Bool)) (_ : Option Tx) (world : Service) : Prop :=
  ∀ value, result = .ok value → Replies admits start pid companyId key value.1 value.2 world

/-- A lookup of the key, and the replay of what it finds. -/
private theorem lookup_traced (kind : String) (silent : tx.writes = []) {next : Option Existing → Prog (JobState × Bool)}
    (found : ∀ existing, next (some existing) =
      (JobsService.replay existing kind).bind fun job => .ret (job, false))
    (missing : ∀ opened world, opened.writes = [] →
      (next none).Traced (service admits) start pid (Created admits start pid companyId key) (some opened) world) :
    ((JobsService.findByIdempotencyKey companyId key).bind next).Traced (service admits) start pid
      (Created admits start pid companyId key) (some tx) since := by
  refine Program.Traced.bind (read_traced silent (P := Replied (fun existing tx world =>
      ∃ opened, tx = some opened ∧ opened.writes = [] ∧
        Asked admits start pid (.findByIdempotencyKey companyId key) world world ∧
        existing = (world.state.jobByKey? companyId key).map fun job => ⟨job.id, job.status, job.kind⟩)
      fun _ => True) ?_ ?_ fun _ _ _ => trivial) ?_ fun _ _ _ _ _ same => (by cases same)
  · intro s others choice answer after opened ran
    cases ran
    rfl
  · rintro world opened existing asked _ written ⟨others, choice, after, ran⟩
    refine ⟨opened, rfl, written, asked, ?_⟩
    cases ran
    rw [Tx.view, silent, List.foldl_nil]
  · rintro _ tx world ⟨opened, rfl, written, asked, rfl⟩
    cases stored : world.state.jobByKey? companyId key with
    | none => exact missing opened world written
    | some row =>
      rw [Option.map_some, found, JobsService.replay]
      split
      · exact fun _ same => (by cases same)
      · rintro _ ⟨⟩
        exact .inr ⟨rfl, world, row, asked, stored, rfl⟩

private theorem insertJob_traced (silent : tx.writes = []) :
    (JobsService.insertJob companyId kind traceId key submittedBy).Traced (service admits) start pid
      (Created admits start pid companyId key) (some tx) since := by
  have answers : (exec (.insertJob companyId kind traceId key)).Traced (service admits) start pid
      (fun result tx _ => match result with
        | .ok none => ∃ opened, tx = some opened ∧ opened.writes = []
        | .ok (some job) => job.status = .queued ∧ serialRange job.id = true
        | .error _ => True) (some tx) since := by
    refine Program.Traced.exec (fun world _ choice answer after opened ran => ?_) fun _ _ _ => trivial
    obtain ⟨⟨found, _, _⟩, inner, same⟩ := map_ok ran
    cases same
    obtain ⟨_, ⟨rfl, rfl, _⟩ | ⟨range, _, _, rfl, _⟩⟩ := insertJobRow_ok inner
    · exact ⟨_, rfl, silent⟩
    · exact ⟨rfl, range⟩
  refine answers.bind ?_ fun _ _ _ _ _ same => (by cases same)
  rintro (_ | job) tx world known
  · obtain ⟨opened, rfl, written⟩ := known
    exact lookup_traced kind written (fun existing => rfl) fun _ _ _ _ same => (by cases same)
  · have announced : ∀ world tx, (Program.bind (JobsService.notifyQueued job.id) fun _ => .ret (job, true)).Traced
        (service admits) start pid (Created admits start pid companyId key) tx world := by
      intro world tx
      refine exec_traced.bind ?_ fun _ _ _ _ _ same => (by cases same)
      rintro _ _ _ _ _ ⟨⟩
      exact .inl ⟨rfl, known⟩
    cases submittedBy with
    | none => exact announced world tx
    | some actor => exact exec_traced.bind (fun _ tx world _ => announced world tx) fun _ _ _ _ _ same => (by cases same)

theorem createJob_traced (silent : tx.writes = []) :
    (JobsService.createJob companyId kind traceId key submittedBy).Traced (service admits) start pid
      (Created admits start pid companyId key) (some tx) since := by
  refine lookup_traced kind silent (fun existing => rfl) fun opened world written => ?_
  refine (silent_traced written ?_).bind ?_ fun _ _ _ _ _ same => (by cases same)
  · intro s others choice answer after opened' ran
    simp only [Sql.answer] at ran
    split at ran <;> cases ran <;> rfl
  · rintro (_ | limit) tx world ⟨opened, rfl, written⟩
    · exact fun _ same => (by cases same)
    refine lookup_traced kind written (fun existing => rfl) fun opened world written => ?_
    refine (silent_traced written ?_).bind ?_ fun _ _ _ _ _ same => (by cases same)
    · intro s others choice answer after opened' ran
      cases ran
      rfl
    · rintro running tx world ⟨opened, rfl, written⟩
      change (if _ then _ else _ : Prog (JobState × Bool)).Traced _ _ _ _ _ _
      split
      · exact fun _ same => (by cases same)
      · exact insertJob_traced written

end Creation

theorem Answered.replies (fresh : Fresh start) {pid companyId : ℕ} {kind : String} {traceId : Option String}
    {key : String} {submittedBy : Option String} {job : JobState} {created : Bool}
    (answered : Answered admits start world pid (.createJob companyId kind traceId key submittedBy)
      (.ok (.created job created))) : Replies admits start pid companyId key job created world := by
  have accounted := answered.accounted fresh (fun pid outcome world => ∀ job created,
    outcome = .ok (.created job created) → Replies admits start pid companyId key job created world) ?_ ?_
  · rcases accounted with replies | ⟨_, other, _⟩
    · exact replies job created rfl
    · cases other
  · intro pid outcome before after replies later job created same
    rcases replies job created same with new | ⟨old, lookup, row, asked, found⟩
    · exact .inl new
    · exact .inr ⟨old, lookup, row, asked.last later, found⟩
  · intro pid since tx _ silent
    refine (createJob_traced silent).bind ?_ ?_
    · rintro value tx world replies
      refine .inl fun job created same => ?_
      cases same
      exact replies value rfl
    · exact fun error tx world _ => .inl fun _ _ same => (by cases same)

end JobRelay.Soundness
