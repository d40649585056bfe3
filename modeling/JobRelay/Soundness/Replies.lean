import JobRelay.Soundness.Endings
import JobRelay.Soundness.Origins
import JobRelay.Soundness.Reports

/-! # What a request may be refused with, and what it names

Every operation raises errors of its own beside those of the database. The one that no route handles, raised
where an `INSERT` yields to a row that the next `SELECT` does not find, is unreachable: a stored job keeps its
company and its key. What a creation, a cancellation or a retry answers is read off its commit.
-/

namespace JobRelay.Soundness

open Model Sessions

variable {admits : Request → Bool} {start world : Service}

/-- The errors that the operation of a request raises by itself. -/
def Refuses : Request → Exc → Prop
  | .getJob _ jobId, error => error = .jobNotFound jobId
  | .getResult _ jobId, error => error = .resultNotFound jobId
  | .createJob companyId .., error => error = .companyUnknown companyId ∨
      (∃ kind, error = .idempotencyKeyConflict kind) ∨ ∃ limit running, error = .concurrencyLimit limit running
  | .cancelJob _ jobId .., error => error = .jobNotFound jobId ∨ ∃ status, error = .invalidJobState status
  | .retryJob _ jobId .., error => error = .jobNotFound jobId ∨ (∃ status, error = .invalidJobState status) ∨
      ∃ attempts, error = .retryLimit attempts MAX_ATTEMPTS
  | _, _ => False

/-- An outcome is an error, if at all, of the operation or of the database. -/
def Proper {α : Type} (request : Request) (result : Except Exc α) : Prop :=
  ∀ error, result = .error error → Refuses request error ∨ Failure error

theorem Proper.ok {α : Type} {request : Request} (value : α) : Proper request (.ok value) := by
  intro error same
  cases same

theorem Proper.error {α : Type} {request : Request} {error : Exc} (refuses : Refuses request error ∨ Failure error) :
    Proper request (.error error : Except Exc α) := by
  intro other same
  cases same
  exact refuses

theorem Proper.again {α β : Type} {request : Request} {error : Exc} (proper : Proper request (.error error : Except Exc α)) :
    Proper request (.error error : Except Exc β) := .error (proper error rfl)

/-- Whatever a program meets on its way, its outcome is proper. -/
private abbrev EndsProper {α : Type} (admits : Request → Bool) (start : Service) (pid : ℕ) (request : Request)
    (program : Prog α) (tx : Option Tx) (since : Service) : Prop :=
  program.Traced (service admits) start pid (fun result _ _ => Proper request result) tx since

section Bodies

variable {pid companyId jobId : ℕ} {tx : Option Tx} {since : Service} {request : Request}

/-- A statement fails with an error of the database, and what follows answers for the rest. -/
private theorem exec_refused {α : Type} {q : Sql} {next : q.Answer → Prog α}
    (rest : ∀ answer tx world, EndsProper admits start pid request (next answer) tx world) :
    EndsProper admits start pid request ((exec q).bind next) tx since :=
  exec_traced.bind (fun answer tx world _ => rest answer tx world) fun _ _ _ failure => .error (.inr failure)

private theorem getJob_refused {α : Type} {next : JobDetail → Prog α}
    (missing : Refuses request (.jobNotFound jobId))
    (rest : ∀ detail tx world, EndsProper admits start pid request (next detail) tx world) :
    EndsProper admits start pid request ((JobsService.getJob companyId jobId).bind next) tx since := by
  refine exec_refused (q := .selectJob companyId jobId) fun found tx world => ?_
  cases found with
  | none => exact .error (.inl missing)
  | some row =>
    exact exec_refused (q := .selectAuditEvents companyId jobId) fun events tx world => rest _ tx world

private theorem record_refused {α : Type} {eventType : EventType} {actor : String} {traceId : Option String}
    {channel : Channel} (value : α) :
    EndsProper admits start pid request
      (Program.bind (JobsService.recordAuditEvent jobId companyId eventType actor traceId) fun _ =>
        Program.bind (exec (.notify channel jobId)) fun _ => .ret value) tx since :=
  exec_refused (q := .insertAuditEvent jobId companyId eventType actor traceId true) fun _ _ _ =>
    exec_refused (q := .notify channel jobId) fun _ _ _ => .ok value

private theorem cancelJob_refused {actor : String} {traceId : Option String} :
    EndsProper admits start pid (.cancelJob companyId jobId actor traceId)
      (JobsService.cancelJob companyId jobId actor traceId) tx since := by
  refine exec_refused (q := .cancelJob companyId jobId) fun found tx world => ?_
  cases found with
  | some row => exact record_refused row
  | none =>
    refine getJob_refused (.inl rfl) fun detail tx world => ?_
    exact .error (.inl (.inr ⟨detail.status, rfl⟩))

private theorem retryJob_refused {actor : String} {traceId : Option String} :
    EndsProper admits start pid (.retryJob companyId jobId actor traceId)
      (JobsService.retryJob companyId jobId actor traceId) tx since := by
  refine exec_refused (q := .retryJob companyId jobId traceId MAX_ATTEMPTS) fun found tx world => ?_
  cases found with
  | some row =>
    refine exec_refused (q := .insertAuditEvent jobId companyId .retryRequested actor traceId true) fun _ _ _ => ?_
    exact exec_refused (q := .notify .jobsQueued row.id) fun _ tx _ => .ok row
  | none =>
    refine getJob_refused (.inl rfl) fun detail tx world => ?_
    split
    · exact .error (.inl (.inr (.inr ⟨detail.attempts, rfl⟩)))
    · exact .error (.inl (.inr (.inl ⟨detail.status, rfl⟩)))

end Bodies

section Creation

variable {pid companyId : ℕ} {kind : String} {traceId : Option String} {key : String} {submittedBy : Option String}
  {tx : Tx} {since : Service}

/-- The company has stored a job under the key. -/
def Uses (s : Store) (companyId : ℕ) (key : String) : Prop :=
  ∃ row, s.job? row.id = some row ∧ row.companyId = companyId ∧ row.idempotencyKey = some key

/-- A key that is used stays used. -/
theorem Uses.later (fresh : Fresh start) (reached : World.Reaches (service admits) start world) {target : Service}
    (later : World.Reaches (service admits) world target) (uses : Uses world.state companyId key) :
    Uses target.state companyId key := by
  refine later_preserves fresh reached later (P := fun s => Uses s companyId key) uses ?_
  rintro before after _ step ⟨row, stored, owner, used⟩
  obtain ⟨row', stored', owner', _, used', _⟩ := (step row.id).identity stored
  have id : row'.id = row.id := Store.job?_id stored'
  exact ⟨row', id.symm ▸ stored', owner'.trans owner, used'.trans used⟩

theorem Uses.jobByKey? {s : Store} (uses : Uses s companyId key) : (s.jobByKey? companyId key).isSome := by
  obtain ⟨row, stored, owner, used⟩ := uses
  by_contra absent
  have none := Option.not_isSome_iff_eq_none.mp absent
  exact jobByKey?_none.mp none row (Table.find?_mem stored) owner used

private theorem replay_refused (existing : Existing) {tx : Option Tx} :
    EndsProper admits start pid (.createJob companyId kind traceId key submittedBy)
      (Program.bind (JobsService.replay existing kind) fun job => .ret (job, false)) tx since := by
  unfold JobsService.replay
  split
  · exact .error (.inl (.inr (.inl ⟨existing.kind, rfl⟩)))
  · exact .ok _

/-- A lookup of the key, and the replay of what it finds. -/
private theorem lookup_refused {next : Option Existing → Prog (JobState × Bool)} (silent : tx.writes = [])
    (found : ∀ existing, next (some existing) =
      (JobsService.replay existing kind).bind fun job => .ret (job, false))
    (missing : ∀ opened world, opened.writes = [] → World.Reaches (service admits) since world →
      world.state.jobByKey? companyId key = none →
        EndsProper admits start pid (.createJob companyId kind traceId key submittedBy) (next none) (some opened) world) :
    EndsProper admits start pid (.createJob companyId kind traceId key submittedBy)
      ((JobsService.findByIdempotencyKey companyId key).bind next) (some tx) since := by
  refine Program.Traced.bind (read_traced silent (P := Replied (fun existing tx world =>
      ∃ opened, tx = some opened ∧ opened.writes = [] ∧ World.Reaches (service admits) since world ∧
        existing = (world.state.jobByKey? companyId key).map fun job => ⟨job.id, job.status, job.kind⟩)
      Failure) ?_ ?_ fun _ _ failure => failure) ?_ fun _ _ _ failure => .error (.inr failure)
  · intro s others choice answer after opened ran
    cases ran
    rfl
  · rintro world opened existing _ later written ⟨others, choice, after, ran⟩
    refine ⟨opened, rfl, written, later, ?_⟩
    cases ran
    rw [Tx.view, silent, List.foldl_nil]
  · rintro _ tx world ⟨opened, rfl, written, later, rfl⟩
    cases stored : world.state.jobByKey? companyId key with
    | none => exact missing opened world written later stored
    | some row =>
      rw [Option.map_some, found]
      exact replay_refused _

/-- Where the `INSERT` yields, the key is used, and the next lookup finds it. -/
private theorem insertJob_refused (fresh : Fresh start) (silent : tx.writes = []) :
    EndsProper admits start pid (.createJob companyId kind traceId key submittedBy)
      (JobsService.insertJob companyId kind traceId key submittedBy) (some tx) since := by
  have answers : (exec (.insertJob companyId kind traceId key)).Traced (service admits) start pid
      (Replied (fun found tx world => found = none → ∃ opened, tx = some opened ∧ opened.writes = [] ∧
        World.Reaches (service admits) start world ∧ Uses world.state companyId key) Failure) (some tx) since := by
    refine Program.Traced.exec (fun world visited choice answer after opened ran missed => ?_)
      fun _ _ fails => failure_of_fails fails
    obtain ⟨⟨found, _, _⟩, inner, same⟩ := map_ok ran
    cases same
    obtain ⟨_, ⟨rfl, rfl, taken⟩ | ⟨_, _, _, rfl, _⟩⟩ := insertJobRow_ok inner
    · change ((opened.view world.state).jobByKey? companyId key).isSome at taken
      rw [view_of_silent silent] at taken
      obtain ⟨row, used⟩ := Option.isSome_iff_exists.mp taken
      exact ⟨_, rfl, silent, visited.reached, row, jobByKey?_some used⟩
    · cases missed
  refine answers.bind ?_ fun _ _ _ failure => .error (.inr failure)
  rintro (_ | job) tx world answered
  · obtain ⟨opened, rfl, written, reached, uses⟩ := answered rfl
    refine lookup_refused written (fun existing => rfl) fun opened later _ onward none => ?_
    have found := (uses.later fresh reached onward).jobByKey?
    rw [none] at found
    cases found
  · cases submittedBy with
    | none => exact exec_refused (q := .notify .jobsQueued job.id) fun _ tx _ => .ok (job, true)
    | some actor => exact record_refused (job, true)

private theorem createJob_refused (fresh : Fresh start) (silent : tx.writes = []) :
    EndsProper admits start pid (.createJob companyId kind traceId key submittedBy)
      (JobsService.createJob companyId kind traceId key submittedBy) (some tx) since := by
  refine lookup_refused silent (fun existing => rfl) fun opened world written _ _ => ?_
  refine (silent_traced written ?_).bind ?_ fun _ _ _ failure => .error (.inr failure)
  · intro s others choice answer after opened' ran
    simp only [Sql.answer] at ran
    split at ran <;> cases ran <;> rfl
  · rintro (_ | limit) tx world ⟨opened, rfl, written⟩
    · exact .error (.inl (.inl rfl))
    refine lookup_refused written (fun existing => rfl) fun opened world written _ _ => ?_
    refine (silent_traced written ?_).bind ?_ fun _ _ _ failure => .error (.inr failure)
    · intro s others choice answer after opened' ran
      cases ran
      rfl
    · rintro running tx world ⟨opened, rfl, written⟩
      change EndsProper _ _ _ _ (if _ then _ else _) _ _
      split
      · exact .error (.inl (.inr (.inr ⟨limit, running, rfl⟩)))
      · exact insertJob_refused fresh written

end Creation

/-- A request is refused with an error of its operation, if the database did not fail it. -/
theorem serve_refused (fresh : Fresh start) (request : Request) {pid : ℕ} {tx : Tx} {since : Service}
    (silent : tx.writes = []) :
    (JobsService.serve request).Traced (service admits) start pid (fun result _ _ => Proper request result) (some tx)
      since := by
  cases request with
  | listJobs companyId limit offset status =>
    exact exec_refused (q := .listJobs companyId limit offset status) fun _ tx _ => .ok _
  | countJobs companyId status =>
    exact exec_refused (q := .countJobs companyId status) fun _ tx _ => .ok _
  | listPage companyId limit offset status =>
    exact exec_refused (q := .listJobs companyId limit offset status) fun _ _ _ =>
      exec_refused (q := .countJobs companyId status) fun _ tx _ => .ok _
  | getJob companyId jobId => exact getJob_refused rfl fun detail tx _ => .ok _
  | getResult companyId jobId =>
    refine Program.Traced.bind (P := fun result _ _ => Proper (.getResult companyId jobId) result) ?_
      (fun payload _ _ _ => .ok _) fun _ _ _ proper => proper.again
    refine exec_refused (q := .selectResult companyId jobId) fun found tx world => ?_
    cases found with
    | none => exact .error (.inl rfl)
    | some payload => exact .ok payload
  | createJob companyId kind traceId key submittedBy =>
    exact (createJob_refused fresh silent).bind (fun _ _ _ _ => .ok _) fun _ _ _ proper => proper.again
  | cancelJob companyId jobId actor traceId =>
    exact cancelJob_refused.bind (fun job _ _ _ => .ok _) fun _ _ _ proper => proper.again
  | retryJob companyId jobId actor traceId =>
    exact retryJob_refused.bind (fun job _ _ _ => .ok _) fun _ _ _ proper => proper.again

/-- An answered request that was refused names an error of its operation, if the database did not fail it. -/
theorem Answered.refuses (fresh : Fresh start) {pid : ℕ} {request : Request} {error : Exc}
    (answered : Answered admits start world pid request (.error error)) : Refuses request error ∨ Failure error := by
  have accounted := answered.accounted fresh (fun _ outcome _ => Proper request outcome)
    (fun _ _ _ _ proper _ => proper) fun pid since tx _ silent =>
      (serve_refused fresh request silent).weaken fun _ _ _ proper => .inl proper
  rcases accounted with proper | ⟨_, same, failure⟩
  · exact proper error rfl
  · cases same
    exact .inr failure

section Confirmations

variable {companyId jobId : ℕ}

/-- The company has a job under the id. -/
def Owns (s : Store) (companyId jobId : ℕ) : Prop := ∃ row, s.job? jobId = some row ∧ row.companyId = companyId

theorem Owns.step {opening : List EventType → Prop} {s after : Store} (step : JobStep opening s after jobId)
    (owns : Owns s companyId jobId) : Owns after companyId jobId := by
  obtain ⟨row, stored, owner⟩ := owns
  obtain ⟨row', stored', owner', _⟩ := step.identity stored
  exact ⟨row', stored', owner'.trans owner⟩

theorem Owns.later (fresh : Fresh start) (reached : World.Reaches (service admits) start world) {target : Service}
    (later : World.Reaches (service admits) world target) (owns : Owns world.state companyId jobId) :
    Owns target.state companyId jobId :=
  later_preserves fresh reached later (P := fun s => Owns s companyId jobId) owns fun _ step owns => owns.step (step jobId)

/-- What the response of a request that changes jobs says of the row that its commit leaves. -/
def Confirms (s : Store) : Request → Response → Prop
  | .createJob companyId .., response => ∃ job created row, response = .created job created ∧
      s.job? job.id = some row ∧ row.companyId = companyId ∧ (created = true → row.status = job.status)
  | .cancelJob companyId jobId .., response => ∃ row, response = .cancelled ⟨jobId, .cancelled⟩ ∧
      s.job? jobId = some row ∧ row.companyId = companyId ∧ row.status = .cancelled
  | .retryJob companyId jobId .., response => ∃ row, response = .retried ⟨⟨jobId, .queued⟩, row.attempts⟩ ∧
      s.job? jobId = some row ∧ row.companyId = companyId ∧ row.status = .queued ∧ row.attempts < MAX_ATTEMPTS
  | _, _ => True

/-- What a commit reports is so once it is done. -/
private theorem Commit.confirms {pid : ℕ} {tx : Tx} {s : Store} {request : Request} {response : Response}
    (commit : Commit admits pid tx s (.request request (.ok response))) (opened : tx.Open s) :
    Confirms (tx.view s) request response := by
  have written (row : Job) (only : tx.writes.filterMap Write.job? = [row]) : (tx.view s).job? row.id = some row :=
    opened.job?_of_unique (by simp [only]) (by simp [only])
  cases commit with
  | quiet writes facts =>
    cases request with
    | createJob companyId kind traceId key submittedBy =>
      obtain ⟨row, stored, rfl, _, _, status, rfl⟩ := facts
      refine ⟨_, _, row, rfl, ?_, rfl, nofun⟩
      rw [Tx.view, writes]
      exact stored
    | cancelJob | retryJob => exact facts.elim
    | _ => trivial
  | @create companyId kind traceId key _ id events _ _ writes =>
    have new := written (.new id companyId kind traceId key tx.now) (by simp [writes, Write.job?, List.filterMap_cons])
    exact ⟨_, _, _, rfl, new, rfl, fun _ => rfl⟩
  | @cancel row _ _ _ _ _ _ writes =>
    have changed := written (row.cancel tx.now) (by simp [writes, Write.job?, List.filterMap_cons])
    exact ⟨_, rfl, changed, rfl, rfl⟩
  | @retry row _ traceId _ _ _ left _ writes =>
    have changed := written (row.retry traceId tx.now) (by simp [writes, Write.job?, List.filterMap_cons])
    exact ⟨row.retry traceId tx.now, rfl, changed, rfl, rfl, left⟩

/-- A request that returned has reported its outcome last, if the database did not fail it. -/
theorem Answered.reported (fresh : Fresh start) {pid : ℕ} {request : Request} {result : Except Exc Response}
    (answered : Answered admits start world pid request result) :
    (reports world.state pid).getLast? = some (.request request result) ∨ ∃ error, result = .error error ∧ Failure error := by
  obtain ⟨proc, member, rfl, called, returned⟩ := answered.returned
  exact reachable_returned fresh answered.reached member called returned

/-- The response of a request that succeeded says what its commit has left. -/
theorem Answered.confirmed (fresh : Fresh start) {pid : ℕ} {request : Request} {response : Response}
    (answered : Answered admits start world pid request (.ok response)) :
    ∃ after, World.Reaches (service admits) start after ∧ World.Reaches (service admits) after world ∧
      Confirms after.state request response := by
  obtain ⟨actions, ran⟩ := answered.reached
  have last := (answered.reported fresh).resolve_right nofun
  obtain ⟨first, action, before, after, ⟨rest, rfl⟩, reached, stepped, grown⟩ :=
    logged_step fresh ran (mem_reports.mp (List.mem_of_getLast? last))
  have onward : World.Reaches (service admits) after world := by
    rw [List.append_assoc, World.runActions_append, reached, Option.bind_some, World.runActions_append,
      World.runActions_cons, stepped] at ran
    exact ⟨rest, ran⟩
  refine ⟨after, World.Reaches.step ⟨first, reached⟩ stepped, onward, ?_⟩
  have reported := reachable_reported fresh ⟨first, reached⟩ stepped grown
  generalize after.state = s at reported
  cases reported with
  | commit opened commit => exact commit.confirms opened
  | aborted facts => cases request <;> cases facts
  | processed counted =>
    obtain ⟨_, _, impossible⟩ := counted
    cases impossible

end Confirmations

section Shapes

/-- The response of a request that reads. -/
def OfKind : Request → Response → Prop
  | .listPage .., response => ∃ rows total, response = .page rows total
  | .getJob .., response => ∃ detail, response = .job detail
  | .getResult .., response => ∃ payload, response = .result payload
  | _, _ => True

private theorem shaped_bind {α : Type} {pid : ℕ} {tx : Option Tx} {since : Service} {request : Request} (body : Prog α)
    {next : α → Prog Response} (rest : ∀ value tx world, (next value).Traced (service admits) start pid
      (fun result _ _ => ∀ response, result = .ok response → OfKind request response) tx world) :
    (body.bind next).Traced (service admits) start pid
      (fun result _ _ => ∀ response, result = .ok response → OfKind request response) tx since := by
  refine (Program.Traced.of_forall (P := fun _ _ _ => True) fun _ _ _ => trivial).bind
    (fun value tx world _ => rest value tx world) fun error _ _ _ response same => ?_
  cases same

private theorem serve_shaped (request : Request) {pid : ℕ} {tx : Option Tx} {since : Service} :
    (JobsService.serve request).Traced (service admits) start pid
      (fun result _ _ => ∀ response, result = .ok response → OfKind request response) tx since := by
  cases request with
  | listPage companyId limit offset status =>
    refine shaped_bind (JobsService.listJobs companyId limit offset status) fun rows tx world => ?_
    refine shaped_bind (JobsService.countJobs companyId status) fun total tx world => ?_
    rintro _ ⟨⟩
    exact ⟨rows, total, rfl⟩
  | getJob companyId jobId =>
    refine shaped_bind (JobsService.getJob companyId jobId) fun detail tx world => ?_
    rintro _ ⟨⟩
    exact ⟨detail, rfl⟩
  | getResult companyId jobId =>
    refine shaped_bind (JobsService.getResult companyId jobId) fun payload tx world => ?_
    rintro _ ⟨⟩
    exact ⟨payload, rfl⟩
  | _ => exact Program.Traced.of_forall fun _ _ _ _ _ => trivial

theorem Answered.shaped (fresh : Fresh start) {pid : ℕ} {request : Request} {response : Response}
    (answered : Answered admits start world pid request (.ok response)) : OfKind request response := by
  have accounted := answered.accounted fresh (fun _ outcome _ => ∀ response, outcome = .ok response →
    OfKind request response) (fun _ _ _ _ shaped _ => shaped) fun pid since tx _ silent =>
      (serve_shaped request).weaken fun _ _ _ shaped => .inl shaped
  rcases accounted with shaped | ⟨_, same, _⟩
  · exact shaped response rfl
  · cases same

end Shapes

theorem answered_of_world {actions : List Step} (ran : start.runActions (service admits) actions = some world) {pid : ℕ}
    {request : Request} {result : Except Exc Response} (found : answer? world pid = some (request, result)) :
    Answered admits start world pid request result := by
  obtain ⟨proc, stored, same⟩ := Option.bind_eq_some_iff.mp found
  refine ⟨⟨actions, ran⟩, proc, Table.find?_mem stored, Table.find?_key stored, ?_⟩
  split at same
  · next called returned => cases same; exact ⟨called, returned⟩
  · cases same

/-- A request is only made if it is admitted. -/
theorem Answered.admitted (fresh : Fresh start) {pid : ℕ} {request : Request} {result : Except Exc Response}
    (answered : Answered admits start world pid request result) : admits request = true := by
  obtain ⟨proc, member, _, called, _⟩ := answered.returned
  obtain ⟨mode, starts⟩ := World.calls_start fresh.procs answered.reached proc member _ called
  exact ((Bool.and_eq_true _ _).mp starts).2

end JobRelay.Soundness
