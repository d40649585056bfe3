import JobRelay.Soundness.Bodies

/-! # The requests of the API keep the contract

Each operation of `JobsService` is followed statement by statement to the commit or the error that
ends it. Creating a job is the long case: its decision is made under the company lock, so that what
it found still holds when it commits.
-/

namespace JobRelay.Soundness

open Model Sessions

variable {admits : Request → Bool} {origin : Store} {pid : ℕ}

theorem view_of_silent {tx : Tx} {s : Store} (silent : tx.writes = []) : tx.view s = s := by
  rw [Tx.view, silent, List.foldl_nil]

/-- A commit leases nothing to the process if none of the rows it writes is leased to it. -/
theorem Idle.view {tx : Tx} {s : Store} (idle : Idle pid s) (opened : tx.Open s)
    (free : ∀ row ∈ tx.writes.filterMap Write.job?, row.workerId = none) : Idle pid (tx.view s) := by
  intro jobId row stored mine
  rcases Entitled.job?_cases opened stored with written | kept
  · rw [free row written] at mine
    cases mine
  · exact idle jobId row kept mine

section Rules

variable {α β : Type} {committed : α → Label} {aborted : Exc → Label}
  {returned : α → Assertion (contract admits origin) pid} {raised : Assertion (contract admits origin) pid}
  {first tx : Tx} {base s : Store}

/-- A body that wrote nothing returns what it read. -/
theorem Body.quiet {value : α} (since : Since raised first base tx s) (silent : tx.writes = [])
    (facts : ∀ now, Since raised first base tx now →
      Quiet now (committed value) ∧ (returned value).holds now) :
    Body committed aborted returned raised (.ret value) tx s := by
  refine Body.ret since fun now here => ?_
  rw [view_of_silent silent]
  exact ⟨.quiet silent (facts now here).1, (facts now here).2, here.raises⟩

/-- `get_job` reads a row and its events, or does not find the job. -/
theorem Body.getJob {companyId jobId : ℕ} {next : JobDetail → Prog α}
    (since : Since raised first base tx s)
    (missing : ∀ now, Aborted now tx (aborted (.jobNotFound jobId)))
    (rest : ∀ detail now, Since raised first base tx now →
      Body committed aborted returned raised (next detail) tx now) :
    Body committed aborted returned raised (Program.bind (JobsService.getJob companyId jobId) next) tx s := by
  refine Body.query since (fun _ _ => trivial) (fun _ => rfl) fun now _ _ answer _ _ here ran after => ?_
  cases ran
  cases ((tx.view now).job? jobId).filter fun job => decide (job.companyId = companyId) with
  | none => exact Body.raise after fun now _ => missing now
  | some row =>
    refine Body.query after (fun _ _ => trivial) (fun _ => rfl) fun _ _ _ events _ _ _ ran last => ?_
    cases ran
    exact rest _ _ last

end Rules

theorem jobByKey?_some {s : Store} {companyId : ℕ} {key : String} {row : Job}
    (found : s.jobByKey? companyId key = some row) :
    s.job? row.id = some row ∧ row.companyId = companyId ∧ row.idempotencyKey = some key := by
  have uses : row.companyId = companyId ∧ row.idempotencyKey = some key := by
    simpa using List.find?_some found
  exact ⟨Store.mem_jobs.mp (List.mem_of_find?_eq_some found), uses⟩

theorem jobByKey?_none {s : Store} {companyId : ℕ} {key : String} :
    s.jobByKey? companyId key = none ↔
      ∀ row ∈ s.jobs.rows, row.companyId = companyId → row.idempotencyKey ≠ some key := by
  simp [Store.jobByKey?]

section Serving

variable {α : Type} {first tx : Tx} {base s : Store}

/-- The obligation of what is left of a request whose value becomes its response. -/
abbrev Serves (admits : Request → Bool) (origin : Store) (pid : ℕ) (request : Request)
    (response : α → Response) (program : Prog α) (tx : Tx) (s : Store) : Prop :=
  Body (fun value => .request request (.ok (response value))) (fun error => .request request (.error error))
    (fun _ => idle admits origin pid) (idle admits origin pid) program tx s

abbrev Idles (admits : Request → Bool) (origin : Store) (pid : ℕ) :=
  @Since admits origin pid (idle admits origin pid)

section Create

variable {companyId : ℕ} {kind : String} {traceId : Option String} {key : String}
  {submittedBy : Option String}

/-- A replay answers with a job that has the key, or refuses another kind. -/
private theorem replay_serves {row : Job} (since : Idles admits origin pid first base tx s)
    (silent : tx.writes = []) (stored : base.job? row.id = some row) (owner : row.companyId = companyId)
    (used : row.idempotencyKey = some key) :
    Serves admits origin pid (.createJob companyId kind traceId key submittedBy)
      (fun value : JobState × Bool => .created value.1 value.2)
      (Program.bind (JobsService.replay ⟨row.id, row.status, row.kind⟩ kind) fun job => .ret (job, false))
      tx s := by
  unfold JobsService.replay
  split
  · exact Body.raise since fun _ _ => trivial
  · next same =>
    refine Body.quiet since silent fun now here => ⟨?_, here.raises⟩
    obtain ⟨row', stored', company, kind', key'⟩ := here.identity stored
    have id : row'.id = row.id := Store.job?_id stored'
    refine ⟨row', id.symm ▸ stored', company.trans owner, key'.trans used, kind'.trans ?_, row.status, ?_⟩
    · exact not_not.mp same
    · rw [id]

/-- The lookup by key answers with a replay, or leaves the key unused. -/
private theorem find_serves {next : Option Existing → Prog (JobState × Bool)}
    (since : Idles admits origin pid first base tx s) (silent : tx.writes = [])
    (replays : ∀ existing, next (some existing) =
      Program.bind (JobsService.replay existing kind) fun job => .ret (job, false))
    (rest : ∀ now, Idles admits origin pid first base tx now →
      (∀ row ∈ now.jobs.rows, row.companyId = companyId → row.idempotencyKey ≠ some key) →
      Serves admits origin pid (.createJob companyId kind traceId key submittedBy)
        (fun value : JobState × Bool => .created value.1 value.2) (next none) tx now) :
    Serves admits origin pid (.createJob companyId kind traceId key submittedBy)
      (fun value : JobState × Bool => .created value.1 value.2)
      (Program.bind (JobsService.findByIdempotencyKey companyId key) next) tx s := by
  refine Body.query since (fun _ _ => trivial) (fun _ => rfl) fun now _ _ answer _ _ here ran after => ?_
  cases ran
  rw [view_of_silent silent]
  change Serves _ _ _ _ _ (next ((now.jobByKey? companyId key).map _)) tx now
  cases found : now.jobByKey? companyId key with
  | none => exact rest now after (jobByKey?_none.mp found)
  | some row =>
    obtain ⟨stored, owner, used⟩ := jobByKey?_some found
    rw [Option.map_some, replays]
    exact replay_serves after.rebase silent stored owner used

/-- What holds under the company lock when a job is admitted. -/
structure Admitted (tx : Tx) (s : Store) (companyId : ℕ) (key : String) (company : Company) : Prop where
  locked : (Resource.company companyId, LockMode.update) ∈ tx.locks
  stored : s.company? companyId = some company
  unused : ∀ row ∈ s.jobs.rows, row.companyId = companyId → row.idempotencyKey ≠ some key

private theorem Admitted.since {company : Company} (admitted : Admitted first base companyId key company)
    {raised : Assertion (contract admits origin) pid} (since : Since raised first base tx s) :
    Admitted tx s companyId key company where
  locked := since.locks admitted.locked
  stored := (since.company? admitted.locked).trans admitted.stored
  unused := since.unused admitted.locked admitted.unused

/-- After its row and its event, a created job is announced and committed. -/
private theorem announce_serves (id : ℕ) (events : List AuditEvent) {company : Company}
    (admitted : admits (.createJob companyId kind traceId key submittedBy) = true)
    (facts : Admitted first base companyId key company)
    (below : (base.activeCount companyId : Int) < company.maxConcurrentJobs)
    (since : Idles admits origin pid first base tx s)
    (writes : tx.writes = .insertJob (.new id companyId kind traceId key tx.now) :: events.map .insertAudit)
    (recorded : ∀ event ∈ events, event.Records (.new id companyId kind traceId key tx.now) .submitted)
    (submitted : events.length = submittedBy.toList.length) (range : serialRange id = true) :
    Serves admits origin pid (.createJob companyId kind traceId key submittedBy)
      (fun value : JobState × Bool => .created value.1 value.2)
      (Program.bind (JobsService.notifyQueued id) fun _ => .ret (⟨id, .queued⟩, true)) tx s := by
  refine Body.query since (fun _ _ => trivial) (fun _ => rfl) fun now _ _ answer _ _ here ran after => ?_
  cases ran
  refine Body.ret after fun last here => ?_
  have still := facts.since here
  have grown := here.activeCount_le facts.locked
  have written : (tx.add (.notify ⟨.jobsQueued, id⟩)).writes =
      .insertJob (.new id companyId kind traceId key tx.now) :: events.map .insertAudit ++
        [.notify ⟨.jobsQueued, id⟩] := by
    rw [Tx.add_writes, writes]
  have quiet : Idle pid ((tx.add (.notify ⟨.jobsQueued, id⟩)).view last) := by
    refine Idle.view here.raises here.opened fun row member => ?_
    rw [written] at member
    simp only [List.cons_append, List.filterMap_cons, Write.job?, List.filterMap_append,
      List.filterMap_map, Function.comp_def, List.filterMap_none, List.filterMap_nil, List.append_nil,
      List.mem_singleton] at member
    rw [member]
    rfl
  refine ⟨?_, quiet, quiet⟩
  exact .create admitted written recorded submitted still.locked still.unused still.stored (by omega) range

/-- `create_job` from its `INSERT` on: the key is unused, so the row is inserted. -/
private theorem insertJob_serves {company : Company}
    (admitted : admits (.createJob companyId kind traceId key submittedBy) = true)
    (since : Idles admits origin pid tx s tx s) (silent : tx.writes = [])
    (facts : Admitted tx s companyId key company)
    (below : (s.activeCount companyId : Int) < company.maxConcurrentJobs) :
    Serves admits origin pid (.createJob companyId kind traceId key submittedBy)
      (fun value : JobState × Bool => .created value.1 value.2)
      (JobsService.insertJob companyId kind traceId key submittedBy) tx s := by
  refine Body.query since ?_ (fun _ => rfl) fun now _ _ answer _ _ here ran after => ?_
  · intro now here
    have still := facts.since here
    have grown := here.activeCount_le facts.locked
    exact ⟨tx, company, rfl, still.locked, still.stored, by omega, still.unused⟩
  · obtain ⟨⟨found, _, _⟩, inner, same⟩ := map_ok ran
    cases same
    obtain ⟨rfl, ⟨rfl, _, taken⟩ | ⟨range, _, _, rfl, rfl⟩⟩ := insertJobRow_ok inner
    · -- the loser's path of the conflict: nobody else can have inserted the key
      rw [view_of_silent silent, jobByKey?_none.mpr (facts.since here).unused] at taken
      cases taken
    · cases submittedBy with
      | none =>
        refine announce_serves now.jobs.next [] admitted facts below after ?_ nofun rfl range
        rw [Tx.add_writes, Tx.hold_writes, Tx.hold_writes, Tx.hold_writes, silent]
        rfl
      | some actor =>
        have locked := Tx.mem_hold tx (.job now.jobs.next) .update
        refine Body.query after (fun _ _ => ⟨_, rfl, .of_update (Tx.hold_sub _ _ _ (Tx.hold_sub _ _ _ locked))⟩)
          (fun _ => rfl)
          fun later _ _ answer _ _ here' ran last => ?_
        have absent : later.job? now.jobs.next = none := by
          have opened := here'.opened
          simp only [Tx.Open, Tx.add_writes, Tx.hold_writes, silent, List.nil_append] at opened
          exact opened.1.2.2.1
        have silence : later.eventsOf now.jobs.next = [] := by
          have empty := here'.valid.orphans _ absent
          simp only [Store.traces, Prod.mk.injEq] at empty
          exact empty.2.1
        obtain ⟨rfl, ⟨_, _, other, member, _⟩ | rfl⟩ := insertAuditRow_ok ran
        · change other ∈ (Tx.view _ later).eventsOf now.jobs.next at member
          rw [Tx.view, here'.opened.eventsOf, silence] at member
          simp [silent, Write.audit?, List.filterMap_cons] at member
        · refine announce_serves now.jobs.next
            [newEvent later tx now.jobs.next companyId .submitted actor traceId] admitted facts below last
            ?_ ?_ rfl range
          · simp only [Tx.add_writes, Tx.hold_writes, silent]
            rfl
          · intro event member
            rw [List.mem_singleton.mp member]
            exact ⟨rfl, rfl, rfl⟩

/-- `create_job` from its count on: the count decides under the company lock. -/
private theorem admitJob_serves {company : Company}
    (admitted : admits (.createJob companyId kind traceId key submittedBy) = true)
    (since : Idles admits origin pid tx s tx s) (silent : tx.writes = [])
    (facts : Admitted tx s companyId key company) :
    Serves admits origin pid (.createJob companyId kind traceId key submittedBy)
      (fun value : JobState × Bool => .created value.1 value.2)
      (JobsService.admitJob company.maxConcurrentJobs companyId kind traceId key submittedBy) tx s := by
  refine Body.query since (fun now here => ⟨tx, rfl, here.locks facts.locked, silent⟩) (fun _ => rfl)
    fun now _ _ answer _ _ here ran after => ?_
  cases ran
  rw [view_of_silent silent]
  have still := facts.since here
  change Serves _ _ _ _ _ (if company.maxConcurrentJobs ≤ (now.activeCount companyId : Int) then _ else _) tx now
  split
  · next full =>
    refine Body.raise after fun last here => ?_
    have last := facts.since here
    exact ⟨last.locked, full, ⟨company, last.stored, rfl⟩, last.unused⟩
  · next free => exact insertJob_serves admitted after.rebase silent still (not_le.mp free)

private theorem createJob_serves
    (admitted : admits (.createJob companyId kind traceId key submittedBy) = true)
    (since : Idles admits origin pid tx s tx s) (silent : tx.writes = []) :
    Serves admits origin pid (.createJob companyId kind traceId key submittedBy)
      (fun value : JobState × Bool => .created value.1 value.2)
      (JobsService.createJob companyId kind traceId key submittedBy) tx s := by
  refine find_serves since silent (fun _ => rfl) fun now here _ => ?_
  refine Body.query here (fun _ _ => trivial) (fun _ => rfl) fun later _ _ answer _ _ here' ran last => ?_
  simp only [Sql.answer, view_of_silent silent] at ran
  split at ran
  · cases ran
    exact Body.raise last fun _ _ => trivial
  · next company stored =>
    cases ran
    refine find_serves last.rebase silent (fun _ => rfl) fun final there unused => ?_
    have locked := Tx.mem_hold tx (.company companyId) .update
    exact admitJob_serves admitted there.rebase silent
      ⟨locked, (there.company? locked).trans stored, unused⟩

end Create

/-- An active job has no event of a cancellation. -/
private theorem not_cancelled {d : Dossier} (formed : d.WellFormed (Opening admits))
    (active : d.job.status.active = true) : ∀ event ∈ d.events, event.eventType ≠ .cancelled := by
  intro event member cancelled
  obtain ⟨first, retries, opens, trail⟩ := formed.trail
  have inside : EventType.cancelled ∈ first ++ retryCycles retries ++ closing d.job.status := by
    rw [← trail.word, ← cancelled]
    exact List.mem_map_of_mem member
  rw [List.mem_append, List.mem_append] at inside
  rcases inside with (opening | cycle) | close
  · rcases opens with rfl | ⟨rfl, _⟩
    · simp at opening
    · cases opening
  · clear trail
    induction retries with
    | zero => cases cycle
    | succ retries ih =>
      rw [retryCycles, List.mem_append] at cycle
      rcases cycle with earlier | latest
      · exact ih earlier
      · simp at latest
  · cases status : d.job.status <;> rw [status] at close active <;>
      simp [closing, JobStatus.active] at close active

/-- After the row of one job, an event that cannot conflict and a notification complete a request. -/
private theorem record_serves {request : Request} {response : α → Response} {row : Job} (row' : Job)
    {eventType : EventType} {actor : String} {traceId : Option String} (channel : Channel) (value : α)
    (since : Idles admits origin pid first base tx s) (locked : first.locks.Exclusive (.job row.id))
    (stored : base.job? row.id = some row) (writes : tx.writes = [.putJob row'])
    (freed : row'.workerId = none)
    (fresh : ∀ d : Dossier, d.job = row → d.WellFormed (Opening admits) → eventType.unique = true →
      ∀ event ∈ d.events, event.eventType ≠ eventType)
    (commit : ∀ opened now event, opened.now = tx.now → event.Records row eventType →
      opened.writes = [.putJob row', .insertAudit event, .notify ⟨channel, row.id⟩] →
      now.job? row.id = some row →
      Commit admits pid opened now (.request request (.ok (response value)))) :
    Serves admits origin pid request response
      (Program.bind (JobsService.recordAuditEvent row.id row.companyId eventType actor traceId) fun _ =>
        Program.bind (Model.exec (.notify channel row.id)) fun _ => .ret value) tx s := by
  refine Body.query since (fun _ now => ⟨tx, rfl, locked.mono now.locks⟩) (fun _ => rfl)
    fun now _ _ answer _ opened here ran after => ?_
  have still := (here.job? locked).trans stored
  obtain ⟨rfl, ⟨_, unique, other, member, conflict⟩ | added⟩ := insertAuditRow_ok ran
  · rw [Tx.view, here.opened.eventsOf, writes] at member
    simp only [Write.audit?, List.filterMap_cons, List.filterMap_nil, List.filter_nil,
      List.append_nil] at member
    exact absurd conflict (fresh _ rfl (here.valid.wellFormed still) unique other member)
  · have written : (opened.add (.notify ⟨channel, row.id⟩)).writes =
        [.putJob row', .insertAudit (newEvent now tx row.id row.companyId eventType actor traceId),
          .notify ⟨channel, row.id⟩] := by
      rw [Tx.add_writes, added, Tx.add_writes]
      simp only [Tx.hold_writes, writes]
      rfl
    have sameNow : opened.now = tx.now := by rw [added]; rfl
    refine Body.query after (fun _ _ => trivial) (fun _ => rfl) fun later _ _ answer _ _ _ ran last => ?_
    cases ran
    refine Body.ret last fun final there => ?_
    have quiet := Idle.view there.raises there.opened fun row'' member => by
      rw [written] at member
      rw [List.mem_singleton.mp member, freed]
    exact ⟨commit _ final _ sameNow ⟨rfl, rfl, rfl⟩ written ((there.job? locked).trans stored), quiet, quiet⟩

private theorem cancelJob_serves {companyId jobId : ℕ} {cancelledBy : String} {traceId : Option String}
    (since : Idles admits origin pid tx s tx s) (silent : tx.writes = []) :
    Serves admits origin pid (.cancelJob companyId jobId cancelledBy traceId) .cancelled
      (JobsService.cancelJob companyId jobId cancelledBy traceId) tx s := by
  refine Body.query since (fun _ _ => trivial) (fun _ => rfl) fun now _ _ answer _ _ here ran after => ?_
  obtain ⟨⟨found, _, _⟩, inner, same⟩ := map_ok ran
  cases same
  obtain ⟨rfl, ⟨rfl, rfl, _⟩ | ⟨row, stored, condition, rfl, rfl⟩⟩ := updateJob_ok inner
  · exact Body.getJob after (fun _ => trivial) fun detail final last => Body.raise last fun _ _ => trivial
  · rw [view_of_silent silent] at stored
    obtain rfl := Store.job?_id stored
    rw [Bool.and_eq_true, decide_eq_true_eq] at condition
    obtain ⟨rfl, active⟩ := condition
    refine record_serves (row.cancel tx.now) .jobsCancelled (JobState.mk row.id .cancelled) after.rebase
      ⟨_, Tx.mem_hold tx _ .noKeyUpdate, rfl⟩ stored (by rw [Tx.add_writes, Tx.hold_writes, silent]; rfl) rfl
      ?_ ?_
    · rintro d rfl formed _
      exact not_cancelled formed active
    · intro opened final event same recorded writes still
      exact .cancel still active recorded (same ▸ writes)

private theorem retryJob_serves {companyId jobId : ℕ} {requestedBy : String} {traceId : Option String}
    (since : Idles admits origin pid tx s tx s) (silent : tx.writes = []) :
    Serves admits origin pid (.retryJob companyId jobId requestedBy traceId) .retried
      (JobsService.retryJob companyId jobId requestedBy traceId) tx s := by
  refine Body.query since (fun _ _ => trivial) (fun _ => rfl) fun now _ _ answer _ _ here ran after => ?_
  obtain ⟨⟨found, _, _⟩, inner, same⟩ := map_ok ran
  cases same
  obtain ⟨rfl, ⟨rfl, rfl, _⟩ | ⟨row, stored, condition, rfl, rfl⟩⟩ := updateJob_ok inner
  · refine Body.getJob after (fun _ => trivial) fun detail final last => ?_
    change Serves _ _ _ _ _ (if detail.status = .failed then _ else _) _ _
    split <;> exact Body.raise last fun _ _ => trivial
  · rw [view_of_silent silent] at stored
    obtain rfl := Store.job?_id stored
    rw [Bool.and_eq_true, Bool.and_eq_true, decide_eq_true_eq, decide_eq_true_eq, decide_eq_true_eq]
      at condition
    obtain ⟨⟨rfl, failed⟩, left⟩ := condition
    refine record_serves (row.retry traceId tx.now) .jobsQueued
      (JobRetried.mk ⟨row.id, .queued⟩ row.attempts) after.rebase ⟨_, Tx.mem_hold tx _ .noKeyUpdate, rfl⟩ stored
      (by rw [Tx.add_writes, Tx.hold_writes, silent]; rfl) rfl ?_ ?_
    · intro d _ _ unique
      cases unique
    · intro opened final event same recorded writes still
      exact .retry still failed left recorded (same ▸ writes)

/-- A request that sends one query and returns its answer. -/
private theorem read_serves {q : Sql} {request : Request} {response : q.Answer → Response}
    (since : Idles admits origin pid tx s tx s) (silent : tx.writes = [])
    (needs : ∀ now, Pre q (some tx) now)
    (reads : ∀ now others choice answer after opened,
      q.answer now others choice tx = .ok (answer, after, opened) → opened = tx)
    (reports : ∀ now answer, Quiet now (.request request (.ok (response answer)))) :
    Serves admits origin pid request response (Model.exec q) tx s := by
  refine Body.query since (fun now _ => needs now) (fun _ => rfl) fun now _ _ answer _ _ here ran after => ?_
  obtain rfl := reads _ _ _ _ _ _ ran
  exact Body.quiet after silent fun final there => ⟨reports final answer, there.raises⟩

theorem serve_serves {request : Request} (admitted : admits request = true)
    (since : Idles admits origin pid tx s tx s) (silent : tx.writes = []) :
    Serves admits origin pid request id (JobsService.serve request) tx s := by
  cases request with
  | listJobs companyId limit offset status =>
    refine Body.map Response.jobs (read_serves since silent (fun _ => trivial) ?_ fun _ _ => trivial)
    intro now others choice answer after opened ran
    cases ran
    rfl
  | countJobs companyId status =>
    refine Body.map Response.count (read_serves since silent (fun _ => trivial) ?_ fun _ _ => trivial)
    intro now others choice answer after opened ran
    cases ran
    rfl
  | listPage companyId limit offset status =>
    refine Body.query since (fun _ _ => trivial) (fun _ => rfl) fun now _ _ rows _ _ here ran after => ?_
    cases ran
    refine Body.query after (fun _ _ => trivial) (fun _ => rfl) fun now _ _ total _ _ here ran after => ?_
    cases ran
    exact Body.quiet after silent fun final there => ⟨trivial, there.raises⟩
  | getJob companyId jobId =>
    refine Body.getJob since (fun _ => trivial) fun detail now here => ?_
    exact Body.quiet here silent fun final there => ⟨trivial, there.raises⟩
  | getResult companyId jobId =>
    refine Body.query since (fun _ _ => trivial) (fun _ => rfl) fun now _ _ answer _ _ here ran after => ?_
    cases ran
    cases (tx.view now).resultOf? companyId jobId with
    | none => exact Body.raise after fun _ _ => trivial
    | some payload => exact Body.quiet after silent fun final there => ⟨trivial, there.raises⟩
  | createJob companyId kind traceId key submittedBy =>
    exact Body.map (fun value : JobState × Bool => Response.created value.1 value.2)
      (createJob_serves admitted since silent)
  | cancelJob companyId jobId cancelledBy traceId =>
    exact Body.map Response.cancelled (cancelJob_serves since silent)
  | retryJob companyId jobId requestedBy traceId =>
    exact Body.map Response.retried (retryJob_serves since silent)

end Serving

/-- A request of an admitted kind runs on an idle process and leaves it idle. -/
theorem runs_handle {request : Request} (admitted : admits request = true) :
    Runs (service admits) (contract admits origin) pid (idle admits origin pid)
      (JobsService.handle request) (fun _ => idle admits origin pid) (idle admits origin pid) :=
  runs_connTransaction (fun _ => id) fun _ _ since silent _ => serve_serves admitted since silent

end JobRelay.Soundness
