import JobRelay.Sessions.Residual
import JobRelay.Soundness.Deployment

/-! # The calls of clients

A request runs the operation it names in one transaction: whatever it reports is its own outcome, it
returns only what its transaction reported, and only a successful commit changes a table. The count of
active jobs in `create_job` decides between an insertion and the end of the call.
-/

namespace JobRelay.Soundness

open Model Sessions

/-- What a request leaves once its body is left: its transaction ends and its outcome becomes a response. -/
def ending (request : Request) (body : Prog Response) : Prog Return :=
  ((Program.transaction body (fun response => .request request (.ok response))
    (fun error => .request request (.error error))).bind fun response => .ret (.response (.ok response))).handle
    fun error => .ret (.response (.error error))

/-- The errors with which the database and the connection fail a statement. -/
abbrev Failure (error : Exc) : Prop := error.fromDatabase = true

/-- How a body stands at each of its points: it queries, and ends with its transaction open or failed. -/
def Bodied {α : Type} (standing : Standing Label) (left : Prog α) : Prop :=
  standing.reported = [] ∧
    match left with
    | .ret _ => standing.isOpen = true
    | .raise error => standing.isOpen = true ∨ Failure error
    | .query _ _ => True
    | _ => False

/-- The body of a transaction, begun and with nothing reported. -/
def Plain {α : Type} (body : Prog α) : Prop := body.Always Failure Bodied ⟨true, []⟩

namespace Plain

variable {α β : Type}

theorem ret (value : α) : Plain (.ret value) := ⟨rfl, rfl⟩

theorem raise (error : Exc) : Plain (.raise error : Prog α) := ⟨rfl, .inl rfl⟩

theorem exec (q : Sql) : Plain (Model.exec q) :=
  ⟨⟨rfl, trivial⟩, fun _ => ⟨rfl, rfl⟩, fun _ fails => ⟨rfl, .inr fails⟩⟩

theorem bind {body : Prog α} {next : α → Prog β} (plain : Plain body) (rest : ∀ value, Plain (next value)) :
    Plain (body.bind next) := by
  refine Program.Always.bind (plain.imp ?_)
  rintro ⟨isOpen, reported⟩ left ⟨rfl, stands⟩
  cases left with
  | ret value =>
    obtain rfl : isOpen = true := stands
    exact rest value
  | raise error => exact ⟨rfl, stands⟩
  | query q next => exact ⟨rfl, trivial⟩
  | _ => cases stands

end Plain

theorem getJob_plain (companyId jobId : ℕ) : Plain (JobsService.getJob companyId jobId) := by
  refine (Plain.exec _).bind ?_
  rintro (_ | row)
  · exact .raise _
  · exact (Plain.exec _).bind fun events => .ret _

theorem replay_plain (existing : Existing) (kind : String) : Plain (JobsService.replay existing kind) := by
  unfold JobsService.replay
  split
  · exact .raise _
  · exact .ret _

theorem createJob_plain (companyId : ℕ) (kind : String) (traceId : Option String) (key : String)
    (submittedBy : Option String) : Plain (JobsService.createJob companyId kind traceId key submittedBy) := by
  have replayed : ∀ existing, Plain ((JobsService.replay existing kind).bind fun job => .ret (job, false)) :=
    fun existing => (replay_plain existing kind).bind fun _ => .ret _
  have notified : ∀ job : JobState, Plain ((JobsService.notifyQueued job.id).bind fun _ => .ret (job, true)) :=
    fun job => (Plain.exec _).bind fun _ => .ret _
  have inserted : Plain (JobsService.insertJob companyId kind traceId key submittedBy) := by
    refine (Plain.exec _).bind ?_
    rintro (_ | job)
    · refine (Plain.exec _).bind ?_
      rintro (_ | winner)
      · exact .raise _
      · exact replayed winner
    · cases submittedBy with
      | none => exact notified job
      | some actor => exact (Plain.exec _).bind fun _ => notified job
  refine (Plain.exec _).bind ?_
  rintro (_ | existing)
  · refine (Plain.exec _).bind ?_
    rintro (_ | limit)
    · exact .raise _
    · refine (Plain.exec _).bind ?_
      rintro (_ | existing)
      · refine (Plain.exec _).bind fun running => ?_
        split
        · exact .raise _
        · exact inserted
      · exact replayed existing
  · exact replayed existing

theorem cancelJob_plain (companyId jobId : ℕ) (cancelledBy : String) (traceId : Option String) :
    Plain (JobsService.cancelJob companyId jobId cancelledBy traceId) := by
  refine (Plain.exec _).bind ?_
  rintro (_ | row)
  · exact (getJob_plain companyId jobId).bind fun _ => .raise _
  · exact (Plain.exec _).bind fun _ => (Plain.exec _).bind fun _ => .ret _

theorem retryJob_plain (companyId jobId : ℕ) (requestedBy : String) (traceId : Option String) :
    Plain (JobsService.retryJob companyId jobId requestedBy traceId) := by
  refine (Plain.exec _).bind ?_
  rintro (_ | row)
  · refine (getJob_plain companyId jobId).bind fun current => ?_
    split
    · exact .raise _
    · exact .raise _
  · exact (Plain.exec _).bind fun _ => (Plain.exec _).bind fun _ => .ret _

/-- Every operation of the service is the body of one transaction. -/
theorem serve_plain (request : Request) : Plain (JobsService.serve request) := by
  cases request with
  | listJobs companyId limit offset status => exact (Plain.exec _).bind fun _ => .ret _
  | countJobs companyId status => exact (Plain.exec _).bind fun _ => .ret _
  | listPage companyId limit offset status =>
    exact (Plain.exec _).bind fun _ => (Plain.exec _).bind fun _ => .ret _
  | getJob companyId jobId => exact (getJob_plain companyId jobId).bind fun _ => .ret _
  | getResult companyId jobId =>
    refine Plain.bind ((Plain.exec _).bind ?_) fun _ => .ret _
    rintro (_ | payload)
    · exact .raise _
    · exact .ret _
  | createJob companyId kind traceId key submittedBy =>
    exact (createJob_plain companyId kind traceId key submittedBy).bind fun _ => .ret _
  | cancelJob companyId jobId cancelledBy traceId =>
    exact (cancelJob_plain companyId jobId cancelledBy traceId).bind fun _ => .ret _
  | retryJob companyId jobId requestedBy traceId =>
    exact (retryJob_plain companyId jobId requestedBy traceId).bind fun _ => .ret _

/-- What a request reports is its own outcome, and what it returns it has reported. -/
def Requested (request : Request) : Standing Label → Prog Return → Prop
  | standing, .commit label _ => standing.isOpen = true ∧ ∃ response, label = .request request (.ok response)
  | standing, .rollback label _ =>
      ∃ error, label = .request request (.error error) ∧ (standing.isOpen = true ∨ Failure error)
  | standing, .ret (.response (.ok response)) => standing.reported = [.request request (.ok response)]
  | standing, .ret (.response (.error error)) =>
      Failure error ∨ standing.reported = [.request request (.error error)]
  | _, .query _ _ => True
  | _, _ => False

private theorem requested_ending {request : Request} {body : Prog Response} {standing : Standing Label}
    (bodied : body.Always Failure Bodied standing) :
    (ending request body).Always Failure (Requested request) standing := by
  induction body generalizing standing with
  | ret response =>
    obtain ⟨silent, isOpen⟩ := bodied
    refine ⟨⟨isOpen, response, rfl⟩, ?_, fun error fails => ⟨.inl fails, .inl fails⟩⟩
    change standing.ended _ = _
    rw [Standing.ended, if_pos isOpen, silent]
    rfl
  | raise error =>
    obtain ⟨silent, isOpen⟩ := bodied
    refine ⟨⟨error, rfl, isOpen⟩, ?_⟩
    rcases isOpen with isOpen | fails
    · right
      rw [Standing.ended, if_pos isOpen, silent]
      rfl
    · exact .inl fails
  | query q next ih =>
    exact ⟨trivial, fun answer => ih _ (bodied.2.1 answer), fun error fails => ih _ (bodied.2.2 error fails)⟩
  | commit label next => cases bodied.1.2
  | rollback label next => cases bodied.1.2
  | publish label next => cases bodied.1.2
  | await next => cases bodied.1.2

/-- A request always stands as it should. -/
theorem request_requested (pid : ℕ) (request : Request) :
    (code pid (.request request)).Always Failure (Requested request) ⟨false, []⟩ := by
  refine ⟨trivial, fun _ => requested_ending (serve_plain request), fun error fails => ?_⟩
  exact @requested_ending request (.raise error) _ ⟨rfl, .inr fails⟩

section Count

variable (companyId : ℕ) (kind : String) (traceId : Option String) (key : String)
  (submittedBy : Option String)

/-- What the count of active jobs leads to: below some limit an insertion, and at it the end of the call. -/
def Counted : Standing Label → Prog Return → Prop
  | _, .query (.countActive counted) next => counted = companyId ∧ ∃ limit : Int, ∀ running : ℕ,
      (limit ≤ running → next (.ok running) =
        .rollback (.request (.createJob companyId kind traceId key submittedBy)
          (.error (.concurrencyLimit limit running)))
          (.ret (.response (.error (.concurrencyLimit limit running))))) ∧
      (running < limit → ∃ rest, next (.ok running) = .query (.insertJob companyId kind traceId key) rest)
  | _, _ => True

variable {companyId kind traceId key submittedBy} {F : Exc → Prop} {standing : Standing Label}

end Count

/-- The tables and the notifications are the same; sequences, clock and log may differ. -/
structure SameRows (s after : Store) : Prop where
  companies : after.companies = s.companies
  jobs : after.jobs.toTable = s.jobs.toTable
  results : after.results = s.results
  audits : after.audits.toTable = s.audits.toTable
  deadLetters : after.deadLetters.toTable = s.deadLetters.toTable
  notified : after.notified = s.notified

theorem SameRows.refl (s : Store) : SameRows s s := ⟨rfl, rfl, rfl, rfl, rfl, rfl⟩

theorem SameRows.log {s after : Store} (same : SameRows s after) (pid : ℕ) (label : Label) :
    SameRows s (after.log pid label) :=
  ⟨same.companies, same.jobs, same.results, same.audits, same.deadLetters, same.notified⟩

theorem SameRows.drawn {s after : Store} (drawn : Drawn s after) : SameRows s after := by
  cases drawn <;> exact ⟨rfl, rfl, rfl, rfl, rfl, rfl⟩

section Reachable

variable {admits : Request → Bool} {start world next : Service} {action : Step}

/-- A step adds at most one label to the log. -/
theorem reachable_history (fresh : Fresh start) (reached : World.Reaches (service admits) start world)
    (stepped : world.step (service admits) action = some next) :
    next.state.history = world.state.history ∨
      ∃ pid label, next.state.history = world.state.history ++ [(pid, label)] := by
  have moved := reachable_moved fresh reached stepped
  generalize next.state = after at moved
  cases moved with
  | same unchanged => exact .inl (by rw [unchanged])
  | environment event _ moved =>
    rw [moved]
    cases event
    exact .inl rfl
  | guar pid tx _ guar _ =>
    cases guar with
    | drawn drawn => cases drawn <;> exact .inl rfl
    | @commit tx s label opened commit => exact .inr ⟨pid, label, by rw [Store.log, Tx.view, foldl_history]⟩
    | @aborted _ _ label _ => exact .inr ⟨pid, label, rfl⟩
    | processed => exact .inr ⟨pid, _, rfl⟩

/-- A label is reported by the process that was about to report it. -/
theorem step_label (stepped : world.step (service admits) action = some next) (pid : ℕ) (label : Label)
    (logged : next.state.history = world.state.history ++ [(pid, label)]) :
    ∃ proc ∈ world.procs.rows, proc.pid = pid ∧ action.pid? = some pid ∧
      ∃ program, proc.program = some program ∧ program.label? = some label := by
  have effect := World.step_effect stepped
  generalize next.state = after at effect logged
  cases effect with
  | same => simp at logged
  | answered ran => cases (answer_keeps ran).drawn <;> simp at logged
  | @labelled proc program written _ acting member present labels ends =>
    have grown : world.state.history ++ [(proc.pid, written)] = world.state.history ++ [(pid, label)] := by
      rw [← logged]
      rcases ends with ⟨tx, _, rfl⟩ | rfl
      · change _ = ((tx.view world.state).log proc.pid written).history
        rw [Store.log, Tx.view, foldl_history]
      · rfl
    simp only [List.append_cancel_left_eq, List.cons.injEq, Prod.mk.injEq, and_true] at grown
    obtain ⟨rfl, rfl⟩ := grown
    exact ⟨proc, member, rfl, acting, program, present, labels⟩
  | environment event =>
    cases event
    simp [service] at logged

/-- What a process has reported, in order. -/
def reports (s : Store) (pid : ℕ) : List Label :=
  s.history.filterMap fun entry => if entry.1 = pid then some entry.2 else none

theorem mem_reports {s : Store} {pid : ℕ} {label : Label} : label ∈ reports s pid ↔ (pid, label) ∈ s.history := by
  rw [reports, List.mem_filterMap]
  constructor
  · rintro ⟨⟨writer, written⟩, member, same⟩
    split at same
    · next mine => cases mine; cases same; exact member
    · cases same
  · exact fun member => ⟨(pid, label), member, if_pos rfl⟩

theorem reports_log {s : Store} {pid : ℕ} {label : Label} : reports (s.log pid label) pid = reports s pid ++ [label] := by
  simp [reports, Store.log]

private theorem reports_of_history {s after : Store} (same : after.history = s.history) (pid : ℕ) :
    reports after pid = reports s pid := by
  rw [reports, same]
  rfl

private theorem reports_other {s after : Store} {writer pid : ℕ} {label : Label}
    (grown : after.history = s.history ++ [(writer, label)]) (foreign : writer ≠ pid) :
    reports after pid = reports s pid := by
  simp [reports, grown, foreign]

private theorem suffix_log {s : Store} {pid : ℕ} {reported : List Label} (label : Label)
    (last : reported <:+ reports s pid) : reported ++ [label] <:+ reports (s.log pid label) pid := by
  rw [reports_log]
  exact List.suffix_append_self_iff.mpr last

/-- What a call has reported is the last that its process has. -/
theorem service_notes (fresh : Fresh start) (admits : Request → Bool) :
    (service admits).Notes (fun pid reported s => reported <:+ reports s pid) start where
  none pid state := List.nil_suffix
  commit label tx last := by
    refine suffix_log label ?_
    rw [Tx.view, reports_of_history (foldl_history ..)]
    exact last
  publish label last := suffix_log label last
  answer ran last := by
    rw [reports_of_history (by cases (answer_keeps ran).drawn <;> rfl)]
    exact last
  others reached stepped idle last := by
    rcases reachable_history fresh reached stepped with same | ⟨writer, other, grown⟩
    · rwa [reports_of_history same]
    · obtain ⟨_, _, _, acting, _⟩ := step_label stepped writer other grown
      rwa [reports_other grown fun same => idle (acting.trans (congrArg some same))]

/-- No step takes an entry out of the log. -/
theorem logged_later (fresh : Fresh start) (reached : World.Reaches (service admits) start world)
    (stepped : world.step (service admits) action = some next) {entry : ℕ × Label}
    (logged : entry ∈ world.state.history) : entry ∈ next.state.history := by
  rcases reachable_history fresh reached stepped with same | ⟨writer, other, grown⟩
  · rwa [same]
  · rw [grown]
    exact List.mem_append_left _ logged

/-- What always holds of a request's program holds of what a client has left of it. -/
private theorem reachable_left (fresh : Fresh start) (reached : World.Reaches (service admits) start world)
    {P : Standing Label → Prog Return → Prop} {request : Request}
    (always : ∀ pid, (code pid (.request request)).Always Failure P ⟨false, []⟩)
    {proc : Proc ℕ Mode Call Tx Sql Sql.Answer Choice Exc Label Return} (member : proc ∈ world.procs.rows)
    (called : proc.call = some (.request request)) {program : Prog Return}
    (present : proc.program = some program) :
    ∃ standing, standing.isOpen = proc.tx.isSome ∧ standing.reported <:+ reports world.state proc.pid ∧
      P standing program := by
  have stands := World.always (P := fun _ call standing left => call = .request request → P standing left)
    (F := Failure) (service_notes fresh admits) (fun pid call => ?_) id answer_fails fresh.procs reached proc
    member
  · obtain ⟨standing, isOpen, reported, left⟩ := stands.left _ program called present
    exact ⟨standing, isOpen, reported, left.here rfl⟩
  · by_cases same : call = .request request
    · subst same
      exact (always pid).imp fun _ _ holds _ => holds
    · exact Program.Always.of_forall fun _ _ other => absurd other same

/-- A client that runs a request stands as it should. -/
theorem reachable_requested (fresh : Fresh start) (reached : World.Reaches (service admits) start world)
    {proc : Proc ℕ Mode Call Tx Sql Sql.Answer Choice Exc Label Return} (member : proc ∈ world.procs.rows)
    {request : Request} (called : proc.call = some (.request request)) {program : Prog Return}
    (present : proc.program = some program) :
    ∃ standing, standing.isOpen = proc.tx.isSome ∧ standing.reported <:+ reports world.state proc.pid ∧
      Requested request standing program :=
  reachable_left fresh reached (fun pid => request_requested pid request) member called present

/-- A request that has returned has reported its outcome last, if the database did not fail it. -/
theorem reachable_returned (fresh : Fresh start) (reached : World.Reaches (service admits) start world)
    {proc : Proc ℕ Mode Call Tx Sql Sql.Answer Choice Exc Label Return} (member : proc ∈ world.procs.rows)
    {request : Request} (called : proc.call = some (.request request)) {result : Except Exc Response}
    (present : proc.program = some (.ret (.response result))) :
    (reports world.state proc.pid).getLast? = some (.request request result) ∨
      ∃ error, result = .error error ∧ Failure error := by
  obtain ⟨standing, _, last, requested⟩ := reachable_requested fresh reached member called present
  have reported : standing.reported = [.request request result] →
      (reports world.state proc.pid).getLast? = some (.request request result) := by
    intro only
    rw [only] at last
    obtain ⟨earlier, whole⟩ := last
    rw [← whole, List.getLast?_concat]
  cases result with
  | ok response => exact .inl (reported requested)
  | error error => exact requested.symm.imp reported fun failure => ⟨error, rfl, failure⟩

/-- Of what a client does for a request, only the successful commit of its transaction changes a table. -/
theorem reachable_request_step (fresh : Fresh start) (reached : World.Reaches (service admits) start world)
    {proc : Proc ℕ Mode Call Tx Sql Sql.Answer Choice Exc Label Return} (member : proc ∈ world.procs.rows)
    {request : Request} (called : proc.call = some (.request request)) (acting : action.pid? = some proc.pid)
    (stepped : world.step (service admits) action = some next) :
    SameRows world.state next.state ∨ ∃ tx response rest, tx.Open world.state ∧
      Commit admits proc.pid tx world.state (.request request (.ok response)) ∧
      next.state = (tx.view world.state).log proc.pid (.request request (.ok response)) ∧
      proc.program = some (.commit (.request request (.ok response)) rest) := by
  have moved := reachable_moved fresh reached stepped
  have labelled := step_label stepped
  generalize next.state = after at moved labelled
  cases moved with
  | same unchanged =>
    rw [unchanged]
    exact .inl (.refl _)
  | environment event other _ =>
    rw [other] at acting
    cases acting
  | guar pid tx acts guar _ =>
    obtain rfl : pid = proc.pid := Option.some.inj (acts.symm.trans acting)
    cases guar with
    | drawn drawn => exact .inl (.drawn drawn)
    | aborted _ => exact .inl ((SameRows.refl _).log _ _)
    | processed => exact .inl ((SameRows.refl _).log _ _)
    | @commit tx _ label opened commit =>
      obtain ⟨other, found, same, _, program, present, labels⟩ := labelled proc.pid label (by
        rw [Store.log, Tx.view, foldl_history])
      obtain rfl : other = proc := by
        have left := Table.mem_rows_iff.mp found
        rw [same, Table.mem_rows_iff.mp member] at left
        exact (Option.some.inj left).symm
      obtain ⟨standing, _, _, requested⟩ := reachable_requested fresh reached member called present
      cases program with
      | commit written rest =>
        cases labels
        obtain ⟨_, response, rfl⟩ := requested
        exact .inr ⟨tx, response, rest, opened, commit, rfl, present⟩
      | rollback written rest =>
        cases labels
        obtain ⟨error, rfl, _⟩ := requested
        cases commit with
        | quiet _ facts => exact absurd facts Quiet.not_error
      | publish => cases requested
      | _ => cases labels

end Reachable

end JobRelay.Soundness
