import JobRelay.Soundness.Attempts

/-! # The deployment keeps the invariant

`process_next` takes an idle worker back to an idle worker along every path that returns, so every call
of the two services meets its obligation, and the invariant holds in every state that a deployment
reaches from a database without jobs.
-/

namespace JobRelay.Soundness

open Model Sessions

variable {admits : Request → Bool} {origin : Store} {pid : ℕ} {claim : Claim}

section Worker

variable {α β : Type}

/-- A program that keeps what the process knows, however it ends. -/
abbrev Steady (before : Assertion (contract admits origin) pid) (program : Prog α) : Prop :=
  Works admits origin pid before program (fun _ => before) before

namespace Steady

variable {before : Assertion (contract admits origin) pid} {program : Prog α}

theorem ret (value : α) : Steady before (.ret value) := Runs.ret fun _ _ holds => holds

theorem raise (error : Exc) : Steady before (.raise error : Prog α) := Runs.raise fun _ holds => holds

theorem bind {next : α → Prog β} (steady : Steady before program)
    (rest : ∀ value, Steady before (next value)) : Steady before (Program.bind program next) :=
  Runs.bind (contract_lawful admits origin) steady rest

theorem handle {handler : Exc → Prog α} (steady : Steady before program)
    (rest : ∀ error, Steady before (handler error)) : Steady before (Program.handle program handler) :=
  Runs.handle (contract_lawful admits origin) steady rest

/-- Catching an exception as a value. -/
theorem caught {ok : Prog β} (steady : Steady before ok) (value : Exc → β) :
    Steady before (Program.handle ok fun error => .ret (value error)) :=
  Steady.handle steady fun error => Steady.ret (value error)

theorem signal : Steady before Processor.signal := by
  refine Runs.await fun choice => ?_
  cases choice.raises with
  | none => exact Steady.ret ()
  | some error => exact Steady.raise error

end Steady

variable (admits origin pid claim)

theorem heartbeatLoop_steady (ticks failures : ℕ) :
    Steady (held admits origin pid claim) (Processor.heartbeatLoop claim ticks failures) := by
  induction ticks generalizing failures with
  | zero => exact Steady.ret _
  | succ ticks ih =>
    refine Steady.bind (Steady.caught (renewLease_works.bind (contract_lawful ..) fun _ => Steady.ret _) some) ?_
    rintro (_ | error)
    · exact ih 0
    · cases error with
      | leaseLost jobId => exact Steady.ret _
      | _ =>
        change Steady _ (if Processor.HEARTBEAT_MAX_FAILURES ≤ failures + 1 then _ else _)
        split
        · exact Steady.ret _
        · exact ih (failures + 1)

theorem heartbeat_steady (state : Except Exc ℕ) :
    Steady (held admits origin pid claim) (Processor.heartbeat claim state) := by
  cases state with
  | error error => exact Steady.ret _
  | ok failures => exact Runs.await fun choice => heartbeatLoop_steady _ _ _ _ choice.ticks failures

theorem execute_steady : Steady (held admits origin pid claim) (Processor.execute claim) := by
  refine Steady.bind Steady.signal fun _ => ?_
  refine Steady.bind checked_works ?_
  rintro (_ | company)
  · exact Steady.raise _
  · exact Steady.ret ()

theorem supervise_steady : Steady (held admits origin pid claim) (Processor.supervise claim) := by
  have signalled : Steady (held admits origin pid claim)
      (Program.handle (Program.bind Processor.signal fun _ => .ret (Except.ok ())) fun error =>
        .ret (Except.error error)) :=
    Steady.caught (Steady.bind Steady.signal fun _ => Steady.ret _) Except.error
  refine Steady.bind signalled ?_
  rintro (error | _)
  · exact Steady.ret _
  refine Steady.bind (heartbeat_steady _ _ _ _ _) fun before => ?_
  refine Steady.bind (Steady.caught (Steady.bind (execute_steady admits origin pid claim) fun _ => Steady.ret (Except.ok ()))
    Except.error) fun body => ?_
  refine Steady.bind (heartbeat_steady _ _ _ _ _) fun after => ?_
  refine Steady.bind signalled fun stopped => ?_
  rcases stopped with error | _
  · exact Steady.ret _
  · rcases body with error | _
    · exact Steady.ret _
    · rcases after with error | _ <;> exact Steady.ret _

variable {admits origin pid claim}

/-- Every handler of `process_next` leaves the worker idle. -/
theorem conclude_works (lost : Option Exc) (error : Exc) :
    Works admits origin pid (held admits origin pid claim) (Processor.conclude claim lost error)
      (fun _ => idle admits origin pid) (held admits origin pid claim) := by
  have lawful := contract_lawful admits origin
  have recorded : ∀ {error : Exc} {value : JobStatus × Option Exc},
      Works admits origin pid (held admits origin pid claim)
        (Program.bind (Processor.recordFailure claim error) fun _ => .ret value)
        (fun _ => idle admits origin pid) (held admits origin pid claim) :=
    (recordFailure_works _).bind lawful fun _ => Runs.ret fun _ _ rests => rests
  cases error with
  | jobCancelled =>
    refine acknowledgeCancellation_works.bind lawful ?_
    rintro (_ | _)
    · exact Runs.await fun choice => recorded
    · exact Runs.ret fun _ _ rests => rests
  | _ => exact recorded

theorem attempt_works : Works admits origin pid (held admits origin pid claim) (Processor.attempt claim)
    (fun _ => idle admits origin pid) (held admits origin pid claim) := by
  have lawful := contract_lawful admits origin
  refine Runs.bind lawful (supervise_steady admits origin pid claim) ?_
  rintro ⟨lost, body⟩
  refine Runs.handle lawful ?_ (conclude_works lost)
  cases body with
  | error error => exact Runs.raise fun _ holds => holds
  | ok _ =>
    refine Runs.bind lawful Steady.signal fun _ => ?_
    exact finalize_works.bind lawful fun _ => Runs.ret fun _ _ rests => rests

theorem counted_works : Works admits origin pid (held admits origin pid claim)
    (Processor.counted claim (Processor.attempt claim)) (fun _ => idle admits origin pid)
    (anything admits origin pid) := by
  have lawful := contract_lawful admits origin
  -- an escaping exception leaves nothing to keep, since it ends the process
  let ended : JobStatus × Option Exc → Assertion (contract admits origin) pid
    | (_, none) => idle admits origin pid
    | (_, some _) => anything admits origin pid
  have caught : Works admits origin pid (held admits origin pid claim)
      (Program.handle (Processor.attempt claim) fun error => .ret (.failed, some error)) ended
      (anything admits origin pid) := by
    have returned : Works admits origin pid (held admits origin pid claim) (Processor.attempt claim) ended
        (anything admits origin pid) := by
      refine attempt_works.weaken (fun _ holds => holds) ?_ fun _ _ => trivial
      rintro ⟨outcome, _ | error⟩ state rests
      · exact rests
      · trivial
    exact Runs.handle lawful returned fun error => Runs.ret fun _ _ _ => trivial
  refine Runs.bind lawful caught ?_
  rintro ⟨outcome, escaping⟩
  refine Runs.publish (fun state _ holds => ⟨.processed, ?_⟩) lawful ?_
  · exact (ended (outcome, escaping)).stable (Rely.log pid none ..) holds
  · cases escaping with
    | none => exact Runs.ret fun _ _ rests => rests
    | some error => exact Runs.raise fun _ _ => trivial

theorem processNext_works : Works admits origin pid (idle admits origin pid) (Processor.processNext pid)
    (fun _ => idle admits origin pid) (anything admits origin pid) := by
  have lawful := contract_lawful admits origin
  refine Runs.bind lawful (recoverStaleJobs_works.weaken (fun _ holds => holds) (fun _ _ holds => holds)
    fun _ _ => trivial) fun _ => ?_
  refine claimNext_works.bind lawful ?_
  rintro (_ | claim)
  · exact Runs.ret fun _ _ rests => rests
  · exact counted_works.bind lawful fun _ => Runs.ret fun _ _ rests => rests

end Worker

theorem nextPollTimeout_works : Works admits origin pid (idle admits origin pid) nextPollTimeout
    (fun _ => idle admits origin pid) (idle admits origin pid) := by
  refine runs_connTransaction (fun _ => id) fun tx s since silent _ => ?_
  refine Body.query since (fun _ _ => ⟨tx, rfl, silent⟩) (fun _ => rfl)
    fun now _ _ answer _ _ here ran after => ?_
  cases ran
  exact Body.quiet after silent fun final there => ⟨trivial, there.raises⟩

/-- Every call that the deployment starts on an idle process meets its obligation. -/
theorem service_safe (admits : Request → Bool) (origin : Store) :
    CallsSafe (service admits) (contract admits origin) := by
  have lawful := contract_lawful admits origin
  intro pid mode call state starts _ valid rests
  rw [service, Bool.and_eq_true] at starts
  cases call with
  | request request =>
    have runs : Works admits origin pid (idle admits origin pid) (code pid (.request request))
        (fun _ => idle admits origin pid) (idle admits origin pid) := by
      refine Runs.handle lawful (Runs.bind lawful (runs_handle starts.2) fun response => ?_) fun error => ?_
      · exact Runs.ret fun _ _ rests => rests
      · exact Runs.ret fun _ _ rests => rests
    exact runs.done valid rests fun _ _ rests => rests
  | processNext =>
    have runs : Works admits origin pid (idle admits origin pid) (code pid .processNext)
        (fun _ => idle admits origin pid) (anything admits origin pid) :=
      Runs.bind lawful processNext_works fun _ => Runs.ret fun _ _ rests => rests
    exact runs.done valid rests fun _ _ rests => rests
  | nextPollTimeout =>
    have runs : Works admits origin pid (idle admits origin pid) (code pid .nextPollTimeout)
        (fun _ => idle admits origin pid) (idle admits origin pid) := by
      refine Runs.handle lawful (Runs.bind lawful nextPollTimeout_works fun _ => ?_) fun error => ?_
      · exact Runs.ret fun _ _ rests => rests
      · cases error with
        | operational message => exact Runs.ret fun _ _ rests => rests
        | _ => exact Runs.raise fun _ rests => rests
    exact runs.done valid rests fun _ _ rests => rests

theorem dead_starts (admits : Request → Bool) (call : Call) :
    (service admits).starts (service admits).dead call = false := by cases call <;> rfl

theorem dead_moves (admits : Request → Bool) (s : Store) (mode : Mode) :
    (service admits).moves s (service admits).dead mode = false := by cases mode <;> rfl

section Reachable

variable {start world next : Service}

/-- A database without jobs meets the invariant. -/
theorem fresh_valid (fresh : Fresh start) (admits : Request → Bool) :
    Valid admits start.state start.state := by
  have jobless : ∀ jobId, start.state.job? jobId = none := fun jobId => by
    rw [Store.job?, Table.find?, fresh.jobs]
    rfl
  refine ⟨fun jobId _ => ?_, ?_, ?_, fun companyId => ?_, ?_⟩
  · have silent : start.state.eventsOf jobId = [] := by
      rw [Store.eventsOf, fresh.audits]
      rfl
    have unlisted : start.state.entriesOf jobId = [] := by
      rw [Store.entriesOf, List.filter_eq_nil_iff]
      intro entry member
      simp [fresh.deadLetters entry member]
    rw [Store.traces, silent, unlisted, Table.find?, fresh.results]
    rfl
  · intro jobId d stored
    rw [Store.dossier?, jobless] at stored
    cases stored
  · intro jobId row stored
    rw [jobless] at stored
    cases stored
  · have unfinished : start.state.doneCount companyId = 0 := by
      rw [Store.doneCount, fresh.jobs]
      rfl
    rw [unfinished]
    cases start.state.company? companyId with
    | none => rfl
    | some company => simp
  · intro jobId row jobId' row' key stored
    rw [jobless] at stored
    cases stored

theorem fresh_sound (fresh : Fresh start) (admits : Request → Bool) :
    Sound (service admits) (contract admits start.state) start where
  inv := fresh_valid fresh admits
  unused pid _ := by
    intro jobId row stored
    rw [Store.job?, Table.find?, fresh.jobs] at stored
    cases stored
  resting proc member := by rw [fresh.procs] at member; cases member
  running proc member := by rw [fresh.procs] at member; cases member
  opened proc member := by rw [fresh.procs] at member; cases member
  apart proc member := by rw [fresh.procs] at member; cases member

/-- Every world that a deployment reaches from a database without jobs is sound. -/
theorem reachable_sound (fresh : Fresh start) (reached : World.Reaches (service admits) start world) :
    Sound (service admits) (contract admits start.state) world :=
  (fresh_sound fresh admits).reaches (contract_lawful ..) (service_safe _ _) (dead_starts admits)
    (dead_moves admits) reached

theorem reachable_valid (fresh : Fresh start) (reached : World.Reaches (service admits) start world) :
    Valid admits start.state world.state := (reachable_sound fresh reached).inv

/-- Whatever a process is about to send, it may send. -/
theorem reachable_pre (fresh : Fresh start) (reached : World.Reaches (service admits) start world)
    {proc : Proc ℕ Mode Call Tx Sql Sql.Answer Choice Exc Label Return} (member : proc ∈ world.procs.rows)
    {q : Sql} {rest : Except Exc q.Answer → Prog Return} (present : proc.program = some (.query q rest)) :
    Pre q proc.tx world.state := by
  have sound := reachable_sound fresh reached
  exact (sound.running proc member _ present world.state (.refl ..)
    ⟨sound.inv, sound.opened proc member⟩).1

/-- How one action of a reachable deployment moves the database. -/
theorem reachable_moved (fresh : Fresh start) (reached : World.Reaches (service admits) start world)
    {action : Step} (stepped : world.step (service admits) action = some next) :
    Moved (service admits) (contract admits start.state) world action next.state :=
  ((reachable_sound fresh reached).step (contract_lawful ..) (service_safe _ _) (dead_starts admits)
    (dead_moves admits) stepped).2

/-- What commits, reports and the clock preserve holds of every reachable database. -/
theorem reachable_preserves (fresh : Fresh start) (reached : World.Reaches (service admits) start world)
    {P : Store → Prop} (initial : P start.state)
    (guar : ∀ {pid tx before after}, Valid admits start.state before → Guar admits pid tx before after →
      P before → P after)
    (advance : ∀ {s : Store} (clock : Micros), P s → P { s with clock }) : P world.state :=
  (fresh_sound fresh admits).preserves (contract_lawful ..) (service_safe _ _) (dead_starts admits)
    (dead_moves admits) reached initial guar fun event _ holds => by
      cases event
      exact advance _ holds

/-- Every change of the database moves every job by at most one transition. -/
theorem Guar.jobStep {origin before after : Store} {pid : ℕ} {tx : Option Tx}
    (guar : Guar admits pid tx before after) (valid : Valid admits origin before) (jobId : ℕ) :
    JobStep (Opening admits) before after jobId := by
  cases guar with
  | drawn drawn => cases drawn <;> exact .same rfl rfl
  | commit opened commit =>
    cases commit.jobStep valid.orphans opened jobId with
    | same job traces => exact .same job traces
    | created absent stored created owned unused => exact .created absent stored created owned unused
    | moved before stored step => exact .moved before stored step
  | aborted _ => exact .same rfl rfl
  | processed => exact .same rfl rfl

theorem reachable_jobStep (fresh : Fresh start) (reached : World.Reaches (service admits) start world)
    {action : Step} (stepped : world.step (service admits) action = some next) (jobId : ℕ) :
    JobStep (Opening admits) world.state next.state jobId := by
  cases reachable_moved fresh reached stepped with
  | same unchanged => exact .same (by rw [unchanged]) (by rw [unchanged])
  | guar pid tx acting guar _ => exact guar.jobStep (reachable_valid fresh reached) jobId
  | environment event _ moved =>
    rw [moved]
    cases event
    exact .same rfl rfl

/-- How the database moved when a process reported a label. -/
inductive Reported (admits : Request → Bool) (pid : ℕ) (label : Label) (s : Store) : Store → Prop
  | commit {tx : Tx} (opened : tx.Open s) (commit : Commit admits pid tx s label) :
      Reported admits pid label s ((tx.view s).log pid label)
  | aborted {tx : Tx} (facts : Aborted s tx label) : Reported admits pid label s (s.log pid label)
  | processed (counted : ∃ claim outcome, label = .processed claim outcome) :
      Reported admits pid label s (s.log pid label)

/-- A change that adds a label to the log is what the label reports. -/
theorem Guar.reported {before after : Store} {writer pid : ℕ} {tx : Option Tx} {label : Label}
    (guar : Guar admits writer tx before after) (logged : after.history = before.history ++ [(pid, label)]) :
    Reported admits pid label before after := by
  have last : ∀ {reported}, before.history ++ [(writer, reported)] = before.history ++ [(pid, label)] →
      writer = pid ∧ reported = label := fun same => by simpa using same
  cases guar with
  | drawn drawn => cases drawn <;> simp at logged
  | commit isOpen commit =>
    rw [Store.log, Tx.view, foldl_history] at logged
    obtain ⟨rfl, rfl⟩ := last logged
    exact .commit isOpen commit
  | aborted facts =>
    obtain ⟨rfl, rfl⟩ := last logged
    exact .aborted facts
  | processed =>
    obtain ⟨rfl, rfl⟩ := last logged
    exact .processed ⟨_, _, rfl⟩

/-- A request that reports an error rolled back. -/
theorem Reported.of_error {before after : Store} {pid : ℕ} {request : Request} {error : Exc}
    (reported : Reported admits pid (.request request (.error error)) before after) :
    after = before.log pid (.request request (.error error)) ∧
      ∃ tx, Aborted before tx (.request request (.error error)) := by
  cases reported with
  | commit _ commit =>
    cases commit with
    | quiet _ facts => exact absurd facts Quiet.not_error
  | aborted facts => exact ⟨rfl, _, facts⟩
  | processed counted => obtain ⟨_, _, same⟩ := counted; cases same

theorem reachable_reported (fresh : Fresh start) (reached : World.Reaches (service admits) start world)
    {action : Step} (stepped : world.step (service admits) action = some next) {pid : ℕ} {label : Label}
    (logged : next.state.history = world.state.history ++ [(pid, label)]) :
    Reported admits pid label world.state next.state := by
  have moved := reachable_moved fresh reached stepped
  generalize next.state = after at logged moved
  cases moved with
  | same unchanged =>
    rw [unchanged] at logged
    simp at logged
  | environment event _ moved =>
    rw [moved] at logged
    cases event
    simp [service] at logged
  | guar writer tx _ guar _ => exact guar.reported logged

/-- What a transition of any job preserves, once true, stays true. -/
theorem later_preserves (fresh : Fresh start) (reached : World.Reaches (service admits) start world)
    {target : Service} (later : World.Reaches (service admits) world target) {P : Store → Prop}
    (initial : P world.state)
    (steps : ∀ {before after}, Valid admits start.state before →
      (∀ jobId, JobStep (Opening admits) before after jobId) → P before → P after) : P target.state := by
  have whole : Valid admits start.state target.state ∧ P target.state := by
    refine (reachable_sound fresh reached).preserves (contract_lawful ..) (service_safe _ _)
      (dead_starts admits) (dead_moves admits) later (P := fun s => Valid admits start.state s ∧ P s)
      ⟨reachable_valid fresh reached, initial⟩ ?_ ?_
    · rintro pid tx before after valid guar ⟨_, holds⟩
      exact ⟨(contract_lawful admits start.state).guar_inv valid guar,
        steps valid (guar.jobStep valid) holds⟩
    · rintro ⟨elapsed⟩ state ⟨valid, holds⟩
      refine ⟨(contract_lawful admits start.state).environment_inv (.advance elapsed) valid, ?_⟩
      exact steps valid (fun _ => .same rfl rfl) holds
  exact whole.2

end Reachable

end JobRelay.Soundness
