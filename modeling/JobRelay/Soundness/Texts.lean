import JobRelay.Model.Routes
import JobRelay.Sessions.Sent
import JobRelay.Soundness.Deployment

/-! # The texts that the services store

The actor of an audit event is a principal or the worker, and the payload of a result is made by the worker.
So none of these texts is blank in any of the senses of the repository, and no payload has control characters.
-/

namespace JobRelay.Soundness

open Model Sessions

/-- A text that neither the page nor the API takes for blank. -/
def Legible (text : String) : Prop := ∃ c ∈ text.toList, isTrimmed c = false ∧ isPythonSpace c = false

theorem Legible.trimmed {text : String} (legible : Legible text) : Visible isTrimmed text := by
  obtain ⟨c, member, seen, _⟩ := legible
  exact ⟨c, member, seen⟩

theorem Legible.python {text : String} (legible : Legible text) : Visible isPythonSpace text := by
  obtain ⟨c, member, _, seen⟩ := legible
  exact ⟨c, member, seen⟩

/-- The texts that a statement stores are legible. -/
def Writes : Sql → Prop
  | .insertAuditEvent _ _ _ actor _ _ => Legible actor
  | .insertResult _ payload => Legible payload
  | _ => True

/-- The texts that a write stores are legible, and a payload has no control characters. -/
def Stores : Write → Prop
  | .insertAudit event => Legible event.actor
  | .insertResult result => Legible result.payload ∧ result.payload.toList.any isControl = false
  | _ => True

section Statements

theorem legible_principal (companyId : ℕ) (role : Role) : Legible (principal companyId role) := by
  refine ⟨':', ?_, by decide, by decide⟩
  simp [principal]

theorem legible_signedBy {companyId : ℕ} {actor : String} (signed : Request.signedBy companyId actor = true) :
    Legible actor := by
  rcases Bool.or_eq_true _ _ ▸ signed with user | admin
  · exact of_decide_eq_true user ▸ legible_principal _ _
  · exact of_decide_eq_true admin ▸ legible_principal _ _

theorem legible_resultado (companyId : ℕ) :
    Legible ("resultado sensível da empresa " ++ toString companyId) := by
  refine ⟨'r', ?_, by decide, by decide⟩
  simp

theorem legible_system : Legible Processor.SYSTEM_ACTOR := ⟨':', by decide, by decide, by decide⟩

end Statements

section Requests

variable {α : Type} {companyId jobId : ℕ}

/-- A statement that stores none of these texts. -/
private theorem silent {q : Sql} (writes : Writes q) : (exec q).Sends Writes := .exec writes

private theorem getJob_sends : (JobsService.getJob companyId jobId).Sends Writes := by
  refine .bind (silent trivial) fun row => ?_
  cases row with
  | none => trivial
  | some row => exact .bind (silent trivial) fun events => trivial

private theorem replay_sends {existing : Existing} {kind : String} :
    (JobsService.replay existing kind).Sends Writes := by
  rw [JobsService.replay]
  split <;> trivial

private theorem insertJob_sends {kind key : String} {traceId submittedBy : Option String}
    (signed : ∀ actor, submittedBy = some actor → Legible actor) :
    (JobsService.insertJob companyId kind traceId key submittedBy).Sends Writes := by
  refine .bind (silent trivial) fun inserted => ?_
  cases inserted with
  | none =>
    refine .bind (silent trivial) fun found => .bind ?_ fun winner => .bind replay_sends fun job => trivial
    cases found <;> trivial
  | some job =>
    have announced : (JobsService.notifyQueued job.id).Sends Writes := silent trivial
    cases submittedBy with
    | none => exact .bind announced fun _ => trivial
    | some actor => exact .bind (silent (signed actor rfl)) fun _ => .bind announced fun _ => trivial

private theorem createJob_sends {kind key : String} {traceId submittedBy : Option String}
    (signed : ∀ actor, submittedBy = some actor → Legible actor) :
    (JobsService.createJob companyId kind traceId key submittedBy).Sends Writes := by
  refine .bind (silent trivial) fun existing => ?_
  cases existing with
  | some existing => exact .bind replay_sends fun job => trivial
  | none =>
    refine .bind (silent trivial) fun limit => ?_
    cases limit with
    | none => trivial
    | some limit =>
      refine .bind (silent trivial) fun existing => ?_
      cases existing with
      | some existing => exact .bind replay_sends fun job => trivial
      | none =>
        refine .bind (silent trivial) fun running => ?_
        split
        · trivial
        · exact insertJob_sends signed

/-- A request that routes make stores only its principal. -/
private theorem serve_sends {request : Request} (served : request.served = true) :
    (JobsService.serve request).Sends Writes := by
  cases request with
  | listJobs | countJobs => cases served
  | listPage => exact .bind (silent trivial) fun rows => .bind (silent trivial) fun total => trivial
  | getJob => exact .bind getJob_sends fun detail => trivial
  | getResult =>
    refine .bind (.bind (silent trivial) fun found => ?_) fun payload => trivial
    cases found <;> trivial
  | createJob companyId kind traceId key submittedBy =>
    refine .bind (createJob_sends fun actor same => ?_) fun created => trivial
    subst same
    simp only [Request.served, Bool.and_eq_true, Option.any_some] at served
    exact legible_signedBy served.2
  | cancelJob companyId jobId actor traceId =>
    simp only [Request.served, Bool.and_eq_true] at served
    refine .bind (.bind (silent trivial) fun row => ?_) fun job => trivial
    cases row with
    | none => exact .bind getJob_sends fun current => trivial
    | some row => exact .bind (silent (legible_signedBy served.2)) fun _ => .bind (silent trivial) fun _ => trivial
  | retryJob companyId jobId actor traceId =>
    simp only [Request.served, Bool.and_eq_true] at served
    refine .bind (.bind (silent trivial) fun row => ?_) fun job => trivial
    cases row with
    | none =>
      refine .bind getJob_sends fun current => ?_
      split <;> trivial
    | some row => exact .bind (silent (legible_signedBy served.2)) fun _ => .bind (silent trivial) fun _ => trivial

end Requests

section Worker

variable {claim : Claim}

private theorem transaction_sends {α : Type} {committed : α → Label} {body : Prog α} (sends : body.Sends Writes) :
    (Processor.transaction committed body).Sends Writes :=
  .transaction (.bind (silent trivial) fun _ => sends)

private theorem signal_sends : Processor.signal.Sends Writes := by
  intro choice
  dsimp only
  cases choice.raises <;> trivial

private theorem heartbeatLoop_sends (ticks failures : ℕ) :
    (Processor.heartbeatLoop claim ticks failures).Sends Writes := by
  induction ticks generalizing failures with
  | zero => trivial
  | succ ticks ih =>
    have renews : (Processor.renewLease claim).Sends Writes := by
      refine transaction_sends (.bind (silent trivial) fun row => ?_)
      cases row <;> trivial
    refine .bind (.handle (.bind renews fun _ => trivial) fun error => trivial) fun renewed => ?_
    rcases renewed with _ | error
    · exact ih 0
    · cases error with
      | leaseLost jobId => trivial
      | _ =>
        change (if _ then _ else _ : Prog (Except Exc ℕ)).Sends Writes
        split
        · trivial
        · exact ih (failures + 1)

private theorem heartbeat_sends (state : Except Exc ℕ) : (Processor.heartbeat claim state).Sends Writes := by
  cases state with
  | error error => trivial
  | ok failures => exact fun choice => heartbeatLoop_sends choice.ticks failures

private theorem execute_sends : (Processor.execute claim).Sends Writes := by
  refine .bind signal_sends fun _ => .bind (transaction_sends (silent trivial)) fun company => ?_
  cases company <;> trivial

private theorem supervise_sends : (Processor.supervise claim).Sends Writes := by
  have signalled : (Program.handle (Program.bind Processor.signal fun _ => .ret (Except.ok ())) fun error =>
      .ret (Except.error error)).Sends Writes := .handle (.bind signal_sends fun _ => trivial) fun error => trivial
  refine .bind signalled fun started => ?_
  rcases started with error | _
  · trivial
  refine .bind (heartbeat_sends _) fun before => ?_
  refine .bind (.handle (.bind execute_sends fun _ => trivial) fun error => trivial) fun body => ?_
  refine .bind (heartbeat_sends _) fun after => ?_
  refine .bind signalled fun stopped => ?_
  rcases stopped with error | _
  · trivial
  · rcases body with error | _
    · trivial
    · rcases after with error | _ <;> trivial

private theorem recordFailure_sends {error : Exc} : (Processor.recordFailure claim error).Sends Writes := by
  refine transaction_sends (.bind (silent trivial) fun status => ?_)
  cases status with
  | none => trivial
  | some status =>
    refine .bind (silent legible_system) fun _ => ?_
    dsimp only
    split
    · exact .bind (silent trivial) fun _ => trivial
    · trivial

private theorem conclude_sends (lost : Option Exc) (error : Exc) :
    (Processor.conclude claim lost error).Sends Writes := by
  have recorded : ∀ {error : Exc} {value : JobStatus × Option Exc},
      (Program.bind (Processor.recordFailure claim error) fun _ => .ret value).Sends Writes :=
    .bind recordFailure_sends fun _ => trivial
  cases error with
  | jobCancelled =>
    refine .bind (transaction_sends (.bind (silent trivial) fun _ => .bind (silent trivial) fun _ => trivial))
      fun cancelled => ?_
    cases cancelled with
    | true => trivial
    | false => exact fun choice => recorded
  | _ => exact recorded

private theorem finalize_sends : (Processor.finalize claim).Sends Writes := by
  refine transaction_sends (.bind (silent trivial) fun row => ?_)
  cases row with
  | none => trivial
  | some id =>
    refine .bind (silent (legible_resultado _)) fun inserted => .bind (silent legible_system) fun _ => ?_
    dsimp only
    split
    · exact .bind (silent trivial) fun _ => trivial
    · trivial

private theorem attempt_sends : (Processor.attempt claim).Sends Writes := by
  refine .bind supervise_sends fun ended => ?_
  obtain ⟨lost, body⟩ := ended
  refine .handle ?_ (conclude_sends lost)
  cases body with
  | error error => trivial
  | ok _ => exact .bind signal_sends fun _ => .bind finalize_sends fun _ => trivial

private theorem recordStale_sends {error : String} (stale : List StaleJob) :
    (Processor.recordStale error stale).Sends Writes := by
  induction stale with
  | nil => trivial
  | cons job rest ih =>
    refine .bind (silent legible_system) fun _ => ?_
    dsimp only
    split
    · exact .bind (silent trivial) fun _ => ih
    · exact ih

private theorem processNext_sends {workerId : ℕ} : (Processor.processNext workerId).Sends Writes := by
  refine .bind (transaction_sends (.bind (silent trivial) fun stale =>
    .bind (recordStale_sends stale) fun _ => trivial)) fun recovered => ?_
  refine .bind (transaction_sends (.bind (silent trivial) fun candidate => ?_)) fun claimed => ?_
  · cases candidate with
    | none => trivial
    | some job =>
      refine .bind (silent trivial) fun lease => ?_
      cases lease <;> trivial
  · cases claimed with
    | none => trivial
    | some claim =>
      refine .bind (.bind (.handle attempt_sends fun error => trivial) fun ended => ?_) fun _ => trivial
      obtain ⟨outcome, escaping⟩ := ended
      cases escaping <;> trivial

/-- Whatever the deployment runs stores only legible texts. -/
theorem code_sends {pid : ℕ} {mode : Mode} {call : Call} (starts : (service Request.served).starts mode call = true) :
    (code pid call).Sends Writes := by
  rw [service, Bool.and_eq_true] at starts
  cases call with
  | request request =>
    refine .handle (.bind (.transaction (.bind (silent trivial) fun _ => serve_sends starts.2)) fun response => trivial)
      fun error => trivial
  | processNext => exact .bind processNext_sends fun claimed => trivial
  | nextPollTimeout =>
    refine .handle (.bind (.transaction (.bind (silent trivial) fun _ => .bind (.bind (silent trivial) fun row => trivial)
      fun pending => ?_)) fun timeout => trivial) fun error => ?_
    · cases pending <;> trivial
    · cases error <;> trivial

end Worker

section Stored

variable {start world next : Service} {s s' : Store} {tx opened : Tx}

private theorem stores_add {write : Write} {writes : List Write} (stores : ∀ write ∈ writes, Stores write)
    (added : Stores write) : ∀ other ∈ writes ++ [write], Stores other := by
  intro other member
  rcases List.mem_append.mp member with before | latest
  · exact stores other before
  · exact List.mem_singleton.mp latest ▸ added

/-- A statement that stores legible texts leaves a transaction that does. -/
private theorem answer_stores {q : Sql} {others : List Tx} {choice : Choice} {answer : q.Answer} (writes : Writes q)
    (stores : ∀ write ∈ tx.writes, Stores write) (ran : q.answer s others choice tx = .ok (answer, s', opened)) :
    ∀ write ∈ opened.writes, Stores write := by
  cases q with
  | lockCompany companyId =>
    simp only [Sql.answer] at ran
    split at ran <;> cases ran <;> exact stores
  | notify channel payload =>
    cases ran
    exact stores_add stores trivial
  | insertJob companyId kind traceId key =>
    obtain ⟨⟨found, _, _⟩, inner, same⟩ := map_ok ran
    cases same
    obtain ⟨_, ⟨_, rfl, _⟩ | ⟨_, _, _, _, rfl⟩⟩ := insertJobRow_ok inner
    · exact stores
    · exact stores_add stores trivial
  | insertAuditEvent jobId companyId eventType actor traceId ignoreConflict =>
    obtain ⟨rfl, ⟨rfl, _⟩ | rfl⟩ := insertAuditRow_ok ran
    · exact stores
    · exact stores_add stores writes
  | insertResult jobId payload =>
    obtain ⟨_, ⟨_, rfl, _⟩ | ⟨_, _, rfl⟩⟩ := insertResultRow_ok ran
    · exact stores
    · refine stores_add stores ⟨writes, ?_⟩
      -- the check of the table has passed
      simp only [Sql.answer, insertResultRow] at ran
      split at ran
      · next accepted =>
        rw [JobResult.accepted, hasContent, Bool.and_eq_true, Bool.not_eq_true'] at accepted
        exact accepted.2
      · cases ran
  | insertDeadLetter error jobId =>
    obtain ⟨_, _, rfl⟩ | ⟨job, _, _, ⟨rfl, _⟩ | rfl⟩ := insertDeadLetterRow_ok ran
    · exact stores
    · exact stores
    · exact stores_add stores trivial
  | debitQuota companyId =>
    obtain ⟨_, ⟨_, rfl⟩ | ⟨company, _, rfl⟩⟩ := debitCompany_ok ran
    · exact stores
    · exact stores_add stores trivial
  | recoverStale error leaseTimeout =>
    obtain ⟨⟨found, _, _⟩, inner, same⟩ := map_ok ran
    cases same
    obtain ⟨_, _, rfl⟩ := updateStale_ok inner
    intro write member
    rcases List.mem_append.mp member with before | failed
    · exact stores write before
    · obtain ⟨row, _, rfl⟩ := List.mem_map.mp failed
      trivial
  | selectClaimable maxAttempts =>
    obtain ⟨⟨found, _, _⟩, inner, same⟩ := map_ok ran
    cases same
    obtain ⟨_, ⟨_, rfl, _⟩ | ⟨_, _, _, _, rfl⟩⟩ := lockClaimable_ok inner <;> exact stores
  | cancelJob | retryJob | claimJob | finishJob | releaseCancelled | failJob | renewLease =>
    obtain ⟨⟨found, _, _⟩, inner, same⟩ := map_ok ran
    cases same
    obtain ⟨_, ⟨_, rfl, _⟩ | ⟨row, _, _, _, rfl⟩⟩ := updateJob_ok inner
    · exact stores
    · exact stores_add stores trivial
  | _ => cases ran; exact stores

/-- The texts of the rows of a store are legible. -/
structure Texts (s : Store) : Prop where
  actors : ∀ event ∈ s.audits.rows, Legible event.actor
  payloads : ∀ jobId result, s.results.find? jobId = some result →
    Legible result.payload ∧ result.payload.toList.any isControl = false

/-- The texts of a store stay legible when a transaction commits legible ones. -/
private theorem Texts.view (texts : Texts s) (isOpen : tx.Open s) (stores : ∀ write ∈ tx.writes, Stores write) :
    Texts (tx.view s) where
  actors event member := by
    rw [Tx.view, Entitled.audits isOpen] at member
    rcases List.mem_append.mp member with before | added
    · exact texts.actors event before
    · obtain ⟨write, inside, wrote⟩ := List.mem_filterMap.mp added
      cases write <;> cases wrote
      exact stores _ inside
  payloads jobId result found := by
    rw [Tx.view, Entitled.result? isOpen] at found
    rcases Option.or_eq_some_iff.mp found with added | ⟨_, before⟩
    · obtain ⟨write, inside, wrote⟩ := List.mem_filterMap.mp (List.mem_reverse.mp (List.mem_of_find?_eq_some added))
      cases write <;> cases wrote
      exact stores _ inside
    · exact texts.payloads jobId result before

/-- The texts of the store are legible, and those that open transactions are about to add. -/
private structure TextsWorld (world : Service) : Prop where
  stored : Texts world.state
  open' : ∀ proc ∈ world.procs.rows, ∀ tx, proc.tx = some tx → ∀ write ∈ tx.writes, Stores write

private theorem texts_set {proc later : Proc ℕ Mode Call Tx Sql Sql.Answer Choice Exc Label Return} {after : Store}
    (texts : TextsWorld world) (member : proc ∈ world.procs.rows) (kept : later.pid = proc.pid) (stored : Texts after)
    (mine : ∀ tx, later.tx = some tx → ∀ write ∈ tx.writes, Stores write) : TextsWorld (world.set after later) where
  stored := stored
  open' other inside tx isOpen := by
    have found := Table.find?_of_key member rfl
    rw [← kept] at found
    rcases (Table.mem_put found).mp inside with rfl | ⟨inside, _⟩
    · exact mine tx isOpen
    · exact texts.open' other inside tx isOpen

private theorem texts_step (fresh : Fresh start)
    (reached : World.Reaches (service Request.served) start world) (texts : TextsWorld world) {action : Step}
    (stepped : world.step (service Request.served) action = some next) : TextsWorld next := by
  cases World.step_turn stepped with
  | environment event =>
    cases event
    exact ⟨⟨texts.stored.actors, texts.stored.payloads⟩, texts.open'⟩
  | @spawned pid mode absent spawns =>
    refine ⟨texts.stored, fun proc member tx isOpen => ?_⟩
    have rows := @Table.rows_insert _ _ _ _ world.procs ⟨pid, mode, none, none, none⟩ absent
    rcases List.mem_append.mp (rows ▸ member) with member | new
    · exact texts.open' proc member tx isOpen
    · rw [List.mem_singleton.mp new] at isOpen
      cases isOpen
  | @turned _ proc later after acting stored kept becomes =>
    have member := Table.find?_mem stored
    have logged : ∀ pid label, Texts (world.state.log pid label) := fun _ _ =>
      ⟨texts.stored.actors, texts.stored.payloads⟩
    have committed : ∀ pid label, Texts (proc.tx.elim world.state fun tx =>
        (service Request.served).commit pid label tx world.state) := by
      intro pid label
      cases isOpen : proc.tx with
      | none => exact texts.stored
      | some tx =>
        have view := texts.stored.view ((reachable_sound fresh reached).opened proc member tx isOpen)
          (texts.open' proc member tx isOpen)
        exact ⟨view.actors, view.payloads⟩
    cases becomes with
    | same idle => exact absurd acting idle
    | started | moved => exact texts_set texts member rfl texts.stored (texts.open' proc member)
    | finished | died => exact texts_set texts member rfl texts.stored nofun
    | @advanced program left tx after running advances =>
      cases advances with
      | failed | uncommitted => exact texts_set texts member rfl texts.stored nofun
      | chosen => exact texts_set texts member rfl texts.stored (texts.open' proc member)
      | rolledBack =>
        refine texts_set texts member rfl ?_ nofun
        cases proc.tx with
        | none => exact texts.stored
        | some tx => exact logged _ _
      | published => exact texts_set texts member rfl (logged _ _) (texts.open' proc member)
      | @answered q rest _ choice answer after opened ran free =>
        have sends := World.sends (P := fun _ => Writes) (fun _ _ _ starts => code_sends starts) fresh.procs reached
        refine texts_set texts member rfl ?_ ?_
        · have texts := texts.stored
          cases (answer_keeps ran).drawn <;> exact ⟨texts.actors, texts.payloads⟩
        · rintro _ ⟨⟩
          obtain ⟨call, _, writes⟩ := sends proc member _ running
          refine answer_stores writes.1 ?_ ran
          cases isOpen : proc.tx with
          | none => exact fun write inside => absurd inside List.not_mem_nil
          | some tx => exact texts.open' proc member tx isOpen
      | committed | lost => exact texts_set texts member rfl (committed _ _) nofun

/-- In every database that the routes and the workers reach, the stored texts are legible. -/
theorem reachable_texts (fresh : Fresh start) (reached : World.Reaches (service Request.served) start world) :
    Texts world.state := by
  have both : World.Reaches (service Request.served) start world ∧ TextsWorld world := by
    refine reached.preserves (P := fun world => World.Reaches (service Request.served) start world ∧ TextsWorld world)
      ⟨.refl _ _, ⟨?_, ?_⟩, ?_⟩ fun world action next ⟨reached, texts⟩ stepped =>
        ⟨reached.step stepped, texts_step fresh reached texts stepped⟩
    · rw [fresh.audits]
      exact fun event member => absurd member List.not_mem_nil
    · intro jobId result found
      have member := Table.find?_mem found
      rw [fresh.results] at member
      exact absurd member List.not_mem_nil
    · rw [fresh.procs]
      exact fun proc member => absurd member List.not_mem_nil
  exact both.2.stored

end Stored

end JobRelay.Soundness
