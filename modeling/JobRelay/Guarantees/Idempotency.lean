import JobRelay.Guarantees.AuditTrail
import JobRelay.Guarantees.Admission

/-! # Idempotent creation

A replay can be recognised at three places of `create_job`, each on its own snapshot. Whichever it is, a
company uses a key for one job, one call creates it, every other call that succeeds names it, and once it
is stored no call with its key writes anything or fails for want of a slot.
-/

namespace JobRelay.Guarantees

open Model Sessions Soundness

variable {admits : Request → Bool} {start world : Service}

/-- The transaction created the job. -/
def creates (jobId : ℕ) : ℕ × Label → Bool
  | (_, .request (.createJob _ _ _ _ _) (.ok (.created job true))) => decide (job.id = jobId)
  | _ => false

/-- The transaction created a job under the key. -/
def createsUnder (companyId : ℕ) (key : String) : ℕ × Label → Bool
  | (_, .request (.createJob owner _ _ used _) (.ok (.created _ true))) =>
      decide (owner = companyId ∧ used = key)
  | _ => false

/-- The response names the job that the company stored under the key, of that kind. -/
def Names (s : Store) (companyId : ℕ) (kind key : String) (response : Response) : Prop :=
  ∃ row, s.job? row.id = some row ∧ row.companyId = companyId ∧ row.kind = kind ∧
    row.idempotencyKey = some key ∧ ∃ status created, response = .created ⟨row.id, status⟩ created

/-- A call created the job. -/
def WasCreated (s : Store) (row : Job) : Prop :=
  ∃ pid traceId key submittedBy, row.idempotencyKey = some key ∧
    (pid, .request (.createJob row.companyId row.kind traceId key submittedBy)
      (.ok (.created ⟨row.id, .queued⟩ true))) ∈ s.history

/-- What the log says of creations and retries is what the tables and the notifications say. -/
structure Recorded (origin s : Store) : Prop where
  named : ∀ {pid companyId kind traceId key submittedBy response},
    (pid, .request (.createJob companyId kind traceId key submittedBy) (.ok response)) ∈ s.history →
      Names s companyId kind key response
  created : ∀ {jobId row}, s.job? jobId = some row → WasCreated s row
  submitted : ∀ {pid companyId kind traceId key actor job},
    (pid, .request (.createJob companyId kind traceId key (some actor)) (.ok (.created job true))) ∈ s.history →
      .submitted ∈ word s job.id
  once : ∀ jobId, s.history.countP (creates jobId) ≤ 1
  notified : ∀ jobId, s.notified.count ⟨.jobsQueued, jobId⟩ =
    origin.notified.count ⟨.jobsQueued, jobId⟩ + s.history.countP (creates jobId) +
      s.history.countP (retries jobId)

private theorem of_creates {jobId : ℕ} {entry : ℕ × Label} (holds : creates jobId entry = true) :
    ∃ pid companyId kind traceId key submittedBy job,
      entry = (pid, .request (.createJob companyId kind traceId key submittedBy) (.ok (.created job true))) ∧
        job.id = jobId := by
  unfold creates at holds
  split at holds
  · next pid companyId kind traceId key submittedBy job =>
    exact ⟨pid, companyId, kind, traceId, key, submittedBy, job, rfl, of_decide_eq_true holds⟩
  · cases holds

private theorem Names.later {s after : Store} {companyId : ℕ} {kind key : String} {response : Response}
    (names : Names s companyId kind key response)
    (identity : ∀ jobId row, s.job? jobId = some row → ∃ row', after.job? jobId = some row' ∧
      row'.companyId = row.companyId ∧ row'.kind = row.kind ∧ row'.idempotencyKey = row.idempotencyKey ∧
      row.attempts ≤ row'.attempts) : Names after companyId kind key response := by
  obtain ⟨row, stored, rfl, rfl, used, status, created, rfl⟩ := names
  obtain ⟨row', stored', company, kind, key, _⟩ := identity row.id row stored
  have id : row'.id = row.id := Store.job?_id stored'
  exact ⟨row', id ▸ stored', company, kind, key.trans used, status, created, by rw [id]⟩

/-- A report that answers no `create_job` and retries nothing. -/
private theorem Recorded.log {origin s : Store} (recorded : Recorded origin s) (pid : ℕ) {label : Label}
    (other : ∀ request response, label ≠ .request request (.ok response)) :
    Recorded origin (s.log pid label) := by
  have uncounted : ∀ {p : ℕ × Label → Bool}, p (pid, label) = false →
      (s.log pid label).history.countP p = s.history.countP p := by
    intro p fails
    rw [Store.log, List.countP_append, List.countP_singleton, fails]
    rfl
  have uncreated : ∀ jobId, creates jobId (pid, label) = false := by
    intro jobId
    unfold creates
    split
    · next eq => exact absurd (Prod.mk.inj eq).2 (other _ _)
    · rfl
  have unretried : ∀ jobId, retries jobId (pid, label) = false := by
    intro jobId
    unfold retries
    split
    · next eq => exact absurd (Prod.mk.inj eq).2 (other _ _)
    · rfl
  refine ⟨fun member => ?_, fun stored => ?_, fun member => ?_, fun jobId => ?_, fun jobId => ?_⟩
  · rcases List.mem_append.mp member with old | new
    · exact recorded.named old
    · exact absurd (Prod.mk.inj (List.mem_singleton.mp new)).2.symm (other _ _)
  · obtain ⟨writer, traceId, key, submittedBy, used, logged⟩ := recorded.created stored
    exact ⟨writer, traceId, key, submittedBy, used, List.mem_append_left _ logged⟩
  · rcases List.mem_append.mp member with old | new
    · exact recorded.submitted old
    · exact absurd (Prod.mk.inj (List.mem_singleton.mp new)).2.symm (other _ _)
  · rw [uncounted (uncreated jobId)]
    exact recorded.once jobId
  · rw [uncounted (uncreated jobId), uncounted (unretried jobId)]
    exact recorded.notified jobId

/-- A transaction notifies the workers of a job exactly if it creates or retries it. -/
private theorem notified_commit {s : Store} {pid : ℕ} {tx : Tx} {label : Label}
    (commit : Commit admits pid tx s label) (jobId : ℕ) :
    (tx.writes.filterMap Write.notification?).count ⟨.jobsQueued, jobId⟩ =
      (if creates jobId (pid, label) then 1 else 0) + if retries jobId (pid, label) then 1 else 0 := by
  cases commit with
  | @quiet label writes facts =>
    have uncreated : creates jobId (pid, label) = false := by
      unfold creates
      split
      · next eq =>
        cases eq
        have none := facts.adds?
        cases none
      · rfl
    have unretried : retries jobId (pid, label) = false := by
      unfold retries
      split
      · next eq => cases eq; cases facts
      · rfl
    rw [writes, uncreated, unretried]
    rfl
  | create _ writes =>
    simp [writes, Write.notification?, List.filterMap_cons, List.filterMap_map, Function.comp_def, creates,
      retries, List.count_singleton]
  | cancel _ _ _ writes => simp [writes, Write.notification?, List.filterMap_cons, creates, retries]
  | retry _ _ _ _ writes =>
    simp [writes, Write.notification?, List.filterMap_cons, creates, retries, List.count_singleton]
  | claim _ _ _ writes | renew _ _ _ _ _ writes | finish _ _ _ _ _ _ _ _ writes =>
    simp [writes, Write.notification?, creates, retries, List.filterMap_cons]
  | fail _ _ _ _ writes => simp [writes, Failing.writes_notification?, creates, retries]
  | recover _ _ writes => simp [writes, Failing.writes_notification?, creates, retries]

private theorem Recorded.commit {origin base s : Store} {pid : ℕ} {tx : Tx} {label : Label}
    (recorded : Recorded origin s) (valid : Valid admits base s) (opened : tx.Open s)
    (commit : Commit admits pid tx s label) : Recorded origin ((tx.view s).log pid label) := by
  have grown : ((tx.view s).log pid label).history = s.history ++ [(pid, label)] := by
    rw [Store.log, Tx.view, foldl_history]
  have identity := fun jobId (row : Job) (stored : s.job? jobId = some row) =>
    (commit.jobStep valid.orphans opened jobId).identity stored
  have words : ∀ jobId, .submitted ∈ word s jobId → .submitted ∈ word ((tx.view s).log pid label) jobId := by
    intro jobId member
    change _ ∈ ((tx.view s).eventsOf jobId).map AuditEvent.eventType
    rw [Tx.view, opened.eventsOf, List.map_append]
    exact List.mem_append_left _ member
  refine ⟨fun {_ companyId kind traceId key _ _} member => ?_, fun {jobId row} stored => ?_,
    fun member => ?_, fun jobId => ?_, fun jobId => ?_⟩
  · rw [grown] at member
    rcases List.mem_append.mp member with old | new
    · exact (recorded.named old).later identity
    · cases List.mem_singleton.mp new
      cases commit with
      | quiet writes facts =>
        obtain ⟨row, stored, rfl, used, rfl, status, rfl⟩ := facts
        refine ⟨row, ?_, rfl, rfl, used, status, false, rfl⟩
        rw [← stored]
        change (tx.view s).job? row.id = _
        rw [Tx.view, writes]
        rfl
      | @create _ _ _ _ _ id _ _ _ writes =>
        refine ⟨.new id companyId kind traceId key tx.now, ?_, rfl, rfl, rfl, .queued, true, rfl⟩
        change (tx.view s).job? id = _
        have job : tx.writes.filterMap Write.job? = [.new id companyId kind traceId key tx.now] := by
          simp [writes, Write.job?, List.filterMap_cons]
        exact opened.job?_of_unique (by simp [job])
          (by simp [job] : Job.new id companyId kind traceId key tx.now ∈ tx.writes.filterMap Write.job?)
  · cases before : s.job? jobId with
    | some old =>
      obtain ⟨row', stored', company, kind, key, _⟩ := identity jobId old before
      obtain rfl : row' = row := Option.some.inj (stored'.symm.trans stored)
      have id : row'.id = old.id := (Store.job?_id stored').trans (Store.job?_id before).symm
      obtain ⟨writer, traceId, used, submittedBy, uses, logged⟩ := recorded.created before
      refine ⟨writer, traceId, used, submittedBy, key.trans uses, ?_⟩
      rw [company, kind, id, grown]
      exact List.mem_append_left _ logged
    | none =>
      obtain ⟨traceId, key, submittedBy, used, rfl⟩ := commit.created opened before stored
      refine ⟨pid, traceId, key, submittedBy, used, ?_⟩
      rw [grown]
      exact List.mem_append_right _ (List.mem_singleton_self _)
  · rw [grown] at member
    rcases List.mem_append.mp member with old | new
    · exact words _ (recorded.submitted old)
    · cases List.mem_singleton.mp new
      cases commit with
      | quiet _ facts =>
        have none := facts.adds?
        cases none
      | create _ writes records submitted =>
        obtain ⟨event, rfl⟩ := List.length_eq_one_iff.mp submitted
        have recorded := records event (List.mem_singleton_self _)
        change _ ∈ ((tx.view s).eventsOf _).map AuditEvent.eventType
        rw [Tx.view, opened.eventsOf, List.map_append]
        refine List.mem_append_right _ (List.mem_map.mpr ⟨event, ?_, recorded.eventType⟩)
        exact List.mem_filter.mpr
          ⟨by simp [writes, Write.audit?, List.filterMap_cons], decide_eq_true recorded.jobId⟩
  · rw [grown, List.countP_append, List.countP_singleton]
    split
    · next created =>
      -- a job that is only now inserted was named by no earlier creation
      have unnamed : s.history.countP (creates jobId) = 0 := by
        rw [List.countP_eq_zero]
        intro entry member holds
        obtain ⟨_, _, _, _, _, _, job, rfl, same⟩ := of_creates holds
        obtain ⟨row, stored, _, _, _, status, again, eq⟩ := recorded.named member
        cases eq
        obtain ⟨_, companyId, kind, traceId, key, submittedBy, job', eq, same'⟩ := of_creates created
        cases eq
        cases commit with
        | quiet _ facts =>
          have none := facts.adds?
          cases none
        | create _ writes =>
          rw [Tx.Open, writes] at opened
          have absent := opened.1.2.2.1
          rw [show (Job.new _ _ _ _ _ _).id = row.id from same'.trans same.symm, stored] at absent
          cases absent
      rw [unnamed]
    · exact recorded.once jobId
  · change (tx.view s).notified.count _ = _
    rw [grown, Tx.view, foldl_notified, List.count_append, recorded.notified jobId, notified_commit commit,
      List.countP_append, List.countP_append, List.countP_singleton, List.countP_singleton]
    omega

private theorem reachable_recorded (fresh : Fresh start)
    (reached : World.Reaches (service admits) start world) : Recorded start.state world.state := by
  refine reachable_preserves fresh reached ?_ ?_ ?_
  · refine ⟨fun member => ?_, fun stored => ?_, fun member => ?_, fun jobId => ?_, fun jobId => ?_⟩
    · rw [fresh.history] at member
      cases member
    · rw [Store.job?, Table.find?, fresh.jobs] at stored
      cases stored
    · rw [fresh.history] at member
      cases member
    · rw [fresh.history]
      exact Nat.zero_le 1
    · rw [fresh.history]
      rfl
  · intro pid tx before after valid guar recorded
    cases guar with
    | drawn drawn =>
      cases drawn <;>
        exact ⟨recorded.named, recorded.created, recorded.submitted, recorded.once, recorded.notified⟩
    | commit opened commit => exact recorded.commit valid opened commit
    | @aborted _ _ label facts =>
      refine recorded.log _ fun request response same => ?_
      rw [same] at facts
      cases request <;> cases facts
    | processed => exact recorded.log _ fun _ _ same => (by cases same)
  · exact fun clock recorded =>
      ⟨recorded.named, recorded.created, recorded.submitted, recorded.once, recorded.notified⟩

/-- The submission of a job is recorded at most once. -/
private theorem count_submitted {d : Dossier} (formed : d.WellFormed (Opening admits)) :
    (d.events.map AuditEvent.eventType).count .submitted ≤ 1 := by
  obtain ⟨first, retries, opens, trail⟩ := formed.trail
  have cycles := count_retryCycles retries .submitted
  have closes : (closing d.job.status).count .submitted = 0 := by cases d.job.status <;> rfl
  rw [trail.word, List.count_append, List.count_append, cycles, closes]
  rcases opens with rfl | ⟨rfl, _⟩ <;> simp

/-- A company uses a key for one job. -/
private theorem same_key {origin s : Store} (valid : Valid admits origin s) {row row' : Job}
    (member : row ∈ s.jobs.rows) (member' : row' ∈ s.jobs.rows) (company : row.companyId = row'.companyId)
    {key : String} (used : row.idempotencyKey = some key) (used' : row'.idempotencyKey = some key) :
    row = row' := by
  have stored := Store.mem_jobs.mp member
  have stored' := Store.mem_jobs.mp member'
  rw [valid.keys stored stored' company used used', stored'] at stored
  exact (Option.some.inj stored).symm

/-- Two creations under one key are creations of one job. -/
private theorem createsUnder_once {origin base s : Store} (recorded : Recorded origin s)
    (valid : Valid admits base s) (companyId : ℕ) (key : String) :
    s.history.countP (createsUnder companyId key) ≤ 1 := by
  by_cases none : s.history.countP (createsUnder companyId key) = 0
  · omega
  obtain ⟨entry, member, holds⟩ := List.countP_pos_iff.mp (Nat.pos_of_ne_zero none)
  have named : ∀ entry ∈ s.history, createsUnder companyId key entry = true → ∃ row ∈ s.jobs.rows,
      row.companyId = companyId ∧ row.idempotencyKey = some key ∧ creates row.id entry = true := by
    intro entry member holds
    unfold createsUnder at holds
    split at holds
    · obtain ⟨rfl, rfl⟩ := of_decide_eq_true holds
      obtain ⟨row, stored, company, _, used, status, created, eq⟩ := recorded.named member
      cases eq
      exact ⟨row, Store.mem_jobs.mpr stored, company, used, decide_eq_true rfl⟩
    · cases holds
  obtain ⟨row, inside, company, used, _⟩ := named entry member holds
  refine le_trans (List.countP_mono_left fun other member holds => ?_) (recorded.once row.id)
  obtain ⟨row', inside', company', used', created⟩ := named other member holds
  rwa [same_key valid inside inside' (company.trans company'.symm) used used']

/-- Once a job with its key is stored, no call of `create_job` fails for want of a slot. -/
private theorem replay_wins (fresh : Fresh start) (reached : World.Reaches (service admits) start world)
    {row : Job} (member : row ∈ world.state.jobs.rows) {key : String} (used : row.idempotencyKey = some key)
    {later : Service} (reached' : World.Reaches (service admits) world later)
    {proc : Proc ℕ Mode Call Tx Sql Sql.Answer Choice Exc Label Return} (inside : proc ∈ later.procs.rows)
    {kind : String} {traceId submittedBy : Option String}
    (called : proc.call = some (.request (.createJob row.companyId kind traceId key submittedBy)))
    {limit : Int} {running : ℕ} {rest : Prog Return} :
    proc.program ≠ some (.rollback (.request (.createJob row.companyId kind traceId key submittedBy)
      (.error (.concurrencyLimit limit running))) rest) := by
  intro present
  have kept : ∃ row', later.state.job? row.id = some row' ∧ row'.companyId = row.companyId ∧
      row'.idempotencyKey = some key := by
    refine later_preserves fresh reached reached' (P := fun s => ∃ row', s.job? row.id = some row' ∧
      row'.companyId = row.companyId ∧ row'.idempotencyKey = some key)
      ⟨row, Store.mem_jobs.mp member, rfl, used⟩ ?_
    rintro before after _ step ⟨row', stored, company, used'⟩
    obtain ⟨row'', stored', company', _, key', _⟩ := (step row.id).identity stored
    exact ⟨row'', stored', company'.trans company, key'.trans used'⟩
  obtain ⟨row', stored, company, used'⟩ := kept
  have whole := reached.trans reached'
  have sound := reachable_sound fresh whole
  obtain ⟨standing, isOpen, _, error, same, opened⟩ := reachable_requested fresh whole inside called present
  cases same
  obtain ⟨tx, held⟩ := Option.isSome_iff_exists.mp (isOpen.symm.trans (opened.resolve_right (by simp [Exc.fromDatabase])))
  have safe := sound.running proc inside _ present later.state (.refl ..) ⟨sound.inv, sound.opened proc inside⟩
  obtain ⟨_, _, _, _, _, unused⟩ := ((safe.1 tx held).reported rfl).of_error
  exact unused row' (Table.find?_mem stored) company used'

/-- Creation is idempotent over whole runs. -/
theorem idempotent_creation (fresh : Fresh start) (reached : World.Reaches (service admits) start world) :
    (∀ row ∈ world.state.jobs.rows, ∀ row' ∈ world.state.jobs.rows, ∀ key,
      row.companyId = row'.companyId → row.idempotencyKey = some key → row'.idempotencyKey = some key →
      row = row') ∧
    (∀ companyId key, world.state.history.countP (createsUnder companyId key) ≤ 1) ∧
    (∀ row ∈ world.state.jobs.rows, world.state.history.countP (creates row.id) = 1 ∧
      world.state.notified.count ⟨.jobsQueued, row.id⟩ =
        start.state.notified.count ⟨.jobsQueued, row.id⟩ + 1 + world.state.history.countP (retries row.id)) ∧
    (∀ pid companyId kind traceId key actor job,
      (pid, .request (.createJob companyId kind traceId key (some actor)) (.ok (.created job true))) ∈
        world.state.history → (word world.state job.id).count .submitted = 1) ∧
    (∀ pid companyId kind traceId key submittedBy response,
      (pid, .request (.createJob companyId kind traceId key submittedBy) (.ok response)) ∈ world.state.history →
      Names world.state companyId kind key response) ∧
    (∀ proc ∈ world.procs.rows, ∀ companyId kind traceId key submittedBy response,
      proc.call = some (.request (.createJob companyId kind traceId key submittedBy)) →
      proc.program = some (.ret (.response (.ok response))) → Names world.state companyId kind key response) ∧
    (∀ row ∈ world.state.jobs.rows, ∀ key, row.idempotencyKey = some key →
      ∀ proc ∈ world.procs.rows, ∀ kind traceId submittedBy,
      proc.call = some (.request (.createJob row.companyId kind traceId key submittedBy)) →
      ∀ (action : Step) next, action.pid? = some proc.pid → world.step (service admits) action = some next →
      SameRows world.state next.state) ∧
    ∀ row ∈ world.state.jobs.rows, ∀ key, row.idempotencyKey = some key →
      ∀ later, World.Reaches (service admits) world later →
      ∀ proc ∈ later.procs.rows, ∀ kind traceId submittedBy,
      proc.call = some (.request (.createJob row.companyId kind traceId key submittedBy)) →
      ∀ limit running rest, proc.program ≠
        some (.rollback (.request (.createJob row.companyId kind traceId key submittedBy)
          (.error (.concurrencyLimit limit running))) rest) := by
  have recorded := reachable_recorded fresh reached
  have valid := reachable_valid fresh reached
  refine ⟨?_, createsUnder_once recorded valid, ?_, ?_, ?_, ?_, ?_, ?_⟩
  · exact fun row member row' member' key company used used' =>
      same_key valid member member' company used used'
  · intro row member
    obtain ⟨pid, traceId, key, submittedBy, _, logged⟩ := recorded.created (Store.mem_jobs.mp member)
    have positive : 0 < world.state.history.countP (creates row.id) :=
      List.countP_pos_iff.mpr ⟨_, logged, decide_eq_true rfl⟩
    have once := recorded.once row.id
    have created : world.state.history.countP (creates row.id) = 1 := by omega
    have notified := recorded.notified row.id
    rw [created] at notified
    exact ⟨created, notified⟩
  · intro pid companyId kind traceId key actor job logged
    obtain ⟨row, stored, _, _, _, status, created, eq⟩ := recorded.named logged
    cases eq
    have positive := List.count_pos_iff.mpr (recorded.submitted logged)
    have bounded := count_submitted (valid.wellFormed stored)
    exact le_antisymm bounded positive
  · exact fun _ _ _ _ _ _ _ logged => recorded.named logged
  · intro proc member companyId kind traceId key submittedBy response called present
    have reported := (reachable_returned fresh reached member called present).resolve_right nofun
    exact recorded.named (mem_reports.mp (List.mem_of_getLast? reported))
  · intro row stored key used proc member kind traceId submittedBy called action next acting stepped
    rcases createJob_step fresh reached member called acting stepped with same | ⟨unused, _⟩
    · exact same
    · exact absurd used (unused row stored rfl)
  · exact fun row member key used later reached' proc inside kind traceId submittedBy called limit running rest =>
      replay_wins fresh reached member used reached' inside called

/-- A client submits a job twice under one key. -/
def replayedSubmission : List Step :=
  .spawn 0 .client :: submission 0 "a" ++
    .start 0 (.request (.createJob 1 "report" none "a" (some "1:user"))) :: statements 0 3 ++ [.finish 0]

theorem idempotent_creation_office : ∃ world row,
    office.runActions (service fun _ => true) replayedSubmission = some world ∧
    world.state.job? 1 = some row ∧ world.state.history.length = 2 ∧
    world.state.history.countP (creates row.id) = 1 ∧ world.state.notified.count ⟨.jobsQueued, row.id⟩ = 1 := by
  have counts : (office.runActions (service fun _ => true) replayedSubmission).map
      (fun world => ((world.state.job? 1).isSome, world.state.history.length,
        world.state.history.countP (retries 1))) = some (true, 2, 0) := by decide +kernel
  obtain ⟨world, ran, same⟩ := Option.map_eq_some_iff.mp counts
  simp only [Prod.mk.injEq] at same
  obtain ⟨row, stored⟩ := Option.isSome_iff_exists.mp same.1
  have id : row.id = 1 := Store.job?_id stored
  obtain ⟨_, _, once, _⟩ := idempotent_creation office_fresh ⟨replayedSubmission, ran⟩
  obtain ⟨created, notified⟩ := once row (Table.find?_mem stored)
  rw [id, same.2.2] at notified
  exact ⟨world, row, ran, stored, same.2.1, created, by rw [id]; exact notified⟩

end JobRelay.Guarantees
