import JobRelay.Soundness.Writes
import JobRelay.Model.Processes

/-! # What each transaction commits

`Commit` lists, by the label it leaves in the log, what an open transaction of either service has
written when it commits, and what then holds of the rows it wrote. Everything that follows about
commits is read off this list: each job moves by at most one transition, and a job that is not
written keeps its dossier.
-/

namespace JobRelay.Soundness

open Model Sessions

/-- A trail begins with `submitted`, unless jobs may be created outside the route. -/
def Opening (admits : Request → Bool) (first : List EventType) : Prop :=
  first = [.submitted] ∨ (first = [] ∧ ∃ request, admits request = true ∧ request.routed = false)

/-- A running job, the event of its failure, and its dead-letter entry if it is exhausted. -/
structure Failing where
  row : Job
  event : AuditEvent
  entered : List DeadLetter

namespace Failing

def writes (error : String) (now : Micros) (failing : List Failing) : List Write :=
  failing.map (fun f => .putJob (f.row.fail error now)) ++
    failing.flatMap fun f => .insertAudit f.event :: f.entered.map .insertDeadLetter

structure Valid (s : Store) (error : String) (now : Micros) (f : Failing) : Prop where
  stored : s.job? f.row.id = some f.row
  running : f.row.status = .running
  recorded : f.event.Records f.row .failed
  entered : Dossier.Entered (f.row.fail error now) f.entered

end Failing

/-- What a transaction that wrote nothing may report. -/
def Quiet (s : Store) : Label → Prop
  | .request (.createJob companyId kind _ key _) (.ok response) =>
      ∃ row, s.job? row.id = some row ∧ row.companyId = companyId ∧ row.idempotencyKey = some key ∧
        row.kind = kind ∧ ∃ status, response = .created ⟨row.id, status⟩ false
  | .request (.cancelJob ..) _ | .request (.retryJob ..) _ | .request _ (.error _) => False
  | .request _ (.ok _) | .checked _ | .polled _ | .acknowledged .. => True
  | .claimed claim => claim = none
  | .finalized _ outcome => outcome = .cancelled
  | .failureRecorded _ status => status = .cancelled
  | .recovered _ | .renewed _ | .rolledBack | .processed .. => False

theorem Quiet.not_error {s : Store} {request : Request} {error : Exc} :
    ¬ Quiet s (.request request (.error error)) := by
  cases request <;> exact id

/-- What a transaction has written when it commits under a label. -/
inductive Commit (admits : Request → Bool) (pid : ℕ) (tx : Tx) (s : Store) : Label → Prop
  | quiet {label : Label} (writes : tx.writes = []) (facts : Quiet s label) : Commit admits pid tx s label
  | create {companyId : ℕ} {kind : String} {traceId : Option String} {key : String}
      {submittedBy : Option String} {id : ℕ} {events : List AuditEvent} {company : Company}
      (admitted : admits (.createJob companyId kind traceId key submittedBy) = true)
      (writes : tx.writes = .insertJob (.new id companyId kind traceId key tx.now) ::
        events.map .insertAudit ++ [.notify ⟨.jobsQueued, id⟩])
      (recorded : ∀ event ∈ events,
        event.Records (.new id companyId kind traceId key tx.now) .submitted)
      (submitted : events.length = submittedBy.toList.length)
      (locked : (Resource.company companyId, LockMode.update) ∈ tx.locks)
      (unused : ∀ row ∈ s.jobs.rows, row.companyId = companyId → row.idempotencyKey ≠ some key)
      (stored : s.company? companyId = some company)
      (below : (s.activeCount companyId : Int) < company.maxConcurrentJobs)
      (range : serialRange id = true) :
      Commit admits pid tx s
        (.request (.createJob companyId kind traceId key submittedBy) (.ok (.created ⟨id, .queued⟩ true)))
  | cancel {row : Job} {cancelledBy : String} {traceId : Option String} {event : AuditEvent}
      (stored : s.job? row.id = some row) (active : row.status.active = true)
      (recorded : event.Records row .cancelled)
      (writes : tx.writes = [.putJob (row.cancel tx.now), .insertAudit event,
        .notify ⟨.jobsCancelled, row.id⟩]) :
      Commit admits pid tx s
        (.request (.cancelJob row.companyId row.id cancelledBy traceId)
          (.ok (.cancelled ⟨row.id, .cancelled⟩)))
  | retry {row : Job} {requestedBy : String} {traceId : Option String} {event : AuditEvent}
      (stored : s.job? row.id = some row) (failed : row.status = .failed)
      (left : row.attempts < MAX_ATTEMPTS) (recorded : event.Records row .retryRequested)
      (writes : tx.writes = [.putJob (row.retry traceId tx.now), .insertAudit event,
        .notify ⟨.jobsQueued, row.id⟩]) :
      Commit admits pid tx s
        (.request (.retryJob row.companyId row.id requestedBy traceId)
          (.ok (.retried ⟨⟨row.id, .queued⟩, row.attempts⟩)))
  | claim {row : Job} {wait : Micros} (stored : s.job? row.id = some row) (queued : row.status = .queued)
      (left : row.attempts < MAX_ATTEMPTS) (writes : tx.writes = [.putJob (row.claim pid tx.now)]) :
      Commit admits pid tx s
        (.claimed (some ⟨row.id, row.companyId, row.kind, row.traceId, row.attempts + 1, wait,
          some tx.now, some pid⟩))
  | renew {row : Job} {claim : Claim} (stored : s.job? row.id = some row)
      (running : row.status = .running) (mine : row.workerId = some pid) (id : row.id = claim.id)
      (attempts : row.attempts = claim.attempts) (writes : tx.writes = [.putJob (row.renew tx.now)]) :
      Commit admits pid tx s (.renewed claim)
  | finish {row : Job} {claim : Claim} {result : JobResult} {event : AuditEvent} {company : Company}
      (stored : s.job? row.id = some row) (running : row.status = .running)
      (mine : row.workerId = some pid) (id : row.id = claim.id) (attempts : row.attempts = claim.attempts)
      (produced : result.jobId = row.id) (recorded : event.Records row .completed)
      (owner : s.company? row.companyId = some company)
      (writes : tx.writes = [.putJob (row.finish tx.now), .insertResult result, .insertAudit event,
        .putCompany { company with jobQuota := company.jobQuota - 1 }]) :
      Commit admits pid tx s (.finalized claim .done)
  | fail {f : Failing} {claim : Claim} {error : String} (valid : f.Valid s error tx.now)
      (mine : f.row.workerId = some pid) (id : f.row.id = claim.id)
      (attempts : f.row.attempts = claim.attempts) (writes : tx.writes = Failing.writes error tx.now [f]) :
      Commit admits pid tx s (.failureRecorded claim .failed)
  | recover {failing : List Failing} {error : String}
      (distinct : (failing.map fun f => f.row.id).Nodup)
      (valid : ∀ f ∈ failing, f.Valid s error tx.now)
      (writes : tx.writes = Failing.writes error tx.now failing) :
      Commit admits pid tx s (.recovered failing.length)

namespace Failing

variable {error : String} {now : Micros} {failing : List Failing}

theorem writes_filterMap {β : Type} (select : Write → Option β) :
    (writes error now failing).filterMap select =
      failing.filterMap (fun f => select (.putJob (f.row.fail error now))) ++
        failing.flatMap fun f => (select (.insertAudit f.event)).toList ++
          f.entered.filterMap fun entry => select (.insertDeadLetter entry) := by
  rw [writes, List.filterMap_append, List.filterMap_map, List.filterMap_flatMap]
  congr 2
  funext f
  rw [List.filterMap_cons, List.filterMap_map]
  cases select (.insertAudit f.event) <;> rfl

theorem writes_job? : (writes error now failing).filterMap Write.job? =
    failing.map fun f => f.row.fail error now := by
  simp [writes_filterMap, Write.job?]

theorem writes_audit? : (writes error now failing).filterMap Write.audit? =
    failing.map Failing.event := by
  simp [writes_filterMap, Write.audit?, List.map_eq_flatMap]

theorem writes_deadLetter? : (writes error now failing).filterMap Write.deadLetter? =
    failing.flatMap Failing.entered := by
  simp [writes_filterMap, Write.deadLetter?]

theorem writes_result? : (writes error now failing).filterMap Write.result? = [] := by
  simp [writes_filterMap, Write.result?]

theorem writes_company? : (writes error now failing).filterMap Write.company? = [] := by
  simp [writes_filterMap, Write.company?]

theorem writes_notification? : (writes error now failing).filterMap Write.notification? = [] := by
  simp [writes_filterMap, Write.notification?]

end Failing

/-- What one step of the store does to one job. -/
inductive JobStep (opening : List EventType → Prop) (s after : Store) (jobId : ℕ) : Prop
  | same (job : after.job? jobId = s.job? jobId) (traces : after.traces jobId = s.traces jobId)
  | created {d : Dossier} (absent : s.job? jobId = none) (stored : after.dossier? jobId = some d)
      (created : d.Created opening) (owned : (s.company? d.job.companyId).isSome)
      (unused : ∀ row ∈ s.jobs.rows, row.companyId = d.job.companyId →
        row.idempotencyKey ≠ d.job.idempotencyKey)
  | moved {d d' : Dossier} (before : s.dossier? jobId = some d) (stored : after.dossier? jobId = some d')
      (step : Dossier.Transition d d')

section Steps

variable {admits : Request → Bool} {pid : ℕ} {tx : Tx} {s : Store} {label : Label} {jobId : ℕ}

/-- A write of one job's row, with its result and events, moves that job alone. -/
private theorem jobStep_of_single {opening : List EventType → Prop} {row : Job} (row' : Job)
    (result : Option JobResult) (events : List AuditEvent)
    (entitled : Entitled tx.locks s tx.writes) (stored : s.job? row.id = some row)
    (kept : row'.id = row.id) (job : tx.writes.filterMap Write.job? = [row'])
    (results : tx.writes.filterMap Write.result? = result.toList)
    (audits : tx.writes.filterMap Write.audit? = events)
    (deadLetters : tx.writes.filterMap Write.deadLetter? = [])
    (produced : ∀ found ∈ result, found.jobId = row.id) (recorded : ∀ event ∈ events, event.jobId = row.id)
    (step : Dossier.Transition ⟨row, s.results.find? row.id, s.eventsOf row.id, s.entriesOf row.id⟩
      ⟨row', result.or (s.results.find? row.id), s.eventsOf row.id ++ events, s.entriesOf row.id⟩) (jobId : ℕ) : JobStep opening s (tx.view s) jobId := by
  by_cases same : row.id = jobId
  · subst same
    have found : (tx.view s).job? row.id = some row' := by
      rw [Tx.view, entitled.job?, job]
      simp [kept]
    have produces : (tx.view s).results.find? row.id = result.or (s.results.find? row.id) := by
      rw [Tx.view, entitled.result?, results]
      cases result with
      | none => rfl
      | some found => simp [produced found rfl]
    have records : (tx.view s).eventsOf row.id = s.eventsOf row.id ++ events := by
      rw [Tx.view, entitled.eventsOf, audits, List.filter_eq_self.mpr]
      exact fun event member => decide_eq_true (recorded event member)
    have enters : (tx.view s).entriesOf row.id = s.entriesOf row.id := by
      rw [Tx.view, entitled.entriesOf, deadLetters, List.filter_nil, List.append_nil]
    refine .moved (Store.dossier?_of_job stored) (Store.dossier?_of_job found) ?_
    rwa [produces, records, enters]
  · refine .same (entitled.job?_of_other ?_) (entitled.traces_of_other ?_ ?_ ?_)
    · rw [job]
      intro other member
      rw [List.mem_singleton.mp member, kept]
      exact same
    · rw [results]
      intro found member
      rw [produced found (Option.mem_toList.mp member)]
      exact same
    · rw [audits]
      intro event member
      rw [recorded event member]
      exact same
    · rw [deadLetters]
      intro entry member
      cases member

theorem entered_jobId {job : Job} {entries : List DeadLetter}
    (entered : Dossier.Entered job entries) : ∀ entry ∈ entries, entry.jobId = some job.id := by
  intro entry member
  by_cases exhausted : job.Exhausted
  · obtain ⟨only, rfl, records⟩ := entered.single exhausted
    rw [List.mem_singleton.mp member, records.jobId]
  · rw [entered.nil exhausted] at member
    cases member

private theorem filter_entered {failing : List Failing} {error : String} {now : Micros}
    (valid : ∀ f ∈ failing, f.Valid s error now) (jobId : ℕ) :
    (failing.flatMap Failing.entered).filter (fun entry => decide (entry.jobId = some jobId)) =
      (failing.filter fun f => decide (f.row.id = jobId)).flatMap Failing.entered := by
  induction failing with
  | nil => rfl
  | cons f rest ih =>
    have belongs := entered_jobId (valid f List.mem_cons_self).entered
    rw [List.flatMap_cons, List.filter_append, ih fun g member => valid g (List.mem_cons_of_mem _ member)]
    by_cases same : f.row.id = jobId
    · rw [List.filter_cons_of_pos (by simpa using same), List.flatMap_cons, List.filter_eq_self.mpr]
      intro entry member
      rw [belongs entry member]
      simpa [Job.fail] using same
    · rw [List.filter_cons_of_neg (by simpa using same), List.filter_eq_nil_iff.mpr, List.nil_append]
      intro entry member
      rw [belongs entry member]
      simpa [Job.fail] using same

/-- Failing several jobs moves each of them by its own failure, and no other. -/
private theorem jobStep_of_failing {opening : List EventType → Prop} {failing : List Failing}
    {error : String} (entitled : Entitled tx.locks s tx.writes)
    (distinct : (failing.map fun f => f.row.id).Nodup) (valid : ∀ f ∈ failing, f.Valid s error tx.now)
    (writes : tx.writes = Failing.writes error tx.now failing) (jobId : ℕ) :
    JobStep opening s (tx.view s) jobId := by
  by_cases listed : ∃ f ∈ failing, f.row.id = jobId
  · obtain ⟨f, member, rfl⟩ := listed
    have only : failing.filter (fun g => decide (g.row.id = f.row.id)) = [f] :=
      filter_of_nodup distinct member
    have found : (tx.view s).job? (f.row.fail error tx.now).id = some (f.row.fail error tx.now) := by
      refine entitled.job?_of_unique ?_ ?_
      · rw [writes, Failing.writes_job?, List.map_map]
        exact distinct
      · rw [writes, Failing.writes_job?]
        exact List.mem_map_of_mem member
    have produces : (tx.view s).results.find? f.row.id = s.results.find? f.row.id := by
      rw [Tx.view, entitled.result?, writes, Failing.writes_result?]
      rfl
    have records : (tx.view s).eventsOf f.row.id = s.eventsOf f.row.id ++ [f.event] := by
      have belongs : ∀ g ∈ failing, decide (g.event.jobId = f.row.id) = decide (g.row.id = f.row.id) :=
        fun g inList => by rw [(valid g inList).recorded.jobId]
      rw [Tx.view, entitled.eventsOf, writes, Failing.writes_audit?, List.filter_map]
      simp only [Function.comp_def, List.filter_congr belongs, only, List.map_cons, List.map_nil]
    have enters : (tx.view s).entriesOf f.row.id = s.entriesOf f.row.id ++ f.entered := by
      rw [Tx.view, entitled.entriesOf, writes, Failing.writes_deadLetter?, filter_entered valid, only]
      simp
    have ok := valid f member
    refine .moved (Store.dossier?_of_job ok.stored) (Store.dossier?_of_job found) ?_
    rw [produces, records, enters]
    exact .fail error tx.now ok.running ok.recorded ok.entered
  · have other : ∀ f ∈ failing, f.row.id ≠ jobId := fun f member same => listed ⟨f, member, same⟩
    refine .same (entitled.job?_of_other ?_) (entitled.traces_of_other ?_ ?_ ?_) <;>
      simp only [writes, Failing.writes_job?, Failing.writes_result?, Failing.writes_audit?,
        Failing.writes_deadLetter?, List.mem_map, List.mem_flatMap]
    · rintro row ⟨f, member, rfl⟩
      exact other f member
    · intro row member
      cases member
    · rintro event ⟨f, member, rfl⟩
      rw [(valid f member).recorded.jobId]
      exact other f member
    · rintro entry ⟨f, member, inside⟩ listed
      rw [entered_jobId (valid f member).entered entry inside] at listed
      exact other f member (Option.some.inj listed)

/-- Nothing is stored about a job that does not exist. -/
def NoOrphans (s : Store) : Prop := ∀ jobId, s.job? jobId = none → s.traces jobId = (none, [], [])

/-- Inserting a job with the events of its submission creates it and touches no other. -/
private theorem jobStep_of_insert {opening : List EventType → Prop} (row : Job)
    (events : List AuditEvent) (orphans : NoOrphans s) (entitled : Entitled tx.locks s tx.writes)
    (absent : s.job? row.id = none) (job : tx.writes.filterMap Write.job? = [row])
    (results : tx.writes.filterMap Write.result? = []) (audits : tx.writes.filterMap Write.audit? = events)
    (deadLetters : tx.writes.filterMap Write.deadLetter? = [])
    (recorded : ∀ event ∈ events, event.jobId = row.id)
    (created : Dossier.Created opening ⟨row, none, events, []⟩) (owned : (s.company? row.companyId).isSome)
    (unused : ∀ other ∈ s.jobs.rows, other.companyId = row.companyId →
      other.idempotencyKey ≠ row.idempotencyKey) (jobId : ℕ) :
    JobStep opening s (tx.view s) jobId := by
  by_cases same : row.id = jobId
  · subst same
    have empty := orphans row.id absent
    simp only [Store.traces, Prod.mk.injEq] at empty
    obtain ⟨resultless, silent, unlisted⟩ := empty
    have found : (tx.view s).job? row.id = some row := by
      rw [Tx.view, entitled.job?, job]
      simp
    have produces : (tx.view s).results.find? row.id = none := by
      rw [Tx.view, entitled.result?, results, resultless]
      rfl
    have records : (tx.view s).eventsOf row.id = events := by
      rw [Tx.view, entitled.eventsOf, audits, silent, List.nil_append, List.filter_eq_self.mpr]
      exact fun event member => decide_eq_true (recorded event member)
    have enters : (tx.view s).entriesOf row.id = [] := by
      rw [Tx.view, entitled.entriesOf, deadLetters, unlisted]
      rfl
    refine .created absent (Store.dossier?_of_job found) ?_ owned unused
    rwa [produces, records, enters]
  · refine .same (entitled.job?_of_other ?_) (entitled.traces_of_other ?_ ?_ ?_)
    · rw [job]
      intro other member
      rwa [List.mem_singleton.mp member]
    · rw [results]
      intro found member
      cases member
    · rw [audits]
      intro event member
      rwa [recorded event member]
    · rw [deadLetters]
      intro entry member
      cases member

/-- Every commit moves every job by at most one transition. -/
theorem Commit.jobStep (commit : Commit admits pid tx s label) (orphans : NoOrphans s)
    (entitled : Entitled tx.locks s tx.writes) (jobId : ℕ) :
    JobStep (Opening admits) s (tx.view s) jobId := by
  cases commit with
  | quiet silent _ =>
    rw [Tx.view, silent]
    exact .same rfl rfl
  | @create companyId kind traceId key submittedBy id events company admitted writes recorded submitted
      locked unused stored below =>
    have absent : s.job? id = none := by
      rw [writes] at entitled
      exact entitled.1.2.2.1
    refine jobStep_of_insert (.new id companyId kind traceId key tx.now) events orphans entitled absent
      ?_ ?_ ?_ ?_ (fun event member => (recorded event member).jobId) ?_ (by rw [Job.new, stored]; rfl)
      unused jobId
    · simp [writes, Write.job?, List.filterMap_cons]
    · simp [writes, Write.result?, List.filterMap_cons]
    · simp [writes, Write.audit?, List.filterMap_cons, List.filterMap_map, Function.comp_def]
    · simp [writes, Write.deadLetter?, List.filterMap_cons]
    · refine ⟨rfl, rfl, ⟨rfl, rfl⟩, rfl, rfl, rfl, ?_, fun event member => (recorded event member).companyId,
        rfl⟩
      cases submittedBy with
      | none =>
        obtain rfl := List.length_eq_zero_iff.mp submitted
        exact .inr ⟨rfl, _, admitted, rfl⟩
      | some actor =>
        obtain ⟨event, rfl⟩ := List.length_eq_one_iff.mp submitted
        exact .inl (by rw [List.map_singleton, (recorded event (List.mem_singleton_self _)).eventType])
  | @cancel row _ _ event stored active recorded writes =>
    refine jobStep_of_single (row.cancel tx.now) none [event] entitled stored rfl ?_ ?_ ?_ ?_ (by simp) ?_ ?_ jobId
    iterate 4 · rw [writes]; rfl
    · simpa using recorded.jobId
    · exact .cancel tx.now active recorded
  | @retry row _ traceId event stored failed left recorded writes =>
    refine jobStep_of_single (row.retry traceId tx.now) none [event] entitled stored rfl ?_ ?_ ?_ ?_ (by simp)
      ?_ ?_ jobId
    iterate 4 · rw [writes]; rfl
    · simpa using recorded.jobId
    · exact .retry traceId tx.now failed left recorded
  | @claim row wait stored queued left writes =>
    refine jobStep_of_single (row.claim pid tx.now) none [] entitled stored rfl ?_ ?_ ?_ ?_ (by simp) (by simp)
      ?_ jobId
    iterate 4 · rw [writes]; rfl
    · rw [List.append_nil]
      exact .claim pid tx.now queued left
  | @renew row claim stored running mine _ _ writes =>
    refine jobStep_of_single (row.renew tx.now) none [] entitled stored rfl ?_ ?_ ?_ ?_ (by simp) (by simp) ?_ jobId
    iterate 4 · rw [writes]; rfl
    · rw [List.append_nil]
      exact .renew tx.now running
  | @finish row claim result event company stored running mine _ _ produced recorded _ writes =>
    refine jobStep_of_single (row.finish tx.now) (some result) [event] entitled stored rfl ?_ ?_ ?_ ?_ ?_ ?_
      ?_ jobId
    iterate 4 · rw [writes]; rfl
    · simpa using produced
    · simpa using recorded.jobId
    · exact .finish tx.now running recorded
  | @fail f claim error valid mine _ _ writes =>
    refine jobStep_of_failing entitled ?_ ?_ writes jobId
    · exact List.nodup_singleton f.row.id
    · intro g member
      rwa [List.mem_singleton.mp member]
  | recover distinct valid writes => exact jobStep_of_failing entitled distinct valid writes jobId

end Steps

end JobRelay.Soundness
