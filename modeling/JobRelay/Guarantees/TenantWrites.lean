import JobRelay.Guarantees.Tenancy

/-! # What writes do to the rows of a company

A proper write keeps the constraints and changes the rows of one company at most. Two writes of one job or one
event, each under the ids of its own database, keep the databases alike to the company.
-/

namespace JobRelay.Guarantees

open Model Sessions Soundness

section Writing

variable {locks : LockSet Resource} {s : Store} {write : Write} {companyId : ℕ}

/-- What a write must respect to keep the constraints: a job stays with its company and its key, a new job uses a
new key, and results and events name their job. -/
def Proper (s : Store) : Write → Prop
  | .putJob row => ∃ old, s.job? row.id = some old ∧ row.companyId = old.companyId ∧
      row.idempotencyKey = old.idempotencyKey
  | .insertJob row => ∀ key, row.idempotencyKey = some key → s.jobByKey? row.companyId key = none
  | .insertResult row => (owner? s row.jobId).isSome
  | .insertAudit row => owner? s row.jobId = some row.companyId
  | .insertDeadLetter _ | .putCompany _ | .notify _ => True

/-- A job that is stored after a write was stored before it under the same company and key, or is inserted by it. -/
theorem stored_apply (entitled : write.Entitled locks s) (proper : Proper s write) {row : Job}
    (stored : (write.apply s).job? row.id = some row) :
    (∃ old, s.job? row.id = some old ∧ row.companyId = old.companyId ∧ row.idempotencyKey = old.idempotencyKey) ∨
      (write = .insertJob row ∧ s.job? row.id = none) := by
  rw [Write.apply_job? entitled, Option.or_eq_some_iff] at stored
  rcases stored with written | ⟨_, kept⟩
  · obtain ⟨wrote, _⟩ := Option.filter_eq_some_iff.mp written
    cases write with
    | putJob other =>
      cases wrote
      exact .inl proper
    | insertJob other =>
      cases wrote
      exact .inr ⟨rfl, entitled.2.2.1⟩
    | _ => cases wrote
  · exact .inl ⟨row, kept, rfl, rfl⟩

theorem owner?_apply (entitled : write.Entitled locks s) (proper : Proper s write) {jobId : ℕ}
    (owned : owner? s jobId = some companyId) : owner? (write.apply s) jobId = some companyId := by
  obtain ⟨old, rfl, stored, mine⟩ := owned_row owned
  rw [owner?, Write.apply_job? entitled, stored]
  cases wrote : write.job?.filter fun row => decide (row.id = old.id) with
  | none => exact congrArg some mine
  | some row =>
    obtain ⟨wrote, same⟩ := Option.filter_eq_some_iff.mp wrote
    have same : row.id = old.id := of_decide_eq_true same
    cases write with
    | putJob other =>
      cases wrote
      obtain ⟨before, stored', company, _⟩ := proper
      rw [same, stored, Option.some.injEq] at stored'
      rw [Option.some_or, Option.map_some, company, ← stored', mine]
    | insertJob other =>
      cases wrote
      have absent := entitled.2.2.1
      rw [same, stored] at absent
      cases absent
    | _ => cases wrote

theorem WellKept.apply (kept : WellKept s) (entitled : write.Entitled locks s) (proper : Proper s write) :
    WellKept (write.apply s) := by
  constructor
  · intro event member
    rw [Write.apply_audits entitled, List.mem_append] at member
    rcases member with old | new
    · exact owner?_apply entitled proper (kept.events event old)
    · cases write with
      | insertAudit row =>
        obtain rfl := List.mem_singleton.mp new
        exact owner?_apply entitled proper proper
      | _ => cases new
  · intro result member
    have stored := Table.mem_rows_iff.mp member
    rw [Write.apply_result? entitled, Option.or_eq_some_iff] at stored
    have owned : (owner? s result.jobId).isSome := by
      rcases stored with written | ⟨_, old⟩
      · obtain ⟨wrote, _⟩ := Option.filter_eq_some_iff.mp written
        cases write with
        | insertResult row =>
          cases wrote
          exact proper
        | _ => cases wrote
      · exact kept.results result (Table.find?_mem old)
    obtain ⟨owner, owned⟩ := Option.isSome_iff_exists.mp owned
    exact Option.isSome_iff_exists.mpr ⟨owner, owner?_apply entitled proper owned⟩
  · intro row row' key member member' company used used'
    rw [Store.mem_jobs] at member member'
    have same_id : row.id = row'.id := by
      rcases stored_apply entitled proper member with ⟨old, stored, owner, keyed⟩ | ⟨rfl, _⟩ <;>
        rcases stored_apply entitled proper member' with ⟨old', stored', owner', keyed'⟩ | ⟨same, _⟩
      · have equal := kept.keys (Store.mem_jobs.mpr ((Store.job?_id stored).symm ▸ stored))
          (Store.mem_jobs.mpr ((Store.job?_id stored').symm ▸ stored')) ((owner.symm.trans company).trans owner')
          (keyed.symm.trans used) (keyed'.symm.trans used')
        rw [← Store.job?_id stored, ← Store.job?_id stored', equal]
      · subst same
        have taken := jobByKey?_none.mp (proper key used') old
          (Store.mem_jobs.mpr ((Store.job?_id stored).symm ▸ stored)) (owner.symm.trans company)
        exact absurd (keyed.symm.trans used) taken
      · have taken := jobByKey?_none.mp (proper key used) old'
          (Store.mem_jobs.mpr ((Store.job?_id stored').symm ▸ stored')) (owner'.symm.trans company.symm)
        exact absurd (keyed'.symm.trans used') taken
      · cases same
        rfl
    rw [same_id, member'] at member
    exact (Option.some.inj member).symm

/-- The company whose rows a write changes. -/
def touches? (s : Store) : Write → Option ℕ
  | .putJob row | .insertJob row => some row.companyId
  | .insertResult row => owner? s row.jobId
  | .insertAudit row => some row.companyId
  | .putCompany row => some row.id
  | .insertDeadLetter _ | .notify _ => none

/-- The rows of a company are in the second store what they are in the first. -/
structure Untouched (companyId : ℕ) (s s' : Store) : Prop where
  isSpace : s'.isSpace = s.isSpace
  company : s'.company? companyId = s.company? companyId
  jobs : ∀ {row}, row.companyId = companyId → (s'.job? row.id = some row ↔ s.job? row.id = some row)
  results : ∀ {id}, owner? s id = some companyId → s'.results.find? id = s.results.find? id
  events : ∀ id, s'.auditEventsOf companyId id = s.auditEventsOf companyId id

namespace Untouched

theorem refl (companyId : ℕ) (s : Store) : Untouched companyId s s :=
  ⟨rfl, rfl, fun _ => Iff.rfl, fun _ => rfl, fun _ => rfl⟩

theorem owner?_iff {s' : Store} (untouched : Untouched companyId s s') {id : ℕ} :
    owner? s' id = some companyId ↔ owner? s id = some companyId := by
  constructor
  · intro owned
    obtain ⟨row, rfl, stored, mine⟩ := owned_row owned
    exact owner?_of_owned ((untouched.jobs mine).mp stored) mine
  · intro owned
    obtain ⟨row, rfl, stored, mine⟩ := owned_row owned
    exact owner?_of_owned ((untouched.jobs mine).mpr stored) mine

theorem trans {s' s'' : Store} (first : Untouched companyId s s') (second : Untouched companyId s' s'') :
    Untouched companyId s s'' where
  isSpace := second.isSpace.trans first.isSpace
  company := second.company.trans first.company
  jobs mine := (second.jobs mine).trans (first.jobs mine)
  results owned := (second.results (first.owner?_iff.mpr owned)).trans (first.results owned)
  events id := (second.events id).trans (first.events id)

theorem of_contents {s' : Store} (same : contents s' = contents s) : Untouched companyId s s' := by
  have jobs : s'.jobs.toTable = s.jobs.toTable := congrArg Contents.jobs same
  have companies : s'.companies = s.companies := congrArg Contents.companies same
  have results : s'.results = s.results := congrArg Contents.results same
  have audits : s'.audits.toTable = s.audits.toTable := congrArg Contents.audits same
  refine ⟨congrArg Contents.isSpace same, ?_, ?_, fun _ => by rw [results], fun id => ?_⟩
  · rw [Store.company?, companies, Store.company?]
  · intro row _
    rw [Store.job?, jobs, Store.job?]
  · rw [Store.auditEventsOf, audits, Store.auditEventsOf]

theorem apply (entitled : write.Entitled locks s) (proper : Proper s write)
    (elsewhere : touches? s write ≠ some companyId) : Untouched companyId s (write.apply s) := by
  constructor
  · exact Write.apply_isSpace write
  · rw [Write.apply_company? entitled]
    cases write with
    | putCompany row =>
      have other : row.id ≠ companyId := fun same => elsewhere (congrArg some same)
      rw [Write.company?, Option.filter_some, if_neg (by simpa using other), Option.none_or]
    | _ => rfl
  · intro row mine
    rw [Write.apply_job? entitled]
    cases wrote : write.job?.filter fun other => decide (other.id = row.id) with
    | none => rw [Option.none_or]
    | some other =>
      obtain ⟨wrote, same⟩ := Option.filter_eq_some_iff.mp wrote
      have same : other.id = row.id := of_decide_eq_true same
      rw [Option.some_or, Option.some.injEq]
      cases write with
      | putJob written =>
        cases wrote
        obtain ⟨old, stored, company, _⟩ := proper
        refine ⟨fun equal => absurd (congrArg some (equal ▸ mine)) elsewhere, fun kept => ?_⟩
        rw [same, kept, Option.some.injEq] at stored
        exact absurd (congrArg some ((company.trans (stored ▸ rfl)).trans mine)) elsewhere
      | insertJob written =>
        cases wrote
        refine ⟨fun equal => absurd (congrArg some (equal ▸ mine)) elsewhere, fun kept => ?_⟩
        have absent := entitled.2.2.1
        rw [same, kept] at absent
        cases absent
      | _ => cases wrote
  · intro id owned
    rw [Write.apply_result? entitled]
    cases write with
    | insertResult row =>
      have other : row.jobId ≠ id := by
        rintro rfl
        exact elsewhere owned
      rw [Write.result?, Option.filter_some, if_neg (by simpa using other), Option.none_or]
    | _ => rfl
  · intro id
    rw [Store.auditEventsOf, Write.apply_audits entitled, List.filter_append, Store.auditEventsOf]
    cases write with
    | insertAudit row =>
      have other : row.companyId ≠ companyId := fun same => elsewhere (congrArg some same)
      simp [Write.audit?, other]
    | _ => simp [Write.audit?]

theorem mirrors {s' : Store} (untouched : Untouched companyId s s') : Mirrors companyId id s s' where
  isSpace := untouched.isSpace
  company := untouched.company
  jobs stored mine := (untouched.jobs mine).mpr stored
  onto {row} stored mine := ⟨row, (untouched.jobs mine).mp stored, mine, rfl⟩
  mono _ _ before := before
  result owned := by rw [id, untouched.results owned]
  listed {jobId} _ := by rw [Listed, id, untouched.events jobId, Listed]

end Untouched

end Writing

section Together

variable {locks locks' : LockSet Resource} {s t : Store} {companyId : ℕ} {f : ℕ → ℕ}

theorem result?_of_fresh (kept : WellKept s) {id : ℕ} (absent : s.job? id = none) : s.results.find? id = none := by
  rw [Table.find?_eq_none]
  rintro result member rfl
  have stored := kept.results result member
  rw [Guarantees.owner?, absent] at stored
  cases stored

theorem listed_of_fresh (kept : WellKept s) {id : ℕ} (absent : s.job? id = none) : Listed s companyId id = [] := by
  have none_of : s.auditEventsOf companyId id = [] := by
    refine List.filter_eq_nil_iff.mpr fun event member same => ?_
    obtain ⟨rfl, _⟩ := of_decide_eq_true same
    have stored := kept.events event member
    rw [Guarantees.owner?, absent] at stored
    cases stored
  rw [Listed, none_of]
  rfl

/-- A write of a job row changes no result and no event. -/
theorem result?_of_job {write : Write} (entitled : write.Entitled locks s) {row : Job} (wrote : write.job? = some row)
    (id : ℕ) : (write.apply s).results.find? id = s.results.find? id := by
  rw [Write.apply_result? entitled]
  cases write with
  | putJob | insertJob => rfl
  | _ => cases wrote

theorem listed_of_job {write : Write} (entitled : write.Entitled locks s) {row : Job} (wrote : write.job? = some row)
    (id : ℕ) : Listed (write.apply s) companyId id = Listed s companyId id := by
  rw [Listed, Store.auditEventsOf, Write.apply_audits entitled, Listed, Store.auditEventsOf]
  cases write with
  | putJob | insertJob => simp only [Write.audit?, Option.toList_none, List.append_nil]
  | _ => cases wrote

theorem job?_of_job {write : Write} (entitled : write.Entitled locks s) {row : Job} (wrote : write.job? = some row)
    (id : ℕ) : (write.apply s).job? id = if row.id = id then some row else s.job? id := by
  rw [Write.apply_job? entitled, wrote, Option.filter_some]
  by_cases same : row.id = id <;> simp [same]

theorem company?_of_job {write : Write} (entitled : write.Entitled locks s) {row : Job} (wrote : write.job? = some row)
    (id : ℕ) : (write.apply s).company? id = s.company? id := by
  rw [Write.apply_company? entitled]
  cases write with
  | putJob | insertJob => rfl
  | _ => cases wrote

/-- Writing a job of the company in one database and the same job under its other id in the other. -/
theorem Mirrors.job {g : ℕ → ℕ} {write write' : Write} {row : Job} (mirrors : Mirrors companyId f s t)
    (entitled : write.Entitled locks s) (entitled' : write'.Entitled locks' t) (wrote : write.job? = some row)
    (wrote' : write'.job? = some (renamed g row)) (mine : row.companyId = companyId)
    (agree : ∀ id, Guarantees.owner? s id = some companyId → g id = f id)
    (mono : ∀ id, Guarantees.owner? s id = some companyId → (id < row.id → g id < g row.id) ∧ (row.id < id → g row.id < g id))
    (result : (t.results.find? (g row.id)).map JobResult.payload = (s.results.find? row.id).map JobResult.payload)
    (listed : Listed t companyId (g row.id) = Listed s companyId row.id) :
    Mirrors companyId g (write.apply s) (write'.apply t) := by
  have owner_iff (id : ℕ) : Guarantees.owner? (write.apply s) id = some companyId ↔
      id = row.id ∨ Guarantees.owner? s id = some companyId := by
    rw [Guarantees.owner?, job?_of_job entitled wrote]
    split
    · next same => simp [mine, same]
    · next distinct => simp [Ne.symm distinct, Guarantees.owner?]
  have apart {id : ℕ} (owned : Guarantees.owner? s id = some companyId) (distinct : row.id ≠ id) : g row.id ≠ f id := by
    rw [← agree id owned]
    rcases distinct.lt_or_gt with before | after
    · exact ((mono id owned).2 before).ne
    · exact ((mono id owned).1 after).ne'
  constructor
  · rw [Write.apply_isSpace, Write.apply_isSpace, mirrors.isSpace]
  · rw [company?_of_job entitled wrote, company?_of_job entitled' wrote', mirrors.company]
  · intro other stored mine'
    rw [job?_of_job entitled wrote] at stored
    rw [job?_of_job entitled' wrote']
    split at stored
    · cases stored
      exact if_pos rfl
    · next distinct =>
      have owned := owner?_of_owned stored mine'
      rw [if_neg (agree _ owned ▸ apart owned distinct), agree _ owned, mirrors.jobs stored mine', renamed, renamed,
        agree _ owned]
  · intro other stored mine'
    rw [job?_of_job entitled' wrote'] at stored
    split at stored
    · cases stored
      refine ⟨row, ?_, mine, rfl⟩
      rw [job?_of_job entitled wrote, if_pos rfl]
    · next distinct =>
      obtain ⟨source, stored', mine'', rfl⟩ := mirrors.onto stored mine'
      have owned := owner?_of_owned stored' mine''
      have other : row.id ≠ source.id := by
        intro same
        rw [renamed, renamed, same] at distinct
        exact distinct (agree _ owned)
      refine ⟨source, ?_, mine'', by rw [renamed, renamed, agree _ owned]⟩
      rw [job?_of_job entitled wrote, if_neg other, stored']
  · intro id id' owned owned' before
    rcases (owner_iff id).mp owned with rfl | old <;> rcases (owner_iff id').mp owned' with rfl | old'
    · exact absurd before (lt_irrefl _)
    · exact (mono id' old').2 before
    · exact (mono id old).1 before
    · rw [agree id old, agree id' old']
      exact mirrors.mono old old' before
  · intro id owned
    rw [result?_of_job entitled wrote, result?_of_job entitled' wrote']
    rcases (owner_iff id).mp owned with rfl | old
    · exact result
    · rw [agree id old, mirrors.result old]
  · intro id owned
    rw [listed_of_job entitled wrote, listed_of_job entitled' wrote']
    rcases (owner_iff id).mp owned with rfl | old
    · exact listed
    · rw [agree id old, mirrors.listed old]

/-- Updating a job of the company. -/
theorem Mirrors.put (mirrors : Mirrors companyId f s t) {row : Job} (owned : Guarantees.owner? s row.id = some companyId)
    (mine : row.companyId = companyId) (entitled : (Write.putJob row).Entitled locks s)
    (entitled' : (Write.putJob (renamed f row)).Entitled locks' t) :
    Mirrors companyId f ((Write.putJob row).apply s) ((Write.putJob (renamed f row)).apply t) :=
  mirrors.job entitled entitled' rfl rfl mine (fun _ _ => rfl)
    (fun _ owned' => ⟨mirrors.mono owned' owned, mirrors.mono owned owned'⟩) (mirrors.result owned) (mirrors.listed owned)

/-- Inserting a new job of the company under the next id of either database. -/
theorem Mirrors.insert (mirrors : Mirrors companyId f s t) (kept : WellKept s) (kept' : WellKept t) {row row' : Job}
    (mine : row.companyId = companyId) (same : row' = { row with id := row'.id })
    (last : ∀ other ∈ s.jobs.rows, other.id < row.id) (last' : ∀ other ∈ t.jobs.rows, other.id < row'.id)
    (entitled : (Write.insertJob row).Entitled locks s) (entitled' : (Write.insertJob row').Entitled locks' t) :
    Mirrors companyId (Function.update f row.id row'.id) ((Write.insertJob row).apply s)
      ((Write.insertJob row').apply t) := by
  have before {id : ℕ} (owned : Guarantees.owner? s id = some companyId) : id < row.id ∧ f id < row'.id := by
    obtain ⟨other, rfl, stored, mine'⟩ := owned_row owned
    have member : renamed f other ∈ t.jobs.rows := Store.mem_jobs.mpr (mirrors.jobs stored mine')
    exact ⟨last other (Store.mem_jobs.mpr stored), last' _ member⟩
  have image : row' = renamed (Function.update f row.id row'.id) row := by
    rw [renamed, Function.update_self]
    exact same
  have absent := entitled.2.2.1
  have absent' := entitled'.2.2.1
  refine mirrors.job entitled entitled' rfl (congrArg some image) mine ?_ ?_ ?_ ?_
  · intro id owned
    exact Function.update_of_ne (before owned).1.ne _ _
  · intro id owned
    rw [Function.update_self, Function.update_of_ne (before owned).1.ne]
    exact ⟨fun _ => (before owned).2, fun after => absurd after (before owned).1.asymm⟩
  · rw [Function.update_self, result?_of_fresh kept absent, result?_of_fresh kept' absent']
  · rw [Function.update_self, listed_of_fresh kept absent, listed_of_fresh kept' absent']

/-- Where a listing shows an event that was recorded last: after those that occurred no later. -/
def shownLast (entries : List AuditEntry) (entry : AuditEntry) : List AuditEntry :=
  entries.filter (fun other => decide (other.occurredAt ≤ entry.occurredAt)) ++
    entry :: entries.filter fun other => !decide (other.occurredAt ≤ entry.occurredAt)

/-- The columns of an event that a listing shows. -/
def entryOf (event : AuditEvent) : AuditEntry := ⟨event.eventType, event.actor, event.occurredAt, event.traceId⟩

private theorem sorted_append {events : List AuditEvent} {event : AuditEvent}
    (last : ∀ other ∈ events, other.id < event.id) (distinct : (events.map AuditEvent.id).Nodup) :
    (events ++ [event]).insertionSort AuditEvent.NotLater =
      (events.insertionSort AuditEvent.NotLater).filter (fun other => decide (other.occurredAt ≤ event.occurredAt)) ++
        event :: (events.insertionSort AuditEvent.NotLater).filter
          fun other => !decide (other.occurredAt ≤ event.occurredAt) := by
  have perm : ((events ++ [event]).insertionSort AuditEvent.NotLater).Perm
      ((events.insertionSort AuditEvent.NotLater).filter (fun other => decide (other.occurredAt ≤ event.occurredAt)) ++
        event :: (events.insertionSort AuditEvent.NotLater).filter
          fun other => !decide (other.occurredAt ≤ event.occurredAt)) := by
    refine (List.perm_insertionSort _ _).trans ?_
    refine List.Perm.trans ?_ List.perm_middle.symm
    refine List.perm_append_comm.trans (List.Perm.cons event ?_)
    exact (List.perm_insertionSort _ _).symm.trans (List.filter_append_perm _ _).symm
  have sorted := List.pairwise_insertionSort AuditEvent.NotLater events
  refine perm.eq_of_pairwise ?_ (List.pairwise_insertionSort _ _) ?_
  · intro left right member member' first second
    have ids : left.id = right.id := by
      rcases first with earlier | ⟨same, before⟩ <;> rcases second with earlier' | ⟨same', after⟩
      · exact absurd (earlier.trans earlier') (lt_irrefl _)
      · exact absurd (same' ▸ earlier) (lt_irrefl _)
      · exact absurd (same ▸ earlier') (lt_irrefl _)
      · exact le_antisymm before after
    have all : ((events ++ [event]).map AuditEvent.id).Nodup := by
      rw [List.map_append, List.nodup_append]
      refine ⟨distinct, List.nodup_singleton _, ?_⟩
      intro id member id' member'
      obtain ⟨other, inside, rfl⟩ := List.mem_map.mp member
      obtain rfl := List.mem_singleton.mp member'
      exact (last other inside).ne
    exact List.inj_on_of_nodup_map all ((List.mem_insertionSort _).mp member)
      ((List.mem_insertionSort _).mp (perm.mem_iff.mpr member')) ids
  · rw [List.pairwise_append, List.pairwise_cons]
    refine ⟨sorted.filter _, ⟨?_, sorted.filter _⟩, ?_⟩
    · intro other member
      have later := (List.mem_filter.mp member).2
      rw [Bool.not_eq_true', decide_eq_false_iff_not, not_le] at later
      exact .inl later
    · intro other member next member'
      obtain ⟨inside, early⟩ := List.mem_filter.mp member
      have early := of_decide_eq_true early
      rcases List.mem_cons.mp member' with rfl | late
      · rcases early.lt_or_eq with earlier | same
        · exact .inl earlier
        · exact .inr ⟨same, (last other ((List.mem_insertionSort _).mp inside)).le⟩
      · have later := (List.mem_filter.mp late).2
        rw [Bool.not_eq_true', decide_eq_false_iff_not, not_le] at later
        exact .inl (early.trans_lt later)

/-- Recording an event shows it last among the events of its job that did not occur later. -/
theorem listed_insert {row : AuditEvent} (entitled : (Write.insertAudit row).Entitled locks s)
    (last : ∀ other ∈ s.audits.rows, other.id < row.id) (mine : row.companyId = companyId) (id : ℕ) :
    Listed ((Write.insertAudit row).apply s) companyId id =
      if row.jobId = id then shownLast (Listed s companyId id) (entryOf row) else Listed s companyId id := by
  rw [Listed, Store.auditEventsOf, Write.apply_audits entitled, List.filter_append, Write.audit?, Option.toList_some]
  split
  · next same =>
    have picked : [row].filter (fun event => decide (event.jobId = id ∧ event.companyId = companyId)) = [row] := by
      simp [same, mine]
    rw [picked, ← Store.auditEventsOf, sorted_append]
    · rw [Listed, shownLast, List.map_append, List.map_cons, List.filter_map, List.filter_map]
      rfl
    · exact fun other member => last other (List.mem_filter.mp member).1
    · exact s.audits.unique.sublist (List.filter_sublist.map _)
  · next distinct =>
    have dropped : [row].filter (fun event => decide (event.jobId = id ∧ event.companyId = companyId)) = [] := by
      simp [distinct]
    rw [dropped, List.append_nil]
    rfl

/-- Recording an event of a job of the company. -/
theorem Mirrors.audit (mirrors : Mirrors companyId f s t) {row row' : AuditEvent} (mine : row.companyId = companyId)
    (owned : Guarantees.owner? s row.jobId = some companyId)
    (same : row' = { row with id := row'.id, jobId := f row.jobId })
    (last : ∀ other ∈ s.audits.rows, other.id < row.id) (last' : ∀ other ∈ t.audits.rows, other.id < row'.id)
    (entitled : (Write.insertAudit row).Entitled locks s) (entitled' : (Write.insertAudit row').Entitled locks' t) :
    Mirrors companyId f ((Write.insertAudit row).apply s) ((Write.insertAudit row').apply t) where
  isSpace := mirrors.isSpace
  company := mirrors.company
  jobs := mirrors.jobs
  onto := mirrors.onto
  mono := mirrors.mono
  result := mirrors.result
  listed {id} owned' := by
    have job : row'.jobId = f row.jobId := congrArg AuditEvent.jobId same
    have mine' : row'.companyId = companyId := (congrArg AuditEvent.companyId same).trans mine
    have entry : entryOf row' = entryOf row := by
      rw [same]
      rfl
    rw [listed_insert entitled last mine, listed_insert entitled' last' mine', entry, job,
      mirrors.listed (show Guarantees.owner? s id = some companyId from owned')]
    by_cases here : row.jobId = id
    · rw [if_pos here, if_pos (congrArg f here)]
    · rw [if_neg here, if_neg fun equal => here (mirrors.inj owned owned' equal)]

end Together

end JobRelay.Guarantees
