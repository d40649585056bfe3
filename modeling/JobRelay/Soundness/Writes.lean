import JobRelay.Soundness.Lifecycle

/-! # What buffered writes do to the store

A write is entitled in a store when its transaction holds the row exclusively and the row is there
to replace, or free to take. Entitled writes change each table exactly as listed, change nothing
that is not held exclusively, and stay entitled while others change what is not so held.
-/

namespace JobRelay.Model

open Sessions

namespace Store

/-- The audit events of a job, in commit order. -/
def eventsOf (s : Store) (jobId : ℕ) : List AuditEvent :=
  s.audits.rows.filter fun event => decide (event.jobId = jobId)

/-- The dead-letter entries of a job. -/
def entriesOf (s : Store) (jobId : ℕ) : List DeadLetter :=
  s.deadLetters.rows.filter fun entry => decide (entry.jobId = some jobId)

/-- What is stored about a job beside its row. -/
def traces (s : Store) (jobId : ℕ) : Option JobResult × List AuditEvent × List DeadLetter :=
  (s.results.find? jobId, s.eventsOf jobId, s.entriesOf jobId)

def dossier? (s : Store) (jobId : ℕ) : Option Soundness.Dossier :=
  (s.job? jobId).map fun job => ⟨job, s.results.find? jobId, s.eventsOf jobId, s.entriesOf jobId⟩

theorem dossier?_of_same {s s' : Store} {jobId : ℕ} (job : s'.job? jobId = s.job? jobId)
    (traces : s'.traces jobId = s.traces jobId) : s'.dossier? jobId = s.dossier? jobId := by
  simp only [Store.traces, Prod.mk.injEq] at traces
  rw [dossier?, dossier?, job, traces.1, traces.2.1, traces.2.2]

theorem dossier?_of_job {s : Store} {jobId : ℕ} {job : Job} (stored : s.job? jobId = some job) :
    s.dossier? jobId = some ⟨job, s.results.find? jobId, s.eventsOf jobId, s.entriesOf jobId⟩ := by
  rw [dossier?, stored, Option.map_some]

theorem job?_of_dossier {s : Store} {jobId : ℕ} {d : Soundness.Dossier}
    (stored : s.dossier? jobId = some d) : s.job? jobId = some d.job := by
  obtain ⟨job, found, rfl⟩ := Option.map_eq_some_iff.mp stored
  exact found

end Store

namespace Write

def job? : Write → Option Job
  | .putJob row | .insertJob row => some row
  | _ => none

def insertedJob? : Write → Option Job
  | .insertJob row => some row
  | _ => none

def result? : Write → Option JobResult
  | .insertResult row => some row
  | _ => none

def audit? : Write → Option AuditEvent
  | .insertAudit row => some row
  | _ => none

def deadLetter? : Write → Option DeadLetter
  | .insertDeadLetter row => some row
  | _ => none

def company? : Write → Option Company
  | .putCompany row => some row
  | _ => none

def notification? : Write → Option Notification
  | .notify notification => some notification
  | _ => none

/-- The transaction holds the written row, and the store is as the write needs it. -/
def Entitled (locks : LockSet Resource) (s : Store) : Write → Prop
  | .putJob row => locks.Exclusive (.job row.id) ∧ (s.job? row.id).isSome
  | .insertJob row => locks.Exclusive (.job row.id) ∧ row.id < s.jobs.next ∧ s.job? row.id = none ∧
      (Resource.company row.companyId, LockMode.keyShare) ∈ locks
  | .insertResult row => locks.Exclusive (.resultOf row.jobId) ∧ s.results.find? row.jobId = none
  | .insertAudit row => locks.Exclusive (.event row.id) ∧ row.id < s.audits.next ∧
      s.audits.toTable.find? row.id = none ∧ (Resource.company row.companyId, LockMode.keyShare) ∈ locks
  | .insertDeadLetter row => locks.Exclusive (.deadLetter row.id) ∧ row.id < s.deadLetters.next ∧
      s.deadLetters.toTable.find? row.id = none
  | .putCompany row => locks.Exclusive (.company row.id) ∧ (s.company? row.id).isSome
  | .notify _ => True

variable {locks : LockSet Resource} {s : Store}

theorem apply_job? {write : Write} (entitled : write.Entitled locks s) (jobId : ℕ) :
    (write.apply s).job? jobId = (write.job?.filter fun row => decide (row.id = jobId)).or (s.job? jobId) := by
  cases write with
  | putJob row =>
    obtain ⟨_, stored⟩ := entitled
    simp only [apply, Store.job?, SerialTable.put_toTable, Table.find?_put, job?, Option.filter_some,
      decide_eq_true_eq]
    split
    · next same =>
      subst same
      obtain ⟨old, found⟩ := Option.isSome_iff_exists.mp stored
      rw [Store.job?] at found
      simp [found]
    · rfl
  | insertJob row =>
    obtain ⟨_, drawn, absent, _⟩ := entitled
    simp only [apply, Store.job?, SerialTable.insert_toTable drawn, job?, Option.filter_some,
      decide_eq_true_eq]
    split
    · next same =>
      subst same
      exact Table.find?_insert_self absent
    · next distinct => exact Table.find?_insert_ne distinct
  | _ => rfl

theorem apply_job_keys {write : Write} (entitled : write.Entitled locks s) :
    (write.apply s).jobs.rows.map Job.id =
      s.jobs.rows.map Job.id ++ write.insertedJob?.toList.map Job.id := by
  cases write with
  | putJob row => simp [apply, insertedJob?]
  | insertJob row =>
    obtain ⟨_, drawn, absent, _⟩ := entitled
    simp only [apply, SerialTable.insert_toTable drawn, Table.rows_insert absent, List.map_append,
      insertedJob?, Option.toList_some]
  | _ => exact (List.append_nil _).symm

theorem apply_company? {write : Write} (entitled : write.Entitled locks s) (companyId : ℕ) :
    (write.apply s).company? companyId =
      (write.company?.filter fun row => decide (row.id = companyId)).or (s.company? companyId) := by
  cases write with
  | putCompany row =>
    obtain ⟨_, stored⟩ := entitled
    simp only [apply, Store.company?, Table.find?_put, company?, Option.filter_some, decide_eq_true_eq]
    split
    · next same =>
      subst same
      obtain ⟨old, found⟩ := Option.isSome_iff_exists.mp stored
      rw [Store.company?] at found
      simp [found]
    · rfl
  | _ => rfl

theorem apply_result? {write : Write} (entitled : write.Entitled locks s) (jobId : ℕ) :
    (write.apply s).results.find? jobId =
      (write.result?.filter fun row => decide (row.jobId = jobId)).or (s.results.find? jobId) := by
  cases write with
  | insertResult row =>
    obtain ⟨_, absent⟩ := entitled
    simp only [apply, result?, Option.filter_some, decide_eq_true_eq]
    split
    · next same =>
      subst same
      exact Table.find?_insert_self absent
    · next distinct => exact Table.find?_insert_ne distinct
  | _ => rfl

theorem apply_audits {write : Write} (entitled : write.Entitled locks s) :
    (write.apply s).audits.rows = s.audits.rows ++ write.audit?.toList := by
  cases write with
  | insertAudit row =>
    obtain ⟨_, drawn, absent, _⟩ := entitled
    simp only [apply, SerialTable.insert_toTable drawn, Table.rows_insert absent, audit?, Option.toList_some]
  | _ => exact (List.append_nil _).symm

theorem apply_deadLetters {write : Write} (entitled : write.Entitled locks s) :
    (write.apply s).deadLetters.rows = s.deadLetters.rows ++ write.deadLetter?.toList := by
  cases write with
  | insertDeadLetter row =>
    obtain ⟨_, drawn, absent⟩ := entitled
    simp only [apply, SerialTable.insert_toTable drawn, Table.rows_insert absent, deadLetter?,
      Option.toList_some]
  | _ => exact (List.append_nil _).symm

theorem apply_event? {write : Write} (entitled : write.Entitled locks s) (id : ℕ) :
    (write.apply s).audits.toTable.find? id =
      (write.audit?.filter fun row => decide (row.id = id)).or (s.audits.toTable.find? id) := by
  cases write with
  | insertAudit row =>
    obtain ⟨_, drawn, absent, _⟩ := entitled
    simp only [apply, SerialTable.insert_toTable drawn, audit?, Option.filter_some, decide_eq_true_eq]
    split
    · next same =>
      subst same
      exact Table.find?_insert_self absent
    · next distinct => exact Table.find?_insert_ne distinct
  | _ => rfl

theorem apply_deadLetter? {write : Write} (entitled : write.Entitled locks s) (id : ℕ) :
    (write.apply s).deadLetters.toTable.find? id =
      (write.deadLetter?.filter fun row => decide (row.id = id)).or
        (s.deadLetters.toTable.find? id) := by
  cases write with
  | insertDeadLetter row =>
    obtain ⟨_, drawn, absent⟩ := entitled
    simp only [apply, SerialTable.insert_toTable drawn, deadLetter?, Option.filter_some,
      decide_eq_true_eq]
    split
    · next same =>
      subst same
      exact Table.find?_insert_self absent
    · next distinct => exact Table.find?_insert_ne distinct
  | _ => rfl

theorem apply_notified (write : Write) :
    (write.apply s).notified = s.notified ++ write.notification?.toList := by
  cases write with
  | notify notification => rfl
  | _ => exact (List.append_nil _).symm

@[simp] theorem apply_jobs_next (write : Write) : (write.apply s).jobs.next = s.jobs.next := by
  cases write <;> simp [apply]

@[simp] theorem apply_audits_next (write : Write) : (write.apply s).audits.next = s.audits.next := by
  cases write <;> simp [apply]

@[simp] theorem apply_deadLetters_next (write : Write) :
    (write.apply s).deadLetters.next = s.deadLetters.next := by cases write <;> simp [apply]

@[simp] theorem apply_isSpace (write : Write) : (write.apply s).isSpace = s.isSpace := by
  cases write <;> rfl

@[simp] theorem apply_clock (write : Write) : (write.apply s).clock = s.clock := by cases write <;> rfl

@[simp] theorem apply_history (write : Write) : (write.apply s).history = s.history := by
  cases write <;> rfl

end Write

/-- Every write of a transaction is entitled after the writes before it. -/
def Entitled (locks : LockSet Resource) : Store → List Write → Prop
  | _, [] => True
  | s, write :: rest => write.Entitled locks s ∧ Entitled locks (write.apply s) rest

namespace Entitled

variable {locks more : LockSet Resource} {s : Store} {writes : List Write}

theorem append_singleton {write : Write} :
    Entitled locks s (writes ++ [write]) ↔
      Entitled locks s writes ∧ write.Entitled locks (writes.foldl Write.apply s) := by
  induction writes generalizing s with
  | nil => simp [Entitled]
  | cons head rest ih => simp only [List.cons_append, Entitled, ih, List.foldl_cons, and_assoc]

theorem append {later : List Write} :
    Entitled locks s (writes ++ later) ↔
      Entitled locks s writes ∧ Entitled locks (writes.foldl Write.apply s) later := by
  induction writes generalizing s with
  | nil => simp [Entitled]
  | cons head rest ih => simp only [List.cons_append, Entitled, ih, List.foldl_cons, and_assoc]

/-- The last write to a job decides its row. -/
theorem job? (entitled : Entitled locks s writes) (jobId : ℕ) :
    (writes.foldl Write.apply s).job? jobId =
      ((writes.filterMap Write.job?).reverse.find? fun row => decide (row.id = jobId)).or
        (s.job? jobId) := by
  induction writes generalizing s with
  | nil => rfl
  | cons write rest ih =>
    rw [List.foldl_cons, ih entitled.2, Write.apply_job? entitled.1]
    cases wrote : write.job? with
    | none => rw [List.filterMap_cons_none wrote, Option.filter_none, Option.none_or]
    | some row =>
      rw [List.filterMap_cons_some wrote, List.reverse_cons, List.find?_append, Option.or_assoc]
      congr 2
      by_cases same : row.id = jobId <;> simp [same]

/-- A job that is written once has the row that was written. -/
theorem job?_of_unique (entitled : Entitled locks s writes) {row : Job}
    (distinct : ((writes.filterMap Write.job?).map Job.id).Nodup)
    (member : row ∈ writes.filterMap Write.job?) : (writes.foldl Write.apply s).job? row.id = some row := by
  rw [entitled.job?, ← List.head?_filter, List.filter_reverse, filter_of_nodup distinct member]
  rfl

theorem job_keys (entitled : Entitled locks s writes) :
    (writes.foldl Write.apply s).jobs.rows.map Job.id =
      s.jobs.rows.map Job.id ++ (writes.filterMap Write.insertedJob?).map Job.id := by
  induction writes generalizing s with
  | nil => exact (List.append_nil _).symm
  | cons write rest ih =>
    rw [List.foldl_cons, ih entitled.2, Write.apply_job_keys entitled.1, List.append_assoc]
    cases wrote : write.insertedJob? with
    | none => rw [List.filterMap_cons_none wrote]; rfl
    | some row => rw [List.filterMap_cons_some wrote]; rfl

/-- A row that the writes lead to was written, or was there before. -/
theorem job?_cases (entitled : Entitled locks s writes) {jobId : ℕ} {row : Job}
    (stored : (writes.foldl Write.apply s).job? jobId = some row) :
    row ∈ writes.filterMap Write.job? ∨ s.job? jobId = some row := by
  rw [entitled.job?] at stored
  rcases Option.or_eq_some_iff.mp stored with written | ⟨_, kept⟩
  · exact .inl (List.mem_reverse.mp (List.mem_of_find?_eq_some written))
  · exact .inr kept

theorem company? (entitled : Entitled locks s writes) (companyId : ℕ) :
    (writes.foldl Write.apply s).company? companyId =
      ((writes.filterMap Write.company?).reverse.find? fun row => decide (row.id = companyId)).or
        (s.company? companyId) := by
  induction writes generalizing s with
  | nil => rfl
  | cons write rest ih =>
    rw [List.foldl_cons, ih entitled.2, Write.apply_company? entitled.1]
    cases wrote : write.company? with
    | none => rw [List.filterMap_cons_none wrote, Option.filter_none, Option.none_or]
    | some row =>
      rw [List.filterMap_cons_some wrote, List.reverse_cons, List.find?_append, Option.or_assoc]
      congr 2
      by_cases same : row.id = companyId <;> simp [same]

theorem result? (entitled : Entitled locks s writes) (jobId : ℕ) :
    (writes.foldl Write.apply s).results.find? jobId =
      ((writes.filterMap Write.result?).reverse.find? fun row => decide (row.jobId = jobId)).or
        (s.results.find? jobId) := by
  induction writes generalizing s with
  | nil => rfl
  | cons write rest ih =>
    rw [List.foldl_cons, ih entitled.2, Write.apply_result? entitled.1]
    cases wrote : write.result? with
    | none => rw [List.filterMap_cons_none wrote, Option.filter_none, Option.none_or]
    | some row =>
      rw [List.filterMap_cons_some wrote, List.reverse_cons, List.find?_append, Option.or_assoc]
      congr 2
      by_cases same : row.jobId = jobId <;> simp [same]

theorem audits (entitled : Entitled locks s writes) :
    (writes.foldl Write.apply s).audits.rows = s.audits.rows ++ writes.filterMap Write.audit? := by
  induction writes generalizing s with
  | nil => exact (List.append_nil _).symm
  | cons write rest ih =>
    rw [List.foldl_cons, ih entitled.2, Write.apply_audits entitled.1, List.append_assoc]
    cases wrote : write.audit? with
    | none => rw [List.filterMap_cons_none wrote]; rfl
    | some row => rw [List.filterMap_cons_some wrote]; rfl

theorem deadLetters (entitled : Entitled locks s writes) :
    (writes.foldl Write.apply s).deadLetters.rows =
      s.deadLetters.rows ++ writes.filterMap Write.deadLetter? := by
  induction writes generalizing s with
  | nil => exact (List.append_nil _).symm
  | cons write rest ih =>
    rw [List.foldl_cons, ih entitled.2, Write.apply_deadLetters entitled.1, List.append_assoc]
    cases wrote : write.deadLetter? with
    | none => rw [List.filterMap_cons_none wrote]; rfl
    | some row => rw [List.filterMap_cons_some wrote]; rfl

theorem eventsOf (entitled : Entitled locks s writes) (jobId : ℕ) :
    (writes.foldl Write.apply s).eventsOf jobId = s.eventsOf jobId ++
      (writes.filterMap Write.audit?).filter fun event => decide (event.jobId = jobId) := by
  rw [Store.eventsOf, entitled.audits, List.filter_append, Store.eventsOf]

theorem entriesOf (entitled : Entitled locks s writes) (jobId : ℕ) :
    (writes.foldl Write.apply s).entriesOf jobId = s.entriesOf jobId ++
      (writes.filterMap Write.deadLetter?).filter fun entry => decide (entry.jobId = some jobId) := by
  rw [Store.entriesOf, entitled.deadLetters, List.filter_append, Store.entriesOf]

/-- A job that no write names keeps its row. -/
theorem job?_of_other (entitled : Entitled locks s writes) {jobId : ℕ}
    (other : ∀ row ∈ writes.filterMap Write.job?, row.id ≠ jobId) :
    (writes.foldl Write.apply s).job? jobId = s.job? jobId := by
  rw [entitled.job?, List.find?_eq_none.mpr, Option.none_or]
  intro row member
  simpa using other row (List.mem_reverse.mp member)

theorem company?_of_other (entitled : Entitled locks s writes) {companyId : ℕ}
    (other : ∀ row ∈ writes.filterMap Write.company?, row.id ≠ companyId) :
    (writes.foldl Write.apply s).company? companyId = s.company? companyId := by
  rw [entitled.company?, List.find?_eq_none.mpr, Option.none_or]
  intro row member
  simpa using other row (List.mem_reverse.mp member)

/-- A job that no result, event or entry refers to keeps what is stored beside its row. -/
theorem traces_of_other (entitled : Entitled locks s writes) {jobId : ℕ}
    (results : ∀ row ∈ writes.filterMap Write.result?, row.jobId ≠ jobId)
    (events : ∀ event ∈ writes.filterMap Write.audit?, event.jobId ≠ jobId)
    (entries : ∀ entry ∈ writes.filterMap Write.deadLetter?, entry.jobId ≠ some jobId) :
    (writes.foldl Write.apply s).traces jobId = s.traces jobId := by
  have silent : (writes.filterMap Write.audit?).filter (fun event => decide (event.jobId = jobId)) = [] :=
    List.filter_eq_nil_iff.mpr fun event member => by simpa using events event member
  have unlisted : (writes.filterMap Write.deadLetter?).filter
      (fun entry => decide (entry.jobId = some jobId)) = [] :=
    List.filter_eq_nil_iff.mpr fun entry member => by simpa using entries entry member
  have unresolved : (writes.filterMap Write.result?).reverse.find?
      (fun row => decide (row.jobId = jobId)) = none := by
    apply List.find?_eq_none.mpr
    intro row member
    simpa using results row (List.mem_reverse.mp member)
  simp only [Store.traces, entitled.result?, entitled.eventsOf, entitled.entriesOf, silent, unlisted,
    unresolved, List.append_nil, Option.none_or]

end Entitled

theorem foldl_notified (s : Store) (writes : List Write) :
    (writes.foldl Write.apply s).notified = s.notified ++ writes.filterMap Write.notification? := by
  induction writes generalizing s with
  | nil => exact (List.append_nil _).symm
  | cons write rest ih =>
    rw [List.foldl_cons, ih, Write.apply_notified, List.append_assoc]
    cases wrote : write.notification? with
    | none => rw [List.filterMap_cons_none wrote]; rfl
    | some row => rw [List.filterMap_cons_some wrote]; rfl

@[simp] theorem foldl_jobs_next (s : Store) (writes : List Write) :
    (writes.foldl Write.apply s).jobs.next = s.jobs.next := by
  induction writes generalizing s with
  | nil => rfl
  | cons write rest ih => rw [List.foldl_cons, ih, Write.apply_jobs_next]

@[simp] theorem foldl_audits_next (s : Store) (writes : List Write) :
    (writes.foldl Write.apply s).audits.next = s.audits.next := by
  induction writes generalizing s with
  | nil => rfl
  | cons write rest ih => rw [List.foldl_cons, ih, Write.apply_audits_next]

@[simp] theorem foldl_deadLetters_next (s : Store) (writes : List Write) :
    (writes.foldl Write.apply s).deadLetters.next = s.deadLetters.next := by
  induction writes generalizing s with
  | nil => rfl
  | cons write rest ih => rw [List.foldl_cons, ih, Write.apply_deadLetters_next]

@[simp] theorem foldl_history (s : Store) (writes : List Write) :
    (writes.foldl Write.apply s).history = s.history := by
  induction writes generalizing s with
  | nil => rfl
  | cons write rest ih => rw [List.foldl_cons, ih, Write.apply_history]

/-- Writes to other tables leave the jobs alone. -/
theorem foldl_jobs_of_none {s : Store} {writes : List Write}
    (silent : writes.filterMap Write.job? = []) : (writes.foldl Write.apply s).jobs = s.jobs := by
  induction writes generalizing s with
  | nil => rfl
  | cons write rest ih =>
    cases write with
    | putJob row =>
      rw [List.filterMap_cons_some (show Write.job? (.putJob row) = some row from rfl)] at silent
      cases silent
    | insertJob row =>
      rw [List.filterMap_cons_some (show Write.job? (.insertJob row) = some row from rfl)] at silent
      cases silent
    | _ => exact ih silent

/-- The later store has whatever the locks hold exclusively as it was, and its sequences went on. -/
structure Agree (locks : LockSet Resource) (s later : Store) : Prop where
  jobs : ∀ id, locks.Exclusive (.job id) → later.job? id = s.job? id
  companies : ∀ id, locks.Exclusive (.company id) → later.company? id = s.company? id
  results : ∀ id, locks.Exclusive (.resultOf id) → later.results.find? id = s.results.find? id
  audits : ∀ id, locks.Exclusive (.event id) → later.audits.toTable.find? id = s.audits.toTable.find? id
  deadLetters : ∀ id, locks.Exclusive (.deadLetter id) →
    later.deadLetters.toTable.find? id = s.deadLetters.toTable.find? id
  jobsNext : s.jobs.next ≤ later.jobs.next
  auditsNext : s.audits.next ≤ later.audits.next
  deadLettersNext : s.deadLetters.next ≤ later.deadLetters.next

namespace Agree

variable {locks : LockSet Resource} {s later : Store} {write : Write}

theorem entitled (agree : Agree locks s later) (entitled : write.Entitled locks s) :
    write.Entitled locks later := by
  cases write with
  | putJob row => exact ⟨entitled.1, by rw [agree.jobs _ entitled.1]; exact entitled.2⟩
  | insertJob row =>
    obtain ⟨held, drawn, absent, shared⟩ := entitled
    exact ⟨held, Nat.lt_of_lt_of_le drawn agree.jobsNext, (agree.jobs _ held).trans absent, shared⟩
  | insertResult row => exact ⟨entitled.1, (agree.results _ entitled.1).trans entitled.2⟩
  | insertAudit row =>
    obtain ⟨held, drawn, absent, shared⟩ := entitled
    exact ⟨held, Nat.lt_of_lt_of_le drawn agree.auditsNext, (agree.audits _ held).trans absent, shared⟩
  | insertDeadLetter row =>
    obtain ⟨held, drawn, absent⟩ := entitled
    exact ⟨held, Nat.lt_of_lt_of_le drawn agree.deadLettersNext, (agree.deadLetters _ held).trans absent⟩
  | putCompany row => exact ⟨entitled.1, by rw [agree.companies _ entitled.1]; exact entitled.2⟩
  | notify notification => trivial

/-- Entitled writes made on both sides keep the stores in agreement. -/
theorem apply (agree : Agree locks s later) (entitled : write.Entitled locks s) :
    Agree locks (write.apply s) (write.apply later) where
  jobs id held := by
    rw [Write.apply_job? entitled, Write.apply_job? (agree.entitled entitled), agree.jobs id held]
  companies id held := by
    rw [Write.apply_company? entitled, Write.apply_company? (agree.entitled entitled),
      agree.companies id held]
  results id held := by
    rw [Write.apply_result? entitled, Write.apply_result? (agree.entitled entitled), agree.results id held]
  audits id held := by
    rw [Write.apply_event? entitled, Write.apply_event? (agree.entitled entitled), agree.audits id held]
  deadLetters id held := by
    rw [Write.apply_deadLetter? entitled, Write.apply_deadLetter? (agree.entitled entitled),
      agree.deadLetters id held]
  jobsNext := by simpa using agree.jobsNext
  auditsNext := by simpa using agree.auditsNext
  deadLettersNext := by simpa using agree.deadLettersNext

theorem refl (locks : LockSet Resource) (s : Store) : Agree locks s s :=
  ⟨fun _ _ => rfl, fun _ _ => rfl, fun _ _ => rfl, fun _ _ => rfl, fun _ _ => rfl, le_rfl, le_rfl, le_rfl⟩

theorem log (locks : LockSet Resource) (s : Store) (pid : ℕ) (label : Label) :
    Agree locks s (s.log pid label) :=
  ⟨fun _ _ => rfl, fun _ _ => rfl, fun _ _ => rfl, fun _ _ => rfl, fun _ _ => rfl, le_rfl, le_rfl, le_rfl⟩

theorem advance (locks : LockSet Resource) (s : Store) (clock : Micros) :
    Agree locks s { s with clock } :=
  ⟨fun _ _ => rfl, fun _ _ => rfl, fun _ _ => rfl, fun _ _ => rfl, fun _ _ => rfl, le_rfl, le_rfl, le_rfl⟩

theorem trans {middle : Store} (first : Agree locks s middle) (second : Agree locks middle later) :
    Agree locks s later where
  jobs id held := (second.jobs id held).trans (first.jobs id held)
  companies id held := (second.companies id held).trans (first.companies id held)
  results id held := (second.results id held).trans (first.results id held)
  audits id held := (second.audits id held).trans (first.audits id held)
  deadLetters id held := (second.deadLetters id held).trans (first.deadLetters id held)
  jobsNext := first.jobsNext.trans second.jobsNext
  auditsNext := first.auditsNext.trans second.auditsNext
  deadLettersNext := first.deadLettersNext.trans second.deadLettersNext

end Agree

namespace Entitled

variable {locks more : LockSet Resource} {s later : Store} {writes : List Write}

/-- What others do cannot take a transaction's entitlement away. -/
theorem agree (entitled : Entitled locks s writes) (agree : Agree locks s later) :
    Entitled locks later writes := by
  induction writes generalizing s later with
  | nil => trivial
  | cons write rest ih =>
    exact ⟨agree.entitled entitled.1, ih entitled.2 (agree.apply entitled.1)⟩

theorem mono (entitled : Entitled locks s writes) (sub : locks ⊆ more) : Entitled more s writes := by
  induction writes generalizing s with
  | nil => trivial
  | cons write rest ih =>
    refine ⟨?_, ih entitled.2⟩
    have head := entitled.1
    cases write with
    | putJob row => exact ⟨head.1.mono sub, head.2⟩
    | insertJob row => exact ⟨head.1.mono sub, head.2.1, head.2.2.1, sub head.2.2.2⟩
    | insertResult row => exact ⟨head.1.mono sub, head.2⟩
    | insertAudit row => exact ⟨head.1.mono sub, head.2.1, head.2.2.1, sub head.2.2.2⟩
    | insertDeadLetter row => exact ⟨head.1.mono sub, head.2⟩
    | putCompany row => exact ⟨head.1.mono sub, head.2⟩
    | notify notification => trivial

end Entitled

private theorem Agree.of_write {mine theirs : LockSet Resource} {s : Store} {write : Write}
    (apart : mine.compatible theirs = true) (entitled : write.Entitled mine s) :
    Agree theirs s (write.apply s) := by
  have free : ∀ {resource : Resource}, theirs.Exclusive resource → ¬ mine.Exclusive resource :=
    fun held mineHeld => mineHeld.not_exclusive apart held
  refine ⟨?_, ?_, ?_, ?_, ?_, by simp, by simp, by simp⟩
  · intro id held
    rw [Write.apply_job? entitled]
    cases write with
    | putJob row =>
      have distinct : row.id ≠ id := fun same => free (same ▸ held) entitled.1
      simp [Write.job?, Option.filter_some, distinct]
    | insertJob row =>
      have distinct : row.id ≠ id := fun same => free (same ▸ held) entitled.1
      simp [Write.job?, Option.filter_some, distinct]
    | _ => rfl
  · intro id held
    rw [Write.apply_company? entitled]
    cases write with
    | putCompany row =>
      have distinct : row.id ≠ id := fun same => free (same ▸ held) entitled.1
      simp [Write.company?, Option.filter_some, distinct]
    | _ => rfl
  · intro id held
    rw [Write.apply_result? entitled]
    cases write with
    | insertResult row =>
      have distinct : row.jobId ≠ id := fun same => free (same ▸ held) entitled.1
      simp [Write.result?, Option.filter_some, distinct]
    | _ => rfl
  · intro id held
    rw [Write.apply_event? entitled]
    cases write with
    | insertAudit row =>
      have distinct : row.id ≠ id := fun same => free (same ▸ held) entitled.1
      simp [Write.audit?, Option.filter_some, distinct]
    | _ => rfl
  · intro id held
    rw [Write.apply_deadLetter? entitled]
    cases write with
    | insertDeadLetter row =>
      have distinct : row.id ≠ id := fun same => free (same ▸ held) entitled.1
      simp [Write.deadLetter?, Option.filter_some, distinct]
    | _ => rfl

/-- Entitled writes leave whatever another open transaction holds exclusively as it was. -/
theorem Entitled.agree_theirs {mine theirs : LockSet Resource} {s : Store} {writes : List Write}
    (apart : mine.compatible theirs = true) (entitled : Entitled mine s writes) :
    Agree theirs s (writes.foldl Write.apply s) := by
  induction writes generalizing s with
  | nil => exact .refl theirs s
  | cons write rest ih => exact (Agree.of_write apart entitled.1).trans (ih entitled.2)

end JobRelay.Model
