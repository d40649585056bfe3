import JobRelay.Soundness.Interference
import JobRelay.Sessions.Triples

/-! # Transaction bodies, statement by statement

What a process knows of its leases, and the rules by which the body of a transaction is checked: one
rule for a statement, which others may precede, and one for each way a body ends. `Since` carries what
stays true from a point of the transaction on.
-/

namespace JobRelay.Soundness

open Model Sessions

variable {admits : Request → Bool} {origin : Store} {pid : ℕ}

/-- Every job leased to the process is the one that it claimed, in the same attempt. -/
def Held (pid : ℕ) (claim : Claim) (s : Store) : Prop :=
  claim.workerId = some pid ∧ ∀ jobId row, s.job? jobId = some row → row.workerId = some pid →
    row.id = claim.id ∧ row.attempts = claim.attempts ∧ row.companyId = claim.companyId

section Assertions

variable (admits origin pid)

def idle : Assertion (contract admits origin) pid where
  holds := Idle pid
  stable moved idle jobId row' stored mine := idle jobId row' (moved.fenced jobId row' stored mine) mine

def held (claim : Claim) : Assertion (contract admits origin) pid where
  holds := Held pid claim
  stable moved held :=
    ⟨held.1, fun jobId row' stored mine => held.2 jobId row' (moved.fenced jobId row' stored mine) mine⟩

def anything : Assertion (contract admits origin) pid where
  holds _ := True
  stable _ _ := trivial

end Assertions

theorem Idle.held {s : Store} {claim : Claim} (idle : Idle pid s) (mine : claim.workerId = some pid) :
    Held pid claim s := ⟨mine, fun jobId row stored leased => absurd leased (idle jobId row stored)⟩

/-- Where an open transaction stands, and how others have moved the store since a point of it. -/
structure Since {admits : Request → Bool} {origin : Store} {pid : ℕ}
    (raised : Assertion (contract admits origin) pid) (first : Tx) (base : Store) (tx : Tx) (s : Store) :
    Prop where
  valid : Valid admits origin s
  opened : tx.Open s
  raises : raised.holds s
  locks : first.locks ⊆ tx.locks
  now : tx.now = first.now
  moved : Rely pid (some first) base s

namespace Since

variable {raised : Assertion (contract admits origin) pid} {first tx : Tx} {base s : Store}

/-- A later point may serve as the first. -/
theorem rebase (since : Since raised first base tx s) : Since raised tx s tx s :=
  ⟨since.valid, since.opened, since.raises, List.Subset.refl _, rfl, .refl ..⟩

theorem job? (since : Since raised first base tx s) {jobId : ℕ}
    (locked : first.locks.Exclusive (.job jobId)) : s.job? jobId = base.job? jobId :=
  (since.moved.agree first rfl).jobs jobId locked

theorem company? (since : Since raised first base tx s) {companyId : ℕ}
    (locked : (Resource.company companyId, LockMode.update) ∈ first.locks) :
    s.company? companyId = base.company? companyId :=
  (since.moved.agree first rfl).companies companyId (.of_update locked)

/-- Under the lock of a company, an unused key stays unused. -/
theorem unused (since : Since raised first base tx s) {companyId : ℕ} {key : String}
    (locked : (Resource.company companyId, LockMode.update) ∈ first.locks)
    (unused : ∀ row ∈ base.jobs.rows, row.companyId = companyId → row.idempotencyKey ≠ some key) :
    ∀ row ∈ s.jobs.rows, row.companyId = companyId → row.idempotencyKey ≠ some key := by
  intro row' member owner taken
  obtain ⟨row, stored, owned, key⟩ :=
    since.moved.vacant first rfl companyId locked row'.id row' (Store.mem_jobs.mp member) owner
  exact unused row (Table.find?_mem stored) owned (key.trans taken)

/-- Under the lock of a company, its active jobs grow no further. -/
theorem activeCount_le (since : Since raised first base tx s) {companyId : ℕ}
    (locked : (Resource.company companyId, LockMode.update) ∈ first.locks) :
    s.activeCount companyId ≤ base.activeCount companyId :=
  since.moved.admission first rfl companyId locked

/-- A job keeps its identity, whoever holds it. -/
theorem identity (since : Since raised first base tx s) {jobId : ℕ} {row : Job}
    (stored : base.job? jobId = some row) : ∃ row', s.job? jobId = some row' ∧
      row'.companyId = row.companyId ∧ row'.kind = row.kind ∧ row'.idempotencyKey = row.idempotencyKey := by
  obtain ⟨row', stored', company, kind, key, _⟩ := since.moved.identity jobId row stored
  exact ⟨row', stored', company, kind, key⟩

end Since

theorem Rely.drawn {tx : Option Tx} {s s' : Store} (drawn : Drawn s s') : Rely pid tx s s' where
  agree opened _ := drawn.agree opened.locks
  identity jobId row stored := ⟨row, by cases drawn <;> exact stored, rfl, rfl, rfl, le_rfl⟩
  fenced jobId row' stored _ := by cases drawn <;> exact stored
  vacant _ _ _ _ jobId row' stored owner := ⟨row', by cases drawn <;> exact stored, owner, rfl⟩
  admission _ _ companyId _ := by cases drawn <;> exact le_rfl

/-- Locks only add to what a transaction may rely on. -/
theorem Rely.of_more {first tx : Tx} {s s' : Store} (moved : Rely pid (some tx) s s')
    (sub : first.locks ⊆ tx.locks) : Rely pid (some first) s s' where
  agree opened same := by
    cases same
    have agree := moved.agree tx rfl
    exact ⟨fun id held => agree.jobs id (held.mono sub), fun id held => agree.companies id (held.mono sub),
      fun id held => agree.results id (held.mono sub), fun id held => agree.audits id (held.mono sub),
      fun id held => agree.deadLetters id (held.mono sub), agree.jobsNext, agree.auditsNext,
      agree.deadLettersNext⟩
  identity := moved.identity
  fenced := moved.fenced
  vacant opened same companyId locked := by
    cases same
    exact moved.vacant tx rfl companyId (sub locked)
  admission opened same companyId locked := by
    cases same
    exact moved.admission tx rfl companyId (sub locked)

section Rules

variable {α β : Type} {committed : α → Label} {aborted : Exc → Label}
  {returned : α → Assertion (contract admits origin) pid} {raised : Assertion (contract admits origin) pid}
  {first tx : Tx} {base s : Store}

/-- The obligation of what is left of the body of a transaction. -/
def Body {α : Type} {admits : Request → Bool} {origin : Store} {pid : ℕ} (committed : α → Label)
    (aborted : Exc → Label) (returned : α → Assertion (contract admits origin) pid)
    (raised : Assertion (contract admits origin) pid) (program : Prog α) (tx : Tx) (s : Store) : Prop :=
  Safe (service admits) (contract admits origin) pid
    ((service admits).Ends (contract admits origin) pid committed aborted returned raised) program (some tx) s

/-- A statement: others come first, then its answer decides how the body goes on. -/
theorem Body.query {q : Sql} {next : Except Exc q.Answer → Prog α} (since : Since raised first base tx s)
    (pre : ∀ now, Since raised first base tx now → Pre q (some tx) now)
    (raises : ∀ error, next (.error error) = .raise error)
    (answered : ∀ now others choice answer after opened, Since raised first base tx now →
      q.answer now others choice tx = .ok (answer, after, opened) → Since raised first base opened after →
      Body committed aborted returned raised (next (.ok answer)) opened after) :
    Body committed aborted returned raised (.query q next) tx s := by
  intro now moved sees
  have here : Since raised first base tx now :=
    ⟨sees.1, sees.2 tx rfl, raised.stable moved since.raises, since.locks, since.now,
      since.moved.trans (moved.of_more since.locks)⟩
  refine ⟨pre now here, ?_, ?_⟩
  · intro others choice answer after opened ran _
    have keeps : Keeps now tx after opened := answer_keeps ran
    refine ⟨.drawn keeps.drawn, answered _ _ _ _ _ _ here ran ?_⟩
    exact ⟨here.valid.drawn keeps.drawn, keeps.opened here.opened,
      raised.stable (show Rely pid (some tx) _ _ from .drawn keeps.drawn) here.raises,
      List.Subset.trans here.locks keeps.locks, keeps.now.trans here.now, here.moved.trans (.drawn keeps.drawn)⟩
  · intro error _
    rw [raises]
    exact fun later further _ => ⟨fun _ same => (nomatch same), raised.stable further here.raises⟩

theorem Body.raise {error : Exc} (since : Since raised first base tx s)
    (facts : ∀ now, Since raised first base tx now → Aborted now tx (aborted error)) :
    Body committed aborted returned raised (.raise error) tx s := by
  intro now moved sees
  have here : Since raised first base tx now :=
    ⟨sees.1, sees.2 tx rfl, raised.stable moved since.raises, since.locks, since.now,
      since.moved.trans (moved.of_more since.locks)⟩
  refine ⟨fun opened same => ?_, raised.stable (Rely.log pid none _ _ _) here.raises⟩
  cases same
  exact .aborted (facts now here)

theorem Body.ret {value : α} (since : Since raised first base tx s)
    (facts : ∀ now, Since raised first base tx now → Commit admits pid tx now (committed value) ∧
      (returned value).holds (tx.view now) ∧ raised.holds (tx.view now)) :
    Body committed aborted returned raised (.ret value) tx s := by
  intro now moved sees
  have here : Since raised first base tx now :=
    ⟨sees.1, sees.2 tx rfl, raised.stable moved since.raises, since.locks, since.now,
      since.moved.trans (moved.of_more since.locks)⟩
  obtain ⟨commit, kept, lost⟩ := facts now here
  exact ⟨tx, rfl, .commit here.opened commit, (returned value).stable (Rely.log pid none _ _ _) kept,
    raised.stable (Rely.log pid none _ _ _) lost, here.raises⟩

/-- A body whose value is only renamed. -/
theorem Body.map {committed : β → Label} {returned : β → Assertion (contract admits origin) pid}
    {program : Prog α} (f : α → β)
    (safe : Body (fun value => committed (f value)) aborted (fun value => returned (f value)) raised
      program tx s) :
    Body committed aborted returned raised (Program.bind program fun value => .ret (f value)) tx s := by
  refine Safe.bind (contract_lawful admits origin) (Safe.settle (contract_lawful admits origin) safe) ?_ ?_
  · exact fun value tx now _ ends => ends
  · exact fun error tx now sees ends => ends now (.refl ..) sees

/-- A transaction block runs if its body does, from the snapshot that `BEGIN` takes. -/
theorem runs_connTransaction {before : Assertion (contract admits origin) pid} {body : Prog α}
    (raises : ∀ s, before.holds s → raised.holds s)
    (safe : ∀ tx s, Since raised tx s tx s → tx.writes = [] → before.holds s →
      Body committed aborted returned raised body tx s) :
    Runs (service admits) (contract admits origin) pid before (connTransaction body committed aborted)
      returned raised := by
  refine Runs.transaction (contract_lawful admits origin) fun s valid holds now moved sees => ?_
  have kept := before.stable moved holds
  refine ⟨trivial, ?_, ?_⟩
  · intro others choice answer after opened ran _
    cases ran
    exact ⟨.drawn .none, safe _ _ ⟨sees.1, trivial, raises _ kept, List.Subset.refl _, rfl, .refl ..⟩ rfl kept⟩
  · intro error _ later further _
    exact ⟨fun _ same => (nomatch same), raised.stable further (raises _ kept)⟩

end Rules

end JobRelay.Soundness
