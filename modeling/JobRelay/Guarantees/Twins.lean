import JobRelay.Guarantees.Bystanders

/-! # One request on two databases that look alike

A request of a company is executed alone on two databases that look alike to it, each time under the ids that its
jobs have there. Statement by statement both executions are answered alike or fail alike, so they end alike.
-/

namespace JobRelay.Guarantees

open Model Sessions Soundness

variable {companyId : ℕ} {f g : ℕ → ℕ} {s t : Store} {tx tx' : Tx}

/-- Two open transactions see databases that look alike to the company, and the committed ones look alike too. -/
structure Twins (companyId : ℕ) (first f : ℕ → ℕ) (tx : Tx) (s : Store) (tx' : Tx) (t : Store) : Prop where
  opened : tx.Open s
  opened' : tx'.Open t
  now : tx'.now = tx.now
  base : Mirrors companyId first s t
  view : Mirrors companyId f (tx.view s) (tx'.view t)
  kept : WellKept (tx.view s)
  kept' : WellKept (tx'.view t)

section Statements

variable {first : ℕ → ℕ} {choice : Choice}

/-- An error that names its job by another id. -/
def renamedError (f : ℕ → ℕ) : Exc → Exc
  | .jobNotFound jobId => .jobNotFound (f jobId)
  | .resultNotFound jobId => .resultNotFound (f jobId)
  | error => error

/-- Both executions raise one error, and it names no job. -/
def Alike (error error' : Exc) : Prop := error' = error ∧ ∀ f, renamedError f error = error

/-- Both statements are answered and `P` relates the answers, or both fail with one error. -/
abbrev Concur {α β : Type} (P : α → Tx → Store → β → Tx → Store → Prop) : Outcome α → Outcome β → Prop :=
  Program.Both (fun found found' => P found.1 found.2.2 found.2.1 found'.1 found'.2.2 found'.2.1) Alike

/-- Drawing from the sequences keeps two transactions alike. -/
theorem Twins.drawn {after after' : Store} (twins : Twins companyId first f tx s tx' t) (drawn : Drawn s after)
    (drawn' : Drawn t after') : Twins companyId first f tx after tx' after' where
  opened := twins.opened.drawn drawn
  opened' := twins.opened'.drawn drawn'
  now := twins.now
  base := twins.base.of_contents (by cases drawn <;> rfl) (by cases drawn' <;> rfl)
  view := twins.view.of_contents (contents_view twins.opened drawn) (contents_view twins.opened' drawn')
  kept := twins.kept.of_contents (contents_view twins.opened drawn)
  kept' := twins.kept'.of_contents (contents_view twins.opened' drawn')

/-- So does a lock. -/
theorem Twins.hold (twins : Twins companyId first f tx s tx' t) (resource : Resource) (mode : LockMode) :
    Twins companyId first f (tx.hold resource mode) s (tx'.hold resource mode) t :=
  { twins with opened := twins.opened.hold _ _, opened' := twins.opened'.hold _ _ }

/-- So do locks and proper writes that keep what they see alike. -/
theorem Twins.add {held held' : Tx} {write write' : Write} (twins : Twins companyId first f tx s tx' t)
    (opened : (held.add write).Open s) (opened' : (held'.add write').Open t) (writes : held.writes = tx.writes)
    (writes' : held'.writes = tx'.writes) (now : held.now = tx.now) (now' : held'.now = tx'.now)
    (proper : Proper (tx.view s) write) (proper' : Proper (tx'.view t) write')
    (view : write.Entitled held.locks (tx.view s) → write'.Entitled held'.locks (tx'.view t) →
      Mirrors companyId g (write.apply (tx.view s)) (write'.apply (tx'.view t))) :
    Twins companyId first g (held.add write) s (held'.add write') t := by
  have same : held.view s = tx.view s := by rw [Tx.view, writes, Tx.view]
  have same' : held'.view t = tx'.view t := by rw [Tx.view, writes', Tx.view]
  have entitled := entitled_last opened
  have entitled' := entitled_last opened'
  rw [same] at entitled
  rw [same'] at entitled'
  constructor
  · exact opened
  · exact opened'
  · exact (now'.trans twins.now).trans now.symm
  · exact twins.base
  · rw [Tx.view_add, Tx.view_add, same, same']
    exact view entitled entitled'
  · rw [Tx.view_add, same]
    exact twins.kept.apply entitled proper
  · rw [Tx.view_add, same']
    exact twins.kept'.apply entitled' proper'

section Audit

variable {id : ℕ} {eventType : EventType} {actor : String} {traceId : Option String} {ignoreConflict : Bool}

end Audit

end Statements

section Execution

variable {first : ℕ → ℕ}

/-- Where both executions stand: they look alike, and `F` holds of the rows that they see. -/
def Abreast (companyId : ℕ) (first f : ℕ → ℕ) (F : Store → Store → Prop) (here there : Option Tx × Store) : Prop :=
  Twins companyId first f (here.1.getD (Tx.start here.2)) here.2 (there.1.getD (Tx.start there.2)) there.2 ∧
    F ((here.1.getD (Tx.start here.2)).view here.2) ((there.1.getD (Tx.start there.2)).view there.2)

/-- Both executions raised, and what is committed looks alike still. -/
def Failed (companyId : ℕ) (first : ℕ → ℕ) (R : Exc → Exc → Prop) (error error' : Exc) (here there : Option Tx × Store) :
    Prop :=
  R error error' ∧ Mirrors companyId first here.2 there.2

/-- The errors of two requests that name the ids `id` and `id'`. -/
def SameError (id id' : ℕ) (error error' : Exc) : Prop :=
  Alike error error' ∨ (error = .jobNotFound id ∧ error' = .jobNotFound id') ∨
    (error = .resultNotFound id ∧ error' = .resultNotFound id')

variable (companyId first) (pid : ℕ) (choice : Choice) (id id' : ℕ)

/-- Two programs in lockstep that both return, related by `P`, or both raise the same. What is returned decides under
which ids the databases look alike then, and what holds of the rows. -/
def Paces {α β : Type} (f : ℕ → ℕ) (F : Store → Store → Prop) (program : Prog α) (program' : Prog β) (g : α → ℕ → ℕ)
    (G : α → Store → Store → Prop) (P : α → β → Prop) : Prop :=
  Program.Paired postgres pid choice (Abreast companyId first f F) program program'
    (fun value value' here there => P value value' ∧ Abreast companyId first (g value) (G value) here there)
    (Failed companyId first (SameError id id'))

variable {companyId first pid choice id id'} {F : Store → Store → Prop} {α β γ δ : Type}

namespace Paces

variable {h : α → ℕ → ℕ} {G : α → Store → Store → Prop}

theorem ret {value : α} {value' : β} {P : α → β → Prop} (related : P value value') (same : h value = f)
    (entails : ∀ {u v}, F u v → G value u v) :
    Paces companyId first pid choice id id' f F (.ret value) (.ret value') h G P :=
  Program.Paired.ret fun _ _ abreast => ⟨related, same.symm ▸ abreast.1, entails abreast.2⟩

theorem raise {error error' : Exc} {P : α → β → Prop} (same : SameError id id' error error') :
    Paces companyId first pid choice id id' f F (.raise error) (.raise error') h G P :=
  Program.Paired.raise fun _ _ abreast => ⟨same, abreast.1.base⟩

theorem bind {program : Prog α} {program' : Prog β} {next : α → Prog γ} {next' : β → Prog δ} {P : α → β → Prop}
    {k : γ → ℕ → ℕ} {H : γ → Store → Store → Prop} {P' : γ → δ → Prop}
    (head : Paces companyId first pid choice id id' f F program program' h G P)
    (rest : ∀ value value', P value value' →
      Paces companyId first pid choice id id' (h value) (G value) (next value) (next' value') k H P') :
    Paces companyId first pid choice id id' f F (program.bind next) (program'.bind next') k H P' :=
  Program.Paired.bind head fun value value' => Program.Paired.of_and (rest value value')

/-- What the executions stand on may be weakened. -/
theorem weaken {program : Prog α} {program' : Prog β} {P : α → β → Prop} {F' : Store → Store → Prop}
    (paces : Paces companyId first pid choice id id' f F program program' h G P)
    (entails : ∀ {u v}, F' u v → F u v) :
    Paces companyId first pid choice id id' f F' program program' h G P :=
  Program.Paired.weaken paces (fun _ _ abreast => ⟨abreast.1, entails abreast.2⟩) (fun _ _ _ _ holds => holds)
    fun _ _ _ _ holds => holds

/-- Two statements that agree. -/
theorem exec {q q' : Sql} {h : q.Answer → ℕ → ℕ} {G : q.Answer → Store → Store → Prop} {P : q.Answer → q'.Answer → Prop}
    (agrees : ∀ {tx s tx' t}, Twins companyId first f tx s tx' t → F (tx.view s) (tx'.view t) →
      Concur (fun answer tx s answer' tx' t => P answer answer' ∧ Twins companyId first (h answer) tx s tx' t ∧
        G answer (tx.view s) (tx'.view t)) (q.answer s [] choice tx) (q'.answer t [] choice tx')) :
    Paces companyId first pid choice id id' f F (Model.exec q) (Model.exec q') h G P := by
  refine Program.Paired.exec fun here there abreast => (agrees abreast.1 abreast.2).imp (fun _ _ related => related) ?_
  exact fun error error' alike => ⟨.inl alike, abreast.1.base⟩

end Paces

section Reading

end Reading

section Changing

variable {actor : String} {traceId : Option String}

end Changing

section Creating

variable {n n' : ℕ} {kind : String} {traceId : Option String} {key : String} {submittedBy : Option String}

/-- Under which ids the databases look alike after a job was created, or not. -/
def after (f : ℕ → ℕ) (n n' : ℕ) (created : Bool) : ℕ → ℕ := if created then Function.update f n n' else f

end Creating

end Execution

end JobRelay.Guarantees
