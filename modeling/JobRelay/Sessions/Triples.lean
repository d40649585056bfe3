import JobRelay.Sessions.Contract

/-! # Triples for programs between transactions

An assertion is what a process knows of the committed state whatever the others do. `Runs` is a
triple over such assertions for a program that starts and ends with no open transaction: one
assertion holds before it, one after a return, one after an exception. The rules follow the
constructors of programs, and `Runs.transaction` reduces a transaction block to its body.
-/

namespace JobRelay.Sessions

variable {I M C D S T Q : Type} {Ans : Q → Type} {X E L A B R : Type}

/-- What a process knows of the committed state, stable under the others' changes. -/
structure Assertion (contract : Contract I S T Q) (pid : I) where
  holds : S → Prop
  stable : ∀ {tx before after}, contract.Rely pid tx before after → holds before → holds after

section Triples

variable (driver : Driver I M C D S T Q Ans X E L R) (contract : Contract I S T Q) (pid : I)

/-- No transaction is open, and the assertion of the result holds. -/
def Contract.Settled {contract : Contract I S T Q} {pid : I} (returned : A → Assertion contract pid)
    (raised : Assertion contract pid) (result : Except E A) (tx : Option T) (state : S) : Prop :=
  tx = none ∧
    match result with
    | .ok value => (returned value).holds state
    | .error _ => raised.holds state

/-- From `before`, the program ends in `returned` or raises in `raised`. -/
def Runs (before : Assertion contract pid) (program : Program Q Ans X E L A)
    (returned : A → Assertion contract pid) (raised : Assertion contract pid) : Prop :=
  ∀ state, contract.Inv state → before.holds state →
    Safe driver contract pid (Contract.Settled returned raised) program none state

/-- What the body of a transaction block owes to the commit or the rollback that follows it. -/
def Driver.Ends (committed : A → L) (aborted : E → L) (returned : A → Assertion contract pid)
    (raised : Assertion contract pid) : Except E A → Option T → S → Prop
  | .ok value, tx, state => ∃ opened, tx = some opened ∧
      contract.Guar pid tx state (driver.commit pid (committed value) opened state) ∧
      (returned value).holds (driver.commit pid (committed value) opened state) ∧
      raised.holds (driver.commit pid (committed value) opened state) ∧ raised.holds state
  | .error error, tx, state =>
      (∀ opened, tx = some opened →
        contract.Guar pid tx state (driver.publish pid (aborted error) state)) ∧
      raised.holds (tx.elim state fun _ => driver.publish pid (aborted error) state)

end Triples

variable {driver : Driver I M C D S T Q Ans X E L R} {contract : Contract I S T Q} {pid : I}
  {before after raised : Assertion contract pid} {returned : A → Assertion contract pid}
  {program : Program Q Ans X E L A}

/-- A postcondition holds from the end of the program on. -/
theorem Safe.settle {post : Except E A → Option T → S → Prop} {tx : Option T} {state : S}
    (lawful : contract.Lawful driver) (safe : Safe driver contract pid post program tx state) :
    Safe driver contract pid
      (fun result tx state => ∀ now, contract.Rely pid tx state now → contract.Sees tx now → post result tx now)
      program tx state := by
  induction program generalizing tx state with
  | ret value => exact fun now moved _ last later => safe last (lawful.rely_trans moved later)
  | raise error => exact fun now moved _ last later => safe last (lawful.rely_trans moved later)
  | query q next ih =>
    intro now moved sees
    obtain ⟨pre, answered, failed⟩ := safe now moved sees
    refine ⟨pre, ?_, fun error fails => ih _ (failed error fails)⟩
    intro others choice answer after opened ran apart
    obtain ⟨guar, rest⟩ := answered others choice answer after opened ran apart
    exact ⟨guar, ih _ rest⟩
  | commit label next ih =>
    intro now moved sees
    obtain ⟨guar, committed, lost⟩ := safe now moved sees
    exact ⟨guar, ih _ committed, fun error transient =>
      ⟨ih _ (lost error transient).1, ih _ (lost error transient).2⟩⟩
  | rollback label next ih =>
    intro now moved sees
    exact ⟨(safe now moved sees).1, ih (safe now moved sees).2⟩
  | publish label next ih =>
    intro now moved sees
    exact ⟨(safe now moved sees).1, ih (safe now moved sees).2⟩
  | await next ih => exact fun choice => ih choice (safe choice)

private theorem safe_ret {value : A} {state : S} (holds : (returned value).holds state) :
    Safe driver contract pid (Contract.Settled returned raised)
      (.ret value : Program Q Ans X E L A) none state :=
  fun _ moved _ => ⟨rfl, (returned value).stable moved holds⟩

private theorem safe_raise {error : E} {state : S} (holds : raised.holds state) :
    Safe driver contract pid (Contract.Settled returned raised)
      (.raise error : Program Q Ans X E L A) none state :=
  fun _ moved _ => ⟨rfl, raised.stable moved holds⟩

namespace Runs

theorem ret {value : A} (implies : ∀ state, contract.Inv state → before.holds state →
    (returned value).holds state) :
    Runs driver contract pid before (.ret value : Program Q Ans X E L A) returned raised :=
  fun state inv holds => safe_ret (implies state inv holds)

theorem raise {error : E} (implies : ∀ state, before.holds state → raised.holds state) :
    Runs driver contract pid before (.raise error : Program Q Ans X E L A) returned raised :=
  fun state _ holds => safe_raise (implies state holds)

theorem await {next : X → Program Q Ans X E L A}
    (runs : ∀ choice, Runs driver contract pid before (next choice) returned raised) :
    Runs driver contract pid before (.await next) returned raised :=
  fun state inv holds choice => runs choice state inv holds

theorem weaken {stronger : A → Assertion contract pid} {left : Assertion contract pid}
    (runs : Runs driver contract pid after program stronger left)
    (entails : ∀ state, before.holds state → after.holds state)
    (returns : ∀ value state, (stronger value).holds state → (returned value).holds state)
    (raises : ∀ state, left.holds state → raised.holds state) :
    Runs driver contract pid before program returned raised := by
  intro state inv holds
  refine (runs state inv (entails state holds)).weaken fun result tx now _ settled => ⟨settled.1, ?_⟩
  cases result with
  | ok value => exact returns value now settled.2
  | error error => exact raises now settled.2

theorem bind {next : A → Program Q Ans X E L B} {goal : B → Assertion contract pid}
    (lawful : contract.Lawful driver) (runs : Runs driver contract pid before program returned raised)
    (rest : ∀ value, Runs driver contract pid (returned value) (next value) goal raised) :
    Runs driver contract pid before (program.bind next) goal raised := by
  intro state inv holds
  refine (runs state inv holds).bind lawful ?_ ?_
  · rintro value tx now sees ⟨rfl, settled⟩
    exact rest value now sees.1 settled
  · rintro error tx now _ ⟨rfl, settled⟩
    exact ⟨rfl, settled⟩

theorem handle {handler : E → Program Q Ans X E L A} {left : Assertion contract pid}
    (lawful : contract.Lawful driver) (runs : Runs driver contract pid before program returned left)
    (rest : ∀ error, Runs driver contract pid left (handler error) returned raised) :
    Runs driver contract pid before (program.handle handler) returned raised := by
  intro state inv holds
  refine (runs state inv holds).handle lawful ?_ ?_
  · rintro value tx now _ ⟨rfl, settled⟩
    exact ⟨rfl, settled⟩
  · rintro error tx now sees ⟨rfl, settled⟩
    exact rest error now sees.1 settled

theorem publish {label : L} {next : Program Q Ans X E L A}
    (guar : ∀ state, contract.Inv state → before.holds state →
      contract.Guar pid none state (driver.publish pid label state) ∧
        before.holds (driver.publish pid label state))
    (lawful : contract.Lawful driver) (runs : Runs driver contract pid before next returned raised) :
    Runs driver contract pid before (.publish label next) returned raised := by
  intro state inv holds now moved sees
  obtain ⟨changes, kept⟩ := guar now sees.1 (before.stable moved holds)
  exact ⟨changes, runs _ (lawful.guar_inv sees.1 changes) kept⟩

/-- A transaction block runs if its body ends as the commit or the rollback needs it. -/
theorem transaction {committed : A → L} {aborted : E → L} (lawful : contract.Lawful driver)
    (body : ∀ state, contract.Inv state → before.holds state →
      Safe driver contract pid (driver.Ends contract pid committed aborted returned raised) program none state) :
    Runs driver contract pid before (Program.transaction program committed aborted) returned raised := by
  intro state inv holds
  -- once handled, the body ends in a value that can be committed, or has rolled back
  have handled : Safe driver contract pid
      (fun result tx state => ∀ now, contract.Rely pid tx state now → contract.Sees tx now →
        match result with
        | .ok value => driver.Ends contract pid committed aborted returned raised (.ok value) tx now
        | .error _ => tx = none ∧ raised.holds now)
      (program.handle fun error => .rollback (aborted error) (.raise error)) none state := by
    refine ((body state inv holds).settle lawful).handle lawful ?_ ?_
    · exact fun value tx now _ ends => ends
    · intro error tx now _ ends later moved sees
      obtain ⟨guar, left⟩ := ends later moved sees
      exact ⟨guar, fun last further _ final done _ =>
        ⟨rfl, raised.stable done (raised.stable further left)⟩⟩
  refine handled.bind lawful ?_ ?_
  · intro value tx now _ ends later moved sees
    obtain ⟨opened, rfl, guar, kept, lost, unmoved⟩ := ends later moved sees
    refine ⟨fun _ same => by cases same; exact guar, safe_ret kept, fun error _ =>
      ⟨safe_raise lost, safe_raise unmoved⟩⟩
  · intro error tx now sees ends
    obtain ⟨rfl, left⟩ := ends now (lawful.rely_refl ..) sees
    exact ⟨rfl, left⟩

/-- A call that leaves its process idle meets its obligation. -/
theorem done {state : S} (runs : Runs driver contract pid before program returned raised)
    (inv : contract.Inv state) (holds : before.holds state)
    (idle : ∀ value state, (returned value).holds state → contract.Idle pid state) :
    Safe driver contract pid (contract.Done pid) program none state := by
  refine (runs state inv holds).weaken fun result tx now _ settled => ⟨settled.1, ?_⟩
  rintro ⟨value, rfl⟩
  exact idle value now settled.2

end Runs

end JobRelay.Sessions
