import JobRelay.Sessions.Program

/-! # Programs executed alone, one at a time or in lockstep

`eval` executes a program as `run` does and keeps the transaction it leaves open. `Yields` is a triple for
one such execution. `Paired` executes two programs, each from its own state, and relates what they return or
raise: both return or both raise. The rules of both follow the way programs are put together.
-/

namespace JobRelay.Sessions

variable {I S T Q : Type} {Ans : Q → Type} {X E L A B C D : Type}

namespace Program

section Eval

variable (engine : Engine I S T Q Ans X E L) (pid : I) (choice : X)

/-- Execute a program alone, up to the transaction that it leaves open. -/
def eval : Program Q Ans X E L A → Option T → S → Except E A × Option T × S
  | .ret value, tx, state => (.ok value, tx, state)
  | .raise error, tx, state => (.error error, tx, state)
  | .query q next, tx, state =>
      match engine.answer q state [] choice (tx.getD (engine.start state)) with
      | .ok (answer, state, tx) => eval (next (.ok answer)) (some tx) state
      | .error error => eval (next (.error error)) none state
  | .commit label next, tx, state =>
      eval (next (.ok ())) none (tx.elim state fun tx => engine.commit pid label tx state)
  | .rollback label next, tx, state =>
      eval next none (tx.elim state fun _ => engine.publish pid label state)
  | .publish label next, tx, state => eval next tx (engine.publish pid label state)
  | .await next, tx, state => eval (next choice) tx state

theorem eval_bind (program : Program Q Ans X E L A) (next : A → Program Q Ans X E L B) (tx : Option T)
    (state : S) : eval engine pid choice (program.bind next) tx state =
      match eval engine pid choice program tx state with
      | (.ok value, tx, state) => eval engine pid choice (next value) tx state
      | (.error error, tx, state) => (.error error, tx, state) := by
  induction program generalizing tx state with
  | ret | raise => rfl
  | query q rest ih =>
    rw [bind, eval, eval]
    cases engine.answer q state [] choice (tx.getD (engine.start state)) with
    | ok found => exact ih _ _ _
    | error error => exact ih _ _ _
  | commit label rest ih => exact ih _ _ _
  | rollback label rest ih => exact ih _ _
  | publish label rest ih => exact ih _ _
  | await rest ih => exact ih _ _ _

theorem eval_handle (program : Program Q Ans X E L A) (handler : E → Program Q Ans X E L A) (tx : Option T)
    (state : S) : eval engine pid choice (program.handle handler) tx state =
      match eval engine pid choice program tx state with
      | (.ok value, tx, state) => (.ok value, tx, state)
      | (.error error, tx, state) => eval engine pid choice (handler error) tx state := by
  induction program generalizing tx state with
  | ret | raise => rfl
  | query q rest ih =>
    rw [handle, eval, eval]
    cases engine.answer q state [] choice (tx.getD (engine.start state)) with
    | ok found => exact ih _ _ _
    | error error => exact ih _ _ _
  | commit label rest ih => exact ih _ _ _
  | rollback label rest ih => exact ih _ _
  | publish label rest ih => exact ih _ _
  | await rest ih => exact ih _ _ _

theorem eval_exec (q : Q) (tx : Option T) (state : S) :
    eval engine pid choice (exec q : Program Q Ans X E L (Ans q)) tx state =
      match engine.answer q state [] choice (tx.getD (engine.start state)) with
      | .ok (answer, state, tx) => (.ok answer, some tx, state)
      | .error error => (.error error, none, state) := by
  rw [exec, eval]
  cases engine.answer q state [] choice (tx.getD (engine.start state)) with
  | ok found => rfl
  | error error => rfl

theorem eval_transaction (body : Program Q Ans X E L A) (committed : A → L) (aborted : E → L) (tx : Option T)
    (state : S) : eval engine pid choice (transaction body committed aborted) tx state =
      match eval engine pid choice body tx state with
      | (.ok value, tx, state) =>
          (.ok value, none, tx.elim state fun tx => engine.commit pid (committed value) tx state)
      | (.error error, tx, state) =>
          (.error error, none, tx.elim state fun _ => engine.publish pid (aborted error) state) := by
  rw [transaction, eval_bind, eval_handle]
  rcases eval engine pid choice body tx state with ⟨value | error, tx, state⟩ <;> rfl

end Eval

section Yields

variable (engine : Engine I S T Q Ans X E L) (pid : I) (choice : X)

/-- From `before`, the program executed alone returns as `returned` says or raises as `raised` says. -/
def Yields (before : Option T → S → Prop) (program : Program Q Ans X E L A)
    (returned : A → Option T → S → Prop) (raised : E → Option T → S → Prop) : Prop :=
  ∀ tx state, before tx state →
    match eval engine pid choice program tx state with
    | (.ok value, tx, state) => returned value tx state
    | (.error error, tx, state) => raised error tx state

variable {engine pid choice}
variable {before : Option T → S → Prop} {program : Program Q Ans X E L A}
  {returned : A → Option T → S → Prop} {raised : E → Option T → S → Prop}

namespace Yields

theorem ret {value : A} (holds : ∀ tx state, before tx state → returned value tx state) :
    Yields engine pid choice before (.ret value : Program Q Ans X E L A) returned raised := holds

theorem raise {error : E} (holds : ∀ tx state, before tx state → raised error tx state) :
    Yields engine pid choice before (.raise error : Program Q Ans X E L A) returned raised := holds

theorem exec {q : Q} {returned : Ans q → Option T → S → Prop}
    (answered : ∀ tx state answer after opened, before tx state →
      engine.answer q state [] choice (tx.getD (engine.start state)) = .ok (answer, after, opened) →
        returned answer (some opened) after)
    (failed : ∀ tx state error, before tx state → raised error none state) :
    Yields engine pid choice before (Program.exec q : Program Q Ans X E L (Ans q)) returned raised := by
  intro tx state holds
  rw [eval_exec]
  cases ran : engine.answer q state [] choice (tx.getD (engine.start state)) with
  | ok found => exact answered tx state _ _ _ holds ran
  | error error => exact failed tx state error holds

theorem bind {next : A → Program Q Ans X E L B} {goal : B → Option T → S → Prop}
    (first : Yields engine pid choice before program returned raised)
    (rest : ∀ value, Yields engine pid choice (returned value) (next value) goal raised) :
    Yields engine pid choice before (program.bind next) goal raised := by
  intro tx state holds
  have here := first tx state holds
  rw [eval_bind]
  generalize eval engine pid choice program tx state = outcome at here ⊢
  rcases outcome with ⟨error | value, tx, state⟩
  · exact here
  · exact rest value tx state here

theorem handle {handler : E → Program Q Ans X E L A} {left : E → Option T → S → Prop}
    (first : Yields engine pid choice before program returned left)
    (rest : ∀ error, Yields engine pid choice (left error) (handler error) returned raised) :
    Yields engine pid choice before (program.handle handler) returned raised := by
  intro tx state holds
  have here := first tx state holds
  rw [eval_handle]
  generalize eval engine pid choice program tx state = outcome at here ⊢
  rcases outcome with ⟨error | value, tx, state⟩
  · exact rest error tx state here
  · exact here

theorem await {next : X → Program Q Ans X E L A}
    (rest : Yields engine pid choice before (next choice) returned raised) :
    Yields engine pid choice before (.await next) returned raised := rest

theorem publish {label : L} {next : Program Q Ans X E L A} {after : Option T → S → Prop}
    (holds : ∀ tx state, before tx state → after tx (engine.publish pid label state))
    (rest : Yields engine pid choice after next returned raised) :
    Yields engine pid choice before (.publish label next) returned raised :=
  fun tx state here => rest _ _ (holds tx state here)

theorem transaction {committed : A → L} {aborted : E → L}
    (body : Yields engine pid choice before program
      (fun value tx state => returned value none
        (tx.elim state fun tx => engine.commit pid (committed value) tx state))
      (fun error tx state => raised error none
        (tx.elim state fun _ => engine.publish pid (aborted error) state))) :
    Yields engine pid choice before (program.transaction committed aborted) returned raised := by
  intro tx state holds
  have here := body tx state holds
  rw [eval_transaction]
  generalize eval engine pid choice program tx state = outcome at here ⊢
  rcases outcome with ⟨error | value, tx, state⟩ <;> exact here

theorem weaken {earlier : Option T → S → Prop} {stronger : A → Option T → S → Prop}
    {left : E → Option T → S → Prop} (yields : Yields engine pid choice before program stronger left)
    (entails : ∀ tx state, earlier tx state → before tx state)
    (returns : ∀ value tx state, stronger value tx state → returned value tx state)
    (raises : ∀ error tx state, left error tx state → raised error tx state) :
    Yields engine pid choice earlier program returned raised := by
  intro tx state holds
  have here := yields tx state (entails tx state holds)
  generalize eval engine pid choice program tx state = outcome at here ⊢
  rcases outcome with ⟨error | value, tx, state⟩
  · exact raises error tx state here
  · exact returns value tx state here

end Yields

end Yields

/-- Two outcomes are both of them answers, or both of them errors. -/
inductive Both (P : A → B → Prop) (R : E → E → Prop) : Except E A → Except E B → Prop
  | ok {value : A} {value' : B} (related : P value value') : Both P R (.ok value) (.ok value')
  | error {error error' : E} (related : R error error') : Both P R (.error error) (.error error')

theorem Both.map {P : C → D → Prop} {R : E → E → Prop} {f : A → C} {g : B → D} {first : Except E A}
    {second : Except E B} (both : Both (fun value value' => P (f value) (g value')) R first second) :
    Both P R (first.map f) (second.map g) := by
  cases both with
  | ok related => exact .ok related
  | error related => exact .error related

theorem Both.imp {P P' : A → B → Prop} {R R' : E → E → Prop} {first : Except E A} {second : Except E B}
    (both : Both P R first second) (answers : ∀ value value', P value value' → P' value value')
    (errors : ∀ error error', R error error' → R' error error') : Both P' R' first second := by
  cases both with
  | ok related => exact .ok (answers _ _ related)
  | error related => exact .error (errors _ _ related)

section Paired

variable (engine : Engine I S T Q Ans X E L) (pid : I) (choice : X)

/-- Two programs, each executed alone from its own transaction and state, either both return or both raise. -/
def Paired (before : Option T × S → Option T × S → Prop) (left : Program Q Ans X E L A)
    (right : Program Q Ans X E L B) (returned : A → B → Option T × S → Option T × S → Prop)
    (raised : E → E → Option T × S → Option T × S → Prop) : Prop :=
  ∀ here there, before here there →
    match eval engine pid choice left here.1 here.2, eval engine pid choice right there.1 there.2 with
    | (.ok value, here), (.ok value', there) => returned value value' here there
    | (.error error, here), (.error error', there) => raised error error' here there
    | _, _ => False

variable {engine pid choice}
variable {before : Option T × S → Option T × S → Prop} {left : Program Q Ans X E L A}
  {right : Program Q Ans X E L B} {returned : A → B → Option T × S → Option T × S → Prop}
  {raised : E → E → Option T × S → Option T × S → Prop}

namespace Paired

theorem ret {value : A} {value' : B} (holds : ∀ here there, before here there →
    returned value value' here there) :
    Paired engine pid choice before (.ret value : Program Q Ans X E L A) (.ret value') returned raised := holds

theorem raise {error error' : E} (holds : ∀ here there, before here there → raised error error' here there) :
    Paired engine pid choice before (.raise error : Program Q Ans X E L A)
      (.raise error' : Program Q Ans X E L B) returned raised := holds

/-- Two statements: both are answered, or both fail. -/
theorem exec {q q' : Q} {returned : Ans q → Ans q' → Option T × S → Option T × S → Prop}
    (answers : ∀ here there, before here there →
      Both (fun found found' => returned found.1 found'.1 (some found.2.2, found.2.1) (some found'.2.2, found'.2.1))
        (fun error error' => raised error error' (none, here.2) (none, there.2))
        (engine.answer q here.2 [] choice (here.1.getD (engine.start here.2)))
        (engine.answer q' there.2 [] choice (there.1.getD (engine.start there.2)))) :
    Paired engine pid choice before (Program.exec q : Program Q Ans X E L (Ans q)) (Program.exec q')
      returned raised := by
  intro here there holds
  have outcome := answers here there holds
  rw [eval_exec, eval_exec]
  generalize engine.answer q here.2 [] choice (here.1.getD (engine.start here.2)) = first,
    engine.answer q' there.2 [] choice (there.1.getD (engine.start there.2)) = second at outcome ⊢
  cases outcome with
  | ok related => exact related
  | error related => exact related

theorem bind {next : A → Program Q Ans X E L C} {next' : B → Program Q Ans X E L D}
    {goal : C → D → Option T × S → Option T × S → Prop}
    (first : Paired engine pid choice before left right returned raised)
    (rest : ∀ value value', Paired engine pid choice (returned value value') (next value) (next' value') goal raised) :
    Paired engine pid choice before (left.bind next) (right.bind next') goal raised := by
  intro here there holds
  have outcome := first here there holds
  rw [eval_bind, eval_bind]
  generalize eval engine pid choice left here.1 here.2 = first, eval engine pid choice right there.1 there.2 = second
    at outcome ⊢
  rcases first with ⟨error | value, here⟩ <;> rcases second with ⟨error' | value', there⟩
  · exact outcome
  · exact outcome.elim
  · exact outcome.elim
  · exact rest value value' here there outcome

/-- What is known of the returned values may be assumed. -/
theorem of_and {fact : Prop} (paired : fact → Paired engine pid choice before left right returned raised) :
    Paired engine pid choice (fun here there => fact ∧ before here there) left right returned raised :=
  fun here there holds => paired holds.1 here there holds.2

theorem transaction {committed : A → L} {aborted : E → L} {committed' : B → L} {aborted' : E → L}
    (body : Paired engine pid choice before left right
      (fun value value' here there => returned value value'
        (none, here.1.elim here.2 fun tx => engine.commit pid (committed value) tx here.2)
        (none, there.1.elim there.2 fun tx => engine.commit pid (committed' value') tx there.2))
      (fun error error' here there => raised error error'
        (none, here.1.elim here.2 fun _ => engine.publish pid (aborted error) here.2)
        (none, there.1.elim there.2 fun _ => engine.publish pid (aborted' error') there.2))) :
    Paired engine pid choice before (left.transaction committed aborted) (right.transaction committed' aborted')
      returned raised := by
  intro here there holds
  have outcome := body here there holds
  rw [eval_transaction, eval_transaction]
  generalize eval engine pid choice left here.1 here.2 = first, eval engine pid choice right there.1 there.2 = second
    at outcome ⊢
  rcases first with ⟨error | value, here⟩ <;> rcases second with ⟨error' | value', there⟩ <;> exact outcome

theorem weaken {earlier : Option T × S → Option T × S → Prop}
    {stronger : A → B → Option T × S → Option T × S → Prop} {failed : E → E → Option T × S → Option T × S → Prop}
    (paired : Paired engine pid choice before left right stronger failed)
    (entails : ∀ here there, earlier here there → before here there)
    (returns : ∀ value value' here there, stronger value value' here there → returned value value' here there)
    (raises : ∀ error error' here there, failed error error' here there → raised error error' here there) :
    Paired engine pid choice earlier left right returned raised := by
  intro here there holds
  have outcome := paired here there (entails here there holds)
  generalize eval engine pid choice left here.1 here.2 = first, eval engine pid choice right there.1 there.2 = second
    at outcome ⊢
  rcases first with ⟨error | value, here⟩ <;> rcases second with ⟨error' | value', there⟩
  · exact raises _ _ _ _ outcome
  · exact outcome.elim
  · exact outcome.elim
  · exact returns _ _ _ _ outcome

end Paired

end Paired

end Program

end JobRelay.Sessions
