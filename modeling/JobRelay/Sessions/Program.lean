import Mathlib.Control.Basic

/-! # Client programs of a transactional server

A program is what one client connection does: it sends queries one at a time and commits or rolls
back the open transaction between them. The server answers a query or fails it. Between two queries
any other client may act, so a program is a tree of queries and answers rather than one function of
the state. Labels tell an observer of the committed history what a transaction did.

`run` executes a program alone against a server, without interleaving and without faults.
-/

namespace JobRelay.Sessions

/-- Programs over queries `Q` with answers `Ans`, environment choices `X`, exceptions `E` and
labels `L`, that end in a value of `A`. -/
inductive Program (Q : Type) (Ans : Q → Type) (X E L A : Type) : Type where
  | ret (value : A)
  | raise (error : E)
  | query (q : Q) (next : Except E (Ans q) → Program Q Ans X E L A)
  | commit (label : L) (next : Except E Unit → Program Q Ans X E L A)
  | rollback (label : L) (next : Program Q Ans X E L A)
  | publish (label : L) (next : Program Q Ans X E L A)
  /-- Wait for a choice that the environment makes. -/
  | await (next : X → Program Q Ans X E L A)

namespace Program

variable {Q : Type} {Ans : Q → Type} {X E L A B : Type}

def bind (program : Program Q Ans X E L A) (next : A → Program Q Ans X E L B) :
    Program Q Ans X E L B :=
  match program with
  | .ret value => next value
  | .raise error => .raise error
  | .query q rest => .query q fun answer => (rest answer).bind next
  | .commit label rest => .commit label fun answer => (rest answer).bind next
  | .rollback label rest => .rollback label (rest.bind next)
  | .publish label rest => .publish label (rest.bind next)
  | .await rest => .await fun choice => (rest choice).bind next

/-- Run the handler in place of an exception. -/
def handle (program : Program Q Ans X E L A) (handler : E → Program Q Ans X E L A) :
    Program Q Ans X E L A :=
  match program with
  | .ret value => .ret value
  | .raise error => handler error
  | .query q rest => .query q fun answer => (rest answer).handle handler
  | .commit label rest => .commit label fun answer => (rest answer).handle handler
  | .rollback label rest => .rollback label (rest.handle handler)
  | .publish label rest => .publish label (rest.handle handler)
  | .await rest => .await fun choice => (rest choice).handle handler

instance : Monad (Program Q Ans X E L) where
  pure := .ret
  bind := .bind

instance : MonadExceptOf E (Program Q Ans X E L) where
  throw := .raise
  tryCatch := .handle

@[simp] theorem pure_eq (value : A) : (pure value : Program Q Ans X E L A) = .ret value := rfl
@[simp] theorem throw_eq (error : E) : (throw error : Program Q Ans X E L A) = .raise error := rfl
@[simp] theorem tryCatch_eq (program : Program Q Ans X E L A)
    (handler : E → Program Q Ans X E L A) : tryCatch program handler = program.handle handler := rfl
@[simp] theorem bind_eq (program : Program Q Ans X E L A) (next : A → Program Q Ans X E L B) :
    program >>= next = program.bind next := rfl

theorem bind_assoc {C : Type} (program : Program Q Ans X E L A)
    (first : A → Program Q Ans X E L B) (second : B → Program Q Ans X E L C) :
    (program.bind first).bind second = program.bind fun value => (first value).bind second := by
  induction program with
  | ret value => rfl
  | raise error => rfl
  | query q rest ih => simp only [bind, ih]
  | commit label rest ih => simp only [bind, ih]
  | rollback label rest ih => simp only [bind, ih]
  | publish label rest ih => simp only [bind, ih]
  | await rest ih => simp only [bind, ih]

/-- Send one query and take its answer, or raise what it failed with. -/
def exec (q : Q) : Program Q Ans X E L (Ans q) :=
  .query q fun
    | .ok answer => .ret answer
    | .error error => .raise error

/-- A transaction block: commit when the body returns, roll back and re-raise when it raises. -/
def transaction (body : Program Q Ans X E L A) (committed : A → L) (aborted : E → L) :
    Program Q Ans X E L A :=
  (body.handle fun error => .rollback (aborted error) (.raise error)).bind fun value =>
    .commit (committed value) fun
      | .ok () => .ret value
      | .error error => .raise error

end Program

/-- A transactional server: what opens a transaction, what each query does in one, which
transactions may be open together, and what a commit makes of the committed state. A query sees
the committed state, the other open transactions and an environment choice. -/
structure Engine (I S T Q : Type) (Ans : Q → Type) (X E L : Type) where
  start : S → T
  compatible : T → T → Bool
  answer : (q : Q) → S → List T → X → T → Except E (Ans q × S × T)
  commit : I → L → T → S → S
  publish : I → L → S → S

namespace Program

variable {I S T Q : Type} {Ans : Q → Type} {X E L A : Type}

/-- Execute a program alone: no other client acts and nothing fails from outside. -/
def run (engine : Engine I S T Q Ans X E L) (pid : I) (choice : X) :
    Program Q Ans X E L A → Option T → S → Except E A × S
  | .ret value, _, state => (.ok value, state)
  | .raise error, _, state => (.error error, state)
  | .query q next, tx, state =>
      match engine.answer q state [] choice (tx.getD (engine.start state)) with
      | .ok (answer, state, tx) => run engine pid choice (next (.ok answer)) (some tx) state
      | .error error => run engine pid choice (next (.error error)) none state
  | .commit label next, tx, state =>
      run engine pid choice (next (.ok ())) none (tx.elim state fun tx => engine.commit pid label tx state)
  | .rollback label next, tx, state =>
      run engine pid choice next none (tx.elim state fun _ => engine.publish pid label state)
  | .publish label next, tx, state => run engine pid choice next tx (engine.publish pid label state)
  | .await next, tx, state => run engine pid choice (next choice) tx state

end Program

end JobRelay.Sessions
