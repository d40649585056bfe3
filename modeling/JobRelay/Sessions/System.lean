import JobRelay.Sessions.Program
import JobRelay.Sessions.Table

/-! # Clients interleaved statement by statement

A world is the committed state together with the client processes, each with its program and its
open transaction. One action advances one process by one statement, commit or local move, lets a
process fail or die, or lets the environment act on the state. A statement whose locks conflict
with another open transaction is not enabled: it waits. Dying, and failing before a commit, leave
nothing of the open transaction behind.
-/

namespace JobRelay.Sessions

/-- One client: its control mode, the call it runs, what is left of it, and its open transaction. -/
structure Proc (I M C T Q : Type) (Ans : Q → Type) (X E L A : Type) where
  pid : I
  mode : M
  call : Option C
  program : Option (Program Q Ans X E L A)
  tx : Option T

/-- What governs the clients between calls and what may happen around them. -/
structure Driver (I M C D S T Q : Type) (Ans : Q → Type) (X E L A : Type) extends
    Engine I S T Q Ans X E L where
  spawns : S → M → Bool
  starts : M → C → Bool
  code : I → C → Program Q Ans X E L A
  after : M → A → M
  moves : S → M → M → Bool
  dead : M
  transient : E → Bool
  environment : D → S → S

/-- One step of one client, or of the environment. -/
inductive Action (I M C D X E : Type) where
  | spawn (pid : I) (mode : M)
  | start (pid : I) (call : C)
  | exec (pid : I) (choice : X)
  | fail (pid : I) (error : E)
  /-- The commit takes effect but its answer is lost. -/
  | lose (pid : I) (error : E)
  | finish (pid : I)
  | move (pid : I) (mode : M)
  | crash (pid : I)
  | environment (event : D)

namespace Action

variable {I M C D X E : Type}

/-- The process an action belongs to. -/
def pid? : Action I M C D X E → Option I
  | .spawn pid _ | .start pid _ | .exec pid _ | .fail pid _ | .lose pid _ | .finish pid
  | .move pid _ | .crash pid => some pid
  | .environment _ => none

end Action

structure World (I M C S T Q : Type) (Ans : Q → Type) (X E L A : Type) where
  state : S
  procs : Table (@Proc.pid I M C T Q Ans X E L A)

namespace World

variable {I M C D S T Q : Type} {Ans : Q → Type} {X E L A : Type} [DecidableEq I]

def proc? (world : World I M C S T Q Ans X E L A) (pid : I) : Option (Proc I M C T Q Ans X E L A) :=
  world.procs.find? pid

/-- The transactions that other processes have open. -/
def others (world : World I M C S T Q Ans X E L A) (pid : I) : List T :=
  world.procs.rows.filterMap fun other => if other.pid = pid then none else other.tx

def set (world : World I M C S T Q Ans X E L A) (state : S) (proc : Proc I M C T Q Ans X E L A) :
    World I M C S T Q Ans X E L A := ⟨state, world.procs.put proc⟩

variable (driver : Driver I M C D S T Q Ans X E L A)

/-- Advance the head of a running program. -/
def execute (world : World I M C S T Q Ans X E L A) (proc : Proc I M C T Q Ans X E L A) (choice : X) :
    Program Q Ans X E L A → Option (World I M C S T Q Ans X E L A)
  | .ret _ | .raise _ => none
  | .query q next =>
      match driver.answer q world.state (world.others proc.pid) choice
          (proc.tx.getD (driver.start world.state)) with
      | .ok (answer, state, tx) =>
          if (world.others proc.pid).all (driver.compatible tx) then
            some (world.set state { proc with program := some (next (.ok answer)), tx := some tx })
          else none
      | .error error =>
          some (world.set world.state { proc with program := some (next (.error error)), tx := none })
  | .commit label next =>
      some (world.set (proc.tx.elim world.state fun tx => driver.commit proc.pid label tx world.state)
        { proc with program := some (next (.ok ())), tx := none })
  | .rollback label next =>
      some (world.set (proc.tx.elim world.state fun _ => driver.publish proc.pid label world.state)
        { proc with program := some next, tx := none })
  | .publish label next =>
      some (world.set (driver.publish proc.pid label world.state) { proc with program := some next })
  | .await next => some (world.set world.state { proc with program := some (next choice) })

/-- The environment raises in place of a statement's or a commit's answer. -/
def interrupt (world : World I M C S T Q Ans X E L A) (proc : Proc I M C T Q Ans X E L A) (error : E) :
    Program Q Ans X E L A → Option (World I M C S T Q Ans X E L A)
  | .query _ next =>
      some (world.set world.state { proc with program := some (next (.error error)), tx := none })
  | .commit _ next =>
      some (world.set world.state { proc with program := some (next (.error error)), tx := none })
  | _ => none

/-- The commit happens and its answer is lost. -/
def loseAnswer (world : World I M C S T Q Ans X E L A) (proc : Proc I M C T Q Ans X E L A) (error : E) :
    Program Q Ans X E L A → Option (World I M C S T Q Ans X E L A)
  | .commit label next =>
      some (world.set (proc.tx.elim world.state fun tx => driver.commit proc.pid label tx world.state)
        { proc with program := some (next (.error error)), tx := none })
  | _ => none

/-- Deliver the result of a finished call; an escaping exception kills the process. -/
def deliver (world : World I M C S T Q Ans X E L A) (proc : Proc I M C T Q Ans X E L A) :
    Program Q Ans X E L A → Option (World I M C S T Q Ans X E L A)
  | .ret value =>
      some (world.set world.state
        { proc with mode := driver.after proc.mode value, call := none, program := none, tx := none })
  | .raise _ =>
      some (world.set world.state { proc with mode := driver.dead, call := none, program := none, tx := none })
  | _ => none

def step (world : World I M C S T Q Ans X E L A) : Action I M C D X E → Option (World I M C S T Q Ans X E L A)
  | .spawn pid mode =>
      if (world.proc? pid).isNone && driver.spawns world.state mode then
        some ⟨world.state, world.procs.insert ⟨pid, mode, none, none, none⟩⟩
      else none
  | .start pid call => do
      let proc ← world.proc? pid
      if proc.program.isNone && driver.starts proc.mode call then
        some (world.set world.state { proc with call := some call, program := some (driver.code pid call) })
      else none
  | .exec pid choice => do
      let proc ← world.proc? pid
      let program ← proc.program
      world.execute driver proc choice program
  | .fail pid error => do
      let proc ← world.proc? pid
      let program ← proc.program
      if driver.transient error then world.interrupt proc error program else none
  | .lose pid error => do
      let proc ← world.proc? pid
      let program ← proc.program
      if driver.transient error then world.loseAnswer driver proc error program else none
  | .finish pid => do
      let proc ← world.proc? pid
      let program ← proc.program
      world.deliver driver proc program
  | .move pid mode => do
      let proc ← world.proc? pid
      if proc.program.isNone && driver.moves world.state proc.mode mode then
        some (world.set world.state { proc with mode := mode })
      else none
  | .crash pid => do
      let proc ← world.proc? pid
      some (world.set world.state { proc with mode := driver.dead, call := none, program := none, tx := none })
  | .environment event => some { world with state := driver.environment event world.state }

/-- Execute actions in order; a step that is not enabled ends the run. -/
def runActions (world : World I M C S T Q Ans X E L A) :
    List (Action I M C D X E) → Option (World I M C S T Q Ans X E L A)
  | [] => some world
  | action :: rest => (world.step driver action).bind fun next => next.runActions rest

@[simp] theorem runActions_nil (world : World I M C S T Q Ans X E L A) :
    world.runActions driver [] = some world := rfl

theorem runActions_cons (world : World I M C S T Q Ans X E L A) (action : Action I M C D X E)
    (rest : List (Action I M C D X E)) :
    world.runActions driver (action :: rest) =
      (world.step driver action).bind fun next => next.runActions driver rest := rfl

/-- Runs compose at their shared world. -/
theorem runActions_append (world : World I M C S T Q Ans X E L A) (first second : List (Action I M C D X E)) :
    world.runActions driver (first ++ second) =
      (world.runActions driver first).bind fun middle => middle.runActions driver second := by
  induction first generalizing world with
  | nil => rfl
  | cons action rest ih => simp only [List.cons_append, runActions, ih, Option.bind_assoc]

/-- Some run of actions leads from one world to the other. -/
def Reaches (source target : World I M C S T Q Ans X E L A) : Prop :=
  ∃ actions, source.runActions driver actions = some target

theorem Reaches.refl (world : World I M C S T Q Ans X E L A) : Reaches driver world world := ⟨[], rfl⟩

variable {driver}

theorem Reaches.trans {first middle last : World I M C S T Q Ans X E L A}
    (left : Reaches driver first middle) (right : Reaches driver middle last) :
    Reaches driver first last := by
  obtain ⟨before, ranBefore⟩ := left
  obtain ⟨after, ranAfter⟩ := right
  refine ⟨before ++ after, ?_⟩
  rw [runActions_append, ranBefore, Option.bind_some, ranAfter]

theorem Reaches.step {source target next : World I M C S T Q Ans X E L A} {action : Action I M C D X E}
    (reached : Reaches driver source target) (stepped : target.step driver action = some next) :
    Reaches driver source next := by
  refine reached.trans ⟨[action], ?_⟩
  simp only [runActions, stepped, Option.bind_some]

/-- What every enabled step preserves holds along every run. -/
theorem Reaches.preserves {source target : World I M C S T Q Ans X E L A} (reached : Reaches driver source target)
    {P : World I M C S T Q Ans X E L A → Prop} (initial : P source)
    (steps : ∀ world action next, P world → world.step driver action = some next → P next) : P target := by
  obtain ⟨actions, ran⟩ := reached
  induction actions generalizing source with
  | nil => cases ran; exact initial
  | cons action rest ih =>
    obtain ⟨next, stepped, ran⟩ := Option.bind_eq_some_iff.mp ran
    exact ih (steps source action next initial stepped) ran

end World

end JobRelay.Sessions
