import JobRelay.Sessions.System

/-! # What one step can do

`Advances` lists what becomes of a running program, its transaction and the committed state when its head
is executed, fails or loses its answer. `Becomes` lists what one step can make of a process, whoever takes
the step, and `Turn` what it makes of the world. Everything that follows runs is derived from these.
-/

namespace JobRelay.Sessions

variable {I M C D S T Q : Type} {Ans : Q → Type} {X E L A : Type}

/-- The ways a query can end in an exception: its own failure or a fault from outside. -/
def Driver.Fails (driver : Driver I M C D S T Q Ans X E L A) (q : Q) (tx : Option T) (state : S) (error : E) :
    Prop :=
  driver.transient error = true ∨ ∃ others choice,
    driver.answer q state others choice (tx.getD (driver.start state)) = .error error

/-- The process that an action puts into a call or a mode, or ends. -/
def Action.drives? : Action I M C D X E → Option I
  | .spawn pid _ | .start pid _ | .finish pid | .move pid _ | .crash pid => some pid
  | .exec _ _ | .fail _ _ | .lose _ _ | .environment _ => none

namespace World

variable [DecidableEq I]

/-- What is left of a program and its transaction, and the committed state after its head is done with. -/
inductive Advances (driver : Driver I M C D S T Q Ans X E L A) (world : World I M C S T Q Ans X E L A) (pid : I) :
    Program Q Ans X E L A → Option T → Program Q Ans X E L A → Option T → S → Prop
  | answered {q : Q} {next : Except E (Ans q) → Program Q Ans X E L A} {tx : Option T} {choice : X}
      {answer : Ans q} {after : S} {opened : T}
      (ran : driver.answer q world.state (world.others pid) choice (tx.getD (driver.start world.state)) =
        .ok (answer, after, opened))
      (free : ∀ other ∈ world.others pid, driver.compatible opened other = true) :
      Advances driver world pid (.query q next) tx (next (.ok answer)) (some opened) after
  | failed {q : Q} {next : Except E (Ans q) → Program Q Ans X E L A} {tx : Option T} {error : E}
      (fails : driver.Fails q tx world.state error) :
      Advances driver world pid (.query q next) tx (next (.error error)) none world.state
  | committed {label : L} {next : Except E Unit → Program Q Ans X E L A} {tx : Option T} :
      Advances driver world pid (.commit label next) tx (next (.ok ())) none
        (tx.elim world.state fun tx => driver.commit pid label tx world.state)
  | lost {label : L} {next : Except E Unit → Program Q Ans X E L A} {tx : Option T} {error : E}
      (transient : driver.transient error = true) :
      Advances driver world pid (.commit label next) tx (next (.error error)) none
        (tx.elim world.state fun tx => driver.commit pid label tx world.state)
  | uncommitted {label : L} {next : Except E Unit → Program Q Ans X E L A} {tx : Option T} {error : E}
      (transient : driver.transient error = true) :
      Advances driver world pid (.commit label next) tx (next (.error error)) none world.state
  | rolledBack {label : L} {next : Program Q Ans X E L A} {tx : Option T} :
      Advances driver world pid (.rollback label next) tx next none
        (tx.elim world.state fun _ => driver.publish pid label world.state)
  | published {label : L} {next : Program Q Ans X E L A} {tx : Option T} :
      Advances driver world pid (.publish label next) tx next tx (driver.publish pid label world.state)
  | chosen {next : X → Program Q Ans X E L A} {tx : Option T} (choice : X) :
      Advances driver world pid (.await next) tx (next choice) tx world.state

/-- What one step makes of a process, and of the committed state if it is this process that moves. -/
inductive Becomes (driver : Driver I M C D S T Q Ans X E L A) (world : World I M C S T Q Ans X E L A)
    (action : Action I M C D X E) (proc : Proc I M C T Q Ans X E L A) :
    Proc I M C T Q Ans X E L A → S → Prop
  | same {after : S} (idle : action.pid? ≠ some proc.pid) : Becomes driver world action proc proc after
  | started (call : C) (free : proc.program = none) (starts : driver.starts proc.mode call = true) :
      Becomes driver world action proc
        { proc with call := some call, program := some (driver.code proc.pid call) } world.state
  | advanced {program left : Program Q Ans X E L A} {tx : Option T} {after : S}
      (running : proc.program = some program)
      (advances : Advances driver world proc.pid program proc.tx left tx after) :
      Becomes driver world action proc { proc with program := some left, tx := tx } after
  | finished {value : A} (returned : proc.program = some (.ret value)) (acting : action = .finish proc.pid) :
      Becomes driver world action proc
        { proc with mode := driver.after proc.mode value, call := none, program := none, tx := none } world.state
  | moved (mode : M) (acting : action = .move proc.pid mode)
      (moves : driver.moves world.state proc.mode mode = true) :
      Becomes driver world action proc { proc with mode := mode } world.state
  | died : Becomes driver world action proc
      { proc with mode := driver.dead, call := none, program := none, tx := none } world.state

/-- What one step makes of the world: the environment moves it, or one process comes or moves. -/
inductive Turn (driver : Driver I M C D S T Q Ans X E L A) (world : World I M C S T Q Ans X E L A) :
    Action I M C D X E → World I M C S T Q Ans X E L A → Prop
  | environment (event : D) : Turn driver world (.environment event)
      ⟨driver.environment event world.state, world.procs⟩
  | spawned {pid : I} {mode : M} (absent : world.proc? pid = none)
      (spawns : driver.spawns world.state mode = true) :
      Turn driver world (.spawn pid mode) ⟨world.state, world.procs.insert ⟨pid, mode, none, none, none⟩⟩
  | turned {action : Action I M C D X E} {proc later : Proc I M C T Q Ans X E L A} {after : S}
      (acting : action.pid? = some proc.pid) (stored : world.proc? proc.pid = some proc)
      (kept : later.pid = proc.pid) (becomes : Becomes driver world action proc later after) :
      Turn driver world action (world.set after later)

variable {driver : Driver I M C D S T Q Ans X E L A} {world next : World I M C S T Q Ans X E L A}
  {action : Action I M C D X E} {proc : Proc I M C T Q Ans X E L A} {program : Program Q Ans X E L A}

private theorem execute_turn {choice : X} (stored : world.proc? proc.pid = some proc)
    (running : proc.program = some program) (ran : world.execute driver proc choice program = some next) :
    Turn driver world (.exec proc.pid choice) next := by
  cases program with
  | ret | raise => cases ran
  | query q rest =>
    simp only [World.execute] at ran
    split at ran
    · next answer after opened answered =>
      split at ran
      · next free =>
        cases ran
        exact .turned rfl stored rfl (.advanced running (.answered answered (List.all_eq_true.mp free)))
      · cases ran
    · next error failed =>
      cases ran
      exact .turned rfl stored rfl (.advanced running (.failed (.inr ⟨_, _, failed⟩)))
  | commit label rest =>
    cases ran
    exact .turned rfl stored rfl (.advanced running .committed)
  | rollback label rest =>
    cases ran
    exact .turned rfl stored rfl (.advanced running .rolledBack)
  | publish label rest =>
    cases ran
    exact .turned rfl stored rfl (.advanced running .published)
  | await rest =>
    cases ran
    exact .turned rfl stored rfl (.advanced running (.chosen choice))

/-- Every step is a turn of the environment or of one process. -/
theorem step_turn (stepped : world.step driver action = some next) : Turn driver world action next := by
  cases action with
  | spawn pid mode =>
    simp only [World.step] at stepped
    split at stepped
    · next allowed =>
      cases stepped
      rw [Bool.and_eq_true, Option.isNone_iff_eq_none] at allowed
      exact .spawned allowed.1 allowed.2
    · cases stepped
  | start pid call =>
    obtain ⟨proc, stored, ran⟩ := Option.bind_eq_some_iff.mp stepped
    obtain rfl : proc.pid = pid := Table.find?_key stored
    split at ran
    · next allowed =>
      cases ran
      rw [Bool.and_eq_true, Option.isNone_iff_eq_none] at allowed
      exact .turned rfl stored rfl (.started call allowed.1 allowed.2)
    · cases ran
  | exec pid choice =>
    obtain ⟨proc, stored, running⟩ := Option.bind_eq_some_iff.mp stepped
    obtain ⟨program, present, ran⟩ := Option.bind_eq_some_iff.mp running
    obtain rfl : proc.pid = pid := Table.find?_key stored
    exact execute_turn stored present ran
  | fail pid error =>
    obtain ⟨proc, stored, running⟩ := Option.bind_eq_some_iff.mp stepped
    obtain ⟨program, present, ran⟩ := Option.bind_eq_some_iff.mp running
    obtain rfl : proc.pid = pid := Table.find?_key stored
    split at ran
    · next transient =>
      cases program with
      | query => cases ran; exact .turned rfl stored rfl (.advanced present (.failed (.inl transient)))
      | commit => cases ran; exact .turned rfl stored rfl (.advanced present (.uncommitted transient))
      | _ => cases ran
    · cases ran
  | lose pid error =>
    obtain ⟨proc, stored, running⟩ := Option.bind_eq_some_iff.mp stepped
    obtain ⟨program, present, ran⟩ := Option.bind_eq_some_iff.mp running
    obtain rfl : proc.pid = pid := Table.find?_key stored
    split at ran
    · next transient =>
      cases program with
      | commit => cases ran; exact .turned rfl stored rfl (.advanced present (.lost transient))
      | _ => cases ran
    · cases ran
  | finish pid =>
    obtain ⟨proc, stored, running⟩ := Option.bind_eq_some_iff.mp stepped
    obtain ⟨program, present, ran⟩ := Option.bind_eq_some_iff.mp running
    obtain rfl : proc.pid = pid := Table.find?_key stored
    cases program with
    | ret => cases ran; exact .turned rfl stored rfl (.finished present rfl)
    | raise => cases ran; exact .turned rfl stored rfl .died
    | _ => cases ran
  | move pid mode =>
    obtain ⟨proc, stored, ran⟩ := Option.bind_eq_some_iff.mp stepped
    obtain rfl : proc.pid = pid := Table.find?_key stored
    split at ran
    · next allowed =>
      cases ran
      rw [Bool.and_eq_true] at allowed
      exact .turned rfl stored rfl (.moved mode rfl allowed.2)
    · cases ran
  | crash pid =>
    obtain ⟨proc, stored, ran⟩ := Option.bind_eq_some_iff.mp stepped
    obtain rfl : proc.pid = pid := Table.find?_key stored
    cases ran
    exact .turned rfl stored rfl .died
  | environment event =>
    cases stepped
    exact .environment event

theorem proc?_set {pid : I} {state : S} {later : Proc I M C T Q Ans X E L A} (found : world.proc? pid = some proc)
    (kept : later.pid = proc.pid) : (world.set state later).proc? pid = some later := by
  obtain rfl : later.pid = pid := kept.trans (Table.find?_key found)
  exact Table.find?_put_self found

/-- Executing a process advances the head of its program. -/
theorem step_exec {pid : I} (found : world.proc? pid = some proc) (running : proc.program = some program)
    (choice : X) : world.step driver (.exec pid choice) = world.execute driver proc choice program := by
  change (world.proc? pid).bind _ = _
  rw [found, Option.bind_some]
  change proc.program.bind _ = _
  rw [running, Option.bind_some]

/-- A process that is there stays, and becomes something. -/
theorem step_becomes (stepped : world.step driver action = some next) {pid : I}
    (found : world.proc? pid = some proc) :
    ∃ later, next.proc? pid = some later ∧ Becomes driver world action proc later next.state := by
  obtain rfl : proc.pid = pid := Table.find?_key found
  cases step_turn stepped with
  | environment event => exact ⟨proc, found, .same (by rw [Action.pid?]; exact nofun)⟩
  | @spawned other mode absent spawns =>
    have distinct : other ≠ proc.pid := by
      rintro rfl
      rw [found] at absent
      cases absent
    exact ⟨proc, (Table.find?_insert_ne distinct).trans found,
      .same fun same => distinct (Option.some.inj same)⟩
  | @turned _ old later after acting stored kept becomes =>
    by_cases same : old.pid = proc.pid
    · rw [same, found] at stored
      cases stored
      exact ⟨later, proc?_set found kept, becomes⟩
    · refine ⟨proc, (Table.find?_put_ne (kept ▸ same)).trans found, .same ?_⟩
      rw [acting]
      exact fun other => same (Option.some.inj other)

/-- A process was there before, or is new. -/
theorem step_origin (stepped : world.step driver action = some next) {pid : I}
    {later : Proc I M C T Q Ans X E L A} (found : next.proc? pid = some later) :
    (∃ proc, world.proc? pid = some proc ∧ Becomes driver world action proc later next.state) ∨
      ∃ mode, driver.spawns world.state mode = true ∧ next.state = world.state ∧
        later = ⟨pid, mode, none, none, none⟩ := by
  cases before : world.proc? pid with
  | some proc =>
    obtain ⟨after, found', becomes⟩ := step_becomes stepped before
    rw [found] at found'
    cases found'
    exact .inl ⟨proc, rfl, becomes⟩
  | none =>
    right
    cases step_turn stepped with
    | environment event =>
      have absent : world.proc? pid = some later := found
      rw [before] at absent
      cases absent
    | @spawned other mode absent spawns =>
      by_cases same : other = pid
      · subst same
        have inserted : (world.procs.insert ⟨other, mode, none, none, none⟩).find? other =
            some (⟨other, mode, none, none, none⟩ : Proc I M C T Q Ans X E L A) :=
          Table.find?_insert_self absent
        rw [proc?, inserted] at found
        cases found
        exact ⟨mode, spawns, rfl, rfl⟩
      · rw [proc?, Table.find?_insert_ne same, ← proc?, before] at found
        cases found
    | @turned _ old after state acting stored kept becomes =>
      rw [proc?, World.set, Table.find?_put_ne, ← proc?, before] at found
      · cases found
      · rintro rfl
        rw [kept, stored] at before
        cases before

/-- A step concerns no process but the one that takes it. -/
theorem step_other (stepped : world.step driver action = some next) {pid : I} (other : action.pid? ≠ some pid) :
    next.proc? pid = world.proc? pid := by
  cases step_turn stepped with
  | environment event => rfl
  | @spawned mine mode absent spawns => exact Table.find?_insert_ne fun same => other (congrArg some same)
  | @turned _ old later after acting stored kept becomes =>
    exact Table.find?_put_ne fun same => other (acting.trans (congrArg some (kept.symm.trans same)))

omit [DecidableEq I] in
private theorem of_undriven {pid : I} (undriven : action.drives? ≠ some pid) (acting : action.pid? = some pid) :
    (∃ choice, action = .exec pid choice) ∨ (∃ error, action = .fail pid error) ∨
      ∃ error, action = .lose pid error := by
  cases action with
  | exec other choice => cases acting; exact .inl ⟨choice, rfl⟩
  | fail other error => cases acting; exact .inr (.inl ⟨error, rfl⟩)
  | lose other error => cases acting; exact .inr (.inr ⟨error, rfl⟩)
  | environment event => cases acting
  | _ => exact absurd acting undriven

/-- A process that is executed goes on with its call. -/
private theorem step_running {pid : I} (stepped : world.step driver action = some next)
    (undriven : action.drives? ≠ some pid) (acting : action.pid? = some pid) :
    ∃ proc state left tx, world.proc? pid = some proc ∧ proc.program.isSome ∧
      next = world.set state { proc with program := some left, tx } := by
  rcases of_undriven undriven acting with ⟨choice, rfl⟩ | ⟨error, rfl⟩ | ⟨error, rfl⟩ <;>
    obtain ⟨proc, stored, ran⟩ := Option.bind_eq_some_iff.mp stepped <;>
    obtain ⟨program, present, ran⟩ := Option.bind_eq_some_iff.mp ran <;>
    have running : proc.program.isSome := Option.isSome_iff_exists.mpr ⟨program, present⟩
  · cases program with
    | ret | raise => cases ran
    | query q rest =>
      simp only [World.execute] at ran
      split at ran
      · split at ran
        · cases ran; exact ⟨proc, _, _, _, stored, running, rfl⟩
        · cases ran
      · cases ran; exact ⟨proc, _, _, _, stored, running, rfl⟩
    | publish | await => cases ran; exact ⟨proc, _, _, proc.tx, stored, running, rfl⟩
    | _ => cases ran; exact ⟨proc, _, _, none, stored, running, rfl⟩
  · split at ran
    · cases program with
      | query | commit => cases ran; exact ⟨proc, _, _, none, stored, running, rfl⟩
      | _ => cases ran
    · cases ran
  · split at ran
    · cases program with
      | commit => cases ran; exact ⟨proc, _, _, none, stored, running, rfl⟩
      | _ => cases ran
    · cases ran

/-- While nothing drives a process, it does not come, and it stays in its mode and its call. -/
theorem step_undriven (stepped : world.step driver action = some next) {pid : I}
    (undriven : action.drives? ≠ some pid) :
    (next.proc? pid).map (fun proc => (proc.mode, proc.call, proc.program.isSome)) =
      (world.proc? pid).map fun proc => (proc.mode, proc.call, proc.program.isSome) := by
  by_cases acting : action.pid? = some pid
  · obtain ⟨proc, state, left, tx, stored, running, rfl⟩ := step_running stepped undriven acting
    obtain rfl : proc.pid = pid := Table.find?_key stored
    have later : (world.set state { proc with program := some left, tx }).proc? proc.pid = _ := proc?_set stored rfl
    rw [later, stored, Option.map_some, Option.map_some, running]
    rfl
  · rw [step_other stepped acting]

/-- Where no call runs, nothing but what drives the process moves it. -/
theorem step_idle (stepped : world.step driver action = some next) {pid : I} (undriven : action.drives? ≠ some pid)
    (idle : ∀ proc, world.proc? pid = some proc → proc.program = none) : action.pid? ≠ some pid := by
  intro acting
  obtain ⟨proc, _, _, _, stored, running, _⟩ := step_running stepped undriven acting
  rw [idle proc stored] at running
  cases running

/-- What the actions of a run preserve holds at its end. -/
theorem runActions_preserves {actions : List (Action I M C D X E)} {source target : World I M C S T Q Ans X E L A}
    (ran : source.runActions driver actions = some target) {P : World I M C S T Q Ans X E L A → Prop}
    (initial : P source) (steps : ∀ world action next, action ∈ actions → P world →
      world.step driver action = some next → P next) : P target := by
  induction actions generalizing source with
  | nil => cases ran; exact initial
  | cons action rest ih =>
    obtain ⟨next, stepped, ran⟩ := Option.bind_eq_some_iff.mp ran
    exact ih ran (steps source action next List.mem_cons_self initial stepped) fun world action next member =>
      steps world action next (List.mem_cons_of_mem _ member)

/-- A process runs no call but one that some mode starts. -/
theorem calls_start {source : World I M C S T Q Ans X E L A} (vacant : source.procs.rows = [])
    (reached : World.Reaches driver source world) :
    ∀ proc ∈ world.procs.rows, ∀ call, proc.call = some call → ∃ mode, driver.starts mode call = true := by
  refine reached.preserves (P := fun world => ∀ proc ∈ world.procs.rows, ∀ call, proc.call = some call →
    ∃ mode, driver.starts mode call = true) ?_ ?_
  · rw [vacant]
    exact fun proc member => absurd member List.not_mem_nil
  · intro world action next all stepped later member call called
    rcases World.step_origin stepped (Table.mem_rows_iff.mp member) with ⟨proc, found, becomes⟩ | ⟨mode, _, _, new⟩
    · have before := all proc (Table.find?_mem found) call
      generalize next.state = after at becomes
      cases becomes with
      | same | moved | advanced => exact before called
      | started other free starts =>
        cases called
        exact ⟨_, starts⟩
      | finished | died => cases called
    · rw [new] at called
      cases called

end World

end JobRelay.Sessions
