import Mathlib.Data.List.Induction
import JobRelay.Sessions.Residual

/-! # What a call has done in a run

`Told` is the weakest precondition of a program along one run, given by its actions: the postcondition may speak of
the turns at which the statements were answered and the transactions committed, as points of that run. What a program
reports is told at the report. It is proved on the program alone, and `World.told` carries it to every process at the
end of the run.
-/

namespace JobRelay.Sessions

variable {I M C D S T Q : Type} {Ans : Q → Type} {X E L A B R : Type} [DecidableEq I]

/-- Where a process takes its turn: a point of the run, no earlier than its last, with the process at a statement or
between two. -/
structure World.Turns (driver : Driver I M C D S T Q Ans X E L R) (source : World I M C S T Q Ans X E L R) (pid : I)
    (asks : Option Q) (tx : Option T) (past now : List (Action I M C D X E)) (world : World I M C S T Q Ans X E L R) :
    Prop where
  ran : source.runActions driver now = some world
  later : past <+: now
  running : ∃ proc ∈ world.procs.rows, proc.pid = pid ∧ proc.tx = tx ∧ proc.program.bind Program.query? = asks

section Told

variable (driver : Driver I M C D S T Q Ans X E L R) (source : World I M C S T Q Ans X E L R) (pid : I)

/-- However the program goes on, what it reports meets `N` and its end meets `P`. -/
def Program.Told (N : L → Program Q Ans X E L A → List (Action I M C D X E) → Prop)
    (P : Except E A → Option T → List (Action I M C D X E) → Prop) :
    Program Q Ans X E L A → Option T → List (Action I M C D X E) → Prop
  | .ret value, tx, past => P (.ok value) tx past
  | .raise error, tx, past => P (.error error) tx past
  | .query q next, tx, past => ∀ now world, World.Turns driver source pid (some q) tx past now world →
      (∀ choice turn answer after opened,
        driver.answer q world.state (world.others pid) choice (tx.getD (driver.start world.state)) =
          .ok (answer, after, opened) → (next (.ok answer)).Told N P (some opened) (now ++ [.exec pid turn])) ∧
      ∀ error, driver.Fails q tx world.state error → (next (.error error)).Told N P none now
  | .commit label next, tx, past => ∀ now world, World.Turns driver source pid none tx past now world →
      (∀ action after, source.runActions driver (now ++ [action]) = some after →
        after.state = (tx.elim world.state fun tx => driver.commit pid label tx world.state) →
          (next (.ok ())).Told N P none (now ++ [action])) ∧
      ∀ error, driver.transient error = true → (next (.error error)).Told N P none now
  | .rollback _ next, tx, past => ∀ now world, World.Turns driver source pid none tx past now world →
      next.Told N P none now
  | .publish label next, tx, past => ∀ now world, World.Turns driver source pid none tx past now world →
      N label next now ∧ next.Told N P tx now
  | .await next, tx, past => ∀ choice, (next choice).Told N P tx past

/-- A program that reports nothing. -/
abbrev Program.Silent (program : Program Q Ans X E L A)
    (P : Except E A → Option T → List (Action I M C D X E) → Prop) (tx : Option T)
    (past : List (Action I M C D X E)) : Prop :=
  program.Told driver source pid (fun _ _ _ => False) P tx past

end Told

variable {driver : Driver I M C D S T Q Ans X E L R} {source world : World I M C S T Q Ans X E L R} {pid : I}
  {tx : Option T} {past : List (Action I M C D X E)} {program : Program Q Ans X E L A}
  {N : L → Program Q Ans X E L A → List (Action I M C D X E) → Prop}
  {P : Except E A → Option T → List (Action I M C D X E) → Prop}

namespace Program.Told

/-- A program ends no earlier than it starts. -/
theorem since {before : List (Action I M C D X E)} (told : program.Told driver source pid N P tx past)
    (earlier : before <+: past) :
    program.Told driver source pid N (fun result tx now => P result tx now ∧ before <+: now) tx past := by
  induction program generalizing tx past with
  | ret | raise => exact ⟨told, earlier⟩
  | query q next ih =>
    intro now world turns
    obtain ⟨answered, failed⟩ := told now world turns
    have onward := earlier.trans turns.later
    exact ⟨fun choice turn answer after opened ran =>
      ih _ (answered choice turn answer after opened ran) (onward.trans (List.prefix_append ..)),
      fun error fails => ih _ (failed error fails) onward⟩
  | commit label next ih =>
    intro now world turns
    obtain ⟨committed, failed⟩ := told now world turns
    have onward := earlier.trans turns.later
    exact ⟨fun action after ran same => ih _ (committed action after ran same) (onward.trans (List.prefix_append ..)),
      fun error transient => ih _ (failed error transient) onward⟩
  | rollback label next ih => exact fun now world turns => ih (told now world turns) (earlier.trans turns.later)
  | publish label next ih =>
    exact fun now world turns => ⟨(told now world turns).1, ih (told now world turns).2 (earlier.trans turns.later)⟩
  | await next ih => exact fun choice => ih choice (told choice) earlier

/-- Sequencing: the second program starts from what the first one did. -/
theorem bind {next : A → Program Q Ans X E L B} {G : Except E B → Option T → List (Action I M C D X E) → Prop}
    {N : L → Program Q Ans X E L B → List (Action I M C D X E) → Prop}
    (told : program.Silent driver source pid P tx past)
    (returned : ∀ value tx past, P (.ok value) tx past → (next value).Told driver source pid N G tx past)
    (raised : ∀ error tx past, P (.error error) tx past → G (.error error) tx past) :
    (program.bind next).Told driver source pid N G tx past := by
  induction program generalizing tx past with
  | ret value => exact returned _ _ _ told
  | raise error => exact raised _ _ _ told
  | query q rest ih =>
    intro now world turns
    obtain ⟨answered, failed⟩ := told now world turns
    exact ⟨fun choice turn answer after opened ran => ih _ (answered choice turn answer after opened ran),
      fun error fails => ih _ (failed error fails)⟩
  | commit label rest ih =>
    intro now world turns
    obtain ⟨committed, failed⟩ := told now world turns
    exact ⟨fun action after ran same => ih _ (committed action after ran same),
      fun error transient => ih _ (failed error transient)⟩
  | rollback label rest ih => exact fun now world turns => ih (told now world turns)
  | publish label rest ih => exact fun now world turns => absurd (told now world turns).1 id
  | await rest ih => exact fun choice => ih choice (told choice)

/-- Handling: the handler starts from what the exception left. -/
theorem handle {handler : E → Program Q Ans X E L A}
    {G : Except E A → Option T → List (Action I M C D X E) → Prop}
    (told : program.Silent driver source pid P tx past)
    (returned : ∀ value tx past, P (.ok value) tx past → G (.ok value) tx past)
    (raised : ∀ error tx past, P (.error error) tx past → (handler error).Told driver source pid N G tx past) :
    (program.handle handler).Told driver source pid N G tx past := by
  induction program generalizing tx past with
  | ret value => exact returned _ _ _ told
  | raise error => exact raised _ _ _ told
  | query q rest ih =>
    intro now world turns
    obtain ⟨answered, failed⟩ := told now world turns
    exact ⟨fun choice turn answer after opened ran => ih _ (answered choice turn answer after opened ran),
      fun error fails => ih _ (failed error fails)⟩
  | commit label rest ih =>
    intro now world turns
    obtain ⟨committed, failed⟩ := told now world turns
    exact ⟨fun action after ran same => ih _ (committed action after ran same),
      fun error transient => ih _ (failed error transient)⟩
  | rollback label rest ih => exact fun now world turns => ih (told now world turns)
  | publish label rest ih => exact fun now world turns => absurd (told now world turns).1 id
  | await rest ih => exact fun choice => ih choice (told choice)

/-- One statement: its answer, given at a turn of the run, or what it failed with. -/
theorem exec {q : Q} {P : Except E (Ans q) → Option T → List (Action I M C D X E) → Prop}
    {N : L → Program Q Ans X E L (Ans q) → List (Action I M C D X E) → Prop}
    (answered : ∀ now world, World.Turns driver source pid (some q) tx past now world →
      ∀ choice turn answer after opened,
        driver.answer q world.state (world.others pid) choice (tx.getD (driver.start world.state)) =
          .ok (answer, after, opened) → P (.ok answer) (some opened) (now ++ [.exec pid turn]))
    (failed : ∀ now state error, past <+: now → driver.Fails q tx state error → P (.error error) none now) :
    (Program.exec q : Program Q Ans X E L (Ans q)).Told driver source pid N P tx past :=
  fun now world turns => ⟨answered now world turns, fun error fails => failed now _ error turns.later fails⟩

theorem of_forall (reports : ∀ label left past, N label left past) (ends : ∀ result tx past, P result tx past) :
    program.Told driver source pid N P tx past := by
  induction program generalizing tx past with
  | ret | raise => exact ends _ _ _
  | query q next ih => exact fun now world _ => ⟨fun _ _ _ _ _ _ => ih _, fun _ _ => ih _⟩
  | commit label next ih => exact fun now world _ => ⟨fun _ _ _ _ => ih _, fun _ _ => ih _⟩
  | rollback label next ih => exact fun now world _ => ih
  | publish label next ih => exact fun now world _ => ⟨reports _ _ _, ih⟩
  | await next ih => exact fun choice => ih choice

/-- A transaction block: its commit is a turn of the run, and its exceptions are those of its body and of the
commit. -/
theorem transaction {committed : A → L} {aborted : E → L}
    {G : Except E A → Option T → List (Action I M C D X E) → Prop}
    (told : program.Silent driver source pid P tx past)
    (returned : ∀ value tx past, P (.ok value) tx past → ∀ now world, World.Turns driver source pid none tx past now world →
      (∀ action after, source.runActions driver (now ++ [action]) = some after →
        after.state = (tx.elim world.state fun tx => driver.commit pid (committed value) tx world.state) →
          G (.ok value) none (now ++ [action])) ∧
      ∀ error, driver.transient error = true → G (.error error) none now)
    (raised : ∀ error tx past now, P (.error error) tx past → past <+: now → G (.error error) none now) :
    (Program.transaction program committed aborted).Silent driver source pid G tx past := by
  have handled : (program.handle fun error => .rollback (aborted error) (.raise error)).Silent driver source pid
      (fun result tx past => match result with
        | .ok value => P (.ok value) tx past
        | .error error => G (.error error) tx past) tx past :=
    told.handle (fun value tx past holds => holds) fun error tx past holds now world turns =>
      raised error tx past now holds turns.later
  exact handled.bind returned fun error tx past holds => holds

end Program.Told

section Resting

variable (driver source) (pid)

/-- Wherever it starts, the program reports nothing. -/
def Program.Mute (program : Program Q Ans X E L A) : Prop :=
  ∀ tx past, program.Silent driver source pid (fun _ _ _ => True) tx past

/-- Between transactions the program reports nothing, and it ends between transactions. -/
def Program.Rests (program : Program Q Ans X E L A) : Prop :=
  ∀ past, program.Silent driver source pid (fun _ tx _ => tx = none) none past

variable {driver source pid}

namespace Program.Mute

theorem ret (value : A) : (.ret value : Program Q Ans X E L A).Mute driver source pid := fun _ _ => trivial

theorem raise (error : E) : (.raise error : Program Q Ans X E L A).Mute driver source pid := fun _ _ => trivial

theorem exec (q : Q) : (Program.exec q : Program Q Ans X E L (Ans q)).Mute driver source pid :=
  fun _ _ => .exec (fun _ _ _ _ _ _ _ _ _ => trivial) fun _ _ _ _ _ => trivial

theorem bind {next : A → Program Q Ans X E L B} (mute : program.Mute driver source pid)
    (rest : ∀ value, (next value).Mute driver source pid) : (program.bind next).Mute driver source pid :=
  fun tx past => (mute tx past).bind (fun value tx past _ => rest value tx past) fun _ _ _ _ => trivial

end Program.Mute

namespace Program.Rests

theorem ret (value : A) : (.ret value : Program Q Ans X E L A).Rests driver source pid := fun _ => rfl

theorem raise (error : E) : (.raise error : Program Q Ans X E L A).Rests driver source pid := fun _ => rfl

theorem await {next : X → Program Q Ans X E L A} (rests : ∀ choice, (next choice).Rests driver source pid) :
    (Program.await next).Rests driver source pid := fun past choice => rests choice past

theorem bind {next : A → Program Q Ans X E L B} (rests : program.Rests driver source pid)
    (rest : ∀ value, (next value).Rests driver source pid) : (program.bind next).Rests driver source pid := by
  refine fun past => (rests past).bind ?_ fun error tx past closed => closed
  rintro value tx past rfl
  exact rest value past

theorem transaction {committed : A → L} {aborted : E → L} (mute : program.Mute driver source pid) :
    (Program.transaction program committed aborted).Rests driver source pid :=
  fun past => (mute none past).transaction (fun _ _ _ _ _ _ _ => ⟨fun _ _ _ _ => rfl, fun _ _ => rfl⟩)
    fun _ _ _ _ _ _ => rfl

end Program.Rests

end Resting

section System

variable (driver source) (N : I → C → L → Program Q Ans X E L R → List (Action I M C D X E) → Prop)
  (P : I → C → Except E R → Option T → List (Action I M C D X E) → Prop)

/-- What is left of the call of a process is told from its last turn. -/
structure Proc.Told (now : List (Action I M C D X E)) (proc : Proc I M C T Q Ans X E L R) : Prop where
  closed : proc.program = none → proc.tx = none
  left : ∀ call program, proc.call = some call → proc.program = some program →
    ∃ past, past <+: now ∧ program.Told driver source proc.pid (N proc.pid call) (P proc.pid call) proc.tx past

variable {driver source N P} {next : World I M C S T Q Ans X E L R} {action : Action I M C D X E}
  {proc later : Proc I M C T Q Ans X E L R} {now : List (Action I M C D X E)}

private theorem Proc.Told.grow (told : proc.Told driver source N P now) (action : Action I M C D X E) :
    proc.Told driver source N P (now ++ [action]) where
  closed := told.closed
  left call program called present := by
    obtain ⟨past, later, left⟩ := told.left call program called present
    exact ⟨past, later.trans (List.prefix_append ..), left⟩

/-- A process at a statement that has a transaction afterwards has executed it. -/
private theorem exec_of_open {q : Q} {rest : Except E (Ans q) → Program Q Ans X E L R}
    (stepped : world.step driver action = some next) (acting : action.pid? = some proc.pid)
    (stored : world.proc? proc.pid = some proc) (running : proc.program = some (.query q rest))
    (found : next.proc? proc.pid = some later) (opened : later.tx.isSome = true) :
    ∃ turn, action = .exec proc.pid turn := by
  have closed : ∀ state (other : Proc I M C T Q Ans X E L R), other.pid = proc.pid → other.tx = none →
      world.set state other ≠ next := by
    rintro state other kept none rfl
    rw [World.proc?_set stored kept] at found
    cases found
    rw [none] at opened
    cases opened
  cases action with
  | spawn pid mode =>
    cases acting
    rw [World.step, stored] at stepped
    simp at stepped
  | start pid call =>
    cases acting
    rw [World.step, stored] at stepped
    simp [running] at stepped
  | exec pid choice =>
    cases acting
    exact ⟨choice, rfl⟩
  | fail pid error =>
    cases acting
    rw [World.step, stored] at stepped
    simp only [Option.bind_eq_bind, Option.bind_some, running, World.interrupt] at stepped
    split at stepped
    · exact absurd (Option.some.inj stepped) (closed _ _ rfl rfl)
    · cases stepped
  | lose pid error =>
    cases acting
    rw [World.step, stored] at stepped
    simp [running, World.loseAnswer] at stepped
  | finish pid =>
    cases acting
    rw [World.step, stored] at stepped
    simp [running, World.deliver] at stepped
  | move pid mode =>
    cases acting
    rw [World.step, stored] at stepped
    simp [running] at stepped
  | crash pid =>
    cases acting
    rw [World.step, stored] at stepped
    exact absurd (Option.some.inj stepped) (closed _ _ rfl rfl)
  | environment event => cases acting

/-- What is left of a program is told from the turn that its process has taken. -/
private theorem told_advances (ran : source.runActions driver now = some world)
    (stepped : world.step driver action = some next) (acting : action.pid? = some proc.pid)
    (stored : world.proc? proc.pid = some proc) {program left : Program Q Ans X E L R}
    (running : proc.program = some program) {tx : Option T} (found : next.proc? proc.pid = some later)
    (held : later.tx = tx) (advances : World.Advances driver world proc.pid program proc.tx left tx next.state) {call : C}
    {past : List (Action I M C D X E)} (before : past <+: now)
    (told : program.Told driver source proc.pid (N proc.pid call) (P proc.pid call) proc.tx past) :
    ∃ past, past <+: now ++ [action] ∧
      left.Told driver source proc.pid (N proc.pid call) (P proc.pid call) tx past := by
  have onward : source.runActions driver (now ++ [action]) = some next := by
    rw [World.runActions_append, ran, Option.bind_some, World.runActions_cons, stepped, Option.bind_some,
      World.runActions_nil]
  have turns : World.Turns driver source proc.pid program.query? proc.tx past now world :=
    ⟨ran, before, proc, Table.find?_mem stored, rfl, rfl, by rw [running]; rfl⟩
  generalize same : next.state = after at advances
  cases advances with
  | answered answered =>
    obtain ⟨turn, rfl⟩ := exec_of_open stepped acting stored running found (by rw [held]; rfl)
    exact ⟨_, List.prefix_refl _, (told now world turns).1 _ turn _ _ _ answered⟩
  | failed fails => exact ⟨now, List.prefix_append .., (told now world turns).2 _ fails⟩
  | committed => exact ⟨_, List.prefix_refl _, (told now world turns).1 action next onward same⟩
  | lost transient | uncommitted transient =>
    exact ⟨now, List.prefix_append .., (told now world turns).2 _ transient⟩
  | rolledBack => exact ⟨now, List.prefix_append .., told now world turns⟩
  | published => exact ⟨now, List.prefix_append .., (told now world turns).2⟩
  | chosen choice => exact ⟨past, before.trans (List.prefix_append ..), told choice⟩

end System

/-- At the end of a run, what is left of the call of a process is told from its last turn. -/
theorem World.told {N : I → C → L → Program Q Ans X E L R → List (Action I M C D X E) → Prop}
    {P : I → C → Except E R → Option T → List (Action I M C D X E) → Prop}
    (codes : ∀ pid call past, (driver.code pid call).Told driver source pid (N pid call) (P pid call) none past)
    (vacant : source.procs.rows = []) {now : List (Action I M C D X E)}
    (ran : source.runActions driver now = some world) :
    ∀ proc ∈ world.procs.rows, proc.Told driver source N P now := by
  induction now using List.reverseRecOn generalizing world with
  | nil =>
    cases ran
    rw [vacant]
    exact fun proc member => absurd member List.not_mem_nil
  | append_singleton now action ih =>
    rw [World.runActions_append] at ran
    obtain ⟨before, reached, stepped⟩ := Option.bind_eq_some_iff.mp ran
    rw [World.runActions_cons] at stepped
    obtain ⟨next, stepped, same⟩ := Option.bind_eq_some_iff.mp stepped
    cases same
    have all := ih reached
    intro other member
    cases World.step_turn stepped with
    | environment event => exact (all other member).grow _
    | @spawned pid mode absent spawns =>
      let new : Proc I M C T Q Ans X E L R := ⟨pid, mode, none, none, none⟩
      have unknown : before.procs.find? new.pid = none := absent
      change other ∈ (before.procs.insert new).rows at member
      rw [Table.rows_insert unknown, List.mem_append, List.mem_singleton] at member
      rcases member with kept | rfl
      · exact (all other kept).grow _
      · exact ⟨fun _ => rfl, fun call program called _ => by cases called⟩
    | @turned _ proc later after acting stored kept becomes =>
      have found : (before.set after later).proc? proc.pid = some later := World.proc?_set stored kept
      rcases (Table.mem_put (kept ▸ stored)).mp member with rfl | ⟨old, -⟩
      · have mine := all proc (Table.find?_mem stored)
        cases becomes with
        | same idle => exact absurd acting idle
        | started call free =>
          refine ⟨fun ended => (by cases ended), fun other program called present => ?_⟩
          cases called
          cases present
          rw [mine.closed free]
          exact ⟨_, List.prefix_refl _, codes proc.pid call _⟩
        | advanced running advances =>
          refine ⟨fun ended => (by cases ended), fun call program called present => ?_⟩
          cases present
          obtain ⟨past, earlier, told⟩ := mine.left call _ called running
          exact told_advances reached stepped acting stored running found rfl advances earlier told
        | finished | died => exact ⟨fun _ => rfl, fun call _ called _ => by cases called⟩
        | moved => exact ⟨mine.closed, (mine.grow _).left⟩
      · exact (all other old).grow _

end JobRelay.Sessions
