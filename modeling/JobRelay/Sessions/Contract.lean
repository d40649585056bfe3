import JobRelay.Sessions.Tracks

/-! # Rely and guarantee for interleaved transactions

A contract says what always holds of the committed state and of every open transaction, what a
process may rely on while others act, what it guarantees for each of its own changes, what holds
when it sends a query, and what holds when it is idle. `Safe` is the proof obligation of a program
under a contract: it is checked on the program alone, one query at a time, with the rely absorbed at
every point where others may act. `Sound` is the invariant of the interleaved system; `Sound.step`
reduces it to the obligation of each program and to the laws that tie guarantees to relies.
-/

namespace JobRelay.Sessions

structure Contract (I S T Q : Type) where
  Inv : S → Prop
  /-- What every statement keeps of an open transaction. -/
  Open : T → S → Prop
  /-- How the state may move under a process with this open transaction. -/
  Rely : I → Option T → S → S → Prop
  /-- How a process with this open transaction may move the state. -/
  Guar : I → Option T → S → S → Prop
  Pre : I → Q → Option T → S → Prop
  Idle : I → S → Prop

variable {I M C D S T Q : Type} {Ans : Q → Type} {X E L A B : Type}

/-- What a process with this open transaction sees of the state whenever it acts. -/
def Contract.Sees (contract : Contract I S T Q) (tx : Option T) (state : S) : Prop :=
  contract.Inv state ∧ ∀ opened, tx = some opened → contract.Open opened state

section Obligation

variable (driver : Driver I M C D S T Q Ans X E L B) (contract : Contract I S T Q) (pid : I)

/-- The obligation of a program that others may interrupt before each of its nodes. -/
def Safe (post : Except E A → Option T → S → Prop) : Program Q Ans X E L A → Option T → S → Prop
  | .ret value, tx, state =>
      ∀ now, contract.Rely pid tx state now → contract.Sees tx now → post (.ok value) tx now
  | .raise error, tx, state =>
      ∀ now, contract.Rely pid tx state now → contract.Sees tx now → post (.error error) tx now
  | .query q next, tx, state =>
      ∀ now, contract.Rely pid tx state now → contract.Sees tx now →
        contract.Pre pid q tx now ∧
        (∀ others choice answer after opened,
          driver.answer q now others choice (tx.getD (driver.start now)) = .ok (answer, after, opened) →
          (∀ other ∈ others, driver.compatible opened other = true) →
          contract.Guar pid (some opened) now after ∧
            Safe post (next (.ok answer)) (some opened) after) ∧
        ∀ error, driver.Fails q tx now error → Safe post (next (.error error)) none now
  | .commit label next, tx, state =>
      ∀ now, contract.Rely pid tx state now → contract.Sees tx now →
        (∀ opened, tx = some opened → contract.Guar pid tx now (driver.commit pid label opened now)) ∧
        Safe post (next (.ok ())) none (tx.elim now fun opened => driver.commit pid label opened now) ∧
        ∀ error, driver.transient error = true →
          Safe post (next (.error error)) none
              (tx.elim now fun opened => driver.commit pid label opened now) ∧
            Safe post (next (.error error)) none now
  | .rollback label next, tx, state =>
      ∀ now, contract.Rely pid tx state now → contract.Sees tx now →
        (∀ opened, tx = some opened → contract.Guar pid tx now (driver.publish pid label now)) ∧
        Safe post next none (tx.elim now fun _ => driver.publish pid label now)
  | .publish label next, tx, state =>
      ∀ now, contract.Rely pid tx state now → contract.Sees tx now →
        contract.Guar pid tx now (driver.publish pid label now) ∧
          Safe post next tx (driver.publish pid label now)
  | .await next, tx, state => ∀ choice, Safe post (next choice) tx state

end Obligation

/-- The laws by which one process's guarantee meets every other process's rely. -/
structure Contract.Lawful (contract : Contract I S T Q) (driver : Driver I M C D S T Q Ans X E L A) :
    Prop where
  rely_refl : ∀ pid tx state, contract.Rely pid tx state state
  rely_trans : ∀ {pid tx first middle last}, contract.Rely pid tx first middle →
    contract.Rely pid tx middle last → contract.Rely pid tx first last
  open_start : ∀ {state}, contract.Inv state → contract.Open (driver.start state) state
  open_answer : ∀ {q state others choice tx answer after opened}, contract.Inv state →
    contract.Open tx state → driver.answer q state others choice tx = .ok (answer, after, opened) →
    (∀ other ∈ others, driver.compatible opened other = true) → contract.Open opened after
  open_rely : ∀ {pid tx before after}, contract.Open tx before →
    contract.Rely pid (some tx) before after → contract.Open tx after
  open_publish : ∀ {tx state} pid label, contract.Open tx state →
    contract.Open tx (driver.publish pid label state)
  guar_inv : ∀ {pid tx before after}, contract.Inv before → contract.Guar pid tx before after →
    contract.Inv after
  guar_rely : ∀ {pid other tx open? before after}, pid ≠ other → contract.Inv before →
    contract.Guar pid tx before after →
    (∀ mine, tx = some mine → ∀ theirs, open? = some theirs → driver.compatible mine theirs = true) →
    contract.Rely other open? before after
  idle_rely : ∀ {pid before after}, contract.Idle pid before →
    contract.Rely pid none before after → contract.Idle pid after
  environment_inv : ∀ event {state}, contract.Inv state → contract.Inv (driver.environment event state)
  environment_rely : ∀ event {state} pid tx, contract.Inv state →
    contract.Rely pid tx state (driver.environment event state)
  compatible_comm : ∀ left right, driver.compatible left right = driver.compatible right left

/-- What a call owes: it ends with no open transaction, and idle if it returns. -/
def Contract.Done (contract : Contract I S T Q) (pid : I) (result : Except E A) (tx : Option T)
    (state : S) : Prop :=
  tx = none ∧ ((∃ value, result = .ok value) → contract.Idle pid state)

section Rules

variable {driver : Driver I M C D S T Q Ans X E L B} {contract : Contract I S T Q} {pid : I}
  {post : Except E A → Option T → S → Prop} {program : Program Q Ans X E L A} {tx : Option T}
  {before after : S}

/-- An obligation survives whatever the process relies on. -/
theorem Safe.rely (lawful : contract.Lawful driver) (safe : Safe driver contract pid post program tx before)
    (moved : contract.Rely pid tx before after) : Safe driver contract pid post program tx after := by
  induction program with
  | ret value => exact fun now later => safe now (lawful.rely_trans moved later)
  | raise error => exact fun now later => safe now (lawful.rely_trans moved later)
  | query q next => exact fun now later => safe now (lawful.rely_trans moved later)
  | commit label next => exact fun now later => safe now (lawful.rely_trans moved later)
  | rollback label next => exact fun now later => safe now (lawful.rely_trans moved later)
  | publish label next => exact fun now later => safe now (lawful.rely_trans moved later)
  | await next ih => exact fun choice => ih choice (safe choice)

/-- It suffices to meet the obligation in every state others can lead to. -/
theorem Safe.of_rely (lawful : contract.Lawful driver)
    (safe : ∀ now, contract.Rely pid tx before now → contract.Sees tx now →
      Safe driver contract pid post program tx now) : Safe driver contract pid post program tx before := by
  induction program with
  | ret value => exact fun now moved inv => safe now moved inv now (lawful.rely_refl ..) inv
  | raise error => exact fun now moved inv => safe now moved inv now (lawful.rely_refl ..) inv
  | query q next => exact fun now moved inv => safe now moved inv now (lawful.rely_refl ..) inv
  | commit label next => exact fun now moved inv => safe now moved inv now (lawful.rely_refl ..) inv
  | rollback label next => exact fun now moved inv => safe now moved inv now (lawful.rely_refl ..) inv
  | publish label next => exact fun now moved inv => safe now moved inv now (lawful.rely_refl ..) inv
  | await next ih => exact fun choice => ih choice fun now moved inv => safe now moved inv choice

theorem Safe.weaken {stronger : Except E A → Option T → S → Prop}
    (safe : Safe driver contract pid stronger program tx before)
    (implies : ∀ result tx state, contract.Sees tx state → stronger result tx state → post result tx state) :
    Safe driver contract pid post program tx before := by
  induction program generalizing tx before with
  | ret value => exact fun now moved inv => implies _ _ _ inv (safe now moved inv)
  | raise error => exact fun now moved inv => implies _ _ _ inv (safe now moved inv)
  | query q next ih =>
    intro now moved inv
    obtain ⟨pre, answered, failed⟩ := safe now moved inv
    refine ⟨pre, ?_, fun error fails => ih _ (failed error fails)⟩
    intro others choice answer next opened ran apart
    obtain ⟨guar, rest⟩ := answered others choice answer next opened ran apart
    exact ⟨guar, ih _ rest⟩
  | commit label next ih =>
    intro now moved inv
    obtain ⟨guar, committed, lost⟩ := safe now moved inv
    exact ⟨guar, ih _ committed, fun error transient =>
      ⟨ih _ (lost error transient).1, ih _ (lost error transient).2⟩⟩
  | rollback label next ih =>
    intro now moved inv
    exact ⟨(safe now moved inv).1, ih (safe now moved inv).2⟩
  | publish label next ih =>
    intro now moved inv
    exact ⟨(safe now moved inv).1, ih (safe now moved inv).2⟩
  | await next ih => exact fun choice => ih choice (safe choice)

/-- Sequencing: the second program starts from what the first one establishes. -/
theorem Safe.bind {B' : Type} {next : A → Program Q Ans X E L B'}
    {goal : Except E B' → Option T → S → Prop} (lawful : contract.Lawful driver)
    (safe : Safe driver contract pid post program tx before)
    (returned : ∀ value tx state, contract.Sees tx state → post (.ok value) tx state →
      Safe driver contract pid goal (next value) tx state)
    (raised : ∀ error tx state, contract.Sees tx state → post (.error error) tx state →
      goal (.error error) tx state) :
    Safe driver contract pid goal (program.bind next) tx before := by
  induction program generalizing tx before with
  | ret value =>
    exact Safe.of_rely lawful fun now moved inv => returned value tx now inv (safe now moved inv)
  | raise error => exact fun now moved inv => raised error tx now inv (safe now moved inv)
  | query q rest ih =>
    intro now moved inv
    obtain ⟨pre, answered, failed⟩ := safe now moved inv
    refine ⟨pre, ?_, fun error fails => ih _ (failed error fails)⟩
    intro others choice answer next opened ran apart
    obtain ⟨guar, rest⟩ := answered others choice answer next opened ran apart
    exact ⟨guar, ih _ rest⟩
  | commit label rest ih =>
    intro now moved inv
    obtain ⟨guar, committed, lost⟩ := safe now moved inv
    exact ⟨guar, ih _ committed, fun error transient =>
      ⟨ih _ (lost error transient).1, ih _ (lost error transient).2⟩⟩
  | rollback label rest ih =>
    intro now moved inv
    exact ⟨(safe now moved inv).1, ih (safe now moved inv).2⟩
  | publish label rest ih =>
    intro now moved inv
    exact ⟨(safe now moved inv).1, ih (safe now moved inv).2⟩
  | await rest ih => exact fun choice => ih choice (safe choice)

/-- Handling: the handler starts from what an exception leaves. -/
theorem Safe.handle {handler : E → Program Q Ans X E L A} {goal : Except E A → Option T → S → Prop}
    (lawful : contract.Lawful driver) (safe : Safe driver contract pid post program tx before)
    (returned : ∀ value tx state, contract.Sees tx state → post (.ok value) tx state →
      goal (.ok value) tx state)
    (raised : ∀ error tx state, contract.Sees tx state → post (.error error) tx state →
      Safe driver contract pid goal (handler error) tx state) :
    Safe driver contract pid goal (program.handle handler) tx before := by
  induction program generalizing tx before with
  | ret value => exact fun now moved inv => returned value tx now inv (safe now moved inv)
  | raise error =>
    exact Safe.of_rely lawful fun now moved inv => raised error tx now inv (safe now moved inv)
  | query q rest ih =>
    intro now moved inv
    obtain ⟨pre, answered, failed⟩ := safe now moved inv
    refine ⟨pre, ?_, fun error fails => ih _ (failed error fails)⟩
    intro others choice answer next opened ran apart
    obtain ⟨guar, rest⟩ := answered others choice answer next opened ran apart
    exact ⟨guar, ih _ rest⟩
  | commit label rest ih =>
    intro now moved inv
    obtain ⟨guar, committed, lost⟩ := safe now moved inv
    exact ⟨guar, ih _ committed, fun error transient =>
      ⟨ih _ (lost error transient).1, ih _ (lost error transient).2⟩⟩
  | rollback label rest ih =>
    intro now moved inv
    exact ⟨(safe now moved inv).1, ih (safe now moved inv).2⟩
  | publish label rest ih =>
    intro now moved inv
    exact ⟨(safe now moved inv).1, ih (safe now moved inv).2⟩
  | await rest ih => exact fun choice => ih choice (safe choice)

end Rules

section System

variable [DecidableEq I]

/-- The invariant of an interleaved system under a contract. -/
structure Sound (driver : Driver I M C D S T Q Ans X E L A) (contract : Contract I S T Q)
    (world : World I M C S T Q Ans X E L A) : Prop where
  inv : contract.Inv world.state
  unused : ∀ pid, world.proc? pid = none → contract.Idle pid world.state
  resting : ∀ proc ∈ world.procs.rows, proc.program = none →
    proc.tx = none ∧ (proc.mode = driver.dead ∨ contract.Idle proc.pid world.state)
  running : ∀ proc ∈ world.procs.rows, ∀ program, proc.program = some program →
    Safe driver contract proc.pid (contract.Done proc.pid) program proc.tx world.state
  opened : ∀ proc ∈ world.procs.rows, ∀ tx, proc.tx = some tx → contract.Open tx world.state
  apart : ∀ proc ∈ world.procs.rows, ∀ other ∈ world.procs.rows, proc.pid ≠ other.pid →
    ∀ mine, proc.tx = some mine → ∀ theirs, other.tx = some theirs →
      driver.compatible mine theirs = true

variable {driver : Driver I M C D S T Q Ans X E L A} {contract : Contract I S T Q}
  {world : World I M C S T Q Ans X E L A}

theorem World.mem_others {pid : I} {tx : T} :
    tx ∈ world.others pid ↔ ∃ other ∈ world.procs.rows, other.pid ≠ pid ∧ other.tx = some tx := by
  simp only [World.others, List.mem_filterMap]
  constructor
  · rintro ⟨other, member, found⟩
    split at found
    · cases found
    · next distinct => exact ⟨other, member, distinct, found⟩
  · rintro ⟨other, member, distinct, found⟩
    exact ⟨other, member, by rw [if_neg distinct, found]⟩

private theorem Sound.sees (sound : Sound driver contract world) {proc : Proc I M C T Q Ans X E L A}
    (member : proc ∈ world.procs.rows) : contract.Sees proc.tx world.state :=
  ⟨sound.inv, sound.opened proc member⟩

/-- Replacing one process: it meets its own obligation and the others keep theirs by relying. -/
private theorem Sound.replace (lawful : contract.Lawful driver) (sound : Sound driver contract world)
    {old proc : Proc I M C T Q Ans X E L A} {state : S} (stored : world.proc? proc.pid = some old)
    (inv : contract.Inv state)
    (others : ∀ other ∈ world.procs.rows, other.pid ≠ proc.pid →
      contract.Rely other.pid other.tx world.state state)
    (strangers : ∀ pid, world.proc? pid = none → contract.Rely pid none world.state state)
    (resting : proc.program = none →
      proc.tx = none ∧ (proc.mode = driver.dead ∨ contract.Idle proc.pid state))
    (running : ∀ program, proc.program = some program →
      Safe driver contract proc.pid (contract.Done proc.pid) program proc.tx state)
    (opened : ∀ tx, proc.tx = some tx → contract.Open tx state)
    (apart : ∀ mine, proc.tx = some mine → ∀ theirs ∈ world.others proc.pid,
      driver.compatible mine theirs = true) : Sound driver contract (world.set state proc) := by
  refine ⟨inv, ?_, ?_, ?_, ?_, ?_⟩
  · intro pid absent
    have distinct : proc.pid ≠ pid := by
      rintro rfl
      rw [World.proc?, World.set, Table.find?_put_self stored] at absent
      cases absent
    rw [World.proc?, World.set, Table.find?_put_ne distinct] at absent
    exact lawful.idle_rely (sound.unused pid absent) (strangers pid absent)
  · intro other member idle
    rcases (Table.mem_put stored).mp member with rfl | ⟨kept, distinct⟩
    · exact resting idle
    · obtain ⟨closed, dead | rests⟩ := sound.resting other kept idle
      · exact ⟨closed, .inl dead⟩
      · exact ⟨closed, .inr (lawful.idle_rely rests (closed ▸ others other kept distinct))⟩
  · intro other member program present
    rcases (Table.mem_put stored).mp member with rfl | ⟨kept, distinct⟩
    · exact running program present
    · exact (sound.running other kept program present).rely lawful (others other kept distinct)
  · intro other member tx held
    rcases (Table.mem_put stored).mp member with rfl | ⟨kept, distinct⟩
    · exact opened tx held
    · exact lawful.open_rely (sound.opened other kept tx held) (held ▸ others other kept distinct)
  · intro left inLeft right inRight distinct mine held theirs isOpen
    rcases (Table.mem_put stored).mp inLeft with rfl | ⟨keptLeft, leftDistinct⟩
    · rcases (Table.mem_put stored).mp inRight with rfl | ⟨keptRight, rightDistinct⟩
      · exact absurd rfl distinct
      · exact apart mine held theirs (World.mem_others.mpr ⟨right, keptRight, rightDistinct, isOpen⟩)
    · rcases (Table.mem_put stored).mp inRight with rfl | ⟨keptRight, rightDistinct⟩
      · rw [lawful.compatible_comm]
        exact apart theirs isOpen mine (World.mem_others.mpr ⟨left, keptLeft, leftDistinct, held⟩)
      · exact sound.apart left keptLeft right keptRight distinct mine held theirs isOpen

/-- How one action moved the committed state. -/
inductive Moved (driver : Driver I M C D S T Q Ans X E L A) (contract : Contract I S T Q)
    (world : World I M C S T Q Ans X E L A) (action : Action I M C D X E) (state : S) : Prop where
  | same (unchanged : state = world.state)
  | guar (pid : I) (tx : Option T) (acting : action.pid? = some pid)
      (guar : contract.Guar pid tx world.state state)
      (free : ∀ mine, tx = some mine → ∀ theirs ∈ world.others pid,
        driver.compatible mine theirs = true)
  | environment (event : D) (acting : action = .environment event)
      (moved : state = driver.environment event world.state)

/-- One process moves the state under its guarantee, or leaves it as it was. -/
private theorem Sound.advance (lawful : contract.Lawful driver) (sound : Sound driver contract world)
    {old proc : Proc I M C T Q Ans X E L A} {state : S} {action : Action I M C D X E}
    (stored : world.proc? proc.pid = some old) (acting : action.pid? = some proc.pid)
    (moved : Moved driver contract world action state)
    (resting : proc.program = none →
      proc.tx = none ∧ (proc.mode = driver.dead ∨ contract.Idle proc.pid state))
    (running : ∀ program, proc.program = some program →
      Safe driver contract proc.pid (contract.Done proc.pid) program proc.tx state)
    (opened : ∀ tx, proc.tx = some tx → contract.Open tx state)
    (apart : ∀ mine, proc.tx = some mine → ∀ theirs ∈ world.others proc.pid,
      driver.compatible mine theirs = true) : Sound driver contract (world.set state proc) := by
  cases moved with
  | same unchanged =>
    subst unchanged
    exact sound.replace lawful stored sound.inv (fun _ _ _ => lawful.rely_refl ..)
      (fun _ _ => lawful.rely_refl ..) resting running opened apart
  | environment event same => rw [same] at acting; cases acting
  | guar pid tx same guar free =>
    rw [acting] at same
    cases same
    refine sound.replace lawful stored (lawful.guar_inv sound.inv guar) ?_ ?_ resting running opened apart
    · intro other member distinct
      refine lawful.guar_rely (Ne.symm distinct) sound.inv guar fun mine held theirs isOpen => ?_
      exact free mine held theirs (World.mem_others.mpr ⟨other, member, distinct, isOpen⟩)
    · intro pid absent
      have distinct : proc.pid ≠ pid := by
        rintro rfl
        rw [stored] at absent
        cases absent
      exact lawful.guar_rely distinct sound.inv guar fun _ _ _ isOpen => by cases isOpen

private theorem Sound.others_apart (sound : Sound driver contract world) {proc : Proc I M C T Q Ans X E L A}
    (member : proc ∈ world.procs.rows) (mine : T) (held : proc.tx = some mine) :
    ∀ theirs ∈ world.others proc.pid, driver.compatible mine theirs = true := by
  intro theirs open?
  obtain ⟨other, inRows, distinct, isOpen⟩ := World.mem_others.mp open?
  exact sound.apart proc member other inRows (Ne.symm distinct) mine held theirs isOpen

/-- A process that runs on after a change of state of its own. -/
private theorem Sound.resume (lawful : contract.Lawful driver) (sound : Sound driver contract world)
    {proc : Proc I M C T Q Ans X E L A} (member : proc ∈ world.procs.rows)
    {action : Action I M C D X E} (acting : action.pid? = some proc.pid)
    {call : Option C} {program : Program Q Ans X E L A} {tx : Option T} {state : S}
    (moved : Moved driver contract world action state)
    (safe : Safe driver contract proc.pid (contract.Done proc.pid) program tx state)
    (opened : ∀ mine, tx = some mine → contract.Open mine state)
    (apart : ∀ mine, tx = some mine → ∀ theirs ∈ world.others proc.pid,
      driver.compatible mine theirs = true) :
    Sound driver contract (world.set state { proc with call := call, program := some program, tx := tx }) := by
  have stored : world.proc? proc.pid = some proc := Table.mem_rows_iff.mp member
  refine sound.advance lawful stored acting moved ?_ ?_ opened apart
  · intro absent
    cases absent
  · intro other present
    cases present
    exact safe

private theorem Sound.execute (lawful : contract.Lawful driver) (sound : Sound driver contract world)
    {proc : Proc I M C T Q Ans X E L A} (member : proc ∈ world.procs.rows) {choice : X}
    {program : Program Q Ans X E L A} (present : proc.program = some program)
    {next : World I M C S T Q Ans X E L A} (ran : world.execute driver proc choice program = some next) :
    Sound driver contract next ∧ Moved driver contract world (.exec proc.pid choice) next.state := by
  have safe := sound.running proc member program present
  have refl := lawful.rely_refl proc.pid proc.tx world.state
  have mine := sound.others_apart member
  cases program with
  | ret value => cases ran
  | raise error => cases ran
  | query q rest =>
    obtain ⟨_, answered, failed⟩ := safe _ refl (sound.sees member)
    simp only [World.execute] at ran
    split at ran
    · next answer after opened result =>
      split at ran
      · next free =>
        cases ran
        rw [List.all_eq_true] at free
        obtain ⟨guar, later⟩ := answered _ _ _ _ _ result free
        have kept : contract.Open opened after := by
          refine lawful.open_answer sound.inv ?_ result free
          cases open? : proc.tx with
          | none => exact lawful.open_start sound.inv
          | some tx => exact sound.opened proc member tx open?
        have moved : Moved driver contract world (.exec proc.pid choice) after :=
          .guar proc.pid (some opened) rfl guar fun _ same => by cases same; exact free
        exact ⟨sound.resume lawful member rfl moved later (fun _ same => by cases same; exact kept)
          (fun _ same => by cases same; exact free), moved⟩
      · cases ran
    · next error result =>
      cases ran
      have moved : Moved driver contract world (.exec proc.pid choice) world.state := .same rfl
      exact ⟨sound.resume lawful member rfl moved (failed error (.inr ⟨_, _, result⟩))
        (fun _ same => by cases same) (fun _ same => by cases same), moved⟩
  | commit label rest =>
    obtain ⟨guar, committed, _⟩ := safe _ refl (sound.sees member)
    cases ran
    have moved : Moved driver contract world (.exec proc.pid choice)
        (proc.tx.elim world.state fun tx => driver.commit proc.pid label tx world.state) := by
      cases open? : proc.tx with
      | none => exact .same rfl
      | some opened =>
        rw [open?] at guar mine
        exact .guar proc.pid (some opened) rfl (guar opened rfl) mine
    exact ⟨sound.resume lawful member rfl moved committed (fun _ same => by cases same)
      (fun _ same => by cases same), moved⟩
  | rollback label rest =>
    obtain ⟨guar, later⟩ := safe _ refl (sound.sees member)
    cases ran
    have moved : Moved driver contract world (.exec proc.pid choice)
        (proc.tx.elim world.state fun _ => driver.publish proc.pid label world.state) := by
      cases open? : proc.tx with
      | none => exact .same rfl
      | some opened =>
        rw [open?] at guar mine
        exact .guar proc.pid (some opened) rfl (guar opened rfl) mine
    exact ⟨sound.resume lawful member rfl moved later (fun _ same => by cases same)
      (fun _ same => by cases same), moved⟩
  | publish label rest =>
    obtain ⟨guar, later⟩ := safe _ refl (sound.sees member)
    cases ran
    have moved : Moved driver contract world (.exec proc.pid choice)
        (driver.publish proc.pid label world.state) := .guar proc.pid proc.tx rfl guar mine
    exact ⟨sound.resume lawful member rfl moved later (fun tx held =>
      lawful.open_publish _ _ (sound.opened proc member tx held)) mine, moved⟩
  | await rest =>
    cases ran
    have moved : Moved driver contract world (.exec proc.pid choice) world.state := .same rfl
    exact ⟨sound.resume lawful member rfl moved (safe choice) (sound.opened proc member) mine, moved⟩

private theorem Sound.interrupt (lawful : contract.Lawful driver) (sound : Sound driver contract world)
    {proc : Proc I M C T Q Ans X E L A} (member : proc ∈ world.procs.rows) {error : E}
    (transient : driver.transient error = true) {program : Program Q Ans X E L A}
    (present : proc.program = some program) {next : World I M C S T Q Ans X E L A}
    (ran : world.interrupt proc error program = some next) :
    Sound driver contract next ∧ Moved driver contract world (.fail proc.pid error) next.state := by
  have safe := sound.running proc member program present
  have refl := lawful.rely_refl proc.pid proc.tx world.state
  have moved : Moved driver contract world (.fail proc.pid error) world.state := .same rfl
  cases program with
  | query q rest =>
    cases ran
    exact ⟨sound.resume lawful member rfl moved ((safe _ refl (sound.sees member)).2.2 error (.inl transient))
      (fun _ same => by cases same) (fun _ same => by cases same), moved⟩
  | commit label rest =>
    cases ran
    exact ⟨sound.resume lawful member rfl moved ((safe _ refl (sound.sees member)).2.2 error transient).2
      (fun _ same => by cases same) (fun _ same => by cases same), moved⟩
  | _ => cases ran

private theorem Sound.loseAnswer (lawful : contract.Lawful driver) (sound : Sound driver contract world)
    {proc : Proc I M C T Q Ans X E L A} (member : proc ∈ world.procs.rows) {error : E}
    (transient : driver.transient error = true) {program : Program Q Ans X E L A}
    (present : proc.program = some program) {next : World I M C S T Q Ans X E L A}
    (ran : world.loseAnswer driver proc error program = some next) :
    Sound driver contract next ∧ Moved driver contract world (.lose proc.pid error) next.state := by
  have safe := sound.running proc member program present
  have refl := lawful.rely_refl proc.pid proc.tx world.state
  have mine := sound.others_apart member
  cases program with
  | commit label rest =>
    obtain ⟨guar, _, lost⟩ := safe _ refl (sound.sees member)
    cases ran
    have moved : Moved driver contract world (.lose proc.pid error)
        (proc.tx.elim world.state fun tx => driver.commit proc.pid label tx world.state) := by
      cases open? : proc.tx with
      | none => exact .same rfl
      | some opened =>
        rw [open?] at guar mine
        exact .guar proc.pid (some opened) rfl (guar opened rfl) mine
    exact ⟨sound.resume lawful member rfl moved (lost error transient).1
      (fun _ same => by cases same) (fun _ same => by cases same), moved⟩
  | _ => cases ran

private theorem Sound.deliver (lawful : contract.Lawful driver) (sound : Sound driver contract world)
    {proc : Proc I M C T Q Ans X E L A} (member : proc ∈ world.procs.rows)
    {program : Program Q Ans X E L A} (present : proc.program = some program)
    {next : World I M C S T Q Ans X E L A} (ran : world.deliver driver proc program = some next) :
    Sound driver contract next ∧ Moved driver contract world (.finish proc.pid) next.state := by
  have safe := sound.running proc member program present
  have refl := lawful.rely_refl proc.pid proc.tx world.state
  have stored : world.proc? proc.pid = some proc := Table.mem_rows_iff.mp member
  have moved : Moved driver contract world (.finish proc.pid) world.state := .same rfl
  cases program with
  | ret value =>
    cases ran
    obtain ⟨_, idle⟩ := safe _ refl (sound.sees member)
    refine ⟨sound.advance lawful stored rfl moved
      (fun _ => ⟨rfl, .inr (idle ⟨value, rfl⟩)⟩) ?_ ?_ ?_, moved⟩ <;> intro _ same <;> cases same
  | raise error =>
    cases ran
    refine ⟨sound.advance lawful stored rfl moved (fun _ => ⟨rfl, .inl rfl⟩) ?_ ?_ ?_, moved⟩ <;>
      intro _ same <;> cases same
  | _ => cases ran

/-- The obligation of every call that an idle process may start. -/
def CallsSafe (driver : Driver I M C D S T Q Ans X E L A) (contract : Contract I S T Q) : Prop :=
  ∀ pid mode call state, driver.starts mode call = true → mode ≠ driver.dead →
    contract.Inv state → contract.Idle pid state →
    Safe driver contract pid (contract.Done pid) (driver.code pid call) none state

/-- One action keeps a sound system sound, and moves the state only as some process guarantees. -/
theorem Sound.step (lawful : contract.Lawful driver) (calls : CallsSafe driver contract)
    (undead : ∀ call, driver.starts driver.dead call = false)
    (buried : ∀ state mode, driver.moves state driver.dead mode = false)
    (sound : Sound driver contract world) {action : Action I M C D X E}
    {next : World I M C S T Q Ans X E L A} (stepped : world.step driver action = some next) :
    Sound driver contract next ∧ Moved driver contract world action next.state := by
  cases action with
  | spawn pid mode =>
    simp only [World.step] at stepped
    split at stepped
    · next allowed =>
      cases stepped
      rw [Bool.and_eq_true, Option.isNone_iff_eq_none] at allowed
      have absent : world.procs.find? pid = none := allowed.1
      have rows : (world.procs.insert (⟨pid, mode, none, none, none⟩ : Proc I M C T Q Ans X E L A)).rows =
          world.procs.rows ++ [⟨pid, mode, none, none, none⟩] := Table.rows_insert absent
      refine ⟨⟨sound.inv, ?_, ?_, ?_, ?_, ?_⟩, .same rfl⟩
      · intro other unused
        refine sound.unused other ?_
        by_cases same : pid = other
        · exact same ▸ absent
        · have kept : (world.procs.insert (⟨pid, mode, none, none, none⟩ : Proc I M C T Q Ans X E L A)).find? other =
              world.procs.find? other := Table.find?_insert_ne same
          exact kept.symm.trans unused
      · intro proc member idle
        rw [rows, List.mem_append, List.mem_singleton] at member
        rcases member with kept | rfl
        · exact sound.resting proc kept idle
        · exact ⟨rfl, .inr (sound.unused pid absent)⟩
      · intro proc member program present
        rw [rows, List.mem_append, List.mem_singleton] at member
        rcases member with kept | rfl
        · exact sound.running proc kept program present
        · cases present
      · intro proc member tx held
        rw [rows, List.mem_append, List.mem_singleton] at member
        rcases member with kept | rfl
        · exact sound.opened proc kept tx held
        · cases held
      · intro left inLeft right inRight distinct mine held theirs isOpen
        rw [rows, List.mem_append, List.mem_singleton] at inLeft inRight
        rcases inLeft with keptLeft | rfl
        · rcases inRight with keptRight | rfl
          · exact sound.apart left keptLeft right keptRight distinct mine held theirs isOpen
          · cases isOpen
        · cases held
    · cases stepped
  | start pid call =>
    obtain ⟨proc, stored, ran⟩ := Option.bind_eq_some_iff.mp stepped
    split at ran
    · next allowed =>
      cases ran
      rw [Bool.and_eq_true, Option.isNone_iff_eq_none] at allowed
      obtain rfl : proc.pid = pid := Table.find?_key stored
      have member : proc ∈ world.procs.rows := Table.find?_mem stored
      obtain ⟨closed, rests⟩ := sound.resting proc member allowed.1
      have alive : proc.mode ≠ driver.dead := by
        intro dead
        have allowed := allowed.2
        rw [dead, undead] at allowed
        cases allowed
      have safe := calls proc.pid proc.mode call world.state allowed.2 alive sound.inv
        (rests.resolve_left alive)
      have moved : Moved driver contract world (.start proc.pid call) world.state := .same rfl
      rw [← closed] at safe
      exact ⟨sound.resume lawful member rfl moved safe (sound.opened proc member)
        (sound.others_apart member), moved⟩
    · cases ran
  | exec pid choice =>
    obtain ⟨proc, stored, running⟩ := Option.bind_eq_some_iff.mp stepped
    obtain ⟨program, present, ran⟩ := Option.bind_eq_some_iff.mp running
    obtain rfl : proc.pid = pid := Table.find?_key stored
    exact sound.execute lawful (Table.find?_mem stored) present ran
  | fail pid error =>
    obtain ⟨proc, stored, running⟩ := Option.bind_eq_some_iff.mp stepped
    obtain ⟨program, present, ran⟩ := Option.bind_eq_some_iff.mp running
    obtain rfl : proc.pid = pid := Table.find?_key stored
    split at ran
    · next transient => exact sound.interrupt lawful (Table.find?_mem stored) transient present ran
    · cases ran
  | lose pid error =>
    obtain ⟨proc, stored, running⟩ := Option.bind_eq_some_iff.mp stepped
    obtain ⟨program, present, ran⟩ := Option.bind_eq_some_iff.mp running
    obtain rfl : proc.pid = pid := Table.find?_key stored
    split at ran
    · next transient => exact sound.loseAnswer lawful (Table.find?_mem stored) transient present ran
    · cases ran
  | finish pid =>
    obtain ⟨proc, stored, running⟩ := Option.bind_eq_some_iff.mp stepped
    obtain ⟨program, present, ran⟩ := Option.bind_eq_some_iff.mp running
    obtain rfl : proc.pid = pid := Table.find?_key stored
    exact sound.deliver lawful (Table.find?_mem stored) present ran
  | move pid mode =>
    obtain ⟨proc, stored, ran⟩ := Option.bind_eq_some_iff.mp stepped
    split at ran
    · next allowed =>
      cases ran
      rw [Bool.and_eq_true, Option.isNone_iff_eq_none] at allowed
      obtain rfl : proc.pid = pid := Table.find?_key stored
      have member : proc ∈ world.procs.rows := Table.find?_mem stored
      obtain ⟨closed, rests⟩ := sound.resting proc member allowed.1
      have alive : proc.mode ≠ driver.dead := by
        intro dead
        have allowed := allowed.2
        rw [dead, buried] at allowed
        cases allowed
      have moved : Moved driver contract world (.move proc.pid mode) world.state := .same rfl
      refine ⟨sound.advance lawful stored rfl moved
        (fun _ => ⟨closed, .inr (rests.resolve_left alive)⟩) ?_ (sound.opened proc member) ?_, moved⟩
      · intro program present
        rw [allowed.1] at present
        cases present
      · intro mine held
        rw [closed] at held
        cases held
    · cases ran
  | crash pid =>
    obtain ⟨proc, stored, ran⟩ := Option.bind_eq_some_iff.mp stepped
    cases ran
    obtain rfl : proc.pid = pid := Table.find?_key stored
    have moved : Moved driver contract world (.crash proc.pid) world.state := .same rfl
    refine ⟨sound.advance lawful stored rfl moved (fun _ => ⟨rfl, .inl rfl⟩) ?_ ?_ ?_, moved⟩ <;>
      intro _ same <;> cases same
  | environment event =>
    cases stepped
    have rely := fun pid tx => lawful.environment_rely event pid tx sound.inv
    refine ⟨⟨lawful.environment_inv event sound.inv, ?_, ?_, ?_, ?_, sound.apart⟩,
      .environment event rfl rfl⟩
    · exact fun pid absent => lawful.idle_rely (sound.unused pid absent) (rely pid none)
    · intro proc member idle
      obtain ⟨closed, dead | rests⟩ := sound.resting proc member idle
      · exact ⟨closed, .inl dead⟩
      · exact ⟨closed, .inr (lawful.idle_rely rests (rely proc.pid none))⟩
    · exact fun proc member program present =>
        (sound.running proc member program present).rely lawful (rely proc.pid proc.tx)
    · exact fun proc member tx held =>
        lawful.open_rely (sound.opened proc member tx held) (rely proc.pid (some tx))

/-- Every world that a sound one reaches is sound. -/
theorem Sound.reaches (lawful : contract.Lawful driver) (calls : CallsSafe driver contract)
    (undead : ∀ call, driver.starts driver.dead call = false)
    (buried : ∀ state mode, driver.moves state driver.dead mode = false)
    (sound : Sound driver contract world) {target : World I M C S T Q Ans X E L A}
    (reached : World.Reaches driver world target) : Sound driver contract target :=
  reached.preserves sound fun _ _ _ sound stepped => (sound.step lawful calls undead buried stepped).1

/-- What guarantees and the environment preserve holds along every run of a sound world. -/
theorem Sound.preserves (lawful : contract.Lawful driver) (calls : CallsSafe driver contract)
    (undead : ∀ call, driver.starts driver.dead call = false)
    (buried : ∀ state mode, driver.moves state driver.dead mode = false)
    (sound : Sound driver contract world) {target : World I M C S T Q Ans X E L A}
    (reached : World.Reaches driver world target) {P : S → Prop} (initial : P world.state)
    (guar : ∀ {pid tx before after}, contract.Inv before → contract.Guar pid tx before after →
      P before → P after)
    (environment : ∀ event {state}, P state → P (driver.environment event state)) : P target.state := by
  have both : Sound driver contract target ∧ P target.state := by
    refine reached.preserves (P := fun world => Sound driver contract world ∧ P world.state)
      ⟨sound, initial⟩ ?_
    rintro world action next ⟨sound, holds⟩ stepped
    obtain ⟨kept, moved⟩ := sound.step lawful calls undead buried stepped
    refine ⟨kept, ?_⟩
    cases moved with
    | same unchanged => rw [unchanged]; exact holds
    | guar pid tx _ moved _ => exact guar sound.inv moved holds
    | environment event _ same => rw [same]; exact environment event holds
  exact both.2

end System

end JobRelay.Sessions
