import JobRelay.Sessions.Tracks

/-! # What is left of a running call

Between two steps of a call only the rest of its program is left. `Always` holds of a program when a
property holds of it and of everything that may be left of it later, along with whether the transaction
is open and what the call has reported. `World.always` carries it from the code of the calls to the
processes of every reachable world.
-/

namespace JobRelay.Sessions

variable {I M C D S T Q : Type} {Ans : Q → Type} {X E L A B : Type}

/-- Where a call stands: whether its transaction is open, and what it has reported. -/
structure Standing (L : Type) where
  isOpen : Bool
  reported : List L

namespace Standing

/-- A label counts as reported if there was a transaction to end. -/
def ended (standing : Standing L) (label : L) : List L :=
  if standing.isOpen then standing.reported ++ [label] else standing.reported

end Standing

namespace Program

/-- The label that a program reports next. -/
def label? : Program Q Ans X E L A → Option L
  | .commit label _ | .rollback label _ | .publish label _ => some label
  | _ => none

/-- The statement that a program sends next. -/
def query? : Program Q Ans X E L A → Option Q
  | .query q _ => some q
  | _ => none

theorem query?_eq_some {program : Program Q Ans X E L A} {q : Q} (sends : program.query? = some q) :
    ∃ next, program = .query q next := by
  cases program with
  | query _ next => cases sends; exact ⟨next, rfl⟩
  | _ => cases sends

section Always

variable (F : E → Prop) (P : Standing L → Program Q Ans X E L A → Prop)

/-- The property holds now and of all that is left later, if statements fail only with errors of `F`. -/
def Always : Program Q Ans X E L A → Standing L → Prop
  | .ret value, standing => P standing (.ret value)
  | .raise error, standing => P standing (.raise error)
  | .query q next, standing => P standing (.query q next) ∧
      (∀ answer, (next (.ok answer)).Always ⟨true, standing.reported⟩) ∧
      ∀ error, F error → (next (.error error)).Always ⟨false, standing.reported⟩
  | .commit label next, standing => P standing (.commit label next) ∧
      (next (.ok ())).Always ⟨false, standing.ended label⟩ ∧
      ∀ error, F error → (next (.error error)).Always ⟨false, standing.reported⟩ ∧
        (next (.error error)).Always ⟨false, standing.ended label⟩
  | .rollback label next, standing => P standing (.rollback label next) ∧
      next.Always ⟨false, standing.ended label⟩
  | .publish label next, standing => P standing (.publish label next) ∧
      next.Always ⟨standing.isOpen, standing.reported ++ [label]⟩
  | .await next, standing => P standing (.await next) ∧ ∀ choice, (next choice).Always standing

end Always

variable {F : E → Prop} {P : Standing L → Program Q Ans X E L A → Prop}

theorem Always.here {program : Program Q Ans X E L A} {standing : Standing L}
    (always : program.Always F P standing) : P standing program := by
  cases program with
  | ret | raise => exact always
  | _ => exact always.1

/-- What is left before a bind is bound, and then what the continuation leaves. -/
theorem Always.bind {program : Program Q Ans X E L B} {next : B → Program Q Ans X E L A}
    {standing : Standing L}
    (always : program.Always F (fun standing left =>
      match left with
      | .ret value => (next value).Always F P standing
      | left => P standing (left.bind next)) standing) : (program.bind next).Always F P standing := by
  induction program generalizing standing with
  | ret value => exact always
  | raise error => exact always
  | query q rest ih =>
    exact ⟨always.1, fun answer => ih _ (always.2.1 answer), fun error fails => ih _ (always.2.2 error fails)⟩
  | commit label rest ih =>
    exact ⟨always.1, ih _ always.2.1, fun error fails =>
      ⟨ih _ (always.2.2 error fails).1, ih _ (always.2.2 error fails).2⟩⟩
  | rollback label rest ih => exact ⟨always.1, ih always.2⟩
  | publish label rest ih => exact ⟨always.1, ih always.2⟩
  | await rest ih => exact ⟨always.1, fun choice => ih choice (always.2 choice)⟩

theorem Always.imp {stronger : Standing L → Program Q Ans X E L A → Prop} {program : Program Q Ans X E L A}
    {standing : Standing L} (always : program.Always F stronger standing)
    (entails : ∀ standing left, stronger standing left → P standing left) : program.Always F P standing := by
  induction program generalizing standing with
  | ret value => exact entails _ _ always
  | raise error => exact entails _ _ always
  | query q rest ih =>
    exact ⟨entails _ _ always.1, fun answer => ih _ (always.2.1 answer),
      fun error fails => ih _ (always.2.2 error fails)⟩
  | commit label rest ih =>
    exact ⟨entails _ _ always.1, ih _ always.2.1, fun error fails =>
      ⟨ih _ (always.2.2 error fails).1, ih _ (always.2.2 error fails).2⟩⟩
  | rollback label rest ih => exact ⟨entails _ _ always.1, ih always.2⟩
  | publish label rest ih => exact ⟨entails _ _ always.1, ih always.2⟩
  | await rest ih => exact ⟨entails _ _ always.1, fun choice => ih choice (always.2 choice)⟩

theorem Always.of_forall {program : Program Q Ans X E L A} {standing : Standing L}
    (holds : ∀ standing left, P standing left) : program.Always F P standing := by
  induction program generalizing standing with
  | ret value => exact holds _ _
  | raise error => exact holds _ _
  | query q rest ih => exact ⟨holds _ _, fun answer => ih _, fun error _ => ih _⟩
  | commit label rest ih => exact ⟨holds _ _, ih _, fun error _ => ⟨ih _, ih _⟩⟩
  | rollback label rest ih => exact ⟨holds _ _, ih⟩
  | publish label rest ih => exact ⟨holds _ _, ih⟩
  | await rest ih => exact ⟨holds _ _, fun choice => ih choice⟩

/-- What holds of all that is left holds of all that is left one step later. -/
theorem Always.advances [DecidableEq I] {driver : Driver I M C D S T Q Ans X E L A}
    {world : World I M C S T Q Ans X E L A} {pid : I} {P : Program Q Ans X E L A → Prop}
    {program left : Program Q Ans X E L A} {tx tx' : Option T} {after : S} {standing : Standing L}
    (always : program.Always (fun _ => True) (fun _ => P) standing)
    (advances : World.Advances driver world pid program tx left tx' after) :
    ∃ standing, left.Always (fun _ => True) (fun _ => P) standing := by
  cases advances with
  | answered => exact ⟨_, always.2.1 _⟩
  | failed => exact ⟨_, always.2.2 _ trivial⟩
  | committed => exact ⟨_, always.2.1⟩
  | lost | uncommitted => exact ⟨_, (always.2.2 _ trivial).1⟩
  | rolledBack | published => exact ⟨_, always.2⟩
  | chosen choice => exact ⟨_, always.2 choice⟩

end Program

section System

variable (F : E → Prop) (P : I → C → Standing L → Program Q Ans X E L A → Prop) (noted : I → List L → S → Prop)

/-- What is known of a process by what is left of its call. -/
structure Proc.Stands (state : S) (proc : Proc I M C T Q Ans X E L A) : Prop where
  closed : proc.program = none → proc.tx = none
  left : ∀ call program, proc.call = some call → proc.program = some program →
    ∃ standing, standing.isOpen = proc.tx.isSome ∧ noted proc.pid standing.reported state ∧
      program.Always F (P proc.pid call) standing

variable {F P noted}

private theorem Proc.Stands.later {state after : S} {proc : Proc I M C T Q Ans X E L A}
    (stands : proc.Stands F P noted state)
    (kept : ∀ reported, noted proc.pid reported state → noted proc.pid reported after) :
    proc.Stands F P noted after where
  closed := stands.closed
  left call program called present := by
    obtain ⟨standing, isOpen, reported, always⟩ := stands.left call program called present
    exact ⟨standing, isOpen, kept _ reported, always⟩

variable [DecidableEq I] {driver : Driver I M C D S T Q Ans X E L A}

/-- The committed state notes what a call reports: commits and reports add their label, statements and the steps
of other processes leave the note as it is. -/
structure Driver.Notes (driver : Driver I M C D S T Q Ans X E L A) (noted : I → List L → S → Prop)
    (source : World I M C S T Q Ans X E L A) : Prop where
  none : ∀ pid state, noted pid [] state
  commit : ∀ {pid reported state} label tx, noted pid reported state →
    noted pid (reported ++ [label]) (driver.commit pid label tx state)
  publish : ∀ {pid reported state} label, noted pid reported state →
    noted pid (reported ++ [label]) (driver.publish pid label state)
  answer : ∀ {pid reported q state others choice tx answer after opened},
    driver.answer q state others choice tx = .ok (answer, after, opened) → noted pid reported state →
      noted pid reported after
  others : ∀ {world action next pid reported}, World.Reaches driver source world →
    world.step driver action = some next → action.pid? ≠ some pid → noted pid reported world.state →
      noted pid reported next.state

section Step

variable {source world next : World I M C S T Q Ans X E L A} {proc : Proc I M C T Q Ans X E L A}
  {program : Program Q Ans X E L A}

omit [DecidableEq I] in
/-- What a process has reported once it ended a transaction under a label. -/
private theorem noted_ended {standing : Standing L} {state : S} {pid : I} {label : L} {tx : Option T} {ended : T → S}
    (isOpen : standing.isOpen = tx.isSome) (reported : noted pid standing.reported state)
    (ends : ∀ opened, noted pid (standing.reported ++ [label]) (ended opened)) :
    noted pid (standing.ended label) (tx.elim state ended) := by
  rw [Standing.ended, isOpen]
  cases tx with
  | none => exact reported
  | some opened => exact ends opened

/-- What is left of a program stands as its property foretold. -/
private theorem stands_advances (notes : driver.Notes noted source) (transient : ∀ {error},
      driver.transient error = true → F error)
    (failures : ∀ {q state others choice tx error},
      driver.answer q state others choice tx = .error error → F error) {tx tx' : Option T} {after : S} {pid : I}
    {left : Program Q Ans X E L A} (advances : World.Advances driver world pid program tx left tx' after) {call : C}
    {standing : Standing L} (isOpen : standing.isOpen = tx.isSome) (reported : noted pid standing.reported world.state)
    (always : program.Always F (P pid call) standing) :
    ∃ standing, standing.isOpen = tx'.isSome ∧ noted pid standing.reported after ∧
      left.Always F (P pid call) standing := by
  cases advances with
  | answered ran => exact ⟨⟨true, standing.reported⟩, rfl, notes.answer ran reported, always.2.1 _⟩
  | failed fails =>
    refine ⟨⟨false, standing.reported⟩, rfl, reported, always.2.2 _ ?_⟩
    rcases fails with fault | ⟨_, _, failed⟩
    · exact transient fault
    · exact failures failed
  | committed =>
    exact ⟨⟨false, standing.ended _⟩, rfl, noted_ended isOpen reported fun _ => notes.commit _ _ reported, always.2.1⟩
  | lost fault =>
    exact ⟨⟨false, standing.ended _⟩, rfl, noted_ended isOpen reported fun _ => notes.commit _ _ reported,
      (always.2.2 _ (transient fault)).2⟩
  | uncommitted fault => exact ⟨⟨false, standing.reported⟩, rfl, reported, (always.2.2 _ (transient fault)).1⟩
  | rolledBack =>
    exact ⟨⟨false, standing.ended _⟩, rfl, noted_ended isOpen reported fun _ => notes.publish _ reported, always.2⟩
  | @published label =>
    exact ⟨⟨standing.isOpen, standing.reported ++ [label]⟩, isOpen, notes.publish label reported, always.2⟩
  | chosen choice => exact ⟨standing, isOpen, reported, always.2 choice⟩

private theorem stands_step (notes : driver.Notes noted source) (reached : World.Reaches driver source world)
    (codes : ∀ pid call, (driver.code pid call).Always F (P pid call) ⟨false, []⟩)
    (transient : ∀ {error}, driver.transient error = true → F error)
    (failures : ∀ {q state others choice tx error},
      driver.answer q state others choice tx = .error error → F error)
    (all : ∀ other ∈ world.procs.rows, other.Stands F P noted world.state)
    {action : Action I M C D X E} (stepped : world.step driver action = some next) :
    ∀ other ∈ next.procs.rows, other.Stands F P noted next.state := by
  intro other member
  rcases World.step_origin stepped (Table.mem_rows_iff.mp member) with ⟨proc, found, becomes⟩ | ⟨mode, _, _, new⟩
  · have stands := all proc (Table.find?_mem found)
    have kept : action.pid? ≠ some proc.pid → ∀ reported, noted proc.pid reported world.state →
        noted proc.pid reported next.state := fun idle _ => notes.others reached stepped idle
    generalize next.state = after at becomes kept
    cases becomes with
    | same idle => exact stands.later (kept idle)
    | started call free =>
      refine ⟨fun ended => (by cases ended), fun other _ called same => ?_⟩
      cases called
      cases same
      exact ⟨⟨false, []⟩, by rw [stands.closed free]; rfl, notes.none .., codes proc.pid call⟩
    | advanced running advances =>
      refine ⟨fun ended => (by cases ended), fun call _ called same => ?_⟩
      cases same
      obtain ⟨standing, isOpen, reported, always⟩ := stands.left call _ called running
      exact stands_advances notes transient failures advances isOpen reported always
    | finished | died => exact ⟨fun _ => rfl, fun call _ called _ => by cases called⟩
    | moved => exact ⟨stands.closed, stands.left⟩
  · rw [new]
    exact ⟨fun _ => rfl, fun call _ called _ => by cases called⟩

/-- What always holds of the code of every call holds of what is left of it in every process. -/
theorem World.always (notes : driver.Notes noted source)
    (codes : ∀ pid call, (driver.code pid call).Always F (P pid call) ⟨false, []⟩)
    (transient : ∀ {error}, driver.transient error = true → F error)
    (failures : ∀ {q state others choice tx error},
      driver.answer q state others choice tx = .error error → F error)
    (vacant : source.procs.rows = []) (reached : World.Reaches driver source world) :
    ∀ proc ∈ world.procs.rows, proc.Stands F P noted world.state := by
  have both : World.Reaches driver source world ∧ ∀ proc ∈ world.procs.rows, proc.Stands F P noted world.state := by
    refine reached.preserves (P := fun world => World.Reaches driver source world ∧
      ∀ proc ∈ world.procs.rows, proc.Stands F P noted world.state) ⟨.refl driver source, ?_⟩ ?_
    · rw [vacant]
      exact fun proc member => absurd member List.not_mem_nil
    · rintro world action next ⟨reached, all⟩ stepped
      exact ⟨reached.step stepped, stands_step notes reached codes transient failures all stepped⟩
  exact both.2

end Step

end System

section Effect

variable [DecidableEq I]

/-- What one step makes of the committed state: a statement's answer, or what ends or reports a label. -/
inductive World.Effect (driver : Driver I M C D S T Q Ans X E L A) (world : World I M C S T Q Ans X E L A)
    (action : Action I M C D X E) : S → Prop
  | same : Effect driver world action world.state
  | answered {q : Q} {others : List T} {choice : X} {tx opened : T} {answer : Ans q} {after : S}
      (ran : driver.answer q world.state others choice tx = .ok (answer, after, opened)) :
      Effect driver world action after
  | labelled {proc : Proc I M C T Q Ans X E L A} {program : Program Q Ans X E L A} {label : L} {after : S}
      (acting : action.pid? = some proc.pid) (member : proc ∈ world.procs.rows)
      (present : proc.program = some program) (labels : program.label? = some label)
      (ends : (∃ tx, proc.tx = some tx ∧ after = driver.commit proc.pid label tx world.state) ∨
        after = driver.publish proc.pid label world.state) : Effect driver world action after
  | environment (event : D) (acting : action = .environment event) :
      Effect driver world action (driver.environment event world.state)

variable {driver : Driver I M C D S T Q Ans X E L A} {world next : World I M C S T Q Ans X E L A}
  {action : Action I M C D X E}

theorem World.step_effect (stepped : world.step driver action = some next) :
    world.Effect driver action next.state := by
  cases World.step_turn stepped with
  | environment event => exact .environment event rfl
  | spawned => exact .same
  | @turned _ proc later after acting stored kept becomes =>
    have member := Table.find?_mem stored
    change world.Effect driver action after
    cases becomes with
    | same idle => exact absurd acting idle
    | started | finished | moved | died => exact .same
    | advanced running advances =>
      cases held : proc.tx with
      | none =>
        rw [held] at advances
        cases advances with
        | answered ran => exact .answered ran
        | failed | uncommitted | chosen | committed | lost | rolledBack => exact .same
        | published => exact .labelled acting member running rfl (.inr rfl)
      | some tx =>
        rw [held] at advances
        cases advances with
        | answered ran => exact .answered ran
        | failed | uncommitted | chosen => exact .same
        | committed | lost => exact .labelled acting member running rfl (.inl ⟨tx, held, rfl⟩)
        | rolledBack | published => exact .labelled acting member running rfl (.inr rfl)

end Effect

end JobRelay.Sessions
