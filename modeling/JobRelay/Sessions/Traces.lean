import JobRelay.Sessions.Residual

/-! # What a call has seen

A call reads the committed state at several points of a run. `Traced` is the weakest precondition of a
program along runs: the postcondition may speak of the worlds in which the statements were answered, in the
order in which they were. It is proved on the program alone, and `World.traced` carries it to every process
of a reachable world.
-/

namespace JobRelay.Sessions

variable {I M C D S T Q : Type} {Ans : Q → Type} {X E L A B R : Type} [DecidableEq I]

/-- Where a step of a call may be taken: a world of the run, no earlier than the last, with the process at
a statement or between two. -/
structure World.Visited (driver : Driver I M C D S T Q Ans X E L R) (source : World I M C S T Q Ans X E L R)
    (pid : I) (asks : Option Q) (tx : Option T) (since world : World I M C S T Q Ans X E L R) : Prop where
  reached : World.Reaches driver source world
  later : World.Reaches driver since world
  running : ∃ proc ∈ world.procs.rows, proc.pid = pid ∧ proc.tx = tx ∧ proc.program.bind Program.query? = asks

section Traced

variable (driver : Driver I M C D S T Q Ans X E L R) (source : World I M C S T Q Ans X E L R) (pid : I)

/-- However the program ends, its end and the last world it visited meet the postcondition. -/
def Program.Traced (P : Except E A → Option T → World I M C S T Q Ans X E L R → Prop) :
    Program Q Ans X E L A → Option T → World I M C S T Q Ans X E L R → Prop
  | .ret value, tx, since => P (.ok value) tx since
  | .raise error, tx, since => P (.error error) tx since
  | .query q next, tx, since => ∀ world, World.Visited driver source pid (some q) tx since world →
      (∀ choice answer after opened,
        driver.answer q world.state (world.others pid) choice (tx.getD (driver.start world.state)) =
          .ok (answer, after, opened) → (next (.ok answer)).Traced P (some opened) world) ∧
      ∀ error, driver.Fails q tx world.state error → (next (.error error)).Traced P none world
  | .commit _ next, tx, since => ∀ world, World.Visited driver source pid none tx since world →
      (next (.ok ())).Traced P none world ∧
      ∀ error, driver.transient error = true → (next (.error error)).Traced P none world
  | .rollback _ next, tx, since => ∀ world, World.Visited driver source pid none tx since world →
      next.Traced P none world
  | .publish _ next, tx, since => ∀ world, World.Visited driver source pid none tx since world →
      next.Traced P tx world
  | .await next, tx, since => ∀ choice, (next choice).Traced P tx since

end Traced

variable {driver : Driver I M C D S T Q Ans X E L R} {source since world : World I M C S T Q Ans X E L R}
  {pid : I} {tx : Option T} {program : Program Q Ans X E L A}
  {P : Except E A → Option T → World I M C S T Q Ans X E L R → Prop}

namespace Program.Traced

theorem weaken {stronger : Except E A → Option T → World I M C S T Q Ans X E L R → Prop}
    (traced : program.Traced driver source pid stronger tx since)
    (implies : ∀ result tx world, stronger result tx world → P result tx world) :
    program.Traced driver source pid P tx since := by
  induction program generalizing tx since with
  | ret | raise => exact implies _ _ _ traced
  | query q next ih =>
    exact fun world visited => ⟨fun choice answer after opened ran =>
      ih _ ((traced world visited).1 choice answer after opened ran),
      fun error fails => ih _ ((traced world visited).2 error fails)⟩
  | commit label next ih =>
    exact fun world visited => ⟨ih _ (traced world visited).1, fun error transient =>
      ih _ ((traced world visited).2 error transient)⟩
  | rollback label next ih | publish label next ih => exact fun world visited => ih (traced world visited)
  | await next ih => exact fun choice => ih choice (traced choice)

theorem of_forall (holds : ∀ result tx world, P result tx world) :
    program.Traced driver source pid P tx since := by
  induction program generalizing tx since with
  | ret | raise => exact holds _ _ _
  | query q next ih =>
    exact fun world _ => ⟨fun choice answer after opened _ => ih _, fun error _ => ih _⟩
  | commit label next ih => exact fun world _ => ⟨ih _, fun error _ => ih _⟩
  | rollback label next ih | publish label next ih => exact fun world _ => ih
  | await next ih => exact fun choice => ih choice

/-- Sequencing: the second program starts from what the first one saw. -/
theorem bind {next : A → Program Q Ans X E L B}
    {G : Except E B → Option T → World I M C S T Q Ans X E L R → Prop}
    (traced : program.Traced driver source pid P tx since)
    (returned : ∀ value tx world, P (.ok value) tx world → (next value).Traced driver source pid G tx world)
    (raised : ∀ error tx world, P (.error error) tx world → G (.error error) tx world) :
    (program.bind next).Traced driver source pid G tx since := by
  induction program generalizing tx since with
  | ret value => exact returned _ _ _ traced
  | raise error => exact raised _ _ _ traced
  | query q next ih =>
    exact fun world visited => ⟨fun choice answer after opened ran =>
      ih _ ((traced world visited).1 choice answer after opened ran),
      fun error fails => ih _ ((traced world visited).2 error fails)⟩
  | commit label next ih =>
    exact fun world visited => ⟨ih _ (traced world visited).1, fun error transient =>
      ih _ ((traced world visited).2 error transient)⟩
  | rollback label next ih | publish label next ih => exact fun world visited => ih (traced world visited)
  | await next ih => exact fun choice => ih choice (traced choice)

/-- Handling: the handler starts from what the exception left. -/
theorem handle {handler : E → Program Q Ans X E L A}
    {G : Except E A → Option T → World I M C S T Q Ans X E L R → Prop}
    (traced : program.Traced driver source pid P tx since)
    (returned : ∀ value tx world, P (.ok value) tx world → G (.ok value) tx world)
    (raised : ∀ error tx world, P (.error error) tx world →
      (handler error).Traced driver source pid G tx world) :
    (program.handle handler).Traced driver source pid G tx since := by
  induction program generalizing tx since with
  | ret value => exact returned _ _ _ traced
  | raise error => exact raised _ _ _ traced
  | query q next ih =>
    exact fun world visited => ⟨fun choice answer after opened ran =>
      ih _ ((traced world visited).1 choice answer after opened ran),
      fun error fails => ih _ ((traced world visited).2 error fails)⟩
  | commit label next ih =>
    exact fun world visited => ⟨ih _ (traced world visited).1, fun error transient =>
      ih _ ((traced world visited).2 error transient)⟩
  | rollback label next ih | publish label next ih => exact fun world visited => ih (traced world visited)
  | await next ih => exact fun choice => ih choice (traced choice)

/-- One statement: its answer, given in a world of the run, or what it failed with. -/
theorem exec {q : Q} {P : Except E (Ans q) → Option T → World I M C S T Q Ans X E L R → Prop}
    (answered : ∀ world, World.Visited driver source pid (some q) tx since world → ∀ choice answer after opened,
      driver.answer q world.state (world.others pid) choice (tx.getD (driver.start world.state)) =
        .ok (answer, after, opened) → P (.ok answer) (some opened) world)
    (failed : ∀ world error, driver.Fails q tx world.state error → P (.error error) none world) :
    (Program.exec q : Program Q Ans X E L (Ans q)).Traced driver source pid P tx since :=
  fun world visited => ⟨fun choice answer after opened ran => answered world visited choice answer after opened ran,
    fun error fails => failed world error fails⟩

end Program.Traced

section System

variable (driver source)
  (P : I → C → Except E R → Option T → World I M C S T Q Ans X E L R → Prop)

/-- What is left of the call of a process is traced from the last world the call visited. -/
structure Proc.Traced (world : World I M C S T Q Ans X E L R) (proc : Proc I M C T Q Ans X E L R) : Prop where
  closed : proc.program = none → proc.tx = none
  left : ∀ call program, proc.call = some call → proc.program = some program →
    ∃ since, World.Reaches driver source since ∧ World.Reaches driver since world ∧
      program.Traced driver source proc.pid (P proc.pid call) proc.tx since

variable {driver source P}

/-- A process that is done with a world of the run goes on from it. -/
private theorem traced_advances (proc : Proc I M C T Q Ans X E L R) {program left : Program Q Ans X E L R}
    {tx : Option T} {after : S} {call : C} {next : World I M C S T Q Ans X E L R}
    (early : World.Reaches driver source since)
    (visited : World.Visited driver source proc.pid program.query? proc.tx since world)
    (onward : World.Reaches driver world next)
    (traced : program.Traced driver source proc.pid (P proc.pid call) proc.tx since)
    (advances : World.Advances driver world proc.pid program proc.tx left tx after) :
    ∃ since, World.Reaches driver source since ∧ World.Reaches driver since next ∧
      left.Traced driver source proc.pid (P proc.pid call) tx since := by
  cases advances with
  | answered ran => exact ⟨world, visited.reached, onward, (traced world visited).1 _ _ _ _ ran⟩
  | failed fails => exact ⟨world, visited.reached, onward, (traced world visited).2 _ fails⟩
  | committed => exact ⟨world, visited.reached, onward, (traced world visited).1⟩
  | lost transient | uncommitted transient =>
    exact ⟨world, visited.reached, onward, (traced world visited).2 _ transient⟩
  | rolledBack | published => exact ⟨world, visited.reached, onward, traced world visited⟩
  | chosen choice => exact ⟨since, early, visited.later.trans onward, traced choice⟩

end System

/-- Whatever the call of a process has seen, what is left of it is traced from there. -/
theorem World.traced {P : I → C → Except E R → Option T → World I M C S T Q Ans X E L R → Prop}
    (codes : ∀ pid call since, World.Reaches driver source since →
      (driver.code pid call).Traced driver source pid (P pid call) none since)
    (vacant : source.procs.rows = []) (reached : World.Reaches driver source world) :
    ∀ proc ∈ world.procs.rows, proc.Traced driver source P world := by
  have both : World.Reaches driver source world ∧ ∀ proc ∈ world.procs.rows,
      proc.Traced driver source P world := by
    refine reached.preserves (P := fun world => World.Reaches driver source world ∧
      ∀ proc ∈ world.procs.rows, proc.Traced driver source P world) ⟨.refl driver source, ?_⟩ ?_
    · rw [vacant]
      exact fun proc member => absurd member List.not_mem_nil
    · rintro world action next ⟨reached, all⟩ stepped
      refine ⟨reached.step stepped, fun later member => ?_⟩
      have onward : World.Reaches driver world next := (World.Reaches.refl driver world).step stepped
      rcases World.step_origin stepped (Table.mem_rows_iff.mp member) with
        ⟨proc, found, becomes⟩ | ⟨mode, _, _, new⟩
      · have inside := Table.find?_mem found
        obtain ⟨closed, left⟩ := all proc inside
        have kept : ∀ call program, proc.call = some call → proc.program = some program →
            ∃ since, World.Reaches driver source since ∧ World.Reaches driver since next ∧
              program.Traced driver source proc.pid (P proc.pid call) proc.tx since := by
          intro call program called present
          obtain ⟨since, early, between, traced⟩ := left call program called present
          exact ⟨since, early, between.trans onward, traced⟩
        generalize next.state = after at becomes
        cases becomes with
        | same | moved => exact ⟨closed, kept⟩
        | started call free =>
          refine ⟨fun ended => (by cases ended), fun other program called present => ?_⟩
          cases called
          cases present
          rw [closed free]
          exact ⟨world, reached, onward, codes proc.pid call world reached⟩
        | advanced running advances =>
          refine ⟨fun ended => (by cases ended), fun call program called present => ?_⟩
          cases present
          obtain ⟨since, early, between, traced⟩ := left call _ called running
          exact traced_advances proc early ⟨reached, between, proc, inside, rfl, rfl, by rw [running]; rfl⟩ onward
            traced advances
        | finished | died => exact ⟨fun _ => rfl, fun call _ called _ => by cases called⟩
      · rw [new]
        exact ⟨fun _ => rfl, fun call _ called _ => by cases called⟩
  exact both.2

end JobRelay.Sessions
