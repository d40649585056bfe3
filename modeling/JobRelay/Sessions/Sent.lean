import JobRelay.Sessions.Tracks

/-! # The statements that a call sends

`Sends` bounds the statements of a program on every path through it, whatever is answered and however often
it commits. `World.sends` carries the bound from the code of the calls to the processes of every reachable
world.
-/

namespace JobRelay.Sessions

variable {I M C D S T Q : Type} {Ans : Q → Type} {X E L A B : Type}

namespace Program

section Sends

variable (P : Q → Prop)

/-- Every statement that the program may send has the property. -/
def Sends : Program Q Ans X E L A → Prop
  | .ret _ | .raise _ => True
  | .query q next => P q ∧ ∀ answer, (next answer).Sends
  | .commit _ next => ∀ answer, (next answer).Sends
  | .rollback _ next | .publish _ next => next.Sends
  | .await next => ∀ choice, (next choice).Sends

end Sends

variable {P : Q → Prop}

theorem Sends.bind {program : Program Q Ans X E L A} {next : A → Program Q Ans X E L B}
    (sends : program.Sends P) (rest : ∀ value, (next value).Sends P) : (program.bind next).Sends P := by
  induction program with
  | ret value => exact rest value
  | raise error => trivial
  | query q later ih => exact ⟨sends.1, fun answer => ih answer (sends.2 answer)⟩
  | commit label later ih => exact fun answer => ih answer (sends answer)
  | rollback label later ih | publish label later ih => exact ih sends
  | await later ih => exact fun choice => ih choice (sends choice)

theorem Sends.handle {program : Program Q Ans X E L A} {handler : E → Program Q Ans X E L A}
    (sends : program.Sends P) (rest : ∀ error, (handler error).Sends P) : (program.handle handler).Sends P := by
  induction program with
  | ret value => trivial
  | raise error => exact rest error
  | query q later ih => exact ⟨sends.1, fun answer => ih answer (sends.2 answer)⟩
  | commit label later ih => exact fun answer => ih answer (sends answer)
  | rollback label later ih | publish label later ih => exact ih sends
  | await later ih => exact fun choice => ih choice (sends choice)

theorem Sends.exec {q : Q} (holds : P q) : (Program.exec q : Program Q Ans X E L (Ans q)).Sends P := by
  refine ⟨holds, fun answer => ?_⟩
  cases answer <;> trivial

theorem Sends.transaction {body : Program Q Ans X E L A} {committed : A → L} {aborted : E → L}
    (sends : body.Sends P) : (body.transaction committed aborted).Sends P := by
  have rolls (error : E) : (.rollback (aborted error) (.raise error) : Program Q Ans X E L A).Sends P := trivial
  refine (sends.handle rolls).bind fun value answer => ?_
  cases answer <;> trivial

end Program

namespace World

variable [DecidableEq I] {driver : Driver I M C D S T Q Ans X E L A} {source world next : World I M C S T Q Ans X E L A}
  {P : C → Q → Prop}

/-- What a running program may still send is bounded by the call that it serves. -/
private abbrev Bounded (P : C → Q → Prop) (world : World I M C S T Q Ans X E L A) : Prop :=
  ∀ proc ∈ world.procs.rows, ∀ program, proc.program = some program →
    ∃ call, proc.call = some call ∧ program.Sends (P call)

private theorem sends_step (codes : ∀ pid mode call, driver.starts mode call = true → (driver.code pid call).Sends (P call))
    (all : Bounded P world) {action : Action I M C D X E} (stepped : world.step driver action = some next) :
    Bounded P next := by
  intro later member program present
  rcases World.step_origin stepped (Table.mem_rows_iff.mp member) with ⟨proc, found, becomes⟩ | ⟨mode, _, _, new⟩
  · have before := all proc (Table.find?_mem found)
    generalize next.state = after at becomes
    cases becomes with
    | same | moved => exact before program present
    | started call free starts =>
      cases present
      exact ⟨call, rfl, codes _ _ _ starts⟩
    | advanced running advances =>
      obtain ⟨call, called, sends⟩ := before _ running
      refine ⟨call, called, ?_⟩
      cases present
      cases advances with
      | answered | failed => exact sends.2 _
      | committed | lost | uncommitted => exact sends _
      | rolledBack | published => exact sends
      | chosen choice => exact sends choice
    | finished | died => cases present
  · rw [new] at present
    cases present

/-- What the code of every call sends bounds what every process still sends. -/
theorem sends (codes : ∀ pid mode call, driver.starts mode call = true → (driver.code pid call).Sends (P call))
    (vacant : source.procs.rows = []) (reached : World.Reaches driver source world) :
    ∀ proc ∈ world.procs.rows, ∀ program, proc.program = some program →
      ∃ call, proc.call = some call ∧ program.Sends (P call) := by
  refine reached.preserves ?_ fun world action next all stepped => sends_step codes all stepped
  rw [Bounded, vacant]
  exact fun proc member => absurd member List.not_mem_nil

end World

end JobRelay.Sessions
