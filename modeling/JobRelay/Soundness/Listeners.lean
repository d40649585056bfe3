import JobRelay.Sessions.Tracks
import JobRelay.Soundness.Calls

/-! # What a listening worker can have missed

A worker knows a length of the notification log up to which it has heard everything. A job is queued
only by a commit that notifies, so a queued job that was not yet there when a worker looked is behind a
notification the worker has not heard.
-/

namespace JobRelay.Model

/-- How much of the notification log a listening worker has heard. -/
def Mode.heard? : Mode → Option ℕ
  | .draining heard | .polling heard | .waiting heard _ => some heard
  | .client | .reconnecting | .dead => none

theorem Mode.heard?_after {mode : Mode} {value : Return} {heard : ℕ}
    (hears : (mode.after value).heard? = some heard) : mode.heard? = some heard := by
  unfold Mode.after at hears
  split at hears
  · exact hears
  · exact hears
  · exact hears
  · cases hears
  · exact hears

end JobRelay.Model

namespace JobRelay.Soundness

open Model Sessions

variable {admits : Request → Bool} {start world next : Service}

/-- The log of notifications grew, and what is queued was queued or is announced in the growth. -/
def Announced (s after : Store) : Prop :=
  ∃ news, after.notified = s.notified ++ news ∧
    ∀ jobId row, after.job? jobId = some row → row.status = .queued →
      s.job? jobId = some row ∨ ⟨.jobsQueued, jobId⟩ ∈ news

namespace Announced

theorem of_same {s after : Store} (notified : after.notified = s.notified)
    (job : ∀ jobId, after.job? jobId = s.job? jobId) : Announced s after :=
  ⟨[], by rw [notified, List.append_nil], fun jobId _ stored _ => .inl (job jobId ▸ stored)⟩

theorem refl (s : Store) : Announced s s := of_same rfl fun _ => rfl

theorem trans {first middle last : Store} (before : Announced first middle) (after : Announced middle last) :
    Announced first last := by
  obtain ⟨news, grown, kept⟩ := before
  obtain ⟨later, grown', kept'⟩ := after
  refine ⟨news ++ later, by rw [grown', grown, List.append_assoc], fun jobId row stored queued => ?_⟩
  rcases kept' jobId row stored queued with old | announced
  · exact (kept jobId row old queued).imp_right fun announced => List.mem_append.mpr (.inl announced)
  · exact .inr (List.mem_append.mpr (.inr announced))

theorem length_le {s after : Store} (announced : Announced s after) :
    s.notified.length ≤ after.notified.length := by
  obtain ⟨news, grown, _⟩ := announced
  rw [grown, List.length_append]
  omega

/-- Nothing is pending for a worker that had heard everything before: the queued jobs are the old ones. -/
theorem job?_of_pending {s after : Store} (announced : Announced s after) {heard : ℕ}
    (early : heard ≤ s.notified.length) (silent : pending after heard = false) {jobId : ℕ} {row : Job}
    (stored : after.job? jobId = some row) (queued : row.status = .queued) : s.job? jobId = some row := by
  obtain ⟨news, grown, kept⟩ := announced
  rcases kept jobId row stored queued with old | announced
  · exact old
  · rw [pending, grown, List.drop_append_of_le_length early, List.any_append, Bool.or_eq_false_iff,
      List.any_eq_false, List.any_eq_false] at silent
    exact absurd rfl (of_decide_eq_false (Bool.eq_false_iff.mpr (silent.2 _ announced)))

end Announced

/-- A commit queues only what it announces. -/
theorem Commit.announced {pid : ℕ} {tx : Tx} {s : Store} {label : Label} (commit : Commit admits pid tx s label)
    (opened : tx.Open s) : Announced s (tx.view s) := by
  refine ⟨_, foldl_notified s tx.writes, fun jobId row stored queued => ?_⟩
  rcases Entitled.job?_cases opened stored with written | kept
  · have announced := (commit.written opened written).2.2 queued
    rw [Store.job?_id stored] at announced
    exact .inr announced
  · exact .inl kept

theorem reachable_announced (fresh : Fresh start) (reached : World.Reaches (service admits) start world)
    {action : Step} (stepped : world.step (service admits) action = some next) :
    Announced world.state next.state := by
  have moved := reachable_moved fresh reached stepped
  generalize next.state = after at moved
  cases moved with
  | same unchanged => rw [unchanged]; exact .refl _
  | environment event _ moved =>
    rw [moved]
    cases event
    exact .of_same rfl fun _ => rfl
  | guar pid tx _ guar _ =>
    cases guar with
    | drawn drawn => cases drawn <;> exact .of_same rfl fun _ => rfl
    | commit opened commit => exact (commit.announced opened).trans (.of_same rfl fun _ => rfl)
    | aborted _ => exact .of_same rfl fun _ => rfl
    | processed => exact .of_same rfl fun _ => rfl

/-- Along a run nothing is queued unannounced. -/
theorem announced_run (fresh : Fresh start) (reached : World.Reaches (service admits) start world)
    {actions : List Step} {target : Service} (ran : world.runActions (service admits) actions = some target) :
    Announced world.state target.state := by
  have both : World.Reaches (service admits) start target ∧ Announced world.state target.state := by
    refine World.runActions_preserves ran (P := fun target =>
      World.Reaches (service admits) start target ∧ Announced world.state target.state)
      ⟨reached, .refl _⟩ ?_
    rintro middle action next _ ⟨reached, announced⟩ stepped
    exact ⟨reached.step stepped, announced.trans (reachable_announced fresh reached stepped)⟩
  exact both.2

/-- A worker has heard no more than there is. -/
def Attuned (world : Service) : Prop :=
  ∀ pid proc heard, world.proc? pid = some proc → proc.mode.heard? = some heard →
    heard ≤ world.state.notified.length

private theorem heard?_moves {s : Store} {mode mode' : Mode} {heard' : ℕ} (moves : Mode.moves s mode mode' = true)
    (bounded : ∀ heard, mode.heard? = some heard → heard ≤ s.notified.length)
    (hears : mode'.heard? = some heard') : heard' ≤ s.notified.length := by
  unfold Mode.moves at moves
  split at moves
  · cases hears
    rw [Bool.or_eq_true, Bool.and_eq_true, decide_eq_true_eq, decide_eq_true_eq] at moves
    rcases moves with rfl | ⟨⟨_, within⟩, _⟩
    · exact bounded _ rfl
    · exact within
  · cases hears
  · cases hears
    exact (of_decide_eq_true moves).le
  · cases moves

theorem reachable_attuned (fresh : Fresh start) (reached : World.Reaches (service admits) start world) :
    Attuned world := by
  have both : World.Reaches (service admits) start world ∧ Attuned world := by
    refine reached.preserves (P := fun world => World.Reaches (service admits) start world ∧ Attuned world)
      ⟨.refl _ _, fun pid proc heard found => ?_⟩ ?_
    · have member := Table.find?_mem found
      rw [fresh.procs] at member
      cases member
    · rintro world action next ⟨reached, attuned⟩ stepped
      have grown := (reachable_announced fresh reached stepped).length_le
      refine ⟨reached.step stepped, fun pid later heard found hears => ?_⟩
      rcases World.step_origin stepped found with ⟨proc, before, becomes⟩ | ⟨mode, spawns, _, rfl⟩
      · refine le_trans ?_ grown
        generalize next.state = after at becomes
        cases becomes with
        | same | started | advanced => exact attuned pid _ heard before hears
        | finished returned => exact attuned pid proc heard before (Mode.heard?_after hears)
        | moved mode _ moves => exact heard?_moves moves (attuned pid proc · before) hears
        | died => cases hears
      · refine le_trans ?_ grown
        rcases (Bool.or_eq_true _ _).mp spawns with client | drains
        · obtain rfl := of_decide_eq_true client
          cases hears
        · obtain rfl := of_decide_eq_true drains
          cases hears
          exact le_rfl
  exact both.2

/-- The timeout that `_next_poll_timeout` makes of its row. -/
def pollTimeout (row : Option Micros) : Micros :=
  match row.map (max · 0) with
  | none => POLL_FALLBACK
  | some pending => min POLL_FALLBACK (pending + POLL_MARGIN)

/-- A program that returns, returns this timeout or that it lost the listener. -/
def Returns (timeout : Micros) (left : Prog Return) : Prop :=
  ∀ value, left = .ret value → value = .timeout timeout ∨ value = .disconnected

/-- So does all that may be left of the program. -/
def Yields (timeout : Micros) (program : Prog Return) : Prop :=
  ∃ standing, program.Always (fun _ => True) (fun _ => Returns timeout) standing

/-- A poll that reads its row yields what it makes of it. -/
def Polls (call : Call) (left : Prog Return) : Prop :=
  call = .nextPollTimeout → ∀ next, left = .query .selectNextAttempt next →
    ∀ row, Yields (pollTimeout row) (next (.ok row))

/-- An exception of the poll ends the call or the process. -/
private theorem always_disconnect {F : Exc → Prop} {P : Prog Return → Prop} {error : Exc}
    {standing : Standing Label} (returned : P (.ret .disconnected)) (raised : ∀ error, P (.raise error)) :
    Program.Always F (fun _ => P)
      (match error with
        | .operational _ => .ret .disconnected
        | error => .raise error) standing := by
  cases error with
  | operational message => exact returned
  | _ => exact raised _

private theorem code_polls (pid : ℕ) (call : Call) :
    (code pid call).Always Failure (fun _ => Polls call) ⟨false, []⟩ := by
  by_cases same : call = .nextPollTimeout
  · subst same
    have silent : ∀ {left : Prog Return}, left.query? ≠ some .selectNextAttempt → Polls .nextPollTimeout left :=
      fun other _ next sends => absurd (by rw [sends]; rfl) other
    have ended : ∀ {error : Exc} {standing : Standing Label}, Program.Always Failure
        (fun _ => Polls .nextPollTimeout) (match error with
          | .operational _ => .ret .disconnected
          | error => .raise error) standing :=
      always_disconnect (silent (by simp [Program.query?])) fun _ => silent (by simp [Program.query?])
    have stopped : ∀ {timeout : Micros} {error : Exc} {standing : Standing Label},
        Program.Always (fun _ => True) (fun _ => Returns timeout) (match error with
          | .operational _ => .ret .disconnected
          | error => .raise error) standing :=
      always_disconnect (fun _ same => by cases same; exact .inr rfl) fun _ _ same => by cases same
    refine ⟨silent (by simp [Program.query?]), fun _ => ⟨fun _ next sends row => ?_, fun row => ?_, ?_⟩, ?_⟩
    · cases sends
      exact ⟨⟨false, []⟩, fun _ same => (by cases same), fun _ same => (by cases same; exact .inl rfl),
        fun error _ => ⟨stopped, stopped⟩⟩
    · exact ⟨silent (by simp [Program.query?]), silent (by simp [Program.query?]), fun error _ => ⟨ended, ended⟩⟩
    · exact fun error _ => ⟨silent (by simp [Program.query?]), ended⟩
    · exact fun error _ => ⟨silent (by simp [Program.query?]), ended⟩
  · exact Program.Always.of_forall fun _ _ other => absurd other same

/-- A worker about to read the next attempt yields the timeout that it makes of it. -/
theorem reachable_yields (fresh : Fresh start) (reached : World.Reaches (service admits) start world)
    {proc : Proc ℕ Mode Call Tx Sql Sql.Answer Choice Exc Label Return} (member : proc ∈ world.procs.rows)
    (called : proc.call = some .nextPollTimeout) {next : Except Exc (Option Micros) → Prog Return}
    (present : proc.program = some (.query .selectNextAttempt next)) (row : Option Micros) :
    Yields (pollTimeout row) (next (.ok row)) := by
  have stands := World.always (F := Failure) (P := fun _ call _ => Polls call) (service_notes fresh admits)
    code_polls id answer_fails fresh.procs reached proc member
  obtain ⟨_, _, _, left⟩ := stands.left _ _ called present
  exact left.here rfl next rfl row

/-- A worker on its way from a poll into the wait that the poll decided. -/
def Settles (heard : ℕ) (timeout : Micros)
    (proc : Proc ℕ Mode Call Tx Sql Sql.Answer Choice Exc Label Return) : Prop :=
  (proc.mode = .polling heard ∧ ∃ program, proc.program = some program ∧ Yields timeout program) ∨
  (proc.mode = .waiting heard timeout ∧ proc.program = none) ∨
  proc.mode = .reconnecting ∨ proc.mode = .dead

theorem Settles.becomes {heard : ℕ} {timeout : Micros} {action : Step}
    {proc later : Proc ℕ Mode Call Tx Sql Sql.Answer Choice Exc Label Return}
    (settles : Settles heard timeout proc) (stays : ∀ mode, action ≠ .move proc.pid mode)
    {after : Store}
    (becomes : World.Becomes (service admits) world action proc later after) : Settles heard timeout later := by
  cases becomes with
  | same => exact settles
  | started call free starts =>
    rcases settles with ⟨_, _, present, _⟩ | ⟨mode, _⟩ | mode | mode
    · rw [free] at present
      cases present
    all_goals
      rw [mode] at starts
      cases starts
  | @advanced program left tx _ running advances =>
    rcases settles with ⟨mode, _, present, _, yields⟩ | ⟨_, free⟩ | gone
    · rw [running] at present
      cases present
      exact .inl ⟨mode, left, rfl, yields.advances advances⟩
    · rw [running] at free
      cases free
    · exact .inr (.inr gone)
  | @finished value returned =>
    rcases settles with ⟨mode, _, present, _, yields⟩ | ⟨_, free⟩ | mode | mode
    · rw [returned] at present
      cases present
      rcases yields.here value rfl with rfl | rfl
      · exact .inr (.inl ⟨by change Mode.after proc.mode _ = _; rw [mode]; rfl, rfl⟩)
      · exact .inr (.inr (.inl (by change Mode.after proc.mode _ = _; rw [mode]; rfl)))
    · rw [returned] at free
      cases free
    · exact .inr (.inr (.inl (by change Mode.after proc.mode _ = _; rw [mode]; rfl)))
    · exact .inr (.inr (.inr (by change Mode.after proc.mode _ = _; rw [mode]; rfl)))
  | moved mode acting => exact absurd acting (stays mode)
  | died => exact .inr (.inr (.inr rfl))

/-- Without a move of its own, a worker settles from its poll into the wait. -/
theorem Settles.run {heard : ℕ} {timeout : Micros} {worker : ℕ} {actions : List Step} {target : Service}
    (ran : world.runActions (service admits) actions = some target)
    (stays : ∀ action ∈ actions, ∀ mode, action ≠ .move worker mode)
    (initial : ∃ proc, world.proc? worker = some proc ∧ Settles heard timeout proc) :
    ∃ proc, target.proc? worker = some proc ∧ Settles heard timeout proc := by
  refine World.runActions_preserves ran (P := fun target =>
    ∃ proc, target.proc? worker = some proc ∧ Settles heard timeout proc) initial ?_
  rintro middle action next member ⟨proc, found, settles⟩ stepped
  obtain ⟨later, found', becomes⟩ := World.step_becomes stepped found
  refine ⟨later, found', settles.becomes (fun mode => ?_) becomes⟩
  rw [Table.find?_key found]
  exact stays action member mode

end JobRelay.Soundness
