import JobRelay.Guarantees.DeadLetters
import JobRelay.Soundness.WorkerMain

/-! # The main loop in the deployment

The deployment lets a worker drain, poll and wait in any order that its mode allows. `main` is a refinement of that:
line by line it stands in a mode of the deployment, and every line that it executes is a step there or none. So what
holds of the deployment holds of workers that run `main`, and a worker that leaves its loop has no job left.
-/

namespace JobRelay.Guarantees

open Model Sessions Soundness

variable {admits : Request → Bool} {start world : Service} {pid : ℕ} {main after : WorkerMain} {fleet later : Fleet}

section Refinement

/-- Workers that run `main` are a deployment: their steps are a run of it, each stands where its process is, and the
deployment takes every line that `main` comes to. -/
theorem main_refines_deployment (fresh : Fresh start) {actions : List FleetAction}
    (ran : Fleet.run admits ⟨start, fun _ => none⟩ actions = some fleet) :
    World.Reaches (service admits) start fleet.world ∧
    ∀ pid main, fleet.mains pid = some main → Stands main (place? fleet.world pid) ∧
      ∀ outcome, (main.step pid fleet.world.state (returned? fleet.world pid) outcome).isSome →
        (fleet.step admits (.main pid outcome)).isSome := by
  have crewed := crewed_of_run fresh ran
  exact ⟨crewed.reached, fun pid main found =>
    ⟨(crewed.stood pid main found).stands, fun outcome goes => crewed.takes fresh found goes⟩⟩

/-- A job is submitted, and a worker comes up to process it. -/
def employed : List FleetAction :=
  (.spawn 0 .client :: submission 0 "a").map .service ++ [.launch 1, .main 1 .connected, .main 1 .next]

/-- The worker processes the job, although it is signalled before it begins. -/
def dismissed : List FleetAction :=
  .main 1 .next :: (statements 1 23).map .service ++ [.main 1 .next, .main 1 .next, .main 1 .next, .main 1 .next]

theorem main_refines_deployment_office : ∃ fleet main,
    Fleet.run (fun _ => true) ⟨office, fun _ => none⟩ employed = some fleet ∧ fleet.mains 1 = some main ∧
    main.line = .entering ∧ World.Reaches (service fun _ => true) office fleet.world ∧
    Stands main (place? fleet.world 1) ∧ (fleet.step (fun _ => true) (.main 1 .next)).isSome := by
  have facts : ((Fleet.run (fun _ => true) ⟨office, fun _ => none⟩ employed).bind fun fleet =>
      (fleet.mains 1).map WorkerMain.line) = some .entering := by decide +kernel
  obtain ⟨fleet, ran, facts⟩ := Option.bind_eq_some_iff.mp facts
  obtain ⟨main, found, here⟩ := Option.map_eq_some_iff.mp facts
  obtain ⟨reached, stands⟩ := main_refines_deployment office_fresh ran
  refine ⟨fleet, main, ran, found, here, reached, (stands 1 main found).1, (stands 1 main found).2 .next ?_⟩
  obtain ⟨line, shutdown, monotonic, listener, disposed⟩ := main
  cases here
  rfl

end Refinement

section Waits

/-- The calls in which `main` waits for the services. -/
inductive Blocking where
  /-- `psycopg.connect` and `LISTEN`, without a timeout. -/
  | connect
  /-- `connection_scope`: a connection of the pool, within `db_pool_timeout_s`. -/
  | checkout
  /-- `process_next`, until its connection is given back. -/
  | processNext
  /-- `seconds_until_next_attempt`, likewise. -/
  | nextAttempt
  /-- `listen_conn.close`, and `dispose_pool` at the end. -/
  | close
deriving DecidableEq

def blocking? : WorkerMain.Line → Option Blocking
  | .startup | .connecting => some .connect
  | .entering | .asking => some .checkout
  | .processing => some .processNext
  | .polling => some .nextAttempt
  | .disconnected | .leaving => some .close
  | _ => none

/-- How a call ends, `process_next` and the query with what they have returned. -/
def Blocking.Ends (returned : Option (Except Exc Return)) : Blocking → WorkerMain.Outcome → Prop
  | .connect, outcome => outcome = .connected ∨ outcome = .operational ∨ outcome = .raised
  -- an `OperationalError` of the pool is fatal in `drain`, and taken as the query's own in the poll
  | .checkout, outcome => outcome = .next ∨ outcome = .raised
  | .processNext, outcome | .nextAttempt, outcome => outcome = .next ∧ returned.isSome
  | .close, outcome => outcome = .next

/-- A worker that is in no call goes on within a slice, by itself. -/
private theorem ready_of_stood (stood : Stood world pid main) (alive : main.line ≠ .exited ∧ main.line ≠ .died)
    (free : blocking? main.line = none) :
    ∃ (elapsed : ℕ) (outcome : WorkerMain.Outcome), (elapsed : Int) ≤ WAIT_SLICE ∧ (outcome = .next ∨ outcome = .quiet) ∧
      ((main.tick elapsed).step pid world.state (returned? world pid) outcome).isSome := by
  obtain ⟨_, inTime, _⟩ := stood
  obtain ⟨line, shutdown, monotonic, listener, disposed⟩ := main
  have now : ((0 : ℕ) : Int) ≤ WAIT_SLICE := by decide
  -- a slice that is left ends when it has passed
  have rest : ∀ slice : Int, slice ≤ monotonic + WAIT_SLICE →
      ((slice - monotonic).toNat : Int) ≤ WAIT_SLICE ∧ slice ≤ monotonic + (slice - monotonic).toNat := by
    intro slice bound
    have positive : (0 : Int) ≤ WAIT_SLICE := by decide
    omega
  cases line with
  | startup | connecting | entering | asking | processing | polling | disconnected | leaving => cases free
  | waiting deadline slice =>
    obtain ⟨short, passed⟩ := rest slice inTime.2
    refine ⟨(slice - monotonic).toNat, .quiet, short, .inr rfl, ?_⟩
    change (if slice ≤ monotonic + ((slice - monotonic).toNat : Int) then some _ else none).isSome = true
    rw [if_pos passed]
    rfl
  | sleeping slice =>
    obtain ⟨short, passed⟩ := rest slice inTime
    refine ⟨(slice - monotonic).toNat, .next, short, .inl rfl, ?_⟩
    change (if slice ≤ monotonic + ((slice - monotonic).toNat : Int) then some _ else none).isSome = true
    rw [if_pos passed]
    rfl
  | wait deadline =>
    refine ⟨0, .next, now, .inl rfl, ?_⟩
    cases shutdown <;> rfl
  | slicing deadline =>
    refine ⟨0, .next, now, .inl rfl, ?_⟩
    change (if min WAIT_SLICE (deadline - (monotonic + ((0 : ℕ) : Int))) ≤ 0 then some _ else some _).isSome = true
    split <;> rfl
  | exited => exact absurd rfl alive.1
  | died => exact absurd rfl alive.2
  | drain | loop | calling | reconnect | woken => exact ⟨0, .next, now, .inl rfl, rfl⟩

/-- However a call ends, `main` goes on from it. -/
private theorem goes_of_ends (fresh : Fresh start) (reached : World.Reaches (service admits) start world)
    (stood : Stood world pid main) {call : Blocking} (calls : blocking? main.line = some call)
    {outcome : WorkerMain.Outcome} (ends : call.Ends (returned? world pid) outcome) :
    (main.step pid world.state (returned? world pid) outcome).isSome := by
  have stands := stood.stands
  obtain ⟨line, shutdown, monotonic, listener, disposed⟩ := main
  cases line with
  | startup | connecting =>
    cases calls
    rcases ends with rfl | rfl | rfl <;> rfl
  | entering | asking =>
    cases calls
    rcases ends with rfl | rfl <;> rfl
  | disconnected | leaving =>
    cases calls
    cases ends
    rfl
  | processing | polling =>
    cases calls
    obtain ⟨rfl, answered⟩ := ends
    obtain ⟨result, got⟩ := Option.isSome_iff_exists.mp answered
    obtain ⟨_, _, known⟩ := finished fresh reached stands got
    rw [got]
    cases result with
    | error error => rfl
    | ok value =>
      cases value with
      | response => cases known.1
      | _ => rfl
  | _ => cases calls

/-- When the wait ends that a worker is in. -/
def deadline? : WorkerMain.Line → Option Micros
  | .wait deadline | .slicing deadline | .calling deadline _ | .waiting deadline _ => some deadline
  | _ => none

private theorem deadline_le (inTime : InTime main) {deadline : Micros} (waits : deadline? main.line = some deadline) :
    deadline ≤ main.monotonic + POLL_FALLBACK := by
  obtain ⟨line, shutdown, monotonic, listener, disposed⟩ := main
  cases line with
  | wait | slicing => cases waits; exact inTime
  | calling | waiting => cases waits; exact inTime.1
  | _ => cases waits

/-- `main` waits for the services only where it connects, takes a connection of the pool, processes, polls and closes,
and goes on however such a call ends. Elsewhere a worker that lives executes its next line within one slice of waiting,
whatever the services do, and the wait that it is in ends within the fallback. -/
theorem main_blocks_in_calls (fresh : Fresh start) {actions : List FleetAction}
    (ran : Fleet.run admits ⟨start, fun _ => none⟩ actions = some fleet) (found : fleet.mains pid = some main)
    (alive : main.line ≠ .exited ∧ main.line ≠ .died) :
    (∀ deadline, deadline? main.line = some deadline → deadline ≤ main.monotonic + POLL_FALLBACK) ∧
    (blocking? main.line = none →
      ∃ (elapsed : ℕ) (outcome : WorkerMain.Outcome), (elapsed : Int) ≤ WAIT_SLICE ∧ (outcome = .next ∨ outcome = .quiet) ∧
        (fleet.run admits [.tick pid elapsed, .main pid outcome]).isSome) ∧
    ∀ call, blocking? main.line = some call → ∀ outcome, call.Ends (returned? fleet.world pid) outcome →
      (fleet.step admits (.main pid outcome)).isSome := by
  have crewed := crewed_of_run fresh ran
  have stood := crewed.stood pid main found
  refine ⟨fun deadline waits => deadline_le stood.inTime waits, fun free => ?_, fun call calls outcome ends => ?_⟩
  · obtain ⟨elapsed, outcome, short, alone, goes⟩ := ready_of_stood stood alive free
    refine ⟨elapsed, outcome, short, alone, ?_⟩
    have ticked : fleet.step admits (.tick pid elapsed) = some (fleet.set pid (main.tick elapsed) fleet.world) := by
      rw [Fleet.step, found]
      rfl
    have takes := (crewed.step fresh ticked).takes fresh (mains_set ..) goes
    obtain ⟨later, stepped⟩ := Option.isSome_iff_exists.mp takes
    rw [Fleet.run, ticked, Option.bind_some, Fleet.run, stepped]
    rfl
  · exact crewed.takes fresh found (goes_of_ends fresh crewed.reached stood calls ends)

theorem main_blocks_in_calls_office : ∃ fleet later,
    Fleet.run (fun _ => true) ⟨office, fun _ => none⟩ employed = some fleet ∧
    (fleet.step (fun _ => true) (.main 1 .next)).isSome ∧ (fleet.step (fun _ => true) (.main 1 .raised)).isSome ∧
    Fleet.run (fun _ => true) ⟨office, fun _ => none⟩ (employed ++ [.signal 1] ++ dismissed.take 26) = some later ∧
    ∃ (elapsed : ℕ) (outcome : WorkerMain.Outcome), (elapsed : Int) ≤ WAIT_SLICE ∧ (outcome = .next ∨ outcome = .quiet) ∧
      (later.run (fun _ => true) [.tick 1 elapsed, .main 1 outcome]).isSome := by
  have facts : ((Fleet.run (fun _ => true) ⟨office, fun _ => none⟩ employed).bind fun fleet =>
      (fleet.mains 1).map WorkerMain.line) = some .entering := by decide +kernel
  have idle : ((Fleet.run (fun _ => true) ⟨office, fun _ => none⟩ (employed ++ [.signal 1] ++ dismissed.take 26)).bind
      fun later => (later.mains 1).map WorkerMain.line) = some .loop := by decide +kernel
  obtain ⟨fleet, ran, facts⟩ := Option.bind_eq_some_iff.mp facts
  obtain ⟨main, found, here⟩ := Option.map_eq_some_iff.mp facts
  obtain ⟨later, went, idle⟩ := Option.bind_eq_some_iff.mp idle
  obtain ⟨after, final, there⟩ := Option.map_eq_some_iff.mp idle
  have calls := (main_blocks_in_calls office_fresh ran found (by rw [here]; decide)).2.2 .checkout (by rw [here]; rfl)
  have goes := (main_blocks_in_calls office_fresh went final (by rw [there]; decide)).2.1 (by rw [there]; rfl)
  exact ⟨fleet, later, ran, calls .next (.inl rfl), calls .raised (.inr rfl), went, goes⟩

end Waits

section Shutdown

/-- What a worker has to do outside its loop conditions. -/
inductive Errand where
  | process
  | poll
  | wait
  | connect
deriving DecidableEq

def errand : WorkerMain.Line → Option Errand
  | .entering | .processing => some .process
  | .asking | .polling => some .poll
  | .slicing _ | .calling _ _ | .waiting _ _ => some .wait
  | .startup | .connecting | .sleeping _ => some .connect
  | _ => none

/-- The lines that are left to a worker that is to shut down. -/
def linesLeft : WorkerMain.Line → ℕ
  | .exited | .died => 0
  | .leaving => 1
  | .loop | .disconnected | .reconnect | .woken _ => 2
  | .drain | .wait _ | .sleeping _ => 3
  | .startup | .processing | .polling | .waiting _ _ | .connecting => 4
  | .entering | .asking | .calling _ _ => 5
  | .slicing _ => 6

def ofMain (pid : ℕ) : FleetAction → Bool
  | .main other _ => decide (other = pid)
  | _ => false

/-- A worker that winds down: so many lines later it is here, on the errand that it was on or on none. -/
structure Winds (line : WorkerMain.Line) (lines : ℕ) (main : WorkerMain) : Prop where
  shutdown : main.shutdown = true
  lines : lines + linesLeft main.line ≤ linesLeft line
  errand : errand main.line = none ∨ errand main.line = errand line

private theorem winds_to {line : WorkerMain.Line} (signalled : after.shutdown = true)
    (fewer : linesLeft after.line < linesLeft line) (same : errand after.line = none ∨ errand after.line = errand line) :
    Winds line 1 after :=
  ⟨signalled, by omega, same⟩

/-- Each line of a worker that is to shut down is one of those that are left. -/
private theorem step_winds (fresh : Fresh start) (reached : World.Reaches (service admits) start world)
    (stood : Stood world pid main) (signalled : main.shutdown = true) {outcome : WorkerMain.Outcome} {action : Option Step}
    (stepped : main.step pid world.state (returned? world pid) outcome = some (after, action)) :
    Winds main.line 1 after := by
  cases step_goes stepped with
  | returned here returns =>
    rcases returned_cases fresh reached stood.stands here returns with ⟨here, line, lines, rfl⟩ |
      ⟨here, ⟨timeout, bound, rfl⟩ | ⟨line, lines, rfl⟩⟩ <;> rw [here]
    · rcases lines with rfl | rfl | rfl <;> exact winds_to signalled (by simp [WorkerMain.goto, linesLeft]) (.inl rfl)
    · exact winds_to signalled (Nat.lt_succ_self 3) (.inl rfl)
    · rcases lines with rfl | rfl <;> exact winds_to signalled (by simp [WorkerMain.goto, linesLeft]) (.inl rfl)
  | drained here | looped here =>
    rw [here, signalled]
    exact winds_to signalled (by simp [WorkerMain.goto, linesLeft]) (.inl rfl)
  | raised here =>
    rcases here with here | here | here | ⟨_, _, here⟩ <;> rw [here] <;>
      exact winds_to signalled (Nat.succ_pos _) (.inl rfl)
  | stopped here =>
    rcases here with ⟨⟨_, here⟩, _⟩ | ⟨_, here, _⟩ <;> rw [here] <;>
      exact winds_to signalled (by simp [WorkerMain.goto, linesLeft]) (.inl rfl)
  | left here =>
    rcases here with here | here | ⟨_, here⟩ <;> rw [here] <;> exact winds_to signalled (Nat.lt_succ_self 1) (.inl rfl)
  | waited _ serving | closed _ serving | retried _ serving | woken _ serving =>
    rw [signalled] at serving
    cases serving
  | entered here | sliced here | called here | asked here | paused here =>
    rw [here]
    exact winds_to signalled (Nat.lt_succ_self _) (.inr rfl)
  | connected here | refused here | quiet here | notified here | lost here | reconnected here | slept here | exited here =>
    rw [here]
    exact winds_to signalled (by simp [WorkerMain.connect, WorkerMain.goto, linesLeft]) (.inl rfl)

private theorem Winds.trans {line : WorkerMain.Line} {first second : ℕ} (winds : Winds line first main)
    (onward : Winds main.line second after) : Winds line (first + second) after where
  shutdown := onward.shutdown
  lines := by
    have before := winds.lines
    have left := onward.lines
    omega
  errand := by
    rcases onward.errand with idle | same
    · exact .inl idle
    · rw [same]
      exact winds.errand

/-- Whatever happens, a worker that is to shut down winds down. -/
private theorem fleet_winds (fresh : Fresh start) (crewed : Crewed admits start fleet) (found : fleet.mains pid = some main)
    (signalled : main.shutdown = true) {action : FleetAction} (stepped : fleet.step admits action = some later) :
    ∃ after, later.mains pid = some after ∧ Winds main.line (if ofMain pid action then 1 else 0) after := by
  have still : Winds main.line 0 main := ⟨signalled, by omega, .inr rfl⟩
  have untouched : ∀ {other : ℕ} {theirs : WorkerMain} {world : Service}, other ≠ pid →
      ∃ after, (fleet.set other theirs world).mains pid = some after ∧ Winds main.line 0 after :=
    fun other => ⟨main, (mains_set_ne (Ne.symm other)).trans found, still⟩
  cases action with
  | launch other =>
    simp only [Fleet.step] at stepped
    split at stepped
    · next allowed =>
      cases stepped
      refine untouched ?_
      rintro rfl
      simp [found] at allowed
    · cases stepped
  | main other outcome =>
    obtain ⟨theirs, found', stepped⟩ := Option.bind_eq_some_iff.mp stepped
    obtain ⟨⟨after, action⟩, goes, stepped⟩ := Option.bind_eq_some_iff.mp stepped
    obtain ⟨world, moved, stepped⟩ := Option.bind_eq_some_iff.mp stepped
    cases stepped
    by_cases same : other = pid
    · subst same
      rw [found, Option.some.injEq] at found'
      subst found'
      rw [ofMain, decide_eq_true rfl, if_pos rfl]
      exact ⟨after, mains_set .., step_winds fresh crewed.reached (crewed.stood _ _ found) signalled goes⟩
    · rw [ofMain, decide_eq_false same]
      exact untouched same
  | signal other | tick other elapsed =>
    obtain ⟨theirs, found', rfl⟩ := Option.map_eq_some_iff.mp stepped
    by_cases same : other = pid
    · subst same
      rw [found, Option.some.injEq] at found'
      subst found'
      refine ⟨_, mains_set .., ?_, ?_, .inr rfl⟩
      · first | rfl | exact signalled
      · exact Nat.le_of_eq (Nat.zero_add _)
    · exact untouched same
  | kill other =>
    obtain ⟨theirs, found', stepped⟩ := Option.bind_eq_some_iff.mp stepped
    split at stepped
    · cases stepped
    · cases stepped
      by_cases same : other = pid
      · subst same
        rw [found, Option.some.injEq] at found'
        subst found'
        exact ⟨_, mains_set .., signalled, Nat.zero_le _, .inl rfl⟩
      · exact untouched same
  | service driven =>
    simp only [Fleet.step] at stepped
    split at stepped
    · obtain ⟨world, _, rfl⟩ := Option.map_eq_some_iff.mp stepped
      exact ⟨main, found, still⟩
    · cases stepped

private theorem run_winds (fresh : Fresh start) (crewed : Crewed admits start fleet) (found : fleet.mains pid = some main)
    (signalled : main.shutdown = true) {onward : List FleetAction} (ran : fleet.run admits onward = some later) :
    Crewed admits start later ∧
      ∃ after, later.mains pid = some after ∧ Winds main.line (onward.countP (ofMain pid)) after := by
  induction onward generalizing fleet main with
  | nil =>
    cases ran
    exact ⟨crewed, main, found, signalled, by simp, .inr rfl⟩
  | cons action rest ih =>
    obtain ⟨next, stepped, ran⟩ := Option.bind_eq_some_iff.mp ran
    obtain ⟨middle, found', winds⟩ := fleet_winds fresh crewed found signalled stepped
    obtain ⟨crewed', after, final, onward⟩ := ih (crewed.step fresh stepped) found' winds.shutdown ran
    refine ⟨crewed', after, final, ?_⟩
    rw [List.countP_cons, Nat.add_comm]
    exact winds.trans onward

/-- From the signal on, whatever the services do and wherever it finds the worker, `main` executes six lines at most
and finishes the errand that it is on, without another. A worker that has exited has closed its connections and leaves
no job leased to it. -/
theorem shutdown_in_order (fresh : Fresh start) {actions onward : List FleetAction}
    (ran : Fleet.run admits ⟨start, fun _ => none⟩ actions = some fleet) (found : fleet.mains pid = some main)
    (signalled : main.shutdown = true) (went : fleet.run admits onward = some later) :
    ∃ after, later.mains pid = some after ∧ after.shutdown = true ∧
      onward.countP (ofMain pid) + linesLeft after.line ≤ 6 ∧
      (errand after.line = none ∨ errand after.line = errand main.line) ∧
      (after.line = .exited → after.listener = none ∧ after.disposed = true ∧ AtRest (place? later.world pid) (· = .dead) ∧
        ∀ row ∈ later.world.state.jobs.rows, row.workerId ≠ some pid) := by
  obtain ⟨crewed, after, final, winds⟩ := run_winds fresh (crewed_of_run fresh ran) found signalled went
  have most : linesLeft main.line ≤ 6 := by
    cases main.line <;> simp [linesLeft]
  refine ⟨after, final, winds.shutdown, winds.lines.trans most, winds.errand, fun gone => ?_⟩
  obtain ⟨stands, _, exited⟩ := crewed.stood pid after final
  obtain ⟨idle, closed, disposed⟩ := exited gone
  rw [Stands, gone] at stands
  exact ⟨closed, disposed, stands, fun row member => idle row.id row (Store.mem_jobs.mp member)⟩

theorem shutdown_in_order_office : ∃ fleet later,
    Fleet.run (fun _ => true) ⟨office, fun _ => none⟩ (employed ++ [.signal 1]) = some fleet ∧
    fleet.run (fun _ => true) dismissed = some later ∧
    later.world.state.jobs.rows.map Job.status = [.done] ∧
    ∀ row ∈ later.world.state.jobs.rows, row.workerId ≠ some 1 := by
  have facts : ((Fleet.run (fun _ => true) ⟨office, fun _ => none⟩ (employed ++ [.signal 1])).bind fun fleet =>
      (fleet.mains 1).bind fun main => (fleet.run (fun _ => true) dismissed).bind fun later =>
        (later.mains 1).map fun after => (main.shutdown, after.line, later.world.state.jobs.rows.map Job.status)) =
      some (true, .exited, [.done]) := by decide +kernel
  obtain ⟨fleet, ran, facts⟩ := Option.bind_eq_some_iff.mp facts
  obtain ⟨main, found, facts⟩ := Option.bind_eq_some_iff.mp facts
  obtain ⟨later, went, facts⟩ := Option.bind_eq_some_iff.mp facts
  obtain ⟨after, final, same⟩ := Option.map_eq_some_iff.mp facts
  rw [Prod.mk.injEq, Prod.mk.injEq] at same
  obtain ⟨_, found', _, _, _, left⟩ := shutdown_in_order office_fresh ran found same.1 went
  rw [final, Option.some.injEq] at found'
  subst found'
  exact ⟨fleet, later, ran, went, same.2.2, (left same.2.1).2.2.2⟩

end Shutdown

end JobRelay.Guarantees
