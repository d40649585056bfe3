import JobRelay.Model.WorkerMain
import JobRelay.Sessions.Traces
import JobRelay.Soundness.Reports

/-! # Where the main loop stands

Each line of `main` finds its process in one mode of the deployment and leaves it in another. The lines say what they
do once, in `Goes`; that a worker stands where its process is, waits no longer than it may, and has no job left once it
has exited is kept by every line, and by whatever the others do.
-/

namespace JobRelay.Soundness

open Model Sessions

variable {admits : Request → Bool} {start world next : Service} {pid : ℕ} {main after : WorkerMain}

section Calls

/-- A wait of fifty milliseconds at least and thirty seconds at most. -/
def WithinFallback (timeout : Micros) : Prop := POLL_MARGIN ≤ timeout ∧ timeout ≤ POLL_FALLBACK

/-- What the calls return. -/
def ReturnOf : Call → Return → Prop
  | .request _, .response _ => True
  | .processNext, .processed _ => True
  | .nextPollTimeout, .timeout timeout => WithinFallback timeout
  | .nextPollTimeout, .disconnected => True
  | _, _ => False

variable {tx : Option Tx} {since : Service}

/-- A program returns only values of this kind. -/
private abbrev Delivers (admits : Request → Bool) (start : Service) (pid : ℕ) {α : Type} (kind : α → Prop) (program : Prog α)
    (tx : Option Tx) (since : Service) : Prop :=
  program.Traced (service admits) start pid (fun result _ _ => ∀ value, result = .ok value → kind value) tx since

private theorem delivers_bind {α β : Type} {program : Prog α} {onward : α → Prog β} (first : α → Prop) {kind : β → Prop}
    (delivers : Delivers admits start pid first program tx since)
    (rest : ∀ value tx since, first value → Delivers admits start pid kind (onward value) tx since) :
    Delivers admits start pid kind (program.bind onward) tx since :=
  Program.Traced.bind delivers (fun value tx since known => rest value tx since (known value rfl))
    fun _ _ _ _ _ same => by cases same

private theorem delivers_handle {α : Type} {program : Prog α} {handler : Exc → Prog α} {kind : α → Prop}
    (delivers : Delivers admits start pid kind program tx since)
    (rest : ∀ error tx since, Delivers admits start pid kind (handler error) tx since) :
    Delivers admits start pid kind (program.handle handler) tx since :=
  Program.Traced.handle delivers (fun _ _ _ known => known) fun error tx since _ => rest error tx since

private theorem delivers_any {α : Type} {program : Prog α} : Delivers admits start pid (fun _ => True) program tx since :=
  Program.Traced.of_forall fun _ _ _ _ _ => trivial

private theorem nextPollTimeout_delivers : Delivers admits start pid WithinFallback nextPollTimeout tx since := by
  refine delivers_bind WithinFallback ?_ ?_
  · refine delivers_handle ?_ fun error tx since world _ _ same => by cases same
    refine delivers_bind _ delivers_any fun _ _ _ _ => ?_
    refine delivers_bind (fun pending => ∀ wait, pending = some wait → 0 ≤ wait) ?_ ?_
    · refine delivers_bind _ delivers_any fun row _ _ _ => ?_
      rintro _ ⟨⟩ wait found
      obtain ⟨due, _, rfl⟩ := Option.map_eq_some_iff.mp found
      exact le_max_right due 0
    · rintro pending _ _ known _ ⟨⟩
      cases pending with
      | none => exact ⟨by decide, le_refl _⟩
      | some wait =>
        have positive := known wait rfl
        have margin : POLL_MARGIN ≤ POLL_FALLBACK := by decide
        exact ⟨le_min margin (Int.le_add_of_nonneg_left positive), min_le_left ..⟩
  · intro timeout tx since bounds world _
    exact ⟨fun _ same => by cases same; exact bounds, fun error _ _ same => by cases same⟩

private theorem code_delivers (pid : ℕ) (call : Call) : Delivers admits start pid (ReturnOf call) (code pid call) none since := by
  cases call with
  | request request =>
    refine delivers_handle (delivers_bind _ delivers_any fun _ _ _ _ => ?_) fun error _ _ => ?_ <;> rintro _ ⟨⟩ <;> trivial
  | processNext =>
    refine delivers_bind _ delivers_any fun _ _ _ _ => ?_
    rintro _ ⟨⟩
    trivial
  | nextPollTimeout =>
    refine delivers_handle (delivers_bind _ nextPollTimeout_delivers fun timeout _ _ bounds => ?_) fun error _ _ => ?_
    · rintro _ ⟨⟩
      exact bounds
    · cases error with
      | operational message =>
        rintro _ ⟨⟩
        trivial
      | _ =>
        intro _ same
        cases same

/-- A call that has returned has a value of its own. -/
theorem reachable_returns (fresh : Fresh start) (reached : World.Reaches (service admits) start world)
    {proc : Proc ℕ Mode Call Tx Sql Sql.Answer Choice Exc Label Return} (found : world.proc? pid = some proc) {call : Call}
    (called : proc.call = some call) {value : Return} (returned : proc.program = some (.ret value)) : ReturnOf call value := by
  have traced := World.traced (R := Return) (P := fun _ call result _ _ => ∀ value, result = .ok value → ReturnOf call value)
    (fun pid call _ _ => code_delivers pid call) fresh.procs reached proc (Table.find?_mem found)
  obtain ⟨_, _, _, delivers⟩ := traced.left call _ called returned
  exact delivers value rfl

end Calls

section Lines

/-- What a line does, one alternative for each way on from it. -/
inductive Goes (s : Store) (pid : ℕ) (returned : Option (Except Exc Return)) (main : WorkerMain) :
    WorkerMain → Option Step → Prop
  | connected (here : main.line = .startup) :
      Goes s pid returned main (main.connect s .drain) (some (.spawn pid (.draining s.notified.length)))
  | refused (here : main.line = .startup) : Goes s pid returned main (main.goto .died) none
  | drained (here : main.line = .drain) :
      Goes s pid returned main (main.goto (if main.shutdown then .loop else .entering)) none
  | entered (here : main.line = .entering) :
      Goes s pid returned main (main.goto .processing) (some (.start pid .processNext))
  | raised (here : main.line = .entering ∨ main.line = .asking ∨ main.line = .connecting ∨
        ∃ deadline slice, main.line = .waiting deadline slice) :
      Goes s pid returned main (main.goto .died) (some (.crash pid))
  | returned {after : WorkerMain} (here : main.line = .processing ∨ main.line = .polling)
      (returns : main.returns returned = some after) : Goes s pid returned main after (some (.finish pid))
  | looped (here : main.line = .loop) :
      Goes s pid returned main (main.goto (if main.shutdown then .leaving else .asking)) none
  | asked (here : main.line = .asking) :
      Goes s pid returned main (main.goto .polling) (some (.start pid .nextPollTimeout))
  | stopped (here : (∃ deadline, main.line = .wait deadline) ∧ main.shutdown = true ∨
        ∃ deadline, main.line = .slicing deadline ∧ deadline ≤ main.monotonic) :
      Goes s pid returned main (main.goto (.woken false)) (some (.move pid (.draining main.heard)))
  | waited {deadline : Micros} (here : main.line = .wait deadline) (serving : main.shutdown = false) :
      Goes s pid returned main (main.goto (.slicing deadline)) none
  | sliced {deadline : Micros} (here : main.line = .slicing deadline) (left : main.monotonic < deadline) :
      Goes s pid returned main (main.goto (.calling deadline (min WAIT_SLICE (deadline - main.monotonic)))) none
  | called {deadline remaining : Micros} (here : main.line = .calling deadline remaining) :
      Goes s pid returned main (main.goto (.waiting deadline (main.monotonic + remaining))) none
  | notified {deadline slice : Micros} {heard : ℕ} (here : main.line = .waiting deadline slice)
      (news : main.heard < heard ∧ heard ≤ s.notified.length ∧ pending s main.heard = true) :
      Goes s pid returned main { main with line := .woken true, listener := some heard } (some (.move pid (.draining heard)))
  | quiet {deadline slice : Micros} (here : main.line = .waiting deadline slice) (passed : slice ≤ main.monotonic) :
      Goes s pid returned main (main.goto (.wait deadline)) none
  | lost {deadline slice : Micros} (here : main.line = .waiting deadline slice) :
      Goes s pid returned main (main.goto .disconnected) (some (.move pid .reconnecting))
  | closed (here : main.line = .disconnected) (serving : main.shutdown = false) :
      Goes s pid returned main { main with line := .reconnect, listener := none } none
  | left (here : main.line = .disconnected ∨ main.line = .reconnect ∨ ∃ byNotify, main.line = .woken byNotify)
      (signalled : main.shutdown = true) : Goes s pid returned main (main.goto .leaving) none
  | retried (here : main.line = .reconnect) (serving : main.shutdown = false) :
      Goes s pid returned main (main.goto .connecting) none
  | reconnected (here : main.line = .connecting) :
      Goes s pid returned main (main.connect s (.woken false)) (some (.move pid (.draining s.notified.length)))
  | paused (here : main.line = .connecting) :
      Goes s pid returned main (main.goto (.sleeping (main.monotonic + WAIT_SLICE))) none
  | slept {slice : Micros} (here : main.line = .sleeping slice) (passed : slice ≤ main.monotonic) :
      Goes s pid returned main (main.goto .reconnect) none
  | woken {byNotify : Bool} (here : main.line = .woken byNotify) (serving : main.shutdown = false) :
      Goes s pid returned main (main.goto .drain) none
  | exited (here : main.line = .leaving) :
      Goes s pid returned main { main with line := .exited, listener := none, disposed := true } (some (.crash pid))

variable {s : Store} {returned : Option (Except Exc Return)} {outcome : WorkerMain.Outcome} {action : Option Step}

theorem step_goes (stepped : main.step pid s returned outcome = some (after, action)) :
    Goes s pid returned main after action := by
  obtain ⟨line, shutdown, monotonic, listener, disposed⟩ := main
  cases line with
  | startup =>
    cases outcome with
    | connected => cases stepped; exact .connected rfl
    | operational | raised => cases stepped; exact .refused rfl
    | _ => cases stepped
  | drain =>
    cases outcome with
    | next => cases stepped; exact .drained rfl
    | _ => cases stepped
  | entering =>
    cases outcome with
    | next => cases stepped; exact .entered rfl
    | operational | raised => cases stepped; exact .raised (.inl rfl)
    | _ => cases stepped
  | processing | polling =>
    cases outcome with
    | next =>
      obtain ⟨_, returns, same⟩ := Option.map_eq_some_iff.mp stepped
      cases same
      exact .returned (by simp) returns
    | _ => cases stepped
  | loop =>
    cases outcome with
    | next => cases stepped; exact .looped rfl
    | _ => cases stepped
  | asking =>
    cases outcome with
    | next => cases stepped; exact .asked rfl
    | raised => cases stepped; exact .raised (.inr (.inl rfl))
    | _ => cases stepped
  | wait deadline =>
    cases outcome with
    | next =>
      cases shutdown with
      | true => cases stepped; exact .stopped (.inl ⟨⟨deadline, rfl⟩, rfl⟩)
      | false => cases stepped; exact .waited rfl rfl
    | _ => cases stepped
  | slicing deadline =>
    cases outcome with
    | next =>
      simp only [WorkerMain.step] at stepped
      have slice : (0 : Int) < WAIT_SLICE := by decide
      by_cases left : deadline ≤ monotonic
      · rw [if_pos ((min_le_right ..).trans (Int.sub_nonpos_of_le left))] at stepped
        cases stepped
        exact .stopped (.inr ⟨deadline, rfl, left⟩)
      · rw [if_neg (not_le.mpr (lt_min slice (Int.sub_pos_of_lt (not_le.mp left))))] at stepped
        cases stepped
        exact .sliced rfl (not_le.mp left)
    | _ => cases stepped
  | calling deadline remaining =>
    cases outcome with
    | next => cases stepped; exact .called rfl
    | _ => cases stepped
  | waiting deadline slice =>
    cases outcome with
    | notified heard =>
      simp only [WorkerMain.step] at stepped
      split at stepped
      · next news => cases stepped; exact .notified rfl news
      · cases stepped
    | quiet =>
      simp only [WorkerMain.step] at stepped
      split at stepped
      · next passed => cases stepped; exact .quiet rfl passed
      · cases stepped
    | operational => cases stepped; exact .lost rfl
    | raised => cases stepped; exact .raised (.inr (.inr (.inr ⟨deadline, slice, rfl⟩)))
    | _ => cases stepped
  | disconnected =>
    cases outcome with
    | next =>
      cases shutdown with
      | true => cases stepped; exact .left (.inl rfl) rfl
      | false => cases stepped; exact .closed rfl rfl
    | _ => cases stepped
  | reconnect =>
    cases outcome with
    | next =>
      cases shutdown with
      | true => cases stepped; exact .left (.inr (.inl rfl)) rfl
      | false => cases stepped; exact .retried rfl rfl
    | _ => cases stepped
  | connecting =>
    cases outcome with
    | connected => cases stepped; exact .reconnected rfl
    | operational => cases stepped; exact .paused rfl
    | raised => cases stepped; exact .raised (.inr (.inr (.inl rfl)))
    | _ => cases stepped
  | sleeping slice =>
    cases outcome with
    | next =>
      simp only [WorkerMain.step] at stepped
      split at stepped
      · next passed => cases stepped; exact .slept rfl passed
      · cases stepped
    | _ => cases stepped
  | woken byNotify =>
    cases outcome with
    | next =>
      cases shutdown with
      | true => cases stepped; exact .left (.inr (.inr ⟨byNotify, rfl⟩)) rfl
      | false => cases stepped; exact .woken rfl rfl
    | _ => cases stepped
  | leaving =>
    cases outcome with
    | next => cases stepped; exact .exited rfl
    | _ => cases stepped
  | exited | died => cases stepped

end Lines

section Places

/-- Where a process is in the deployment: its mode, its call, and whether the call is under way. -/
abbrev Place := Mode × Option Call × Bool

def place? (world : Service) (pid : ℕ) : Option Place :=
  (world.proc? pid).map fun proc => (proc.mode, proc.call, proc.program.isSome)

def AtRest (place : Option Place) (modes : Mode → Prop) : Prop :=
  ∃ mode call, place = some (mode, call, false) ∧ modes mode

/-- Where `main` stands in the deployment, line by line. -/
def Stands (main : WorkerMain) (place : Option Place) : Prop :=
  match main.line with
  | .startup => place = none
  | .drain | .entering | .woken _ => AtRest place (· = .draining main.heard)
  | .processing => place = some (.draining main.heard, some .processNext, true)
  | .loop => AtRest place fun mode =>
      mode = .polling main.heard ∨ (mode = .draining main.heard ∧ main.shutdown = true)
  | .asking => AtRest place (· = .polling main.heard)
  | .polling => place = some (.polling main.heard, some .nextPollTimeout, true)
  | .wait _ | .slicing _ | .calling _ _ | .waiting _ _ => AtRest place fun mode => ∃ timeout, mode = .waiting main.heard timeout
  | .disconnected | .reconnect | .connecting | .sleeping _ => AtRest place (· = .reconnecting)
  | .leaving => AtRest place (· ≠ .dead)
  | .exited => AtRest place (· = .dead)
  | .died => place = none ∨ AtRest place (· = .dead)

variable {mode : Mode} {call : Call} {former : Option Call}

private theorem AtRest.proc {modes : Mode → Prop} (rests : AtRest (place? world pid) modes) :
    ∃ proc, world.proc? pid = some proc ∧ proc.program = none ∧ modes proc.mode := by
  obtain ⟨mode, call, placed, known⟩ := rests
  obtain ⟨proc, found, same⟩ := Option.map_eq_some_iff.mp placed
  obtain ⟨rfl, _, idle⟩ := Prod.mk.injEq .. ▸ Prod.mk.injEq .. ▸ same
  exact ⟨proc, found, Option.isNone_iff_eq_none.mp (by rw [← Option.not_isSome, idle]; rfl), known⟩

section Sets

variable {proc : Proc ℕ Mode Call Tx Sql Sql.Answer Choice Exc Label Return} (found : world.proc? pid = some proc)

include found

private theorem place?_set (later : Proc ℕ Mode Call Tx Sql Sql.Answer Choice Exc Label Return) (kept : later.pid = proc.pid) :
    place? (world.set world.state later) pid = some (later.mode, later.call, later.program.isSome) := by
  obtain rfl : proc.pid = pid := Table.find?_key found
  rw [place?, World.proc?_set found kept]
  rfl

private theorem atRest_left (mode : Mode) :
    AtRest (place? (world.set world.state { proc with mode, call := none, program := none, tx := none }) pid) (· = mode) :=
  ⟨mode, none, place?_set found _ rfl, rfl⟩

end Sets

/-- A worker's session begins. -/
private theorem spawned (absent : place? world pid = none) (spawns : (service admits).spawns world.state mode = true) :
    ∃ next, world.step (service admits) (.spawn pid mode) = some next ∧ place? next pid = some (mode, none, false) := by
  have free : world.proc? pid = none := Option.map_eq_none_iff.mp absent
  refine ⟨⟨world.state, world.procs.insert ⟨pid, mode, none, none, none⟩⟩, ?_, ?_⟩
  · rw [World.step, free, spawns]
    rfl
  · have inserted : (world.procs.insert ⟨pid, mode, none, none, none⟩).find? pid =
        some (⟨pid, mode, none, none, none⟩ : Proc ℕ Mode Call Tx Sql Sql.Answer Choice Exc Label Return) :=
      Table.find?_insert_self free
    rw [place?, World.proc?, inserted]
    rfl

private theorem started (rests : AtRest (place? world pid) (· = mode))
    (starts : (service admits).starts mode call = true) :
    ∃ next, world.step (service admits) (.start pid call) = some next ∧ place? next pid = some (mode, some call, true) := by
  obtain ⟨proc, found, idle, rfl⟩ := rests.proc
  refine ⟨world.set world.state { proc with call := some call, program := some (code pid call) }, ?_, place?_set found _ rfl⟩
  change (world.proc? pid).bind _ = _
  rw [found, Option.bind_some, idle, starts]
  rfl

private theorem moved {modes : Mode → Prop} (rests : AtRest (place? world pid) modes)
    (moves : ∀ from', modes from' → (service admits).moves world.state from' mode = true) :
    ∃ next, world.step (service admits) (.move pid mode) = some next ∧ AtRest (place? next pid) (· = mode) := by
  obtain ⟨proc, found, idle, known⟩ := rests.proc
  refine ⟨world.set world.state { proc with mode }, ?_, mode, proc.call, ?_, rfl⟩
  · change (world.proc? pid).bind _ = _
    rw [found, Option.bind_some, idle, moves _ known]
    rfl
  · exact (place?_set found { proc with mode } rfl).trans (by rw [idle]; rfl)

private theorem crashed (admits : Request → Bool) {place : Place} (placed : place? world pid = some place) :
    ∃ next, world.step (service admits) (.crash pid) = some next ∧ AtRest (place? next pid) (· = .dead) := by
  obtain ⟨proc, found, _⟩ := Option.map_eq_some_iff.mp placed
  refine ⟨_, ?_, atRest_left found .dead⟩
  change (world.proc? pid).bind _ = _
  rw [found, Option.bind_some]
  rfl

/-- A call that has returned is finished, and its value is one of the call's. -/
theorem finished (fresh : Fresh start) (reached : World.Reaches (service admits) start world)
    (placed : place? world pid = some (mode, some call, true)) {result : Except Exc Return}
    (returned : returned? world pid = some result) :
    ∃ next, world.step (service admits) (.finish pid) = some next ∧
      match result with
      | .ok value => ReturnOf call value ∧ AtRest (place? next pid) (· = mode.after value)
      | .error _ => AtRest (place? next pid) (· = .dead) := by
  obtain ⟨proc, found, same⟩ := Option.map_eq_some_iff.mp placed
  obtain ⟨rfl, called, running⟩ := Prod.mk.injEq .. ▸ Prod.mk.injEq .. ▸ same
  obtain ⟨_, found', returns⟩ := Option.bind_eq_some_iff.mp returned
  rw [found, Option.some.injEq] at found'
  subst found'
  have delivered : world.step (service admits) (.finish pid) =
      proc.program.bind (world.deliver (service admits) proc) := by
    change (world.proc? pid).bind _ = _
    rw [found]
    rfl
  split at returns
  · next value present =>
    cases returns
    refine ⟨_, ?_, reachable_returns fresh reached found called present, atRest_left found (proc.mode.after value)⟩
    rw [delivered, present]
    rfl
  · next error present =>
    cases returns
    refine ⟨_, ?_, atRest_left found .dead⟩
    rw [delivered, present]
    rfl
  · cases returns

/-- Every line of `main` is a step of the deployment or none, and `main` stands where its process is after it. -/
theorem step_stands (fresh : Fresh start) (reached : World.Reaches (service admits) start world)
    (stands : Stands main (place? world pid)) {outcome : WorkerMain.Outcome} {action : Option Step}
    (stepped : main.step pid world.state (returned? world pid) outcome = some (after, action)) :
    ∃ next, action.elim (some world) (world.step (service admits)) = some next ∧ Stands after (place? next pid) := by
  unfold Stands at stands
  cases step_goes stepped with
  | connected here =>
    rw [here] at stands
    have spawns : (service admits).spawns world.state (.draining world.state.notified.length) = true := by simp [service]
    obtain ⟨next, moved, placed⟩ := spawned stands spawns
    exact ⟨next, moved, _, _, placed, rfl⟩
  | refused here =>
    rw [here] at stands
    exact ⟨world, rfl, .inl stands⟩
  | drained here =>
    rw [here] at stands
    obtain ⟨mode, call, placed, rfl⟩ := stands
    refine ⟨world, rfl, ?_⟩
    cases signalled : main.shutdown with
    | true => exact ⟨_, call, placed, .inr ⟨rfl, signalled⟩⟩
    | false => exact ⟨_, call, placed, rfl⟩
  | entered here =>
    rw [here] at stands
    exact started stands rfl
  | raised here =>
    have placed : ∃ place, place? world pid = some place := by
      rcases here with here | here | here | ⟨_, _, here⟩ <;> rw [here] at stands <;>
        obtain ⟨mode, call, placed, _⟩ := stands <;> exact ⟨_, placed⟩
    obtain ⟨place, placed⟩ := placed
    obtain ⟨next, moved, rests⟩ := crashed admits placed
    exact ⟨next, moved, .inr rests⟩
  | returned here returns =>
    cases got : returned? world pid with
    | none =>
      rw [got] at returns
      cases returns
    | some result =>
      rw [got] at returns
      rcases here with here | here <;> rw [here] at stands <;>
        obtain ⟨next, moved, known⟩ := finished fresh reached stands got <;> refine ⟨next, moved, ?_⟩
      · cases result with
        | error error => cases returns; exact .inr known
        | ok value =>
          obtain ⟨kind, mode, call, placed, rfl⟩ := known
          cases value with
          | processed claimed =>
            cases returns
            cases claimed with
            | true => exact ⟨_, call, placed, rfl⟩
            | false => exact ⟨_, call, placed, .inl rfl⟩
          | _ => cases kind
      · cases result with
        | error error => cases returns; exact .inr known
        | ok value =>
          obtain ⟨kind, mode, call, placed, rfl⟩ := known
          cases value with
          | timeout timeout => cases returns; exact ⟨_, call, placed, timeout, rfl⟩
          | disconnected => cases returns; exact ⟨_, call, placed, rfl⟩
          | _ => cases kind
  | looped here =>
    rw [here] at stands
    obtain ⟨mode, call, placed, known⟩ := stands
    refine ⟨world, rfl, ?_⟩
    cases signalled : main.shutdown with
    | true =>
      refine ⟨mode, call, placed, ?_⟩
      rcases known with rfl | ⟨rfl, _⟩ <;> exact fun impossible => by cases impossible
    | false =>
      rcases known with rfl | ⟨_, impossible⟩
      · exact ⟨_, call, placed, rfl⟩
      · rw [signalled] at impossible
        cases impossible
  | asked here =>
    rw [here] at stands
    exact started stands rfl
  | stopped here =>
    have waits : AtRest (place? world pid) fun mode => ∃ timeout, mode = .waiting main.heard timeout := by
      rcases here with ⟨⟨_, here⟩, _⟩ | ⟨_, here, _⟩ <;> rw [here] at stands <;> exact stands
    refine moved waits ?_
    rintro _ ⟨timeout, rfl⟩
    simp [service, Mode.moves]
  | waited here | sliced here | called here | quiet here =>
    rw [here] at stands
    exact ⟨world, rfl, stands⟩
  | notified here news =>
    rw [here] at stands
    refine moved stands ?_
    rintro _ ⟨timeout, rfl⟩
    simp [service, Mode.moves, news]
  | lost here =>
    rw [here] at stands
    refine moved stands ?_
    rintro _ ⟨timeout, rfl⟩
    rfl
  | closed here | retried here | paused here | slept here =>
    rw [here] at stands
    exact ⟨world, rfl, stands⟩
  | left here =>
    refine ⟨world, rfl, ?_⟩
    rcases here with here | here | ⟨_, here⟩ <;> rw [here] at stands <;>
      obtain ⟨mode, call, placed, rfl⟩ := stands <;> exact ⟨_, call, placed, fun impossible => by cases impossible⟩
  | reconnected here =>
    rw [here] at stands
    refine moved stands ?_
    rintro _ rfl
    simp [service, Mode.moves]
  | woken here =>
    rw [here] at stands
    exact ⟨world, rfl, stands⟩
  | exited here =>
    rw [here] at stands
    obtain ⟨mode, call, placed, _⟩ := stands
    exact crashed admits placed

end Places

section Workers

/-- A wait ends at its deadline, no later than the fallback, and a slice of it or a pause within a second. -/
def InTime (main : WorkerMain) : Prop :=
  match main.line with
  | .wait deadline | .slicing deadline => deadline ≤ main.monotonic + POLL_FALLBACK
  | .calling deadline remaining => deadline ≤ main.monotonic + POLL_FALLBACK ∧ remaining ≤ WAIT_SLICE
  | .waiting deadline slice => deadline ≤ main.monotonic + POLL_FALLBACK ∧ slice ≤ main.monotonic + WAIT_SLICE
  | .sleeping slice => slice ≤ main.monotonic + WAIT_SLICE
  | _ => True

/-- What holds of a worker at every line. -/
structure Stood (world : Service) (pid : ℕ) (main : WorkerMain) : Prop where
  stands : Stands main (place? world pid)
  inTime : InTime main
  exited : main.line = .exited → Idle pid world.state ∧ main.listener = none ∧ main.disposed = true

variable {outcome : WorkerMain.Outcome} {action : Option Step}

/-- A call of the worker returns to a line of its own. -/
theorem returned_cases (fresh : Fresh start) (reached : World.Reaches (service admits) start world)
    (stands : Stands main (place? world pid)) (here : main.line = .processing ∨ main.line = .polling)
    (returns : main.returns (returned? world pid) = some after) :
    (main.line = .processing ∧ ∃ line, (line = .drain ∨ line = .loop ∨ line = .died) ∧ after = main.goto line) ∨
      (main.line = .polling ∧ ((∃ timeout, timeout ≤ POLL_FALLBACK ∧ after = main.goto (.wait (main.monotonic + timeout))) ∨
        ∃ line, (line = .disconnected ∨ line = .died) ∧ after = main.goto line)) := by
  unfold Stands at stands
  cases got : returned? world pid with
  | none =>
    rw [got] at returns
    cases returns
  | some result =>
    rw [got] at returns
    rcases here with here | here <;> rw [here] at stands <;>
      obtain ⟨next, _, known⟩ := finished fresh reached stands got
    · refine .inl ⟨here, ?_⟩
      cases result with
      | error error => cases returns; exact ⟨_, .inr (.inr rfl), rfl⟩
      | ok value =>
        cases value with
        | processed claimed =>
          cases returns
          cases claimed with
          | true => exact ⟨_, .inl rfl, rfl⟩
          | false => exact ⟨_, .inr (.inl rfl), rfl⟩
        | _ => cases known.1
    · refine .inr ⟨here, ?_⟩
      cases result with
      | error error => cases returns; exact .inr ⟨_, .inr rfl, rfl⟩
      | ok value =>
        cases value with
        | timeout timeout => cases returns; exact .inl ⟨timeout, known.1.2, rfl⟩
        | disconnected => cases returns; exact .inr ⟨_, .inl rfl, rfl⟩
        | _ => cases known.1

private theorem step_inTime (fresh : Fresh start) (reached : World.Reaches (service admits) start world)
    (stood : Stood world pid main)
    (stepped : main.step pid world.state (returned? world pid) outcome = some (after, action)) : InTime after := by
  have inTime := stood.inTime
  unfold InTime at inTime
  cases step_goes stepped with
  | returned here returns =>
    rcases returned_cases fresh reached stood.stands here returns with ⟨_, line, lines, rfl⟩ |
      ⟨_, ⟨timeout, bound, rfl⟩ | ⟨line, lines, rfl⟩⟩
    · rcases lines with rfl | rfl | rfl <;> trivial
    · exact Int.add_le_add_left bound _
    · rcases lines with rfl | rfl <;> trivial
  | drained | looped =>
    cases signalled : main.shutdown <;> trivial
  | waited here serving | quiet here =>
    rw [here] at inTime
    first | exact inTime | exact inTime.1
  | sliced here =>
    rw [here] at inTime
    exact ⟨inTime, min_le_left ..⟩
  | called here =>
    rw [here] at inTime
    exact ⟨inTime.1, Int.add_le_add_left inTime.2 _⟩
  | paused here => exact le_refl _
  | _ => trivial

/-- A process that drives nothing keeps its jobs apart from what the others do. -/
private theorem idle_step (fresh : Fresh start) (reached : World.Reaches (service admits) start world) {action : Step}
    (stepped : world.step (service admits) action = some next) (other : action.pid? ≠ some pid)
    (idle : Idle pid world.state) : Idle pid next.state := by
  have moved := reachable_moved fresh reached stepped
  generalize next.state = state at moved ⊢
  cases moved with
  | same unchanged => rwa [unchanged]
  | environment event _ moved =>
    cases event
    rw [moved]
    exact idle
  | guar writer tx acting guar free =>
    have distinct : writer ≠ pid := fun same => other (acting.trans (congrArg some same))
    exact idle.rely ((contract_lawful admits start.state).guar_rely distinct (reachable_valid fresh reached) guar
      fun _ _ _ isOpen => by cases isOpen)

/-- What does not drive a worker leaves it standing. -/
theorem Stood.undriven (fresh : Fresh start) (reached : World.Reaches (service admits) start world)
    (stood : Stood world pid main) {action : Step} (stepped : world.step (service admits) action = some next)
    (undriven : action.drives? ≠ some pid) : Stood next pid main where
  stands := by
    rw [place?, World.step_undriven stepped undriven]
    exact stood.stands
  inTime := stood.inTime
  exited here := by
    obtain ⟨idle, closed⟩ := stood.exited here
    refine ⟨idle_step fresh reached stepped (World.step_idle stepped undriven fun proc found => ?_) idle, closed⟩
    have stands := stood.stands
    rw [Stands, here] at stands
    obtain ⟨proc', found', none, _⟩ := AtRest.proc stands
    rw [found, Option.some.injEq] at found'
    rw [found', none]

/-- A line of `main` leaves it standing. -/
theorem Stood.line (fresh : Fresh start) (reached : World.Reaches (service admits) start world)
    (stood : Stood world pid main)
    (stepped : main.step pid world.state (returned? world pid) outcome = some (after, action)) :
    ∃ next, action.elim (some world) (world.step (service admits)) = some next ∧ Stood next pid after := by
  obtain ⟨next, moved, stands⟩ := step_stands fresh reached stood.stands stepped
  refine ⟨next, moved, stands, step_inTime fresh reached stood stepped, fun gone => ?_⟩
  have leaves : main.line = .leaving ∧ action = some (.crash pid) ∧
      after = { main with line := .exited, listener := none, disposed := true } := by
    cases step_goes stepped with
    | exited here => exact ⟨here, rfl, rfl⟩
    | returned here returns =>
      rcases returned_cases fresh reached stood.stands here returns with ⟨_, line, lines, rfl⟩ |
        ⟨_, ⟨timeout, bound, rfl⟩ | ⟨line, lines, rfl⟩⟩
      · rcases lines with rfl | rfl | rfl <;> cases gone
      · cases gone
      · rcases lines with rfl | rfl <;> cases gone
    | drained | looped => cases signalled : main.shutdown <;> rw [signalled] at gone <;> cases gone
    | _ => cases gone
  obtain ⟨here, rfl, rfl⟩ := leaves
  have rests := stood.stands
  rw [Stands, here] at rests
  obtain ⟨proc, found, idle, alive⟩ := AtRest.proc rests
  have resting := ((reachable_sound fresh reached).resting proc (Table.find?_mem found) idle).2.resolve_left alive
  have key : proc.pid = pid := Table.find?_key found
  have same : next.state = world.state := by
    obtain ⟨_, _, ended⟩ := Option.bind_eq_some_iff.mp moved
    cases ended
    rfl
  rw [same]
  exact ⟨key ▸ resting, rfl, rfl⟩

end Workers

section Fleets

variable {fleet later : Fleet} {action : FleetAction}

private theorem Stands.signalled {place : Option Place} (stands : Stands main place) : Stands main.requestShutdown place := by
  obtain ⟨line, shutdown, monotonic, listener, disposed⟩ := main
  cases line with
  | loop =>
    obtain ⟨mode, call, placed, polling | ⟨draining, _⟩⟩ := stands
    · exact ⟨mode, call, placed, .inl polling⟩
    · exact ⟨mode, call, placed, .inr ⟨draining, rfl⟩⟩
  | _ => exact stands

private theorem le_ticked {limit clock span : Int} (bound : limit ≤ clock + span) (elapsed : ℕ) :
    limit ≤ clock + elapsed + span := by
  omega

private theorem InTime.ticked (inTime : InTime main) (elapsed : ℕ) : InTime (main.tick elapsed) := by
  obtain ⟨line, shutdown, monotonic, listener, disposed⟩ := main
  cases line with
  | wait | slicing | sleeping => exact le_ticked inTime elapsed
  | calling => exact ⟨le_ticked inTime.1 elapsed, inTime.2⟩
  | waiting => exact ⟨le_ticked inTime.1 elapsed, le_ticked inTime.2 elapsed⟩
  | _ => trivial

/-- The deployment is on a run of its own, and every worker stands in it. -/
structure Crewed (admits : Request → Bool) (start : Service) (fleet : Fleet) : Prop where
  reached : World.Reaches (service admits) start fleet.world
  stood : ∀ pid main, fleet.mains pid = some main → Stood fleet.world pid main

theorem mains_set (fleet : Fleet) (pid : ℕ) (main : WorkerMain) (world : Service) :
    (fleet.set pid main world).mains pid = some main := Function.update_self ..

theorem mains_set_ne {other : ℕ} (distinct : other ≠ pid) :
    (fleet.set pid main world).mains other = fleet.mains other := Function.update_of_ne distinct ..

private theorem Crewed.set (reached : World.Reaches (service admits) start world) (mine : Stood world pid main)
    (others : ∀ other theirs, other ≠ pid → fleet.mains other = some theirs → Stood world other theirs) :
    Crewed admits start (fleet.set pid main world) where
  reached := reached
  stood other theirs found := by
    by_cases same : other = pid
    · subst same
      rw [mains_set] at found
      cases found
      exact mine
    · rw [mains_set_ne same] at found
      exact others other theirs same found

/-- A line of `main` drives no process but its own. -/
private theorem drives_of_goes {s : Store} {returned : Option (Except Exc Return)} {driven : Step}
    (goes : Goes s pid returned main after (some driven)) : driven.drives? = some pid := by
  generalize taken : some driven = action at goes
  cases goes <;> cases taken <;> rfl

private theorem drives_of_free {driven : Step} (free : fleet.free driven = true) (found : fleet.mains pid = some main) :
    driven.drives? ≠ some pid := by
  intro drives
  cases driven with
  | spawn other mode | start other call | finish other | move other mode | crash other =>
    cases drives
    simp [Fleet.free, found] at free
  | _ => cases drives

theorem Crewed.step (fresh : Fresh start) (crewed : Crewed admits start fleet)
    (stepped : fleet.step admits action = some later) : Crewed admits start later := by
  have others : ∀ {pid : ℕ} other theirs, other ≠ pid → fleet.mains other = some theirs →
      Stood fleet.world other theirs := fun other theirs _ found => crewed.stood other theirs found
  cases action with
  | launch pid =>
    simp only [Fleet.step] at stepped
    split at stepped
    · next allowed =>
      cases stepped
      rw [Bool.and_eq_true, Option.isNone_iff_eq_none, Option.isNone_iff_eq_none] at allowed
      have absent : place? fleet.world pid = none := Option.map_eq_none_iff.mpr allowed.2
      exact .set crewed.reached ⟨absent, trivial, fun gone => by cases gone⟩ others
    · cases stepped
  | main pid outcome =>
    obtain ⟨main, found, stepped⟩ := Option.bind_eq_some_iff.mp stepped
    obtain ⟨⟨after, action⟩, goes, stepped⟩ := Option.bind_eq_some_iff.mp stepped
    obtain ⟨world, moved, stepped⟩ := Option.bind_eq_some_iff.mp stepped
    cases stepped
    obtain ⟨_, same, mine⟩ := (crewed.stood pid main found).line fresh crewed.reached goes
    rw [moved, Option.some.injEq] at same
    subst same
    cases action with
    | none =>
      cases moved
      exact .set crewed.reached mine others
    | some driven =>
      have drives := drives_of_goes (step_goes goes)
      refine .set (crewed.reached.step moved) mine fun other theirs distinct stays => ?_
      refine (crewed.stood other theirs stays).undriven fresh crewed.reached moved ?_
      rw [drives]
      exact fun same => distinct (Option.some.inj same).symm
  | signal pid =>
    obtain ⟨main, found, rfl⟩ := Option.map_eq_some_iff.mp stepped
    obtain ⟨stands, inTime, exited⟩ := crewed.stood pid main found
    exact .set crewed.reached ⟨stands.signalled, inTime, exited⟩ others
  | tick pid elapsed =>
    obtain ⟨main, found, rfl⟩ := Option.map_eq_some_iff.mp stepped
    obtain ⟨stands, inTime, exited⟩ := crewed.stood pid main found
    exact .set crewed.reached ⟨stands, inTime.ticked elapsed, exited⟩ others
  | kill pid =>
    obtain ⟨main, found, stepped⟩ := Option.bind_eq_some_iff.mp stepped
    split at stepped
    · cases stepped
    · cases stepped
      have exited : (main.goto .died).line ≠ .exited := by rintro ⟨⟩
      cases moved : fleet.world.step (service admits) (.crash pid) with
      | none =>
        have absent : place? fleet.world pid = none := by
          by_contra present
          obtain ⟨place, placed⟩ := Option.ne_none_iff_exists'.mp present
          obtain ⟨_, ended, _⟩ := crashed admits placed
          rw [moved] at ended
          cases ended
        exact .set crewed.reached ⟨.inl absent, trivial, fun gone => absurd gone exited⟩ others
      | some world =>
        have rests : AtRest (place? world pid) (· = .dead) := by
          obtain ⟨proc, stored, _⟩ := Option.bind_eq_some_iff.mp moved
          obtain ⟨_, ended, rests⟩ := crashed admits (congrArg _ stored)
          rw [moved, Option.some.injEq] at ended
          exact ended ▸ rests
        refine .set (crewed.reached.step moved) ⟨.inr rests, trivial, fun gone => absurd gone exited⟩
          fun other theirs distinct stays => ?_
        exact (crewed.stood other theirs stays).undriven fresh crewed.reached moved fun same =>
          distinct (Option.some.inj same).symm
  | service driven =>
    simp only [Fleet.step] at stepped
    split at stepped
    · next free =>
      obtain ⟨world, moved, rfl⟩ := Option.map_eq_some_iff.mp stepped
      exact ⟨crewed.reached.step moved, fun pid main found =>
        (crewed.stood pid main found).undriven fresh crewed.reached moved (drives_of_free free found)⟩
    · cases stepped

/-- What a run keeps, step by step. -/
theorem fleet_preserves {actions : List FleetAction} (ran : fleet.run admits actions = some later) {P : Fleet → Prop}
    (initial : P fleet) (steps : ∀ fleet action later, action ∈ actions → P fleet → fleet.step admits action = some later → P later) :
    P later := by
  induction actions generalizing fleet with
  | nil => cases ran; exact initial
  | cons action rest ih =>
    obtain ⟨next, stepped, ran⟩ := Option.bind_eq_some_iff.mp ran
    exact ih ran (steps fleet action next List.mem_cons_self initial stepped) fun fleet action later member =>
      steps fleet action later (List.mem_cons_of_mem _ member)

theorem crewed_of_run (fresh : Fresh start) {actions : List FleetAction}
    (ran : Fleet.run admits ⟨start, fun _ => none⟩ actions = some fleet) : Crewed admits start fleet :=
  fleet_preserves ran ⟨.refl _ start, fun _ _ found => by cases found⟩ fun _ _ _ _ crewed stepped =>
    crewed.step fresh stepped

/-- The deployment takes every line that a worker comes to. -/
theorem Crewed.takes (fresh : Fresh start) (crewed : Crewed admits start fleet) (found : fleet.mains pid = some main)
    {outcome : WorkerMain.Outcome}
    (goes : (main.step pid fleet.world.state (returned? fleet.world pid) outcome).isSome) :
    (fleet.step admits (.main pid outcome)).isSome := by
  obtain ⟨⟨after, action⟩, goes⟩ := Option.isSome_iff_exists.mp goes
  obtain ⟨next, moved, _⟩ := (crewed.stood pid main found).line fresh crewed.reached goes
  refine Option.isSome_iff_exists.mpr ⟨fleet.set pid after next, ?_⟩
  change (fleet.mains pid).bind _ = _
  rw [found, Option.bind_some]
  change (main.step pid fleet.world.state (returned? fleet.world pid) outcome).bind _ = _
  rw [goes, Option.bind_some]
  change (action.elim (some fleet.world) (fleet.world.step (service admits))).bind _ = _
  rw [moved]
  rfl

end Fleets

end JobRelay.Soundness
