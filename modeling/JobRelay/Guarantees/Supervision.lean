import JobRelay.Model.Supervision
import JobRelay.Sessions.Sent
import JobRelay.Soundness.Answers

/-! # An attempt fails closed

The job is executed only under a monitor that listens and has read the status since, and it is finalized only
after both threads have ended in good order and the token is still clear.
-/

namespace JobRelay.Guarantees

open Model Model.Supervision Sessions

variable {jobId : ℕ} {s next : State}

/-- What the monitor has done when its setup has succeeded. -/
def watched : List Mark := [.listened, .committed, .statusRead, .committed]

/-- What the monitor has done by a line of its setup. -/
def passed : Monitor → List Mark
  | .commitListen => [.listened]
  | .selectStatus => [.listened, .committed]
  | .commitStatus _ => [.listened, .committed, .statusRead]
  | .setSetupSucceeded _ => watched
  | _ => []

/-- The heartbeat has an error and has still to cancel the token. -/
def Failing : Heartbeat → Prop
  | .setError _ | .cancelToken => True
  | _ => False

/-- How far the main thread is on its way to `_finalize`; at any other line it has given up, or is there. -/
def stage : Main → Option ℕ
  | .startMonitor => some 0
  | .awaitReady => some 1
  | .readError => some 2
  | .checkSetup _ => some 3
  | .bindToken => some 4
  | .checkToken => some 5
  | .startHeartbeat => some 6
  | .execute => some 7
  | .executing => some 8
  | .setHeartbeatStopped none => some 9
  | .joinHeartbeat none => some 10
  | .checkErrors none => some 11
  | .stopMonitor .cancelToken none | .stopMonitor .emit none => none
  | .stopMonitor _ none => some 12
  | .checkAgain => some 13
  | .finalize => some 14
  | _ => none

/-- The lines after the call of `_finalize`. -/
def Concluding : Main → Prop
  | .finalizing | .rollback _ | .acknowledge | .acknowledging | .readCause | .recordFailure _ | .ended => True
  | _ => False

/-- Both threads have ended in good order, and nothing was signalled. -/
structure Supervised (s : State) : Prop where
  setup : s.setupSucceeded = true
  monitor : s.monitor = .ended
  stopped : Mark.monitorStopped ∈ s.marks
  heartbeat : s.heartbeat = .ended
  token : s.token = false
  monitorError : s.monitorError = none
  heartbeatError : s.heartbeatError = none
  errors : s.errors = []

/-- What the monitor has seen and has to report: an exception, or that the job is cancelled. -/
def Alarming : Mark → Prop
  | .monitorRaised (.exception _) | .foundCancelled => True
  | _ => False

/-- The monitor has seen something and has still to set the token. -/
def Signalling : Monitor → Prop
  | .commitStatus cancelled | .setSetupSucceeded cancelled | .checkStatus cancelled => cancelled = true
  | .releaseListen pending | .disconnect pending => ∃ error, pending = some (.exception error)
  | .trip | .recordError _ | .cancelToken => True
  | _ => False

/-- How the renewals of the lease have ended, in order: each returned, or something was thrown. -/
def renewals (marks : List Mark) : List (Option Thrown) :=
  marks.filterMap fun
    | .renewed => some none
    | .renewalRaised thrown => some (some thrown)
    | _ => none

/-- A renewal that failed with an `Exception`. -/
def FailedRenewal (renewal : Option Thrown) : Prop := ∃ error, renewal = some (.exception error)

/-- No renewal has lost the lease, no three in a row have failed, and the monitor has seen no exception and no
cancellation of the job, unless it was ended after that by what no `except` catches. -/
structure Orderly (marks : List Mark) : Prop where
  held : ∀ lost, Mark.renewalRaised (.exception (.leaseLost lost)) ∉ marks
  renewed : ∀ row, row <:+: renewals marks → (∀ renewal ∈ row, FailedRenewal renewal) → row.length < 3
  unalarmed : ∀ before after alarm, marks = before ++ alarm :: after → Alarming alarm → .monitorRaised .exit ∈ after

/-- What holds when the main thread is at a stage. -/
structure At (s : State) (k : ℕ) : Prop where
  start : k = 0 → s.monitor = .unstarted ∧ s.monitorError = none
  recorded : s.monitorError.isSome → s.token = true ∨ s.monitor = .cancelToken
  setup : 4 ≤ k → s.setupSucceeded = true
  bound : 5 ≤ k → s.bound = true
  clear : 6 ≤ k → (watched ++ [Mark.foundClear]).Sublist s.marks
  unstarted : k ≤ 6 → s.heartbeat = .unstarted ∧ s.errors = [] ∧ s.heartbeatError = none
  joined : 11 ≤ k → s.heartbeat = .ended
  stopped : 13 ≤ k → s.monitor = .ended ∧ Mark.monitorStopped ∈ s.marks
  token : 14 ≤ k → s.token = false

/-- What holds at every line. -/
structure Inv (s : State) : Prop where
  passed : (passed s.monitor).Sublist s.marks
  setup : s.setupSucceeded = true → watched.Sublist s.marks
  captured : s.heartbeat ≠ .unstarted → s.captured = true
  failing : s.errors ≠ [] ∨ s.heartbeatError.isSome → s.token = true ∨ Failing s.heartbeat
  at' : ∀ k, stage s.main = some k → At s k
  executed : ∀ before after, s.marks = before ++ .called .execute :: after →
    (watched ++ [Mark.foundClear]).Sublist before
  finalized : .called .finalize ∈ s.marks → Concluding s.main ∧ Supervised s

section Monitor

/-- What one step of the monitor can do. -/
structure MonitorMoves (s next : State) (made : List Mark) : Prop where
  frame : next = { s with
    monitor := next.monitor, ready := next.ready, setupSucceeded := next.setupSucceeded, token := next.token,
    monitorError := next.monitorError, marks := s.marks ++ made }
  running : s.monitor ≠ .unstarted ∧ s.monitor ≠ .ended
  uncalled : ∀ call, Mark.called call ∉ made
  passed : (Guarantees.passed next.monitor).Sublist (Guarantees.passed s.monitor ++ made)
  kept : s.setupSucceeded = true → next.setupSucceeded = true
  setup : next.setupSucceeded = true → s.setupSucceeded = true ∨ Guarantees.passed s.monitor = watched
  token : s.token = true → next.token = true
  recorded : next.monitorError.isSome → (s.monitorError.isSome ∧ (s.monitor = .cancelToken → next.token = true)) ∨
    next.monitor = .cancelToken

private theorem passed_caught (thrown : Thrown) : passed (.caught thrown) = [] := by
  cases thrown <;> rfl

private theorem passed_elim (pending : Option Thrown) :
    passed (pending.elim .setReadyAtEnd Monitor.caught) = [] := by
  cases pending with
  | none => rfl
  | some thrown => exact passed_caught thrown

/-- A step from which the monitor only goes on at another line. -/
private theorem MonitorMoves.line {line : Monitor} {made : List Mark}
    (running : s.monitor ≠ .unstarted ∧ s.monitor ≠ .ended ∧ s.monitor ≠ .cancelToken)
    (nothing : Guarantees.passed line = []) (uncalled : ∀ call, Mark.called call ∉ made) :
    MonitorMoves s { s with monitor := line, marks := s.marks ++ made } made := by
  constructor <;> simp_all

private theorem MonitorMoves.unmarked {line : Monitor}
    (running : s.monitor ≠ .unstarted ∧ s.monitor ≠ .ended ∧ s.monitor ≠ .cancelToken)
    (nothing : Guarantees.passed line = []) : ∃ made, MonitorMoves s { s with monitor := line } made := by
  refine ⟨[], ?_⟩
  constructor <;> simp_all

theorem monitorStep_moves {outcome : Outcome} (stepped : monitorStep s outcome = some next) :
    ∃ made, MonitorMoves s next made := by
  unfold monitorStep at stepped
  split at stepped <;> cases stepped
  -- the four lines of the setup leave a mark
  case h_3 => exact ⟨[.listened], by constructor <;> simp_all [State.mark, Guarantees.passed]⟩
  case h_4 => exact ⟨[.committed], by constructor <;> simp_all [State.mark, Guarantees.passed]⟩
  case h_5 cancelled line =>
    refine ⟨[.statusRead] ++ if cancelled then [.foundCancelled] else [], ?_⟩
    cases cancelled <;> constructor <;> simp_all [State.mark, State.markIf, Guarantees.passed]
  case h_6 => exact ⟨[.committed], by constructor <;> simp_all [State.mark, Guarantees.passed, watched]⟩
  -- what is thrown leaves one, unless it is suppressed
  case h_2 | h_23 => exact ⟨[.monitorRaised _], .line (by simp_all) (passed_caught _) (by simp)⟩
  case h_7 | h_8 | h_9 | h_10 | h_11 | h_21 => exact ⟨[.monitorRaised _], .line (by simp_all) rfl (by simp)⟩
  case h_17 arrived line =>
    refine ⟨if arrived then [.foundCancelled] else [], .line (by simp_all) ?_ ?_⟩
    · split <;> rfl
    · cases arrived <;> simp
  case h_27 => exact ⟨[.monitorRaised _], .line (by simp_all) rfl (by simp)⟩
  all_goals
    first
    | exact MonitorMoves.unmarked (by simp_all) rfl
    | exact MonitorMoves.unmarked (by simp_all) (passed_elim _)
    | exact MonitorMoves.unmarked (by simp_all) (by split <;> rfl)
    | exact ⟨[], by constructor <;> simp_all [State.recordError, Guarantees.passed]⟩

/-- Other marks leave what precedes a mark as it was. -/
private theorem before_append {made : List Mark} {mark : Mark} {P : List Mark → Prop} (unmade : mark ∉ made)
    (held : ∀ before after, s.marks = before ++ mark :: after → P before) {before after : List Mark}
    (same : s.marks ++ made = before ++ mark :: after) : P before := by
  rcases List.append_eq_append_iff.mp same with ⟨rest, whole, late⟩ | ⟨rest, whole, early⟩
  · exact absurd (late ▸ List.mem_append_right rest List.mem_cons_self) unmade
  · cases rest with
    | nil =>
      rw [List.nil_append] at early
      exact absurd (early ▸ List.mem_cons_self) unmade
    | cons first rest =>
      rw [List.cons_append, List.cons.injEq] at early
      rw [← early.1] at whole
      exact held before rest whole

/-- What holds of the marks so far holds of what precedes the mark that is left now. -/
private theorem before_mark {mark : Mark} {P : List Mark → Prop} (here : P s.marks)
    (held : ∀ before after, s.marks = before ++ mark :: after → P before) {before after : List Mark}
    (same : s.marks ++ [mark] = before ++ mark :: after) : P before := by
  rcases List.append_eq_append_iff.mp same with ⟨rest, whole, late⟩ | ⟨rest, whole, early⟩
  · cases rest with
    | nil => rwa [whole, List.append_nil]
    | cons first rest => simp at late
  · cases rest with
    | nil => rwa [whole, List.append_nil] at here
    | cons first rest =>
      rw [List.cons_append, List.cons.injEq] at early
      rw [← early.1] at whole
      exact held before rest whole

private theorem inv_monitor (inv : Inv s) {outcome : Outcome} (stepped : monitorStep s outcome = some next) :
    Inv next := by
  obtain ⟨made, moves⟩ := monitorStep_moves stepped
  obtain ⟨unstarted, ended⟩ := moves.running
  have kept : s.marks.Sublist (s.marks ++ made) := List.sublist_append_left _ _
  have uncalled := moves.uncalled
  have token := moves.token
  rw [moves.frame]
  constructor
  · exact moves.passed.trans (inv.passed.append_right made)
  · intro succeeded
    rcases moves.setup succeeded with before | whole
    · exact (inv.setup before).trans kept
    · rw [← whole]
      exact inv.passed.trans kept
  · exact inv.captured
  · intro failed
    exact (inv.failing failed).imp_left token
  · intro k reached
    have here := inv.at' k reached
    constructor
    · exact fun start => absurd (here.start start).1 unstarted
    · intro recorded
      rcases moves.recorded recorded with ⟨before, cancels⟩ | cancelling
      · rcases here.recorded before with set | cancelling
        · exact .inl (token set)
        · exact .inl (cancels cancelling)
      · exact .inr cancelling
    · exact fun far => moves.kept (here.setup far)
    · exact here.bound
    · exact fun far => (here.clear far).trans kept
    · exact here.unstarted
    · exact here.joined
    · exact fun far => absurd (here.stopped far).1 ended
    · exact fun far => absurd (here.stopped (by omega)).1 ended
  · intro before after same
    exact before_append (uncalled _) inv.executed same
  · intro called
    rcases List.mem_append.mp called with before | made
    · exact absurd (inv.finalized before).2.monitor ended
    · exact absurd made (uncalled _)

end Monitor

section Heartbeat

/-- What one step of the heartbeat can do. -/
structure HeartbeatMoves (s next : State) (made : List Mark) : Prop where
  frame : next = { s with
    heartbeat := next.heartbeat, token := next.token, heartbeatError := next.heartbeatError, errors := next.errors,
    marks := s.marks ++ made }
  running : s.heartbeat ≠ .unstarted ∧ s.heartbeat ≠ .ended ∧ next.heartbeat ≠ .unstarted
  uncalled : ∀ call, call ≠ .renewLease → Mark.called call ∉ made
  token : s.token = true → next.token = true
  failed : next.errors ≠ [] ∨ next.heartbeatError.isSome → (s.errors ≠ [] ∨ s.heartbeatError.isSome) ∨
    Failing next.heartbeat
  failing : Failing s.heartbeat → (s.captured = true → next.token = true) ∨ Failing next.heartbeat

theorem heartbeatStep_moves {outcome : Outcome} (stepped : heartbeatStep s outcome = some next) :
    ∃ made, HeartbeatMoves s next made := by
  unfold heartbeatStep at stepped
  split at stepped
  case h_1 =>
    split at stepped <;> cases stepped
    exact ⟨[], by constructor <;> simp_all [Failing]⟩
  all_goals cases stepped
  case h_2 => exact ⟨[.called .renewLease], by constructor <;> simp_all [Failing, State.mark]⟩
  case h_3 => exact ⟨[.renewed], by constructor <;> simp_all [Failing, State.mark]⟩
  case h_5 failures error _ _ =>
    refine ⟨[.renewalRaised (.exception error)], ?_⟩
    by_cases gives : Processor.HEARTBEAT_MAX_FAILURES ≤ failures + 1
    · simp only [if_pos gives]
      constructor <;> simp_all [Failing, State.mark]
    · simp only [if_neg gives]
      constructor <;> simp_all [Failing, State.mark]
  case h_4 _ lost _ =>
    exact ⟨[.renewalRaised (.exception (.leaseLost lost))], by constructor <;> simp_all [Failing, State.mark]⟩
  case h_6 => exact ⟨[.renewalRaised .exit], by constructor <;> simp_all [Failing, State.mark]⟩
  all_goals exact ⟨[], by constructor <;> simp_all [Failing]⟩

private theorem inv_heartbeat (inv : Inv s) {outcome : Outcome} (stepped : heartbeatStep s outcome = some next) :
    Inv next := by
  obtain ⟨made, moves⟩ := heartbeatStep_moves stepped
  obtain ⟨unstarted, ended, started⟩ := moves.running
  have kept : s.marks.Sublist (s.marks ++ made) := List.sublist_append_left _ _
  have captured := inv.captured unstarted
  have token := moves.token
  have uncalled := moves.uncalled
  rw [moves.frame]
  constructor
  · exact inv.passed.trans kept
  · exact fun succeeded => (inv.setup succeeded).trans kept
  · exact fun _ => captured
  · intro failed
    rcases moves.failed failed with before | failing
    · rcases inv.failing before with set | failing
      · exact .inl (token set)
      · exact (moves.failing failing).imp_left fun cancels => cancels captured
    · exact .inr failing
  · intro k reached
    have here := inv.at' k reached
    constructor
    · exact here.start
    · exact fun recorded => (here.recorded recorded).imp_left token
    · exact here.setup
    · exact here.bound
    · exact fun far => (here.clear far).trans kept
    · exact fun near => absurd (here.unstarted near).1 unstarted
    · exact fun far => absurd (here.joined far) ended
    · exact fun far => absurd (here.joined (by omega)) ended
    · exact fun far => absurd (here.joined (by omega)) ended
  · intro before after same
    exact before_append (uncalled .execute nofun) inv.executed same
  · intro called
    rcases List.mem_append.mp called with before | made
    · exact absurd (inv.finalized before).2.heartbeat ended
    · exact absurd made (uncalled _ nofun)

end Heartbeat

section Main

/-- The main thread goes on, and what it does not touch stays. -/
private theorem Inv.turn (inv : Inv s) {main : Main} {stopped heartbeatStopped bound token : Bool}
    {monitorError : Option Exc} {made : List Mark} (mono : s.token = true → token = true)
    (uncalled : Mark.called .execute ∉ made ∧ Mark.called .finalize ∉ made)
    (settled : Concluding s.main → Concluding main ∧ token = s.token ∧ monitorError = s.monitorError)
    (reached : ∀ k, stage main = some k →
      At { s with main, stopped, heartbeatStopped, bound, token, monitorError, marks := s.marks ++ made } k) :
    Inv { s with main, stopped, heartbeatStopped, bound, token, monitorError, marks := s.marks ++ made } where
  passed := inv.passed.trans (List.sublist_append_left _ _)
  setup succeeded := (inv.setup succeeded).trans (List.sublist_append_left _ _)
  captured := inv.captured
  failing failed := (inv.failing failed).imp_left mono
  at' := reached
  executed _ _ same := before_append uncalled.1 inv.executed same
  finalized called := by
    have before := (List.mem_append.mp called).resolve_right uncalled.2
    obtain ⟨concluding, supervised⟩ := inv.finalized before
    obtain ⟨there, rfl, rfl⟩ := settled concluding
    exact ⟨there, ⟨supervised.setup, supervised.monitor, List.mem_append_left _ supervised.stopped,
      supervised.heartbeat, supervised.token, supervised.monitorError, supervised.heartbeatError,
      supervised.errors⟩⟩

/-- The main thread goes on to a line from which it does not finalize. -/
private theorem Inv.lost (inv : Inv s) {main : Main} {stopped heartbeatStopped token : Bool}
    {monitorError : Option Exc} (mono : s.token = true → token = true) (before : ¬ Concluding s.main)
    (off : stage main = none) : Inv { s with main, stopped, heartbeatStopped, token, monitorError } := by
  have turned : Inv { s with main, stopped, heartbeatStopped, token, monitorError, marks := s.marks ++ [] } :=
    inv.turn mono (by simp) (fun concluding => absurd concluding before)
      (fun k there => absurd (off.symm.trans there) nofun)
  rwa [List.append_nil] at turned

/-- The main thread goes on to a line of the same stage, or of the next where that asks for nothing more. -/
private theorem Inv.proceed (inv : Inv s) {main : Main} {stopped heartbeatStopped : Bool} {j k : ℕ}
    (here : stage s.main = some j) (there : stage main = some k)
    (near : k = j ∨ (k = j + 1 ∧ j ∈ [0, 1, 2, 7, 8, 9, 11])) : Inv { s with main, stopped, heartbeatStopped } := by
  have at' := inv.at' j here
  have before : ¬ Concluding s.main := by
    intro concluding
    cases line : s.main <;> simp_all [Concluding, stage]
  suffices turned : Inv { s with main, stopped, heartbeatStopped, marks := s.marks ++ [] } by
    rwa [List.append_nil] at turned
  apply inv.turn id (by simp) (fun concluding => absurd concluding before)
  · rw [List.append_nil]
    intro _ same
    obtain rfl := Option.some.inj (there.symm.trans same)
    have cases' : k = j ∨ (k = j + 1 ∧ (j = 0 ∨ j = 1 ∨ j = 2 ∨ j = 7 ∨ j = 8 ∨ j = 9 ∨ j = 11)) := by
      simpa using near
    constructor
    · exact fun start => at'.start (by omega)
    · exact at'.recorded
    · exact fun far => at'.setup (by omega)
    · exact fun far => at'.bound (by omega)
    · exact fun far => at'.clear (by omega)
    · exact fun near => at'.unstarted (by omega)
    · exact fun far => at'.joined (by omega)
    · exact fun far => at'.stopped (by omega)
    · exact fun far => at'.token (by omega)

private theorem stage_caught (thrown : Thrown) : stage (.caught thrown) = none := by
  cases thrown <;> rfl

private theorem stage_stop {line : Stop} (first : line ≠ .cancelToken) (last : line ≠ .emit) :
    stage (.stopMonitor line none) = some 12 := by
  cases line <;> simp_all [stage]

/-- `stop_monitor` goes on to its next line. -/
private theorem Inv.stopping (inv : Inv s) {line next : Stop} {pending : Option Thrown} {stopped : Bool}
    (here : s.main = .stopMonitor line pending) (before : line ≠ .cancelToken ∧ line ≠ .emit)
    (after : next ≠ .cancelToken ∧ next ≠ .emit) : Inv { s with main := .stopMonitor next pending, stopped } := by
  cases pending with
  | some thrown =>
    apply inv.lost id
    · simp [here, Concluding]
    · cases next <;> rfl
  | none => exact inv.proceed (by rw [here, stage_stop before.1 before.2]) (stage_stop after.1 after.2) (.inl rfl)

/-- `stop_monitor` returns once the thread has ended. -/
private theorem Inv.left (inv : Inv s) {line : Stop} {pending : Option Thrown}
    (here : s.main = .stopMonitor line pending) (before : line ≠ .cancelToken ∧ line ≠ .emit)
    (ended : s.monitor = .ended) :
    Inv ({ s with main := pending.elim Main.checkAgain Main.caught }.mark .monitorStopped) := by
  refine inv.turn id (by simp) (by simp [here, Concluding]) ?_
  cases pending with
  | some thrown => exact fun k there => absurd ((stage_caught thrown).symm.trans there) nofun
  | none =>
    rintro _ ⟨⟩
    have at' := inv.at' 12 (by rw [here, stage_stop before.1 before.2])
    constructor
    · exact fun start => absurd start (by omega)
    · exact at'.recorded
    · exact fun _ => at'.setup (by omega)
    · exact fun _ => at'.bound (by omega)
    · exact fun _ => (at'.clear (by omega)).trans (List.sublist_append_left _ _)
    · exact fun near => absurd near (by omega)
    · exact fun _ => at'.joined (by omega)
    · exact fun _ => ⟨ended, List.mem_append_right _ (List.mem_singleton_self _)⟩
    · exact fun far => absurd far (by omega)

private theorem inv_stop (inv : Inv s) {line : Stop} {pending : Option Thrown} {outcome : Outcome}
    (here : s.main = .stopMonitor line pending) (stepped : stopStep jobId s line pending outcome = some next) :
    Inv next := by
  have before : ¬ Concluding s.main := by simp [here, Concluding]
  unfold stopStep at stepped
  split at stepped
  case h_1 => cases stepped; exact inv.stopping here (by decide) (by decide)
  case h_2 | h_8 =>
    split at stepped <;> cases stepped
    exact inv.stopping here (by decide) (by decide)
  case h_3 | h_9 | h_5 | h_6 => cases stepped; exact inv.stopping here (by decide) (by decide)
  case h_4 | h_10 =>
    split at stepped <;> cases stepped
    · next ended => exact inv.left here (by decide) ended
    · exact inv.stopping here (by decide) (by decide)
  case h_7 => cases stepped; exact inv.lost id before rfl
  case h_11 => cases stepped; exact inv.lost id before (by cases pending <;> rfl)
  case h_12 => cases stepped; exact inv.lost (fun _ => rfl) before (by cases pending <;> rfl)
  case h_13 => cases stepped; exact inv.lost id before rfl
  case h_14 => cases stepped; exact inv.lost id before (stage_caught _)
  case h_15 => cases stepped

/-- A step after the call of `_finalize`. -/
private theorem Inv.conclude (inv : Inv s) {main : Main} {made : List Mark} (concluding : Concluding main)
    (uncalled : Mark.called .execute ∉ made ∧ Mark.called .finalize ∉ made) :
    Inv { s with main, marks := s.marks ++ made } := by
  apply inv.turn id uncalled
  · exact fun _ => ⟨concluding, rfl, rfl⟩
  · intro k there
    cases main <;> simp_all [Concluding, stage]

private theorem Inv.quiet (inv : Inv s) {main : Main} (concluding : Concluding main) : Inv { s with main } := by
  have concluded : Inv { s with main, marks := s.marks ++ [] } := inv.conclude concluding (by simp)
  rwa [List.append_nil] at concluded

/-- What holds at a stage holds at the next one but for what the step has established. -/
private theorem At.succ {k : ℕ} (here : At s k) {main : Main} {bound : Bool} {made : List Mark}
    (setup : k = 3 → s.setupSucceeded = true) (bind : 4 ≤ k → bound = true)
    (clear : k = 5 → (watched ++ [Mark.foundClear]).Sublist (s.marks ++ made))
    (joined : k = 10 → s.heartbeat = .ended) (stopped : k ≠ 12) (token : k = 13 → s.token = false) :
    At { s with main, bound, marks := s.marks ++ made } (k + 1) := by
  constructor
  · exact fun start => absurd start (by omega)
  · exact here.recorded
  · intro far
    rcases Nat.lt_or_ge k 4 with near | far
    · exact setup (by omega)
    · exact here.setup far
  · exact fun far => bind (by omega)
  · intro far
    rcases Nat.lt_or_ge k 6 with near | far
    · exact clear (by omega)
    · exact (here.clear far).trans (List.sublist_append_left _ _)
  · exact fun near => here.unstarted (by omega)
  · intro far
    rcases Nat.lt_or_ge k 11 with near | far
    · exact joined (by omega)
    · exact here.joined far
  · intro far
    obtain ⟨ended, marked⟩ := here.stopped (by omega)
    exact ⟨ended, List.mem_append_left _ marked⟩
  · intro far
    rcases Nat.lt_or_ge k 14 with near | far
    · exact token (by omega)
    · exact here.token far

/-- The main thread goes on to the next stage, having established what that asks for. -/
private theorem Inv.succ (inv : Inv s) {main : Main} {bound : Bool} {made : List Mark} {k : ℕ}
    (here : stage s.main = some k) (there : stage main = some (k + 1))
    (uncalled : Mark.called .execute ∉ made ∧ Mark.called .finalize ∉ made)
    (setup : k = 3 → s.setupSucceeded = true) (bind : 4 ≤ k → bound = true)
    (clear : k = 5 → (watched ++ [Mark.foundClear]).Sublist (s.marks ++ made))
    (joined : k = 10 → s.heartbeat = .ended) (stopped : k ≠ 12) (token : k = 13 → s.token = false) :
    Inv { s with main, bound, marks := s.marks ++ made } := by
  apply inv.turn id uncalled
  · intro concluding
    cases line : s.main <;> simp_all [Concluding, stage]
  · intro _ same
    obtain rfl := Option.some.inj (there.symm.trans same)
    exact (inv.at' k here).succ setup bind clear joined stopped token

private theorem inv_start (inv : Inv s) (here : s.main = .startMonitor) :
    Inv { s with monitor := .connect, main := .awaitReady } := by
  obtain ⟨_, unrecorded⟩ := (inv.at' 0 (by rw [here]; rfl)).start rfl
  obtain ⟨heartbeat, errors⟩ := (inv.at' 0 (by rw [here]; rfl)).unstarted (by omega)
  refine ⟨List.nil_sublist _, inv.setup, inv.captured, inv.failing, ?_, inv.executed, ?_⟩
  · rintro _ ⟨⟩
    constructor
    · exact fun start => absurd start (by omega)
    · exact fun recorded => absurd recorded (by simp [unrecorded])
    · exact fun far => absurd far (by omega)
    · exact fun far => absurd far (by omega)
    · exact fun far => absurd far (by omega)
    · exact fun _ => ⟨heartbeat, errors⟩
    · exact fun far => absurd far (by omega)
    · exact fun far => absurd far (by omega)
    · exact fun far => absurd far (by omega)
  · intro called
    have concluding := (inv.finalized called).1
    rw [here] at concluding
    exact concluding.elim

private theorem inv_startHeartbeat (inv : Inv s) (here : s.main = .startHeartbeat) :
    Inv { s with captured := s.bound, heartbeat := .wait 0, main := .execute } := by
  have at' := inv.at' 6 (by rw [here]; rfl)
  obtain ⟨heartbeat, errors, unfailed⟩ := at'.unstarted (by omega)
  refine ⟨inv.passed, inv.setup, fun _ => at'.bound (by omega), ?_, ?_, inv.executed, ?_⟩
  · rintro (failed | failed)
    · exact absurd errors failed
    · rw [unfailed] at failed
      cases failed
  · rintro _ ⟨⟩
    constructor
    · exact fun start => absurd start (by omega)
    · exact at'.recorded
    · exact fun _ => at'.setup (by omega)
    · exact fun _ => at'.bound (by omega)
    · exact fun _ => at'.clear (by omega)
    · exact fun near => absurd near (by omega)
    · exact fun far => absurd far (by omega)
    · exact fun far => absurd far (by omega)
    · exact fun far => absurd far (by omega)
  · intro called
    have concluding := (inv.finalized called).1
    rw [here] at concluding
    exact concluding.elim

private theorem inv_execute (inv : Inv s) (here : s.main = .execute) :
    Inv ({ s with main := .executing }.mark (.called .execute)) := by
  have at' := inv.at' 7 (by rw [here]; rfl)
  have kept : s.marks.Sublist (s.marks ++ [.called .execute]) := List.sublist_append_left _ _
  refine ⟨inv.passed.trans kept, fun done => (inv.setup done).trans kept, inv.captured, inv.failing, ?_, ?_, ?_⟩
  · rintro _ ⟨⟩
    exact at'.succ (by omega) (fun _ => at'.bound (by omega)) (by omega) (by omega) (by omega) (by omega)
  · intro before after same
    exact before_mark (at'.clear (by omega)) inv.executed same
  · intro called
    have before := (List.mem_append.mp called).resolve_right (by simp)
    have concluding := (inv.finalized before).1
    rw [here] at concluding
    exact concluding.elim

/-- At the call of `_finalize`, what had been recorded would have tripped the token: both threads have ended. -/
private theorem Inv.supervised (inv : Inv s) (here : s.main = .finalize) : Supervised s := by
  have at' := inv.at' 14 (by rw [here]; rfl)
  obtain ⟨ended, stopped⟩ := at'.stopped (by omega)
  have joined := at'.joined (by omega)
  have clear := at'.token (by omega)
  have failed : ¬ (s.errors ≠ [] ∨ s.heartbeatError.isSome) := by
    intro failed
    rcases inv.failing failed with set | failing
    · rw [clear] at set
      cases set
    · rw [joined] at failing
      exact failing.elim
  have recorded : ¬ s.monitorError.isSome := by
    intro recorded
    rcases at'.recorded recorded with set | cancelling
    · rw [clear] at set
      cases set
    · rw [ended] at cancelling
      cases cancelling
  refine ⟨at'.setup (by omega), ended, stopped, joined, clear, ?_, ?_, ?_⟩
  · exact Option.not_isSome_iff_eq_none.mp recorded
  · exact Option.not_isSome_iff_eq_none.mp fun some => failed (.inr some)
  · by_contra some
    exact failed (.inl some)

private theorem inv_finalize (inv : Inv s) (here : s.main = .finalize) :
    Inv ({ s with main := .finalizing }.mark (.called .finalize)) := by
  have supervised := inv.supervised here
  have kept : s.marks.Sublist (s.marks ++ [.called .finalize]) := List.sublist_append_left _ _
  refine ⟨inv.passed.trans kept, fun done => (inv.setup done).trans kept, inv.captured, inv.failing, nofun, ?_, ?_⟩
  · intro before after same
    exact before_append (by simp) inv.executed same
  · exact fun _ => ⟨trivial, ⟨supervised.setup, supervised.monitor, List.mem_append_left _ supervised.stopped,
      supervised.heartbeat, supervised.token, supervised.monitorError, supervised.heartbeatError, supervised.errors⟩⟩

private theorem inv_main (inv : Inv s) {outcome : Outcome} (stepped : mainStep jobId s outcome = some next) :
    Inv next := by
  unfold mainStep at stepped
  split at stepped
  case h_1 here => cases stepped; exact inv_start inv here
  case h_2 here => cases stepped; exact inv.lost id (by simp [here, Concluding]) (stage_caught _)
  case h_3 here =>
    split at stepped <;> cases stepped
    exact inv.proceed (j := 1) (by rw [here]; rfl) (k := 2) rfl (by simp)
  case h_4 here => cases stepped; exact inv.lost id (by simp [here, Concluding]) rfl
  case h_5 here => cases stepped; exact inv.lost id (by simp [here, Concluding]) rfl
  case h_6 here => cases stepped; exact inv.lost (fun _ => rfl) (by simp [here, Concluding]) rfl
  case h_7 here => cases stepped; exact inv.proceed (j := 2) (by rw [here]; rfl) (k := 3) rfl (by simp)
  case h_8 here =>
    split at stepped <;> cases stepped
    · next succeeded =>
      have turned : Inv { s with main := .bindToken, marks := s.marks ++ [] } := inv.succ (k := 3) (by rw [here]; rfl) rfl
        (by simp) (fun _ => succeeded) (by omega) (by omega) (by omega) (by omega) (by omega)
      rwa [List.append_nil] at turned
    · exact inv.lost id (by simp [here, Concluding]) rfl
  case h_9 here =>
    cases stepped
    have turned : Inv { s with main := .checkToken, bound := true, marks := s.marks ++ [] } :=
      inv.succ (k := 4) (by rw [here]; rfl) rfl (by simp) (by omega) (fun _ => rfl) (by omega) (by omega) (by omega)
        (by omega)
    rwa [List.append_nil] at turned
  case h_10 here =>
    split at stepped <;> cases stepped
    · exact inv.lost id (by simp [here, Concluding]) rfl
    · have at' := inv.at' 5 (by rw [here]; rfl)
      exact inv.succ (k := 5) (by rw [here]; rfl) rfl (by simp) (by omega) (fun _ => at'.bound (by omega))
        (fun _ => (inv.setup (at'.setup (by omega))).append_right _) (by omega) (by omega) (by omega)
  case h_11 here => cases stepped; exact inv_startHeartbeat inv here
  case h_12 here => cases stepped; exact inv.lost id (by simp [here, Concluding]) rfl
  case h_13 here => cases stepped; exact inv_execute inv here
  case h_14 here => cases stepped; exact inv.proceed (j := 8) (by rw [here]; rfl) (k := 9) rfl (by simp)
  case h_15 here => cases stepped; exact inv.lost id (by simp [here, Concluding]) rfl
  case h_16 pending here =>
    cases stepped
    cases pending with
    | none => exact inv.proceed (j := 9) (by rw [here]; rfl) (k := 10) rfl (by simp)
    | some thrown => exact inv.lost id (by simp [here, Concluding]) rfl
  case h_17 pending here =>
    split at stepped <;> cases stepped
    next ended =>
    cases pending with
    | none =>
      have bound := (inv.at' 10 (by rw [here]; rfl)).bound (by omega)
      have turned : Inv { s with main := .checkErrors none, marks := s.marks ++ [] } := inv.succ (k := 10)
        (by rw [here]; rfl) rfl (by simp) (by omega) (fun _ => bound) (by omega) (fun _ => ended) (by omega) (by omega)
      rwa [List.append_nil] at turned
    | some thrown => exact inv.lost id (by simp [here, Concluding]) rfl
  case h_18 pending here =>
    cases stepped
    cases left : pending.or (if s.errors = [] then none else some (Thrown.exception (heartbeatFailed jobId))) with
    | none =>
      obtain ⟨rfl, _⟩ := Option.or_eq_none_iff.mp left
      exact inv.proceed (j := 11) (by rw [here]; rfl) (k := 12) rfl (by simp)
    | some thrown => exact inv.lost id (by simp [here, Concluding]) rfl
  case h_19 here => exact inv_stop inv here stepped
  case h_20 here =>
    split at stepped <;> cases stepped
    · exact inv.lost id (by simp [here, Concluding]) (stage_caught _)
    · next clear =>
      have bound := (inv.at' 13 (by rw [here]; rfl)).bound (by omega)
      have turned : Inv { s with main := .finalize, marks := s.marks ++ [] } := inv.succ (k := 13)
        (by rw [here]; rfl) rfl (by simp) (by omega) (fun _ => bound) (by omega) (by omega) (by omega)
        (fun _ => Bool.eq_false_iff.mpr clear)
      rwa [List.append_nil] at turned
  case h_21 here => cases stepped; exact inv_finalize inv here
  case h_22 | h_25 | h_28 => cases stepped; exact inv.quiet trivial
  case h_23 thrown here => cases stepped; exact inv.quiet (by cases thrown <;> trivial)
  case h_24 error here => cases stepped; exact inv.quiet (by split <;> trivial)
  case h_26 here => cases stepped; exact inv.conclude trivial (by simp)
  case h_27 cancelled here => cases stepped; exact inv.quiet (by cases cancelled <;> trivial)
  case h_29 here => cases stepped; exact inv.quiet trivial
  case h_30 error here => cases stepped; exact inv.conclude trivial (by simp)
  case h_31 => cases stepped

end Main

section Marks

/-- The heartbeat has an error, which it has recorded or is about to. -/
def Owing (s : State) : Prop := s.errors ≠ [] ∨ ∃ error, s.heartbeat = .appendError error

/-- The failures in a row that the heartbeat has counted. -/
def counted : Heartbeat → Option ℕ
  | .wait failures | .renew failures => some failures
  | _ => none

/-- What a step does to the renewals and to their count. -/
inductive Renews (s next : State) (made : List Mark) : Prop where
  | unrenewed (none : renewals made = [])
      (kept : ∀ n, counted next.heartbeat = some n → counted s.heartbeat = some n ∨ s.heartbeat = .unstarted)
  | succeeded (renewal : Option Thrown) (one : renewals made = [renewal]) (succeeded : ¬ FailedRenewal renewal)
  | failed (renewal : Option Thrown) (n : ℕ) (one : renewals made = [renewal]) (before : counted s.heartbeat = some n)
      (after : (Owing next ∧ counted next.heartbeat = none) ∨ (n + 1 < 3 ∧ counted next.heartbeat = some (n + 1)))

/-- What one step of any thread does that the marks tell. -/
structure Notices (s next : State) (made : List Mark) : Prop where
  marks : next.marks = s.marks ++ made
  token : s.token = true → next.token = true
  alarms : (∃ mark ∈ made, Alarming mark) → next.token = true ∨ Signalling next.monitor
  signalling : Signalling s.monitor → next.token = true ∨ Signalling next.monitor ∨ .monitorRaised .exit ∈ made
  owing : Owing s → Owing next
  lost : ∀ lost, .renewalRaised (.exception (.leaseLost lost)) ∈ made → Owing next
  renews : Renews s next made
  unstarted : next.heartbeat = .unstarted → s.heartbeat = .unstarted ∧ renewals made = []
  emitting : next.monitor = .emit → next.token = true
  finalized : .called .finalize ∈ made → made = [.called .finalize] ∧ s.main = .finalize

/-- What the marks of the two threads say of them. -/
structure Noticed (s : State) : Prop where
  alarmed : ∀ before after alarm, s.marks = before ++ alarm :: after → Alarming alarm →
    .monitorRaised .exit ∈ after ∨ s.token = true ∨ Signalling s.monitor
  lost : ∀ lost, .renewalRaised (.exception (.leaseLost lost)) ∈ s.marks → Owing s
  many : ∀ row, row <:+: renewals s.marks → (∀ renewal ∈ row, FailedRenewal renewal) → 3 ≤ row.length → Owing s
  row : ∀ n, counted s.heartbeat = some n → ∀ row, row <:+ renewals s.marks → (∀ renewal ∈ row, FailedRenewal renewal) →
    row.length ≤ n
  unstarted : s.heartbeat = .unstarted → renewals s.marks = []
  emitting : s.monitor = .emit → s.token = true
  finalized : ∀ before after, s.marks = before ++ .called .finalize :: after → Orderly before

private theorem not_raised {made : List Mark} (none : renewals made = []) (thrown : Thrown) :
    .renewalRaised thrown ∉ made := by
  intro raised
  have member : some thrown ∈ renewals made := List.mem_filterMap.mpr ⟨_, raised, rfl⟩
  rw [none] at member
  exact List.not_mem_nil member

/-- A step of another thread than the heartbeat. -/
private theorem Notices.idle {made : List Mark} (marks : next.marks = s.marks ++ made)
    (same : next.heartbeat = s.heartbeat ∧ next.errors = s.errors) (none : renewals made = [])
    (token : s.token = true → next.token = true)
    (alarms : (∃ mark ∈ made, Alarming mark) → next.token = true ∨ Signalling next.monitor)
    (signalling : Signalling s.monitor → next.token = true ∨ Signalling next.monitor ∨ .monitorRaised .exit ∈ made)
    (emitting : next.monitor = .emit → next.token = true)
    (finalized : .called .finalize ∈ made → made = [.called .finalize] ∧ s.main = .finalize) :
    Notices s next made where
  marks := marks
  token := token
  alarms := alarms
  signalling := signalling
  owing owing := by
    unfold Owing
    rw [same.1, same.2]
    exact owing
  lost lost raised := absurd raised (not_raised none _)
  renews := .unrenewed none fun n now => .inl (by rwa [same.1] at now)
  unstarted unstarted := ⟨same.1 ▸ unstarted, none⟩
  emitting := emitting
  finalized := finalized

/-- A line of the monitor that neither touches the token nor sees anything. -/
private theorem Notices.goes {line : Monitor} {ready setupSucceeded : Bool} {monitorError : Option Exc}
    (other : line ≠ .emit) (signalling : Signalling s.monitor → Signalling line) :
    Notices s { s with monitor := line, ready, setupSucceeded, monitorError } [] :=
  .idle (List.append_nil _).symm ⟨rfl, rfl⟩ rfl id (by simp) (fun before => .inr (.inl (signalling before)))
    (fun emits => absurd emits other) (by simp)

/-- A line of the setup, which leaves a mark. -/
private theorem Notices.passes {line : Monitor} {mark : Mark} (silent : ¬ Alarming mark) (none : renewals [mark] = [])
    (uncalled : mark ≠ .called .finalize) (other : line ≠ .emit) (signalling : Signalling s.monitor → Signalling line) :
    Notices s ({ s with monitor := line }.mark mark) [mark] := by
  refine .idle rfl ⟨rfl, rfl⟩ none id ?_ (fun before => .inr (.inl (signalling before)))
    (fun emits => absurd emits other) ?_
  · rintro ⟨_, member, alarming⟩
    rw [List.mem_singleton.mp member] at alarming
    exact absurd alarming silent
  · exact fun member => absurd (List.mem_singleton.mp member).symm uncalled

/-- A line of the monitor at which something is thrown. -/
private theorem Notices.throws {line : Monitor} {thrown : Thrown} (other : line ≠ .emit)
    (signalling : ∀ error, thrown = .exception error → Signalling line) :
    Notices s ({ s with monitor := line }.mark (.monitorRaised thrown)) [.monitorRaised thrown] := by
  refine .idle rfl ⟨rfl, rfl⟩ rfl id ?_ ?_ (fun emits => absurd emits other) (by simp)
  · rintro ⟨_, member, alarming⟩
    rw [List.mem_singleton.mp member] at alarming
    cases thrown with
    | exception error => exact .inr (signalling error rfl)
    | exit => exact alarming.elim
  · intro _
    cases thrown with
    | exception error => exact .inr (.inl (signalling error rfl))
    | exit => exact .inr (.inr (List.mem_singleton_self _))

private theorem monitorStep_notices (noticed : Noticed s) {outcome : Outcome}
    (stepped : monitorStep s outcome = some next) : ∃ made, Notices s next made := by
  unfold monitorStep at stepped
  split at stepped <;> cases stepped
  case h_1 line | h_12 _ line | h_14 line | h_24 line | h_26 line | h_28 line =>
    exact ⟨[], .goes (by simp) (by simp [line, Signalling])⟩
  case h_19 _ line | h_20 _ _ line => exact ⟨[], .goes (by simp) (by simp [line, Signalling])⟩
  case h_15 line | h_16 line => exact ⟨[], .goes (by split <;> simp) (by simp [line, Signalling])⟩
  case h_22 pending line =>
    refine ⟨[], .goes ?_ ?_⟩
    · rcases pending with _ | _ | _ <;> simp [Monitor.caught]
    · rw [line]
      rintro ⟨error, rfl⟩
      trivial
  case h_3 line => exact ⟨[.listened], .passes id rfl (by simp) (by simp) (by simp [line, Signalling])⟩
  case h_4 line | h_6 _ line => exact ⟨[.committed], .passes id rfl (by simp) (by simp) (by simp [line, Signalling])⟩
  case h_2 thrown line | h_23 thrown line =>
    refine ⟨[.monitorRaised thrown], .throws ?_ ?_⟩
    · cases thrown <;> simp [Monitor.caught]
    · rintro error rfl
      trivial
  case h_7 thrown _ | h_8 thrown _ | h_9 thrown _ | h_10 thrown _ | h_11 thrown _ =>
    exact ⟨[.monitorRaised thrown], .throws (by simp) fun error same => ⟨error, by rw [same]⟩⟩
  case h_21 => exact ⟨[.monitorRaised .exit], .throws (by simp) nofun⟩
  case h_5 cancelled line =>
    refine ⟨[.statusRead] ++ if cancelled then [.foundCancelled] else [], .idle ?_ ⟨rfl, rfl⟩ ?_ id ?_ ?_ ?_ ?_⟩
    · exact List.append_assoc ..
    · cases cancelled <;> rfl
    · cases cancelled <;> simp [Alarming, Signalling, State.mark, State.markIf]
    · simp [line, Signalling]
    · simp [State.mark, State.markIf]
    · cases cancelled <;> simp
  case h_17 arrived line =>
    refine ⟨if arrived then [.foundCancelled] else [], .idle rfl ⟨rfl, rfl⟩ ?_ id ?_ ?_ ?_ ?_⟩
    · cases arrived <;> rfl
    · cases arrived <;> simp [Alarming, Signalling, State.markIf]
    · simp [line, Signalling]
    · cases arrived <;> simp [State.markIf]
    · cases arrived <;> simp
  case h_13 cancelled line =>
    refine ⟨[], .idle (List.append_nil _).symm ⟨rfl, rfl⟩ rfl ?_ (by simp) ?_ (by simp) (by simp)⟩
    · exact fun set => by simp [set]
    · exact fun signalling => .inl (by simp_all [Signalling])
  case h_18 | h_25 =>
    exact ⟨[], .idle (List.append_nil _).symm ⟨rfl, rfl⟩ rfl (fun _ => rfl) (by simp) (fun _ => .inl rfl) (fun _ => rfl)
      (by simp)⟩
  -- the error has tripped the token by the line that reports it
  case h_27 thrown line =>
    exact ⟨[.monitorRaised thrown], .idle rfl ⟨rfl, rfl⟩ rfl id (fun _ => .inl (noticed.emitting line))
      (by simp [line, Signalling]) (by simp [State.mark]) (by simp)⟩

/-- A step of the heartbeat. -/
private theorem Notices.beats (noticed : Noticed s) {made : List Mark} (marks : next.marks = s.marks ++ made)
    (same : next.monitor = s.monitor) (token : s.token = true → next.token = true)
    (silent : ∀ mark ∈ made, ¬ Alarming mark ∧ mark ≠ .called .finalize) (owing : Owing s → Owing next)
    (lost : ∀ lost, .renewalRaised (.exception (.leaseLost lost)) ∈ made → Owing next) (renews : Renews s next made)
    (started : next.heartbeat ≠ .unstarted) : Notices s next made where
  marks := marks
  token := token
  alarms := fun ⟨mark, member, alarming⟩ => absurd alarming (silent mark member).1
  signalling signalling := .inr (.inl (same ▸ signalling))
  owing := owing
  lost := lost
  renews := renews
  unstarted unstarted := absurd unstarted started
  emitting emits := token (noticed.emitting (same ▸ emits))
  finalized called := absurd rfl (silent _ called).2

private theorem heartbeatStep_notices (noticed : Noticed s) {outcome : Outcome}
    (stepped : heartbeatStep s outcome = some next) : ∃ made, Notices s next made := by
  unfold heartbeatStep at stepped
  split at stepped
  case h_1 _ line =>
    split at stepped <;> cases stepped
    refine ⟨[], .beats noticed (List.append_nil _).symm rfl id (by simp) ?_ (by simp) ?_ (by simp)⟩
    · simp [Owing, line]
    · exact .unrenewed rfl nofun
  all_goals cases stepped
  case h_2 failures line =>
    refine ⟨[.called .renewLease], .beats noticed rfl rfl id (by simp [Alarming]) ?_ (by simp) ?_ (by simp [State.mark])⟩
    · simp [Owing, line, State.mark]
    · exact .unrenewed rfl fun n now => .inl (by rw [line]; exact now)
  case h_3 line =>
    refine ⟨[.renewed], .beats noticed rfl rfl id (by simp [Alarming]) ?_ (by simp) ?_ (by simp [State.mark])⟩
    · simp [Owing, line, State.mark]
    · exact .succeeded none rfl (by simp [FailedRenewal])
  case h_4 failures lost line =>
    have owing : Owing ({ s with heartbeat := .appendError (.leaseLost lost) }.mark
        (.renewalRaised (.exception (.leaseLost lost)))) := .inr ⟨_, rfl⟩
    refine ⟨[.renewalRaised (.exception (.leaseLost lost))], .beats noticed rfl rfl id (by simp [Alarming])
      (fun _ => owing) (fun _ _ => owing) ?_ (by simp [State.mark])⟩
    exact .failed _ failures rfl (by rw [line]; rfl) (.inl ⟨owing, rfl⟩)
  case h_5 failures error other line =>
    by_cases gives : Processor.HEARTBEAT_MAX_FAILURES ≤ failures + 1
    · simp only [if_pos gives]
      have owing : Owing ({ s with heartbeat := .appendError error }.mark (.renewalRaised (.exception error))) :=
        .inr ⟨_, rfl⟩
      refine ⟨[.renewalRaised (.exception error)], .beats noticed rfl rfl id (by simp [Alarming]) (fun _ => owing)
        (fun _ _ => owing) ?_ (by simp [State.mark])⟩
      exact .failed _ failures rfl (by rw [line]; rfl) (.inl ⟨owing, rfl⟩)
    · simp only [if_neg gives]
      refine ⟨[.renewalRaised (.exception error)], .beats noticed rfl rfl id (by simp [Alarming]) ?_ ?_ ?_
        (by simp [State.mark])⟩
      · simp [Owing, line, State.mark]
      · intro lost raised
        cases List.mem_singleton.mp raised
        exact absurd rfl (other lost)
      · exact .failed _ failures rfl (by rw [line]; rfl) (.inr ⟨Nat.lt_of_not_le gives, rfl⟩)
  case h_6 line =>
    refine ⟨[.renewalRaised .exit], .beats noticed rfl rfl id (by simp [Alarming]) ?_ (by simp) ?_ (by simp [State.mark])⟩
    · simp [Owing, line, State.mark]
    · exact .succeeded (some .exit) rfl (by simp [FailedRenewal])
  case h_7 error line =>
    refine ⟨[], .beats noticed (List.append_nil _).symm rfl id (by simp) (fun _ => .inl (by simp)) (by simp) ?_ (by simp)⟩
    exact .unrenewed rfl nofun
  case h_8 error line | h_9 line =>
    refine ⟨[], .beats noticed (List.append_nil _).symm rfl ?_ (by simp) ?_ (by simp) ?_ (by simp)⟩
    · simp +contextual
    · simp [Owing, line]
    · exact .unrenewed rfl nofun

/-- What the main thread can do to the other two. -/
inductive MainMoves (s : State) : State → Prop where
  | unmarked {main : Main} {stopped heartbeatStopped bound token : Bool} {monitorError : Option Exc}
      (mono : s.token = true → token = true) :
      MainMoves s { s with main, stopped, heartbeatStopped, bound, token, monitorError }
  | marks {main : Main} {mark : Mark} (silent : ¬ Alarming mark ∧ mark ≠ .called .finalize)
      (unrenewed : renewals [mark] = []) : MainMoves s ({ s with main }.mark mark)
  | startMonitor (here : s.main = .startMonitor) : MainMoves s { s with monitor := .connect, main := .awaitReady }
  | startHeartbeat (here : s.main = .startHeartbeat) :
      MainMoves s { s with captured := s.bound, heartbeat := .wait 0, main := .execute }
  | finalize (here : s.main = .finalize) : MainMoves s ({ s with main := .finalizing }.mark (.called .finalize))

theorem mainStep_moves {outcome : Outcome} (stepped : mainStep jobId s outcome = some next) : MainMoves s next := by
  unfold mainStep stopStep at stepped
  split at stepped
  case h_1 here => cases stepped; exact .startMonitor here
  case h_11 here => cases stepped; exact .startHeartbeat here
  case h_21 here => cases stepped; exact .finalize here
  all_goals
    repeat' split at stepped
    all_goals cases stepped
    all_goals
      first
      | exact .unmarked id
      | exact .unmarked fun _ => rfl
      | exact .marks (by simp [Alarming]) rfl

private theorem mainStep_notices (inv : Inv s) (noticed : Noticed s) {outcome : Outcome}
    (stepped : mainStep jobId s outcome = some next) : ∃ made, Notices s next made := by
  cases mainStep_moves stepped with
  | unmarked mono =>
    exact ⟨[], .idle (List.append_nil _).symm ⟨rfl, rfl⟩ rfl mono (by simp) (fun before => .inr (.inl before))
      (fun emits => mono (noticed.emitting emits)) (by simp)⟩
  | @marks _ mark silent unrenewed =>
    refine ⟨[mark], .idle rfl ⟨rfl, rfl⟩ unrenewed id ?_ (fun before => .inr (.inl before)) noticed.emitting ?_⟩
    · rintro ⟨_, member, alarming⟩
      rw [List.mem_singleton.mp member] at alarming
      exact absurd alarming silent.1
    · exact fun called => absurd (List.mem_singleton.mp called).symm silent.2
  | startMonitor here =>
    obtain ⟨unstarted, _⟩ := (inv.at' 0 (by rw [here]; rfl)).start rfl
    refine ⟨[], .idle (List.append_nil _).symm ⟨rfl, rfl⟩ rfl id (by simp) ?_ nofun (by simp)⟩
    rw [unstarted]
    exact False.elim
  | startHeartbeat here =>
    obtain ⟨unstarted, errors, _⟩ := (inv.at' 6 (by rw [here]; rfl)).unstarted (by omega)
    refine ⟨[], .beats noticed (List.append_nil _).symm rfl id (by simp) ?_ (by simp) ?_ (by simp)⟩
    · simp [Owing, unstarted, errors]
    · exact .unrenewed rfl fun _ _ => .inr unstarted
  | finalize here =>
    exact ⟨[.called .finalize], .idle rfl ⟨rfl, rfl⟩ rfl id (by simp [Alarming]) (fun before => .inr (.inl before))
      noticed.emitting fun _ => ⟨rfl, here⟩⟩

private theorem renewals_append (marks made : List Mark) : renewals (marks ++ made) = renewals marks ++ renewals made :=
  List.filterMap_append ..

/-- The last renewals in a row that failed, after one more. -/
private theorem row_concat {past row : List (Option Thrown)} {renewal : Option Thrown} (last : row <:+ past ++ [renewal])
    (failed : ∀ renewal ∈ row, FailedRenewal renewal) :
    row = [] ∨ FailedRenewal renewal ∧ ∃ before, before <:+ past ∧ (∀ renewal ∈ before, FailedRenewal renewal) ∧
      row.length = before.length + 1 := by
  rcases List.suffix_concat_iff.mp last with rfl | ⟨before, rfl, earlier⟩
  · exact .inl rfl
  · refine .inr ⟨failed renewal (by simp), before, earlier, fun renewal member => failed renewal (by simp [member]), ?_⟩
    rw [List.length_append, List.length_singleton]

private theorem Noticed.step (inv : Inv s) (noticed : Noticed s) {made : List Mark} (notices : Notices s next made) :
    Noticed next := by
  have sofar : renewals next.marks = renewals s.marks ++ renewals made := by rw [notices.marks, renewals_append]
  constructor
  · intro before after alarm same alarming
    rw [notices.marks] at same
    rcases List.append_eq_append_iff.mp same with ⟨rest, _, late⟩ | ⟨rest, whole, early⟩
    · exact .inr (notices.alarms ⟨alarm, late ▸ List.mem_append_right rest List.mem_cons_self, alarming⟩)
    · cases rest with
      | nil =>
        rw [List.nil_append] at early
        exact .inr (notices.alarms ⟨alarm, early ▸ List.mem_cons_self, alarming⟩)
      | cons first rest =>
        rw [List.cons_append, List.cons.injEq] at early
        obtain ⟨rfl, rfl⟩ := early
        rcases noticed.alarmed before rest _ whole alarming with ended | set | signalling
        · exact .inl (List.mem_append_left _ ended)
        · exact .inr (.inl (notices.token set))
        · rcases notices.signalling signalling with set | signalling | ended
          · exact .inr (.inl set)
          · exact .inr (.inr signalling)
          · exact .inl (List.mem_append_right _ ended)
  · intro lost raised
    rw [notices.marks] at raised
    rcases List.mem_append.mp raised with before | made
    · exact notices.owing (noticed.lost lost before)
    · exact notices.lost lost made
  · intro row inside failed many
    rw [sofar] at inside
    cases notices.renews with
    | unrenewed none _ =>
      rw [none, List.append_nil] at inside
      exact notices.owing (noticed.many row inside failed many)
    | succeeded renewal one succeeded =>
      rw [one] at inside
      rcases List.infix_concat_iff.mp inside with last | before
      · rcases row_concat last failed with rfl | ⟨fails, _⟩
        · exact absurd many (by simp)
        · exact absurd fails succeeded
      · exact notices.owing (noticed.many row before failed many)
    | failed renewal n one counts after =>
      rw [one] at inside
      rcases List.infix_concat_iff.mp inside with last | before
      · rcases after with ⟨owing, _⟩ | ⟨few, _⟩
        · exact owing
        · rcases row_concat last failed with rfl | ⟨_, before, earlier, fails, length⟩
          · exact absurd many (by simp)
          · have := noticed.row n counts before earlier fails
            omega
      · exact notices.owing (noticed.many row before failed many)
  · intro n now row last failed
    rw [sofar] at last
    cases notices.renews with
    | unrenewed none kept =>
      rw [none, List.append_nil] at last
      rcases kept n now with before | unstarted
      · exact noticed.row n before row last failed
      · rw [noticed.unstarted unstarted, List.suffix_nil] at last
        rw [last]
        exact Nat.zero_le n
    | succeeded renewal one succeeded =>
      rw [one] at last
      rcases row_concat last failed with rfl | ⟨fails, _⟩
      · exact Nat.zero_le n
      · exact absurd fails succeeded
    | failed renewal m one counts after =>
      rw [one] at last
      rcases after with ⟨_, uncounted⟩ | ⟨_, counts'⟩
      · rw [uncounted] at now
        cases now
      · obtain rfl := Option.some.inj (counts'.symm.trans now)
        rcases row_concat last failed with rfl | ⟨_, before, earlier, fails, length⟩
        · exact Nat.zero_le _
        · have := noticed.row m counts before earlier fails
          omega
  · intro unstarted
    obtain ⟨before, none⟩ := notices.unstarted unstarted
    rw [sofar, none, noticed.unstarted before]
    rfl
  · exact notices.emitting
  · intro before after same
    rw [notices.marks] at same
    by_cases called : .called .finalize ∈ made
    · obtain ⟨rfl, here⟩ := notices.finalized called
      refine before_mark ?_ noticed.finalized same
      have supervised := inv.supervised here
      have paid : ¬ Owing s := by
        rintro (errors | ⟨error, line⟩)
        · exact errors supervised.errors
        · rw [supervised.heartbeat] at line
          cases line
      constructor
      · exact fun lost raised => paid (noticed.lost lost raised)
      · intro row inside failed
        by_contra many
        exact paid (noticed.many row inside failed (by omega))
      · intro before after alarm same alarming
        rcases noticed.alarmed before after alarm same alarming with ended | set | signalling
        · exact ended
        · rw [supervised.token] at set
          cases set
        · rw [supervised.monitor] at signalling
          exact signalling.elim
    · exact before_append called noticed.finalized same

end Marks

section Statements

open Soundness

/-- A statement that gives no job the status `done`. -/
def Unfinished (q : Sql) : Prop :=
  ∀ {s others choice tx answer after opened}, q.answer s others choice tx = .ok (answer, after, opened) →
    ∀ write ∈ opened.writes, ∀ row, write.job? = some row → row.status = .done → write ∈ tx.writes

private theorem unfinished_add {writes : List Write} {write : Write}
    (unfinished : ∀ row, write.job? = some row → row.status ≠ .done) :
    ∀ other ∈ writes ++ [write], ∀ row, other.job? = some row → row.status = .done → other ∈ writes := by
  intro other member row wrote done
  rcases List.mem_append.mp member with before | latest
  · exact before
  · rw [List.mem_singleton.mp latest] at wrote
    exact absurd done (unfinished row wrote)

private theorem unfinished_silent {writes : List Write} {write : Write} (silent : write.job? = none) :
    ∀ other ∈ writes ++ [write], ∀ row, other.job? = some row → row.status = .done → other ∈ writes := by
  apply unfinished_add
  intro row wrote
  rw [silent] at wrote
  cases wrote

private theorem unfinished_update {s after : Store} {tx opened : Tx} {jobId : ℕ} {condition : Job → Bool}
    {set : Job → Job} {found : Option Job} (unfinished : ∀ row, condition row = true → (set row).status ≠ .done)
    (ran : updateJob s tx jobId condition set = .ok (found, after, opened)) :
    ∀ write ∈ opened.writes, ∀ row, write.job? = some row → row.status = .done → write ∈ tx.writes := by
  obtain ⟨_, ⟨_, rfl, _⟩ | ⟨row, _, holds, _, rfl⟩⟩ := updateJob_ok ran
  · exact fun write member _ _ _ => member
  · apply unfinished_add
    rintro _ ⟨⟩
    exact unfinished row holds

/-- Only the update of `_finalize` makes a job `done`. -/
theorem unfinished_of_ne {q : Sql} (other : ∀ jobId workerId, q ≠ .finishJob jobId workerId) : Unfinished q := by
  intro s others choice tx answer after opened ran
  have same : ∀ write ∈ tx.writes, ∀ row, write.job? = some row → row.status = .done → write ∈ tx.writes :=
    fun write member _ _ _ => member
  cases q with
  | finishJob jobId workerId => exact absurd rfl (other jobId workerId)
  | lockCompany companyId =>
    simp only [Sql.answer] at ran
    split at ran <;> cases ran <;> exact same
  | notify channel payload =>
    cases ran
    exact unfinished_silent rfl
  | insertJob companyId kind traceId key =>
    obtain ⟨⟨found, _, _⟩, inner, outer⟩ := map_ok ran
    cases outer
    obtain ⟨_, ⟨_, rfl, _⟩ | ⟨_, _, _, _, rfl⟩⟩ := insertJobRow_ok inner
    · exact same
    · apply unfinished_add
      rintro _ ⟨⟩
      exact JobStatus.noConfusion
  | insertAuditEvent jobId companyId eventType actor traceId ignoreConflict =>
    obtain ⟨rfl, ⟨rfl, _⟩ | rfl⟩ := insertAuditRow_ok ran
    · exact same
    · exact unfinished_silent rfl
  | insertResult jobId payload =>
    obtain ⟨_, ⟨_, rfl, _⟩ | ⟨_, _, rfl⟩⟩ := insertResultRow_ok ran
    · exact same
    · exact unfinished_silent rfl
  | insertDeadLetter error jobId =>
    obtain ⟨_, _, rfl⟩ | ⟨job, _, _, ⟨rfl, _⟩ | rfl⟩ := insertDeadLetterRow_ok ran
    · exact same
    · exact same
    · exact unfinished_silent rfl
  | debitQuota companyId =>
    obtain ⟨_, ⟨_, rfl⟩ | ⟨company, _, rfl⟩⟩ := debitCompany_ok ran
    · exact same
    · exact unfinished_silent rfl
  | recoverStale error leaseTimeout =>
    obtain ⟨⟨found, _, _⟩, inner, outer⟩ := map_ok ran
    cases outer
    obtain ⟨_, failed, rfl⟩ := updateStale_ok inner
    intro write member row wrote done
    rcases List.mem_append.mp member with before | latest
    · exact before
    · obtain ⟨job, inside, rfl⟩ := List.mem_map.mp latest
      obtain rfl := Option.some.inj wrote
      rw [failed] at inside
      obtain ⟨stale, _, rfl⟩ := List.mem_map.mp inside
      exact JobStatus.noConfusion done
  | selectClaimable maxAttempts =>
    obtain ⟨⟨found, _, _⟩, inner, outer⟩ := map_ok ran
    cases outer
    obtain ⟨_, ⟨_, rfl, _⟩ | ⟨_, _, _, _, rfl⟩⟩ := lockClaimable_ok inner <;> exact same
  | cancelJob | retryJob | claimJob | failJob =>
    obtain ⟨⟨found, _, _⟩, inner, outer⟩ := map_ok ran
    cases outer
    exact unfinished_update (fun row _ => JobStatus.noConfusion) inner
  | releaseCancelled | renewLease =>
    obtain ⟨⟨found, _, _⟩, inner, outer⟩ := map_ok ran
    cases outer
    refine unfinished_update (fun row holds done => ?_) inner
    change row.status = .done at done
    simp [done, Job.runningUnder] at holds
  | _ => cases ran; exact same

/-- Every statement of a transaction that the threads call has the property. -/
def DbCall.Sends (claim : Claim) (P : Sql → Prop) : DbCall → Prop
  | .execute => (Processor.execute claim).Sends P
  | .finalize => (Processor.finalize claim).Sends P
  | .acknowledgeCancellation => (Processor.acknowledgeCancellation claim).Sends P
  | .recordFailure error => (Processor.recordFailure claim error).Sends P
  | .renewLease => (Processor.renewLease claim).Sends P

private theorem sends_unfinished {q : Sql} (other : ∀ jobId workerId, q ≠ .finishJob jobId workerId) :
    (exec q).Sends @Unfinished := .exec (unfinished_of_ne other)

private theorem transaction_unfinished {α : Type} {committed : α → Label} {body : Prog α}
    (sends : body.Sends @Unfinished) : (Processor.transaction committed body).Sends @Unfinished :=
  .transaction (.bind (sends_unfinished nofun) fun _ => sends)

/-- No transaction but `_finalize` makes a job `done`. -/
private theorem call_unfinished {call : DbCall} (other : call ≠ .finalize) (claim : Claim) :
    DbCall.Sends claim @Unfinished call := by
  cases call with
  | finalize => exact absurd rfl other
  | execute =>
    have signalled : Processor.signal.Sends @Unfinished := by
      intro choice
      dsimp only
      cases choice.raises <;> trivial
    refine .bind signalled fun _ => .bind (transaction_unfinished (sends_unfinished nofun)) fun company => ?_
    cases company <;> trivial
  | acknowledgeCancellation =>
    exact transaction_unfinished (.bind (sends_unfinished nofun) fun _ => .bind (sends_unfinished nofun) fun _ => trivial)
  | recordFailure error =>
    refine transaction_unfinished (.bind (sends_unfinished nofun) fun status => ?_)
    cases status with
    | none => trivial
    | some status =>
      refine .bind (sends_unfinished nofun) fun _ => ?_
      dsimp only
      split
      · exact .bind (sends_unfinished nofun) fun _ => trivial
      · trivial
  | renewLease =>
    refine transaction_unfinished (.bind (sends_unfinished nofun) fun row => ?_)
    cases row <;> trivial

end Statements

private theorem inv_initial : Inv initial := by
  refine ⟨.slnil, nofun, fun started => absurd rfl started, by simp [initial], ?_, by simp [initial], by simp [initial]⟩
  rintro _ ⟨⟩
  constructor <;> simp [initial]

private theorem noticed_initial : Noticed initial := by
  constructor <;> simp [initial, renewals, counted]

private theorem reachable_inv {actions : List Supervision.Action}
    (ran : Machine.run (step jobId) initial actions = some s) : Inv s ∧ Noticed s := by
  refine Machine.preserves (P := fun s => Inv s ∧ Noticed s) (fun s action next held stepped => ?_)
    ⟨inv_initial, noticed_initial⟩ ran
  obtain ⟨inv, noticed⟩ := held
  have went : Inv next ∧ ∃ made, Notices s next made := by
    cases action with
    | main outcome => exact ⟨inv_main inv stepped, mainStep_notices inv noticed stepped⟩
    | monitor outcome => exact ⟨inv_monitor inv stepped, monitorStep_notices noticed stepped⟩
    | heartbeat outcome => exact ⟨inv_heartbeat inv stepped, heartbeatStep_notices noticed stepped⟩
  obtain ⟨later, made, notices⟩ := went
  exact ⟨later, noticed.step inv notices⟩

/-- `_execute` is entered only after the monitor has listened, committed and read the status, and the token has
been found clear after that. If `_finalize` is called, both threads have ended in good order, and by then no renewal
has lost the lease, no three in a row have failed, and the monitor has met no exception and no cancellation;
otherwise nothing that the threads call makes a job `done`. -/
theorem attempt_fails_closed {actions : List Supervision.Action}
    (ran : Machine.run (step jobId) initial actions = some s) :
    (∀ before after, s.marks = before ++ .called .execute :: after →
      [Mark.listened, .committed, .statusRead, .committed, .foundClear].Sublist before) ∧
    (.called .finalize ∈ s.marks → Supervised s) ∧
    (∀ before after, s.marks = before ++ .called .finalize :: after → Orderly before) ∧
    (.called .finalize ∉ s.marks → ∀ call claim, .called call ∈ s.marks → DbCall.Sends claim @Unfinished call) := by
  obtain ⟨inv, noticed⟩ := reachable_inv ran
  refine ⟨inv.executed, fun called => (inv.finalized called).2, noticed.finalized, fun uncalled call claim called => ?_⟩
  apply call_unfinished
  rintro rfl
  exact uncalled called

/-- The monitor becomes ready, one renewal succeeds, the job is executed and finalized. -/
def goodAttempt : List Supervision.Action :=
  [.main .done, .monitor .done, .monitor .done, .monitor .done, .monitor (.answer false), .monitor .done, .monitor .done,
    .monitor .done, .monitor .done, .monitor .done, .main .done, .main .done, .main .done, .main .done, .main .done,
    .main .done, .heartbeat .timeout, .heartbeat .done, .main .done, .monitor .done, .monitor (.answer false), .main .done,
    .main .done, .heartbeat .done, .main .done, .main .done, .main .done, .monitor .done, .monitor .done, .monitor .done,
    .monitor .done, .main .done, .main .done, .main .done, .main .done]

theorem attempt_fails_closed_good : ∃ s, Machine.run (step 1) initial goodAttempt = some s ∧
    s.main = .finalizing ∧ Supervised s ∧ Mark.called .execute ∈ s.marks ∧
    ∃ before after, s.marks = before ++ .called .finalize :: after ∧ Orderly before := by
  have reached : (Machine.run (step 1) initial goodAttempt).map
      (fun s => (s.main, decide (.called .finalize ∈ s.marks ∧ .called .execute ∈ s.marks))) =
        some (.finalizing, true) := by decide +kernel
  obtain ⟨s, ran, same⟩ := Option.map_eq_some_iff.mp reached
  simp only [Prod.mk.injEq, decide_eq_true_eq] at same
  obtain ⟨_, supervised, orderly, _⟩ := attempt_fails_closed ran
  obtain ⟨before, after, split⟩ := List.append_of_mem same.2.1
  exact ⟨s, ran, same.1, supervised same.2.1, same.2.2, before, after, split, orderly before after split⟩

end JobRelay.Guarantees
