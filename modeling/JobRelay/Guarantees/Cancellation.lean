import JobRelay.Guarantees.Diagnosis
import JobRelay.Guarantees.Supervision
import JobRelay.Sessions.Machine
import JobRelay.Soundness.Cancellations

/-! # The cancellation signal

A monitor in its polling loop whose job is cancelled has set the token, or the notification waits on its connection, or
it has just been taken and the token is set next: a cancellation commits before the subscription, and then the read of
the status finds it, or after it, and then the session is notified. Every payload that a connection has queued, from
whatever time, is of a job that is cancelled and stays so.
-/

namespace JobRelay.Guarantees

open Model Model.CancellationMonitor Sessions Soundness

variable {admits : Request → Bool} {start : Service}

section Watch

/-- A connection that is subscribed, with nothing left to settle. -/
def Subscribed (conn : Option Connection) (P : Connection → Prop) : Prop :=
  ∃ found, conn = some found ∧ found.pending = none ∧ found.listening = true ∧ P found

/-- What holds of the monitor of a job at its line; `cancelled` is what the committed row says. -/
def Watch (cancelled : Bool) (conn : Option Connection) (jobId : ℕ) (token : Bool) : Supervision.Monitor → Prop
  | .listen => conn.isSome
  | .commitListen => ∃ found, conn = some found ∧ found.pending = some true
  | .selectStatus => Subscribed conn fun _ => True
  | .commitStatus found | .setSetupSucceeded found | .checkStatus found => (found = true → cancelled = true) ∧
      Subscribed conn fun conn => cancelled = true → found = true ∨ jobId ∈ conn.queue
  | .setReady | .checkToken | .checkStopped | .poll =>
      Subscribed conn fun conn => cancelled = true → token = true ∨ jobId ∈ conn.queue
  | .trip => cancelled = true
  | _ => True

variable {cancelled token : Bool} {conn : Option Connection} {jobId : ℕ} {monitor : Supervision.Monitor}

private theorem Subscribed.imp {P Q : Connection → Prop} (subscribed : Subscribed conn P)
    (imp : ∀ found, P found → Q found) : Subscribed conn Q := by
  obtain ⟨found, same, settled, listening, holds⟩ := subscribed
  exact ⟨found, same, settled, listening, imp found holds⟩

/-- The other threads of the attempt never clear the token. -/
private theorem Watch.mono {later : Bool} (watch : Watch cancelled conn jobId token monitor)
    (mono : token = true → later = true) : Watch cancelled conn jobId later monitor := by
  have signal : (Subscribed conn fun conn => cancelled = true → token = true ∨ jobId ∈ conn.queue) →
      Subscribed conn fun conn => cancelled = true → later = true ∨ jobId ∈ conn.queue :=
    fun subscribed => subscribed.imp fun _ signal cancels => (signal cancels).imp_left mono
  cases monitor with
  | setReady | checkToken | checkStopped | poll => exact signal watch
  | _ => exact watch

/-- A subscribed session receives the cancellation of the job when it commits. -/
private theorem Subscribed.receive {news : List Notification} {later : Bool} {P : Prop}
    (subscribed : Subscribed conn fun conn => cancelled = true → P ∨ jobId ∈ conn.queue)
    (announced : later = true ↔ cancelled = true ∨ jobId ∈ payloads news) :
    Subscribed (conn.map (·.receive news)) fun conn => later = true → P ∨ jobId ∈ conn.queue := by
  obtain ⟨found, rfl, settled, listening, signal⟩ := subscribed
  refine ⟨found.receive news, rfl, ?_⟩
  rw [Connection.receive, if_pos listening]
  refine ⟨settled, listening, fun cancels => ?_⟩
  rcases announced.mp cancels with before | new
  · exact (signal before).imp_right (List.mem_append_left _)
  · exact .inr (List.mem_append_right _ new)

private theorem receive_pending (found : Connection) (news : List Notification) :
    (found.receive news).pending = found.pending := by
  unfold Connection.receive
  split <;> rfl

private theorem Watch.receive {news : List Notification} {later : Bool}
    (watch : Watch cancelled conn jobId token monitor)
    (announced : later = true ↔ cancelled = true ∨ jobId ∈ payloads news) :
    Watch later (conn.map (·.receive news)) jobId token monitor := by
  have stays : cancelled = true → later = true := fun before => announced.mpr (.inl before)
  cases monitor with
  | listen => exact (Option.isSome_map ..).trans watch
  | commitListen =>
    obtain ⟨found, rfl, pending⟩ := watch
    exact ⟨_, rfl, (receive_pending found news).trans pending⟩
  | selectStatus =>
    have signal : Subscribed conn fun conn => cancelled = true → True ∨ jobId ∈ conn.queue :=
      Subscribed.imp watch fun _ _ _ => .inl trivial
    exact (signal.receive announced).imp fun _ _ => trivial
  | commitStatus | setSetupSucceeded | checkStatus =>
    exact ⟨fun found => stays (watch.1 found), watch.2.receive announced⟩
  | setReady | checkToken | checkStopped | poll => exact Subscribed.receive watch announced
  | trip => exact stays watch
  | _ => trivial

private theorem mem_read {found : Connection} {taken : ℕ} (queued : jobId ∈ found.queue)
    (unread : jobId ∉ found.queue.take taken) : jobId ∈ (found.read taken).queue := by
  rw [← List.take_append_drop taken found.queue, List.mem_append] at queued
  exact queued.resolve_left unread

private theorem watch_caught (thrown : Supervision.Thrown) :
    Watch cancelled conn jobId token (.caught thrown) := by
  cases thrown <;> trivial

/-- A step of the monitor, whose statement acts on its connection. -/
private theorem Watch.act {attempt : CancellationMonitor.Attempt} {next : Supervision.State} {found later : Connection}
    {outcome : Supervision.Outcome} {choice : CancellationMonitor.Choice}
    (watch : Watch cancelled (some found) attempt.jobId attempt.threads.token attempt.threads.monitor)
    (queued : attempt.jobId ∈ found.queue → cancelled = true)
    (stepped : Supervision.monitorStep attempt.threads outcome = some next)
    (acted : attempt.act cancelled found outcome choice = some later) :
    Watch cancelled (some later) attempt.jobId next.token next.monitor := by
  obtain ⟨jobId, ⟨main, monitor, heartbeat, ready, stopped, setupSucceeded, token, heartbeatStopped, bound, captured,
    monitorError, heartbeatError, errors, marks⟩, connection, release⟩ := attempt
  unfold Supervision.monitorStep at stepped
  dsimp only at stepped watch queued
  split at stepped <;> cases stepped
  case h_1 => rfl
  case h_2 thrown => exact watch_caught thrown
  case h_3 =>
    cases acted
    exact ⟨_, rfl, rfl⟩
  case h_4 =>
    obtain ⟨_, ⟨⟩, pending⟩ := watch
    cases acted
    refine ⟨_, rfl, rfl, ?_, trivial⟩
    simp [Connection.settle, pending]
  case h_5 found' =>
    obtain ⟨_, ⟨⟩, settled, listening, _⟩ := watch
    change (if found' = cancelled then some found else none) = some later at acted
    split at acted <;> cases acted
    next same =>
      subst same
      exact ⟨id, _, rfl, settled, listening, .inl⟩
  case h_6 found' =>
    obtain ⟨sound, _, ⟨⟩, settled, listening, signal⟩ := watch
    cases acted
    refine ⟨sound, _, rfl, rfl, ?_, signal⟩
    simp [Connection.settle, settled, listening]
  case h_12 | h_14 =>
    cases acted
    exact watch
  case h_13 found' =>
    cases acted
    refine watch.2.imp fun _ signal cancels => (signal cancels).imp_left fun set => ?_
    rw [set, Bool.or_true]
  case h_15 =>
    cases acted
    cases token with
    | true => trivial
    | false => exact watch
  case h_16 =>
    cases acted
    cases stopped with
    | true => trivial
    | false => exact watch
  case h_17 arrived =>
    cases arrived with
    | true =>
      change (if jobId ∈ found.queue then some _ else none) = some later at acted
      split at acted
      · next member => exact queued member
      · cases acted
    | false =>
      obtain ⟨_, ⟨⟩, settled, listening, signal⟩ := watch
      change (if jobId ∈ found.queue.take choice.taken then none else some (found.read choice.taken)) = some later at acted
      split at acted <;> cases acted
      next unread =>
        exact ⟨_, rfl, settled, listening, fun cancels => (signal cancels).imp_right fun member => mem_read member unread⟩
  case h_22 pending =>
    cases pending with
    | none => trivial
    | some thrown => exact watch_caught thrown
  case h_23 thrown => exact watch_caught thrown
  all_goals trivial

private theorem listen_of_connect {threads next : Supervision.State} (line : threads.monitor = .connect)
    (stepped : Supervision.monitorStep threads .done = some next) : next.monitor = .listen := by
  unfold Supervision.monitorStep at stepped
  rw [line] at stepped
  cases stepped
  rfl

/-- Without its connection a monitor knows nothing more. -/
private theorem watch_of_disconnect {threads next : Supervision.State} {outcome : Supervision.Outcome}
    {pending : Option Supervision.Thrown} (line : threads.monitor = .disconnect pending)
    (stepped : Supervision.monitorStep threads outcome = some next) :
    Watch cancelled conn jobId token next.monitor := by
  unfold Supervision.monitorStep at stepped
  rw [line] at stepped
  cases outcome with
  | done =>
    cases stepped
    cases pending with
    | none => trivial
    | some thrown => exact watch_caught thrown
  | raises thrown =>
    cases stepped
    exact watch_caught thrown
  | _ => cases stepped

/-- A step of a monitor without a connection, which it has no use for. -/
private theorem Watch.alone {threads next : Supervision.State} {outcome : Supervision.Outcome}
    (watch : Watch cancelled none jobId threads.token threads.monitor)
    (stepped : Supervision.monitorStep threads outcome = some next)
    (other : threads.monitor = .connect → outcome ≠ .done) : Watch cancelled none jobId next.token next.monitor := by
  obtain ⟨main, monitor, heartbeat, ready, stopped, setupSucceeded, token, heartbeatStopped, bound, captured,
    monitorError, heartbeatError, errors, marks⟩ := threads
  unfold Supervision.monitorStep at stepped
  dsimp only at stepped watch other
  split at stepped <;> cases stepped
  case h_1 => exact absurd rfl (other rfl)
  case h_2 thrown | h_23 thrown => exact watch_caught thrown
  case h_3 => cases watch
  case h_22 pending =>
    cases pending with
    | none => trivial
    | some thrown => exact watch_caught thrown
  case h_4 | h_5 | h_14 | h_15 | h_16 | h_17 =>
    obtain ⟨_, ⟨⟩, _⟩ := watch
  case h_6 | h_12 | h_13 =>
    obtain ⟨_, _, ⟨⟩, _⟩ := watch
  all_goals trivial

end Watch

section Threads

variable {threads next : Supervision.State} {outcome : Supervision.Outcome}

/-- The other threads leave the monitor or start it, and never clear the token. -/
private theorem mainStep_keeps {jobId : ℕ} (stepped : Supervision.mainStep jobId threads outcome = some next) :
    (next.monitor = threads.monitor ∨ next.monitor = .connect) ∧ (threads.token = true → next.token = true) := by
  cases mainStep_moves stepped with
  | unmarked mono => exact ⟨.inl rfl, mono⟩
  | startMonitor => exact ⟨.inr rfl, id⟩
  | marks | startHeartbeat | finalize => exact ⟨.inl rfl, id⟩

private theorem heartbeatStep_keeps (stepped : Supervision.heartbeatStep threads outcome = some next) :
    next.monitor = threads.monitor ∧ (threads.token = true → next.token = true) := by
  obtain ⟨made, moves⟩ := heartbeatStep_moves stepped
  refine ⟨?_, moves.token⟩
  rw [moves.frame]

end Threads

section Runs

variable {s next : CancellationMonitor.State} {id : ℕ} {attempt after : CancellationMonitor.Attempt}

/-- The connection of the monitor of an attempt. -/
def connectionOf (s : CancellationMonitor.State) (attempt : CancellationMonitor.Attempt) : Option Connection :=
  attempt.connection.bind fun connection => s.connections[connection]?

/-- What holds of the sessions and of the monitors. -/
structure Heard (admits : Request → Bool) (start : Service) (s : CancellationMonitor.State) : Prop where
  reached : World.Reaches (service admits) start s.world
  queued : ∀ conn ∈ s.connections, ∀ jobId ∈ conn.queue, s.world.state.cancelled jobId = true
  opened : ∀ (id : ℕ) (attempt : CancellationMonitor.Attempt) connection,
    s.attempts[id]? = some attempt → attempt.connection = some connection → connection < s.connections.length
  owned : ∀ (id id' : ℕ) (attempt attempt' : CancellationMonitor.Attempt) connection, s.attempts[id]? = some attempt →
    s.attempts[id']? = some attempt' → attempt.connection = some connection → attempt'.connection = some connection →
    id = id'
  watch : ∀ (id : ℕ) attempt, s.attempts[id]? = some attempt →
    Watch (s.world.state.cancelled attempt.jobId) (connectionOf s attempt) attempt.jobId attempt.threads.token
      attempt.threads.monitor

/-- An attempt takes a turn, on a connection that no other attempt has. -/
private theorem Heard.turn (heard : Heard admits start s) {connections : List Connection}
    (live : connections.length = s.connections.length)
    (queued : ∀ conn ∈ connections, ∀ jobId ∈ conn.queue, s.world.state.cancelled jobId = true)
    (frame : ∀ (other : ℕ) (theirs : CancellationMonitor.Attempt) connection, other ≠ id →
      s.attempts[other]? = some theirs → theirs.connection = some connection →
      connections[connection]? = s.connections[connection]?)
    (own : ∀ connection, after.connection = some connection → connection < s.connections.length ∧
      ∀ (other : ℕ) (theirs : CancellationMonitor.Attempt), other ≠ id → s.attempts[other]? = some theirs →
        theirs.connection ≠ some connection)
    (watch : Watch (s.world.state.cancelled after.jobId)
      (after.connection.bind fun connection => connections[connection]?) after.jobId after.threads.token
      after.threads.monitor) :
    Heard admits start { s.put id after with connections } := by
  have cases' : ∀ (other : ℕ) theirs, (s.attempts.set id after)[other]? = some theirs →
      (other = id ∧ theirs = after) ∨ (other ≠ id ∧ s.attempts[other]? = some theirs) := by
    intro other theirs found
    rw [List.getElem?_set] at found
    split at found
    · next same =>
      split at found <;> cases found
      exact .inl ⟨same.symm, rfl⟩
    · next distinct => exact .inr ⟨Ne.symm distinct, found⟩
  constructor
  · exact heard.reached
  · exact queued
  · intro other theirs connection found has
    refine lt_of_lt_of_eq ?_ live.symm
    rcases cases' other theirs found with ⟨rfl, rfl⟩ | ⟨_, before⟩
    · exact (own connection has).1
    · exact heard.opened other theirs connection before has
  · intro first second mine theirs connection found found' has has'
    rcases cases' first mine found with ⟨rfl, rfl⟩ | ⟨distinct, before⟩ <;>
      rcases cases' second theirs found' with ⟨rfl, rfl⟩ | ⟨distinct', before'⟩
    · rfl
    · exact absurd has' ((own connection has).2 second theirs distinct' before')
    · exact absurd has ((own connection has').2 first mine distinct before)
    · exact heard.owned first second mine theirs connection before before' has has'
  · intro other theirs found
    rcases cases' other theirs found with ⟨rfl, rfl⟩ | ⟨distinct, before⟩
    · exact watch
    · have watched := heard.watch other theirs before
      have same : connectionOf { s.put id after with connections } theirs = connectionOf s theirs := by
        unfold connectionOf
        cases has : theirs.connection with
        | none => rfl
        | some connection => exact frame other theirs connection distinct before has
      rw [same]
      exact watched

/-- An attempt takes a turn of another thread. -/
private theorem Heard.thread (heard : Heard admits start s) (found : s.attempts[id]? = some attempt)
    {threads : Supervision.State}
    (monitor : threads.monitor = attempt.threads.monitor ∨ threads.monitor = .connect)
    (token : attempt.threads.token = true → threads.token = true) :
    Heard admits start (s.put id { attempt with threads }) := by
  refine heard.turn rfl heard.queued (fun _ _ _ _ _ _ => rfl) (fun connection has => ?_) ?_
  · refine ⟨heard.opened id attempt connection found has, fun other theirs distinct before has' => ?_⟩
    exact distinct (heard.owned other id theirs attempt connection before found has' has)
  · rcases monitor with same | starts
    · rw [same]
      exact (heard.watch id attempt found).mono token
    · rw [starts]
      trivial

private theorem mem_receive {found : Connection} {news : List Notification} {payload : ℕ}
    (member : payload ∈ (found.receive news).queue) : payload ∈ found.queue ∨ payload ∈ payloads news := by
  unfold Connection.receive at member
  split at member
  · exact List.mem_append.mp member
  · exact .inl member

private theorem heard_service (fresh : Fresh start) (heard : Heard admits start s) {action : Model.Step}
    (stepped : CancellationMonitor.step admits s (.service action) = some next) : Heard admits start next := by
  obtain ⟨world, advanced, rest⟩ := Option.bind_eq_some_iff.mp stepped
  obtain ⟨news, grown, announced⟩ := reachable_signalled fresh heard.reached advanced
  cases rest
  rw [grown, List.drop_left]
  constructor
  · exact heard.reached.step advanced
  · intro conn member payload inside
    obtain ⟨before, was, rfl⟩ := List.mem_map.mp member
    exact (announced payload).mpr ((mem_receive inside).imp_left (heard.queued before was payload))
  · intro id attempt connection found has
    rw [List.length_map]
    exact heard.opened id attempt connection found has
  · exact heard.owned
  · intro id attempt found
    have received := (heard.watch id attempt found).receive (announced attempt.jobId)
    have same : connectionOf ⟨world, s.connections.map (·.receive news), s.attempts⟩ attempt =
        (connectionOf s attempt).map (·.receive news) := by
      unfold connectionOf
      cases attempt.connection with
      | none => rfl
      | some connection => exact List.getElem?_map
    rw [same]
    exact received

/-- A connection that no monitor has changes, and what it has queued is not more. -/
private theorem heard_use (heard : Heard admits start s) {connection taken : ℕ}
    (stepped : CancellationMonitor.step admits s (.use connection taken) = some next) : Heard admits start next := by
  obtain ⟨conn, found, rest⟩ := Option.bind_eq_some_iff.mp stepped
  split at rest <;> cases rest
  next free =>
    have others : ∀ (id : ℕ) (attempt : CancellationMonitor.Attempt), s.attempts[id]? = some attempt →
        attempt.connection ≠ some connection :=
      fun id attempt present => of_decide_eq_true (List.all_eq_true.mp free attempt (List.mem_of_getElem? present))
    constructor
    · exact heard.reached
    · intro later member payload inside
      rcases List.mem_or_eq_of_mem_set member with before | rfl
      · exact heard.queued later before payload inside
      · exact heard.queued conn (List.mem_of_getElem? found) payload (List.drop_subset _ _ inside)
    · intro id attempt other present has
      rw [List.length_set]
      exact heard.opened id attempt other present has
    · exact heard.owned
    · intro id attempt present
      have watched := heard.watch id attempt present
      have same : connectionOf { s with connections := s.connections.set connection (conn.read taken) } attempt =
          connectionOf s attempt := by
        unfold connectionOf
        cases has : attempt.connection with
        | none => rfl
        | some other =>
          refine List.getElem?_set_ne ?_
          rintro rfl
          exact others id attempt present has
      rw [same]
      exact watched

private theorem heard_connect (heard : Heard admits start s) :
    Heard admits start { s with connections := s.connections ++ [.new] } := by
  constructor
  · exact heard.reached
  · intro conn member
    rcases List.mem_append.mp member with before | new
    · exact heard.queued conn before
    · rw [List.mem_singleton.mp new]
      exact nofun
  · intro id attempt connection found has
    rw [List.length_append]
    exact (heard.opened id attempt connection found has).trans_le (Nat.le_add_right _ _)
  · exact heard.owned
  · intro id attempt found
    have watched := heard.watch id attempt found
    have same : connectionOf { s with connections := s.connections ++ [.new] } attempt = connectionOf s attempt := by
      unfold connectionOf
      cases has : attempt.connection with
      | none => rfl
      | some connection => exact List.getElem?_append_left (heard.opened id attempt connection found has)
    rw [same]
    exact watched

private theorem heard_begin (heard : Heard admits start s) (jobId : ℕ) :
    Heard admits start { s with attempts := s.attempts ++ [⟨jobId, Supervision.initial, none, .unlisten⟩] } := by
  have cases' : ∀ (id : ℕ) (attempt : CancellationMonitor.Attempt),
      (s.attempts ++ [⟨jobId, Supervision.initial, none, .unlisten⟩])[id]? = some attempt →
      s.attempts[id]? = some attempt ∨ attempt = ⟨jobId, Supervision.initial, none, .unlisten⟩ := by
    intro id attempt found
    rw [List.getElem?_append] at found
    split at found
    · exact .inl found
    · exact .inr (List.mem_singleton.mp (List.mem_of_getElem? found))
  constructor
  · exact heard.reached
  · exact heard.queued
  · intro id attempt connection found has
    rcases cases' id attempt found with before | rfl
    · exact heard.opened id attempt connection before has
    · cases has
  · intro id id' attempt attempt' connection found found' has has'
    rcases cases' id attempt found with before | rfl
    · rcases cases' id' attempt' found' with before' | rfl
      · exact heard.owned id id' attempt attempt' connection before before' has has'
      · cases has'
    · cases has
  · intro id attempt found
    rcases cases' id attempt found with before | rfl
    · exact heard.watch id attempt before
    · trivial

private theorem proceed_cases {outcome : Supervision.Outcome} (proceeded : attempt.proceed outcome = some after) :
    after.jobId = attempt.jobId ∧ after.connection = attempt.connection ∧
      (Supervision.monitorStep attempt.threads outcome = some after.threads ∨
        after.threads = attempt.threads ∧ ∃ pending, attempt.threads.monitor = .releaseListen pending) := by
  unfold CancellationMonitor.Attempt.proceed at proceeded
  split at proceeded
  · next pending line _ =>
    cases proceeded
    exact ⟨rfl, rfl, .inr ⟨rfl, pending, line⟩⟩
  · next pending line _ =>
    cases proceeded
    exact ⟨rfl, rfl, .inr ⟨rfl, pending, line⟩⟩
  · obtain ⟨threads, stepped, rfl⟩ := Option.map_eq_some_iff.mp proceeded
    exact ⟨rfl, rfl, .inl stepped⟩

/-- What an act leaves in the queue was there. -/
private theorem act_queue {cancelled : Bool} {found later : Connection} {outcome : Supervision.Outcome}
    {choice : CancellationMonitor.Choice} (acted : attempt.act cancelled found outcome choice = some later) :
    ∀ payload ∈ later.queue, payload ∈ found.queue := by
  unfold CancellationMonitor.Attempt.act at acted
  repeat' split at acted
  all_goals cases acted
  all_goals
    intro payload member
    first
    | exact member
    | exact List.drop_subset _ _ member

private theorem heard_monitor (heard : Heard admits start s) (found : s.attempts[id]? = some attempt)
    {outcome : Supervision.Outcome} {choice : CancellationMonitor.Choice}
    (stepped : s.monitor id attempt outcome choice = some next) : Heard admits start next := by
  obtain ⟨after, proceeded, rest⟩ := Option.bind_eq_some_iff.mp stepped
  obtain ⟨sameJob, sameConnection, threads⟩ := proceed_cases proceeded
  have watched := heard.watch id attempt found
  have mine : ∀ connection, attempt.connection = some connection → connection < s.connections.length ∧
      ∀ (other : ℕ) (theirs : CancellationMonitor.Attempt), other ≠ id → s.attempts[other]? = some theirs →
        theirs.connection ≠ some connection := by
    refine fun connection has => ⟨heard.opened id attempt connection found has, fun other theirs distinct before has' => ?_⟩
    exact distinct (heard.owned other id theirs attempt connection before found has' has)
  rw [← sameJob] at watched
  split at rest
  -- the pool hands out a connection
  · next line =>
    split at rest <;> cases rest
    next available =>
      obtain ⟨free, within⟩ := available
      have listens : after.threads.monitor = .listen := by
        rcases threads with stepped | ⟨_, _, releases⟩
        · exact listen_of_connect line stepped
        · rw [line] at releases
          cases releases
      refine heard.turn rfl heard.queued (fun _ _ _ _ _ _ => rfl) ?_ ?_
      · rintro connection ⟨⟩
        exact ⟨within, fun other theirs _ before =>
          of_decide_eq_true (List.all_eq_true.mp free theirs (List.mem_of_getElem? before))⟩
      · rw [listens]
        exact Option.isSome_iff_exists.mpr ⟨_, List.getElem?_eq_getElem within⟩
  -- a line that acts on the connection
  · next connection has other =>
    obtain ⟨conn, present, rest⟩ := Option.bind_eq_some_iff.mp rest
    obtain ⟨later, acted, rest⟩ := Option.bind_eq_some_iff.mp rest
    cases rest
    have same : connectionOf s attempt = some conn := by
      rw [connectionOf, has]
      exact present
    have known : attempt.jobId ∈ conn.queue → s.world.state.cancelled attempt.jobId = true :=
      heard.queued conn (List.mem_of_getElem? present) attempt.jobId
    refine heard.turn List.length_set ?_ ?_ ?_ ?_
    · intro found member payload inside
      rcases List.mem_or_eq_of_mem_set member with before | rfl
      · exact heard.queued found before payload inside
      · exact heard.queued conn (List.mem_of_getElem? present) payload (act_queue acted payload inside)
    · intro other theirs connection' distinct before has'
      refine List.getElem?_set_ne ?_
      rintro rfl
      exact (mine connection has).2 other theirs distinct before has'
    · intro connection' has'
      dsimp only at has'
      split at has' <;> cases has'
      exact mine connection has
    · rw [same] at watched
      dsimp only
      split
      · next pending leaves =>
        rcases threads with stepped | ⟨_, _, releases⟩
        · exact watch_of_disconnect leaves stepped
        · rw [leaves] at releases
          cases releases
      · rw [Option.bind_some, List.getElem?_set_self (mine connection has).1]
        rcases threads with stepped | ⟨stays, pending, releases⟩
        · rw [sameJob] at watched ⊢
          exact watched.act known stepped acted
        · rw [stays, releases]
          trivial
  -- a monitor without a connection
  · next has other =>
    cases rest
    have same : connectionOf s attempt = none := by rw [connectionOf, has, Option.bind_none]
    have lone : after.connection = none := sameConnection.trans has
    refine heard.turn rfl heard.queued (fun _ _ _ _ _ _ => rfl) ?_ ?_
    · intro connection has'
      rw [lone] at has'
      cases has'
    · rw [lone, Option.bind_none]
      rw [same] at watched
      rcases threads with stepped | ⟨stays, pending, releases⟩
      · exact watched.alone stepped other
      · rw [stays, releases]
        trivial

private theorem heard_step (fresh : Fresh start) (heard : Heard admits start s) {action : CancellationMonitor.Action}
    (stepped : CancellationMonitor.step admits s action = some next) : Heard admits start next := by
  cases action with
  | service action => exact heard_service fresh heard stepped
  | connect =>
    cases stepped
    exact heard_connect heard
  | use connection taken => exact heard_use heard stepped
  | begin jobId =>
    cases stepped
    exact heard_begin heard jobId
  | monitor id outcome choice =>
    obtain ⟨attempt, found, stepped⟩ := Option.bind_eq_some_iff.mp stepped
    exact heard_monitor heard found stepped
  | main id outcome =>
    obtain ⟨attempt, found, stepped⟩ := Option.bind_eq_some_iff.mp stepped
    obtain ⟨threads, went, rest⟩ := Option.bind_eq_some_iff.mp stepped
    cases rest
    obtain ⟨monitor, token⟩ := mainStep_keeps went
    exact heard.thread found monitor token
  | heartbeat id outcome =>
    obtain ⟨attempt, found, stepped⟩ := Option.bind_eq_some_iff.mp stepped
    obtain ⟨threads, went, rest⟩ := Option.bind_eq_some_iff.mp stepped
    cases rest
    obtain ⟨monitor, token⟩ := heartbeatStep_keeps went
    exact heard.thread found (.inl monitor) token

private theorem heard_initial : Heard admits start (CancellationMonitor.initial start) where
  reached := .refl _ _
  queued _ member := nomatch member
  opened _ _ _ found := nomatch found
  owned _ _ _ _ _ found := nomatch found
  watch _ _ found := nomatch found

/-- After a step of a monitor its threads are where `monitorStep` takes them. -/
private theorem monitor_threads {outcome : Supervision.Outcome} {choice : CancellationMonitor.Choice}
    (found : s.attempts[id]? = some attempt) (stepped : s.monitor id attempt outcome choice = some next)
    (later : next.attempts[id]? = some after) :
    Supervision.monitorStep attempt.threads outcome = some after.threads ∨
      after.threads = attempt.threads ∧ ∃ pending, attempt.threads.monitor = .releaseListen pending := by
  have within : id < s.attempts.length := (List.getElem?_eq_some_iff.mp found).1
  obtain ⟨proceeded, went, rest⟩ := Option.bind_eq_some_iff.mp stepped
  have threads := (proceed_cases went).2.2
  have same : after.threads = proceeded.threads := by
    split at rest
    · split at rest <;> cases rest
      rw [State.put, List.getElem?_set_self within] at later
      rw [← Option.some.inj later]
    · obtain ⟨conn, _, rest⟩ := Option.bind_eq_some_iff.mp rest
      obtain ⟨conn', _, rest⟩ := Option.bind_eq_some_iff.mp rest
      cases rest
      rw [State.put, List.getElem?_set_self within] at later
      rw [← Option.some.inj later]
    · cases rest
      rw [State.put, List.getElem?_set_self within] at later
      rw [← Option.some.inj later]
  rw [same]
  exact threads

/-- The three lines at which a monitor sets the token. -/
private theorem token_set {threads later : Supervision.State} {outcome : Supervision.Outcome}
    (stepped : Supervision.monitorStep threads outcome = some later) (clear : threads.token = false)
    (set : later.token = true) :
    threads.monitor = .checkStatus true ∨ threads.monitor = .trip ∨ threads.monitor = .cancelToken := by
  unfold Supervision.monitorStep at stepped
  split at stepped <;> cases stepped
  case h_13 cancelled line =>
    dsimp only at set
    rw [clear, Bool.false_or] at set
    exact .inl (by rw [line, set])
  case h_18 line => exact .inr (.inl line)
  case h_25 line => exact .inr (.inr line)
  all_goals exact Bool.noConfusion (clear.symm.trans set)

/-- From the line after it has taken the notification of its job a monitor goes on, and only by setting the token. -/
private theorem token_of_trip {threads later : Supervision.State} {outcome : Supervision.Outcome}
    (line : threads.monitor = .trip) (stepped : Supervision.monitorStep threads outcome = some later) :
    later.token = true := by
  unfold Supervision.monitorStep at stepped
  rw [line] at stepped
  cases outcome <;> cases stepped
  rfl

private theorem trips (heard : Heard admits start s) (found : s.attempts[id]? = some attempt)
    (line : attempt.threads.monitor = .trip) (choice : CancellationMonitor.Choice) :
    (s.monitor id attempt .done choice).isSome := by
  have proceeded : attempt.proceed .done = some { attempt with
      threads := { attempt.threads with token := true, monitor := .releaseListen none }, release := .unlisten } := by
    unfold CancellationMonitor.Attempt.proceed Supervision.monitorStep
    rw [line]
    rfl
  unfold CancellationMonitor.State.monitor
  rw [proceeded, Option.bind_some, line]
  cases has : attempt.connection with
  | none => rfl
  | some connection =>
    have within := heard.opened id attempt connection found has
    have acted : attempt.act (s.world.state.cancelled attempt.jobId) s.connections[connection] .done choice =
        some s.connections[connection] := by
      unfold CancellationMonitor.Attempt.act
      rw [line]
    simp [List.getElem?_eq_getElem within, acted]

/-- The lines of the loop. -/
def Polling : Supervision.Monitor → Prop
  | .checkToken | .checkStopped | .poll | .trip => True
  | _ => False

/-- In its loop, the monitor of a cancelled job has the token set or the payload of the job queued on its
connection, or it has taken the payload and goes on to set the token. When a monitor sets the token, its job is
cancelled, unless it sets it for an error of its own. -/
theorem cancellation_signal (fresh : Fresh start) {actions : List CancellationMonitor.Action}
    (ran : Machine.run (CancellationMonitor.step admits) (CancellationMonitor.initial start) actions = some s)
    (found : s.attempts[id]? = some attempt) :
    (Polling attempt.threads.monitor → s.world.state.cancelled attempt.jobId = true → attempt.threads.token = true ∨
      (∃ conn, connectionOf s attempt = some conn ∧ attempt.jobId ∈ conn.queue) ∨ attempt.threads.monitor = .trip) ∧
    (attempt.threads.monitor = .trip →
      (∀ choice, (CancellationMonitor.step admits s (.monitor id .done choice)).isSome) ∧
      ∀ outcome choice next after, CancellationMonitor.step admits s (.monitor id outcome choice) = some next →
        next.attempts[id]? = some after → after.threads.token = true) ∧
    ∀ outcome choice next after, CancellationMonitor.step admits s (.monitor id outcome choice) = some next →
      next.attempts[id]? = some after → attempt.threads.token = false → after.threads.token = true →
      attempt.threads.monitor ≠ .cancelToken → s.world.state.cancelled attempt.jobId = true := by
  have heard : Heard admits start s :=
    Machine.preserves (fun _ _ _ heard stepped => heard_step fresh heard stepped) heard_initial ran
  have watch := heard.watch id attempt found
  refine ⟨?_, ?_, ?_⟩
  · intro polling cancelled
    by_cases took : attempt.threads.monitor = .trip
    · exact .inr (.inr took)
    · have signal : Subscribed (connectionOf s attempt) fun conn => s.world.state.cancelled attempt.jobId = true →
          attempt.threads.token = true ∨ attempt.jobId ∈ conn.queue := by
        cases line : attempt.threads.monitor with
        | checkToken | checkStopped | poll =>
          rw [line] at watch
          exact watch
        | trip => exact absurd line took
        | _ =>
          rw [line] at polling
          exact polling.elim
      obtain ⟨conn, same, _, _, signal⟩ := signal
      exact (signal cancelled).imp_right fun queued => .inl ⟨conn, same, queued⟩
  · intro line
    constructor
    · intro choice
      change ((s.attempts[id]?).bind fun attempt => s.monitor id attempt .done choice).isSome
      rw [found]
      exact trips heard found line choice
    · intro outcome choice next after stepped later
      obtain ⟨_, found', stepped⟩ := Option.bind_eq_some_iff.mp stepped
      obtain rfl := Option.some.inj (found.symm.trans found')
      rcases monitor_threads found stepped later with went | ⟨_, _, releases⟩
      · exact token_of_trip line went
      · rw [line] at releases
        cases releases
  · intro outcome choice next after stepped later clear set unfailing
    obtain ⟨_, found', stepped⟩ := Option.bind_eq_some_iff.mp stepped
    obtain rfl := Option.some.inj (found.symm.trans found')
    rcases monitor_threads found stepped later with went | ⟨stays, _⟩
    · rcases token_set went clear set with line | line | line
      · rw [line] at watch
        exact watch.1 rfl
      · rw [line] at watch
        exact watch
      · exact absurd line unfailing
    · rw [stays, clear] at set
      cases set

/-- A client cancels the first job. -/
def cancellation : List Model.Step := .start 0 (.request (.cancelJob 1 1 "1:user" none)) :: statements 0 5 ++ [.finish 0]

/-- A job is cancelled after its monitor has read the status. -/
def cancelledWhilePolled : List CancellationMonitor.Action :=
  let monitored (outcome : Supervision.Outcome) : CancellationMonitor.Action := .monitor 0 outcome ⟨0, 0, true⟩
  runningJob.map .service ++ [.connect, .begin 1, .main 0 .done] ++
    [.done, .done, .done, .answer false, .done, .done, .done, .done, .done, .done].map monitored ++
    cancellation.map .service

theorem cancellation_signal_office : ∃ s attempt,
    Machine.run (CancellationMonitor.step fun _ => true) (CancellationMonitor.initial office) cancelledWhilePolled =
      some s ∧
    s.attempts = [attempt] ∧ attempt.threads.token = false ∧
    ∃ conn, connectionOf s attempt = some conn ∧ attempt.jobId ∈ conn.queue := by
  have reached : (Machine.run (CancellationMonitor.step fun _ => true) (CancellationMonitor.initial office)
      cancelledWhilePolled).map (fun s => (s.world.state.cancelled 1, s.attempts.map fun attempt =>
        (attempt.jobId, attempt.threads.token, attempt.threads.monitor))) = some (true, [(1, false, .poll)]) := by
    decide +kernel
  obtain ⟨s, ran, same⟩ := Option.map_eq_some_iff.mp reached
  rw [Prod.mk.injEq] at same
  obtain ⟨cancelled, attempts⟩ := same
  obtain ⟨attempt, only, same⟩ := List.map_eq_singleton_iff.mp attempts
  simp only [Prod.mk.injEq] at same
  obtain ⟨job, token, monitor⟩ := same
  have found : s.attempts[0]? = some attempt := by rw [only]; rfl
  have signal := (cancellation_signal office_fresh ran found).1 (by rw [monitor]; trivial) (by rw [job]; exact cancelled)
  rw [token, monitor] at signal
  exact ⟨s, attempt, ran, only, token, (signal.resolve_left nofun).resolve_right nofun⟩

end Runs

end JobRelay.Guarantees
