import JobRelay.Model.GracefulShutdown

/-! # Draining the requests

Whichever turns the tasks take, the counter is the number of accepted requests that are not finished, and the event is
set exactly while there are none. From the moment the lifespan drains, no request is accepted, so an event that was set
since then stays set, and what `drain` has waited for is still so when it returns.
-/

namespace JobRelay.Guarantees

open Model.GracefulShutdown Sessions

section Operations

variable {s next : Shutdown} {accepted : Bool}

/-- A request is accepted, and counted, exactly if the shutdown has not begun. -/
private theorem requestStarted_cases (turn : s.requestStarted = some (next, accepted)) :
    (s.shuttingDown = true ∧ accepted = false ∧ next = { s with lock := next.lock }) ∨
      (s.shuttingDown = false ∧ accepted = true ∧
        next = { s with lock := next.lock, inFlight := s.inFlight + 1, drained := s.drained.clear }) := by
  obtain ⟨lock, -, turn⟩ := Option.bind_eq_some_iff.mp turn
  split at turn
  · next begun =>
    cases turn
    exact .inl ⟨begun, rfl, rfl⟩
  · next serving =>
    cases turn
    exact .inr ⟨by simpa using serving, rfl, rfl⟩

private theorem requestFinished_eq (turn : s.requestFinished = some next) :
    next = { s with
      lock := next.lock
      inFlight := s.inFlight - 1
      drained := if s.inFlight - 1 ≤ 0 then s.drained.set else s.drained } := by
  obtain ⟨lock, -, turn⟩ := Option.bind_eq_some_iff.mp turn
  cases turn
  rfl

/-- `drain` returns at once only where nothing is in flight. -/
private theorem drain_cases :
    ((s.inFlight ≤ 0 ∨ s.drained.isSet = true) ∧ s.drain = ({ s with shuttingDown := true }, true)) ∨
      s.drain = ({ s with shuttingDown := true, drained := s.drained.wait .lifespan }, false) := by
  rw [Shutdown.drain]
  dsimp only
  split
  · next none => exact .inl ⟨.inl none, rfl⟩
  · split
    · next set => exact .inl ⟨.inr set, rfl⟩
    · exact .inr rfl

end Operations

/-- What the awaits of a request say of it. -/
def Marked (request : Request) : Prop :=
  match request.line with
  | .requestStarted => request.inFlight = false
  | .callNext | .requestFinished _ => request.started = some true ∧ request.finished = false
  | .ended _ => True

private theorem inFlight_of_marks {request : Request} (marks : request.started = some true ∧ request.finished = false) :
    request.inFlight = true := by
  rw [Request.inFlight, marks.1, marks.2]
  rfl

private theorem Marked.start (accepted : Bool) : Marked (.start accepted) := by
  cases accepted with
  | true => exact ⟨rfl, rfl⟩
  | false => trivial

private theorem Marked.cancel {request later : Request} (marked : Marked request)
    (cancelled : request.cancel = some later) : Marked later ∧ later.started = request.started ∧
      later.inFlight = request.inFlight := by
  obtain ⟨line, started, finished⟩ := request
  cases line with
  | requestStarted =>
    cases cancelled
    exact ⟨trivial, rfl, rfl⟩
  | callNext =>
    cases cancelled
    exact ⟨marked, rfl, rfl⟩
  | requestFinished outcome =>
    cases cancelled
    exact ⟨trivial, rfl, rfl⟩
  | ended outcome => cases cancelled

/-- What holds at every await. -/
structure Drains (s : State) : Prop where
  counted : s.shutdown.inFlight = s.inFlight
  drained : s.shutdown.drained.isSet = true ↔ s.inFlight = 0
  begun : s.lifespan ≠ .yield → s.shutdown.shuttingDown = true
  waiting : ∀ task ∈ s.shutdown.drained.waiting, s.lifespan ≠ .yield
  woken : ∀ task ∈ s.shutdown.drained.woken, s.lifespan ≠ .yield ∧ s.inFlight = 0
  returned : s.lifespan = .disposed false → s.inFlight = 0
  marked : ∀ request ∈ s.requests, Marked request

section Steps

variable {s : State} {id : ℕ} {request later : Request}

private theorem drains_initial : Drains initial where
  counted := rfl
  drained := ⟨fun _ => rfl, fun _ => rfl⟩
  begun away := absurd rfl away
  waiting task member := by cases member
  woken task member := by cases member
  returned ended := by cases ended
  marked request member := by cases member

private theorem inFlight_set (stored : s.requests[id]? = some request) (later : Request) :
    (s.requests.set id later).countP Request.inFlight + (if request.inFlight then 1 else 0) =
      s.inFlight + if later.inFlight then 1 else 0 := by
  obtain ⟨within, rfl⟩ := List.getElem?_eq_some_iff.mp stored
  have positive : s.requests[id].inFlight = true → 0 < s.requests.countP Request.inFlight := fun counted =>
    List.countP_pos_iff.mpr ⟨_, List.getElem_mem within, counted⟩
  rw [List.countP_set within, State.inFlight]
  split <;> split <;> simp_all

private theorem marked_set (marked : ∀ request ∈ s.requests, Marked request) (mark : Marked later) :
    ∀ request ∈ s.requests.set id later, Marked request := by
  intro request member
  rcases List.mem_or_eq_of_mem_set member with member | rfl
  · exact marked request member
  · exact mark

/-- A turn of a request that changes nothing but where it is. -/
private theorem Drains.moved (drains : Drains s) (stored : s.requests[id]? = some request) (mark : Marked later)
    (same : later.inFlight = request.inFlight) : Drains { s with requests := s.requests.set id later } := by
  have count : (s.requests.set id later).countP Request.inFlight = s.inFlight := by
    have sum := inFlight_set stored later
    rw [same] at sum
    omega
  exact {
    counted := by
      rw [State.inFlight, count]
      exact drains.counted
    drained := by
      rw [State.inFlight, count]
      exact drains.drained
    begun := drains.begun
    waiting := drains.waiting
    woken := fun task member => by
      rw [State.inFlight, count]
      exact drains.woken task member
    returned := fun ended => by
      rw [State.inFlight, count]
      exact drains.returned ended
    marked := marked_set drains.marked mark }

private theorem Drains.start (drains : Drains s) (stored : s.requests[id]? = some request)
    (waits : request.line = .requestStarted) {shutdown : Shutdown} {accepted : Bool}
    (turn : s.shutdown.requestStarted = some (shutdown, accepted)) :
    Drains { s with shutdown, requests := s.requests.set id (.start accepted) } := by
  have before := drains.marked request (List.mem_of_getElem? stored)
  rw [Marked, waits] at before
  rcases requestStarted_cases turn with ⟨begun, rfl, left⟩ | ⟨quiet, rfl, left⟩
  · have moved := drains.moved stored (Marked.start false) before.symm
    rw [left]
    exact { moved with }
  · have sum := inFlight_set stored (.start true)
    have serving : s.lifespan = .yield := by
      by_contra away
      rw [drains.begun away] at quiet
      cases quiet
    rw [before] at sum
    have count : (s.requests.set id (.start true)).countP Request.inFlight = s.inFlight + 1 := sum
    rw [left]
    exact {
      counted := by
        have counted := drains.counted
        rw [State.inFlight, count]
        change s.shutdown.inFlight + 1 = _
        omega
      drained := by
        rw [State.inFlight, count]
        exact ⟨fun set => (by cases set), fun zero => (by omega)⟩
      begun := fun away => absurd serving away
      waiting := fun task member => absurd serving (drains.waiting task member)
      woken := fun task member => absurd serving (drains.woken task member).1
      returned := fun ended => by
        dsimp only at ended
        rw [serving] at ended
        cases ended
      marked := marked_set drains.marked (Marked.start true) }

private theorem Drains.finish (drains : Drains s) (stored : s.requests[id]? = some request) {outcome : Outcome}
    (waits : request.line = .requestFinished outcome) {shutdown : Shutdown}
    (turn : s.shutdown.requestFinished = some shutdown) :
    Drains { s with shutdown, requests := s.requests.set id ⟨.ended outcome, request.started, true⟩ } := by
  have before := drains.marked request (List.mem_of_getElem? stored)
  rw [Marked, waits] at before
  have sum := inFlight_set stored ⟨.ended outcome, request.started, true⟩
  rw [inFlight_of_marks before, Request.inFlight, Bool.not_true, Bool.and_false, if_pos rfl] at sum
  have count : (s.requests.set id ⟨.ended outcome, request.started, true⟩).countP Request.inFlight + 1 = s.inFlight := sum
  have counted := drains.counted
  rw [requestFinished_eq turn]
  exact {
    counted := by
      rw [State.inFlight]
      dsimp only
      omega
    drained := by
      rw [State.inFlight]
      dsimp only
      split
      · simp only [AsyncEvent.isSet_set, true_iff]
        omega
      · rw [drains.drained]
        omega
    begun := drains.begun
    waiting := fun task member => by
      dsimp only at member
      split at member
      · exact drains.waiting task (AsyncEvent.mem_waiting_set member)
      · exact drains.waiting task member
    woken := fun task member => by
      rw [State.inFlight]
      dsimp only at member ⊢
      split at member
      · rcases AsyncEvent.mem_woken_set member with member | member
        · exact ⟨(drains.woken task member).1, by omega⟩
        · exact ⟨drains.waiting task member, by omega⟩
      · have none := (drains.woken task member).2
        omega
    returned := fun ended => by
      have none := drains.returned ended
      omega
    marked := marked_set drains.marked trivial }

/-- The wait of the lifespan ends. -/
private theorem Drains.leave (drains : Drains s) {lifespan : Lifespan} (waits : s.lifespan = .drain)
    (away : lifespan ≠ .yield) (returned : lifespan = .disposed false → s.inFlight = 0) :
    Drains { s with shutdown := s.shutdown.leave, lifespan } where
  counted := drains.counted
  drained := drains.drained
  begun _ := drains.begun (by simp [waits])
  waiting _ _ := away
  woken task member := ⟨away, (drains.woken task (AsyncEvent.mem_woken_leave member)).2⟩
  returned := returned
  marked := drains.marked

private theorem Drains.drain (drains : Drains s) (serving : s.lifespan = .yield) :
    Drains { s with shutdown := s.shutdown.drain.1, lifespan := if s.shutdown.drain.2 then .disposed false else .drain } := by
  have counted := drains.counted
  have drained := drains.drained
  rcases drain_cases (s := s.shutdown) with ⟨none, turn⟩ | turn
  · have zero : s.inFlight = 0 := by
      rcases none with none | set
      · omega
      · exact drained.mp set
    rw [turn]
    exact {
      counted := counted
      drained := drained
      begun := fun _ => rfl
      waiting := fun task member => absurd serving (drains.waiting task member)
      woken := fun task member => absurd serving (drains.woken task member).1
      returned := fun _ => zero
      marked := drains.marked }
  · rw [turn]
    exact {
      counted := counted
      drained := drained
      begun := fun _ => rfl
      waiting := fun task _ => by simp
      woken := fun task member => absurd serving (drains.woken task member).1
      returned := fun ended => by cases ended
      marked := drains.marked }

private theorem Drains.arrive (drains : Drains s) : Drains { s with requests := s.requests ++ [.new] } := by
  have count : (s.requests ++ [Request.new]).countP Request.inFlight = s.inFlight := by
    rw [List.countP_append]
    rfl
  exact {
    counted := by
      rw [State.inFlight, count]
      exact drains.counted
    drained := by
      rw [State.inFlight, count]
      exact drains.drained
    begun := drains.begun
    waiting := drains.waiting
    woken := fun task member => by
      rw [State.inFlight, count]
      exact drains.woken task member
    returned := fun ended => by
      rw [State.inFlight, count]
      exact drains.returned ended
    marked := fun request member => by
      rcases List.mem_append.mp member with member | member
      · exact drains.marked request member
      · rw [List.mem_singleton.mp member]
        rfl }

end Steps

/-- The turns, by what they do to the requests. -/
inductive Turn (s : State) : State → Prop where
  | arrive : Turn s { s with requests := s.requests ++ [.new] }
  | move {id : ℕ} {request later : Request} (stored : s.requests[id]? = some request)
      (mark : Marked request → Marked later ∧ later.started = request.started ∧ later.inFlight = request.inFlight) :
      Turn s { s with requests := s.requests.set id later }
  | start {id : ℕ} {request : Request} {shutdown : Shutdown} {accepted : Bool} (stored : s.requests[id]? = some request)
      (waits : request.line = .requestStarted) (turn : s.shutdown.requestStarted = some (shutdown, accepted)) :
      Turn s { s with shutdown, requests := s.requests.set id (.start accepted) }
  | finish {id : ℕ} {request : Request} {shutdown : Shutdown} {outcome : Outcome}
      (stored : s.requests[id]? = some request) (waits : request.line = .requestFinished outcome)
      (turn : s.shutdown.requestFinished = some shutdown) :
      Turn s { s with shutdown, requests := s.requests.set id ⟨.ended outcome, request.started, true⟩ }
  | drain (serving : s.lifespan = .yield) :
      Turn s { s with
        shutdown := s.shutdown.drain.1
        lifespan := if s.shutdown.drain.2 then .disposed false else .drain }
  | leave {lifespan : Lifespan} (waits : s.lifespan = .drain) (away : lifespan ≠ .yield)
      (woken : lifespan = .disposed false → .lifespan ∈ s.shutdown.drained.woken) :
      Turn s { s with shutdown := s.shutdown.leave, lifespan }

section Runs

variable {s next last : State} {action : Action} {actions : List Action}

private theorem turn_of_step (stepped : step s action = some next) : Turn s next := by
  cases action with
  | arrive =>
    cases stepped
    exact .arrive
  | start id =>
    rw [step] at stepped
    split at stepped
    · next started finished stored =>
      obtain ⟨⟨shutdown, accepted⟩, turn, rfl⟩ := Option.map_eq_some_iff.mp stepped
      exact .start stored rfl turn
    · cases stepped
  | respond id outcome =>
    rw [step] at stepped
    split at stepped
    · next started finished stored =>
      cases stepped
      exact .move stored fun mark => ⟨mark, rfl, rfl⟩
    · cases stepped
  | breakOff id =>
    rw [step] at stepped
    split at stepped
    · next started finished stored =>
      cases stepped
      exact .move stored fun _ => ⟨trivial, rfl, rfl⟩
    · cases stepped
  | finish id =>
    rw [step] at stepped
    split at stepped
    · next outcome started finished stored =>
      obtain ⟨shutdown, turn, rfl⟩ := Option.map_eq_some_iff.mp stepped
      exact .finish stored rfl turn
    · cases stepped
  | cancel id =>
    obtain ⟨request, stored, stepped⟩ := Option.bind_eq_some_iff.mp stepped
    obtain ⟨later, cancelled, stepped⟩ := Option.bind_eq_some_iff.mp stepped
    cases stepped
    exact .move stored fun mark => mark.cancel cancelled
  | drain =>
    obtain ⟨serving, ⟨⟩⟩ := Option.ite_none_right_eq_some.mp stepped
    exact .drain serving
  | wake =>
    obtain ⟨⟨waits, woken⟩, ⟨⟩⟩ := Option.ite_none_right_eq_some.mp stepped
    exact .leave waits (by simp) fun _ => woken
  | timeOut =>
    obtain ⟨waits, ⟨⟩⟩ := Option.ite_none_right_eq_some.mp stepped
    exact .leave waits (by simp) (by simp)
  | cancelDrain =>
    obtain ⟨waits, ⟨⟩⟩ := Option.ite_none_right_eq_some.mp stepped
    exact .leave waits (by simp) (by simp)

private theorem Drains.turn (drains : Drains s) (turn : Turn s next) : Drains next := by
  cases turn with
  | arrive => exact drains.arrive
  | move stored mark =>
    obtain ⟨marked, -, same⟩ := mark (drains.marked _ (List.mem_of_getElem? stored))
    exact drains.moved stored marked same
  | start stored waits turn => exact drains.start stored waits turn
  | finish stored waits turn => exact drains.finish stored waits turn
  | drain serving => exact drains.drain serving
  | leave waits away woken => exact drains.leave waits away fun ended => (drains.woken _ (woken ended)).2

private theorem Drains.run (drains : Drains s) (ran : Machine.run step s actions = some last) : Drains last :=
  Machine.preserves (fun _ _ _ drains stepped => drains.turn (turn_of_step stepped)) drains ran

private theorem accepted_set {id id' : ℕ} {request later : Request} (stored : s.requests[id]? = some request)
    {shutdown : Shutdown} (accepted : { s with shutdown, requests := s.requests.set id later }.Accepted id') :
    (id = id' ∧ later.started = some true) ∨ s.Accepted id' := by
  rw [State.Accepted, List.getElem?_set] at accepted
  split at accepted
  · next same =>
    rw [if_pos (List.getElem?_eq_some_iff.mp stored).1] at accepted
    exact .inl ⟨same, accepted⟩
  · exact .inr accepted

/-- Once the lifespan drains, a turn accepts no request. -/
private theorem Drains.closed (drains : Drains s) (away : s.lifespan ≠ .yield) (turn : Turn s next) :
    next.lifespan ≠ .yield ∧ ∀ id, next.Accepted id → s.Accepted id := by
  cases turn with
  | arrive =>
    refine ⟨away, fun id accepted => ?_⟩
    rw [State.Accepted, List.getElem?_append] at accepted
    split at accepted
    · exact accepted
    · obtain ⟨request, stored, accepted⟩ := Option.bind_eq_some_iff.mp accepted
      rw [List.mem_singleton.mp (List.mem_of_getElem? stored)] at accepted
      cases accepted
  | move stored mark =>
    refine ⟨away, fun id accepted => ?_⟩
    rcases accepted_set stored accepted with ⟨rfl, found⟩ | before
    · obtain ⟨-, same, -⟩ := mark (drains.marked _ (List.mem_of_getElem? stored))
      rw [State.Accepted, stored, Option.bind_some, ← same]
      exact found
    · exact before
  | start stored waits turn =>
    refine ⟨away, fun id accepted => ?_⟩
    rcases accepted_set stored accepted with ⟨-, accepted⟩ | before
    · rcases requestStarted_cases turn with ⟨-, rfl, -⟩ | ⟨quiet, -, -⟩
      · cases accepted
      · rw [drains.begun away] at quiet
        cases quiet
    · exact before
  | finish stored waits turn =>
    refine ⟨away, fun id accepted => ?_⟩
    rcases accepted_set stored accepted with ⟨rfl, found⟩ | before
    · rw [State.Accepted, stored, Option.bind_some]
      exact found
    · exact before
  | drain serving => exact absurd serving away
  | leave waits away' woken => exact ⟨away', fun id accepted => accepted⟩

private theorem Drains.run_closed (drains : Drains s) (away : s.lifespan ≠ .yield)
    (ran : Machine.run step s actions = some last) (id : ℕ) (accepted : last.Accepted id) : s.Accepted id := by
  have kept : Drains last ∧ last.lifespan ≠ .yield ∧ ∀ id, last.Accepted id → s.Accepted id := by
    refine Machine.preserves (P := fun last => Drains last ∧ last.lifespan ≠ .yield ∧
      ∀ id, last.Accepted id → s.Accepted id) ?_ ⟨drains, away, fun _ accepted => accepted⟩ ran
    rintro s action next ⟨drains, away, before⟩ stepped
    have turn := turn_of_step stepped
    obtain ⟨still, closed⟩ := drains.closed away turn
    exact ⟨drains.turn turn, still, fun id accepted => before id (closed id accepted)⟩
  exact kept.2.2 id accepted

private theorem disposed_stays (ended : s.lifespan = .disposed false) (turn : Turn s next) :
    next.lifespan = .disposed false := by
  cases turn with
  | arrive => exact ended
  | move stored mark => exact ended
  | start stored waits turn => exact ended
  | finish stored waits turn => exact ended
  | drain serving => simp [ended] at serving
  | leave waits away woken => simp [ended] at waits

/-- Wherever the requests and the lifespan await: the counter is the number of requests that are accepted and not
finished, and the event is set exactly if there are none; once the lifespan drains, no request is accepted; and if
`drain` has returned in time, no request is in flight, then or later. -/
theorem requests_drained (ran : Machine.run step initial actions = some s) :
    (s.shutdown.inFlight = s.inFlight ∧ 0 ≤ s.shutdown.inFlight) ∧
      (s.shutdown.drained.isSet = true ↔ s.inFlight = 0) ∧
      (s.lifespan ≠ .yield → ∀ later last, Machine.run step s later = some last →
        ∀ id, last.Accepted id → s.Accepted id) ∧
      (s.lifespan = .disposed false → ∀ later last, Machine.run step s later = some last → last.inFlight = 0) := by
  have drains := drains_initial.run ran
  have counted := drains.counted
  refine ⟨⟨counted, by omega⟩, drains.drained, ?_, ?_⟩
  · intro away later last ran id
    exact drains.run_closed away ran id
  · intro ended later last ran
    have stays := Machine.preserves (P := fun s => s.lifespan = .disposed false)
      (fun _ _ _ ended stepped => disposed_stays ended (turn_of_step stepped)) ended ran
    exact (drains.run ran).returned stays

/-- The lifespan drains while a request is handled, another is rejected, and the first finishes. -/
def drainedRun : List Action :=
  [.arrive, .start 0, .drain, .arrive, .start 1, .respond 0 (.response 200), .finish 0, .wake]

theorem requests_drained_handled : ∃ s, Machine.run step initial drainedRun = some s ∧ s.lifespan = .disposed false ∧
    ∀ later last, Machine.run step s later = some last → last.inFlight = 0 := by
  obtain ⟨s, ran⟩ := Option.isSome_iff_exists.mp (by decide : (Machine.run step initial drainedRun).isSome = true)
  have ended : (Machine.run step initial drainedRun).map State.lifespan = some (.disposed false) := by decide
  rw [ran] at ended
  exact ⟨s, ran, Option.some.inj ended, (requests_drained ran).2.2.2 (Option.some.inj ended)⟩

end Runs

end JobRelay.Guarantees
