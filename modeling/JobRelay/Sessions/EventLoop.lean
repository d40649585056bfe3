import Mathlib.Data.List.Basic

/-! # Tasks of an event loop

A task runs from one await to the next, and only there may others run, or may it be cancelled. A lock is awaited, and
where its holder awaits nothing it is free whenever a task is given its turn. An event wakes the tasks that wait for it
when it is set; a woken task goes on later, whatever has become of the event since.
-/

namespace JobRelay.Sessions

/-- `asyncio.Lock`. Which of the tasks that wait for it is next is left open. -/
structure Lock where
  locked : Bool
deriving DecidableEq

namespace Lock

def new : Lock := ⟨false⟩

def acquire (lock : Lock) : Option Lock := if lock.locked then none else some ⟨true⟩

def release (_lock : Lock) : Lock := ⟨false⟩

@[simp] theorem release_locked (lock : Lock) : lock.release.locked = false := rfl

end Lock

/-- `asyncio.Event`, with the tasks whose futures are pending and those whose futures have their result. -/
structure AsyncEvent (τ : Type*) where
  isSet : Bool
  waiting : List τ
  woken : List τ
deriving DecidableEq

namespace AsyncEvent

variable {τ : Type*}

def new : AsyncEvent τ := ⟨false, [], []⟩

def set (event : AsyncEvent τ) : AsyncEvent τ := if event.isSet then event else ⟨true, [], event.woken ++ event.waiting⟩

def clear (event : AsyncEvent τ) : AsyncEvent τ := { event with isSet := false }

/-- A task awaits the event, which is not set. -/
def wait (event : AsyncEvent τ) (task : τ) : AsyncEvent τ := { event with waiting := event.waiting ++ [task] }

/-- A task no longer waits: it has been given its turn, or an exception. -/
def leave [DecidableEq τ] (event : AsyncEvent τ) (task : τ) : AsyncEvent τ :=
  { event with waiting := event.waiting.filter (· ≠ task), woken := event.woken.filter (· ≠ task) }

variable {event : AsyncEvent τ} {task other : τ}

@[simp] theorem isSet_set : event.set.isSet = true := by
  rw [set]
  split
  · assumption
  · rfl

@[simp] theorem isSet_clear : event.clear.isSet = false := rfl

@[simp] theorem waiting_clear : event.clear.waiting = event.waiting := rfl

@[simp] theorem woken_clear : event.clear.woken = event.woken := rfl

@[simp] theorem isSet_wait : (event.wait task).isSet = event.isSet := rfl

@[simp] theorem woken_wait : (event.wait task).woken = event.woken := rfl

@[simp] theorem isSet_leave [DecidableEq τ] : (event.leave task).isSet = event.isSet := rfl

theorem mem_waiting_set (member : task ∈ event.set.waiting) : task ∈ event.waiting := by
  rw [set] at member
  split at member
  · exact member
  · cases member

theorem mem_woken_set (member : task ∈ event.set.woken) : task ∈ event.woken ∨ task ∈ event.waiting := by
  rw [set] at member
  split at member
  · exact .inl member
  · exact List.mem_append.mp member

theorem mem_woken_leave [DecidableEq τ] (member : other ∈ (event.leave task).woken) : other ∈ event.woken :=
  List.mem_of_mem_filter member

end AsyncEvent

end JobRelay.Sessions
