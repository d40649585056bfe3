import Mathlib.Data.List.Basic

/-! # Row locks held to the end of a transaction

The four row-lock modes and their conflict table. A lock set lists what one open transaction holds;
two open transactions are compatible when no resource is held by both in conflicting modes. The
lemmas say what compatibility buys: a resource changed under one lock set is not held exclusively
under the other, and an update lock excludes every other holder.
-/

namespace JobRelay.Sessions

inductive LockMode where
  | keyShare | share | noKeyUpdate | update
deriving DecidableEq, Repr

namespace LockMode

def conflicts : LockMode → LockMode → Bool
  | .update, _ => true
  | _, .update => true
  | .noKeyUpdate, .noKeyUpdate => true
  | .noKeyUpdate, .share => true
  | .share, .noKeyUpdate => true
  | _, _ => false

theorem conflicts_comm (a b : LockMode) : a.conflicts b = b.conflicts a := by
  cases a <;> cases b <;> rfl

/-- The modes under which a row may be changed. -/
def writes : LockMode → Bool
  | .noKeyUpdate | .update => true
  | _ => false

theorem conflicts_of_writes {a b : LockMode} (left : a.writes = true) (right : b.writes = true) :
    a.conflicts b = true := by
  cases a <;> cases b <;> simp_all [writes, conflicts]

theorem conflicts_update (a : LockMode) : a.conflicts .update = true := by cases a <;> rfl

end LockMode

/-- Locks in the order in which the transaction took them. -/
abbrev LockSet (R : Type*) := List (R × LockMode)

namespace LockSet

variable {R : Type*} [DecidableEq R]

/-- No resource is held on both sides in conflicting modes. -/
def compatible (left right : LockSet R) : Bool :=
  left.all fun held => right.all fun other => !(decide (held.1 = other.1) && held.2.conflicts other.2)

theorem compatible_iff {left right : LockSet R} :
    left.compatible right = true ↔
      ∀ held ∈ left, ∀ other ∈ right, held.1 = other.1 → held.2.conflicts other.2 = false := by
  simp only [compatible, List.all_eq_true, Bool.not_eq_true', Bool.and_eq_false_imp,
    decide_eq_true_eq]

theorem compatible_comm (left right : LockSet R) : left.compatible right = right.compatible left := by
  rw [Bool.eq_iff_iff, compatible_iff, compatible_iff]
  constructor <;> intro apart held inHeld other inOther same
  · rw [LockMode.conflicts_comm]
    exact apart other inOther held inHeld same.symm
  · rw [LockMode.conflicts_comm]
    exact apart other inOther held inHeld same.symm

omit [DecidableEq R] in
/-- The resource is held in a mode that permits changing it. -/
def Exclusive (locks : LockSet R) (resource : R) : Prop :=
  ∃ mode, (resource, mode) ∈ locks ∧ mode.writes = true

omit [DecidableEq R] in
theorem Exclusive.of_update {locks : LockSet R} {resource : R} (held : (resource, .update) ∈ locks) :
    locks.Exclusive resource := ⟨.update, held, rfl⟩

omit [DecidableEq R] in
theorem Exclusive.mono {locks more : LockSet R} {resource : R} (held : locks.Exclusive resource)
    (sub : locks ⊆ more) : more.Exclusive resource := by
  obtain ⟨mode, member, writes⟩ := held
  exact ⟨mode, sub member, writes⟩

theorem Exclusive.not_exclusive {left right : LockSet R} {resource : R}
    (apart : left.compatible right = true) (held : left.Exclusive resource) :
    ¬ right.Exclusive resource := by
  rintro ⟨other, inRight, otherWrites⟩
  obtain ⟨mode, inLeft, writes⟩ := held
  have free := compatible_iff.mp apart _ inLeft _ inRight rfl
  rw [LockMode.conflicts_of_writes writes otherWrites] at free
  cases free

/-- An update lock excludes every other holder of the resource. -/
theorem not_mem_of_update {left right : LockSet R} {resource : R} {mode : LockMode}
    (apart : left.compatible right = true) (held : (resource, mode) ∈ left) :
    (resource, LockMode.update) ∉ right := by
  intro other
  have free := compatible_iff.mp apart _ held _ other rfl
  rw [LockMode.conflicts_update] at free
  cases free

end LockSet

end JobRelay.Sessions
