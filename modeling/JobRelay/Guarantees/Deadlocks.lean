import JobRelay.Soundness.RowLocks
import Mathlib.Data.Finset.Max

/-! # Transactions that wait for each other's rows

Whoever waits for a company holds nothing that anybody waits for, and a transaction that updates one job has
asked for it first. `recover_stale_jobs` is the only one that holds jobs while it waits for another, and it
orders them in no way.
-/

namespace JobRelay.Guarantees

open Model Sessions Soundness

variable {ι : Type*}

/-- The jobs that a transaction updates, in the order in which it locks them. -/
def order (asked : List (LockRequest Resource)) : List ℕ :=
  asked.filterMap fun made =>
    match made.resource, made.mode with
    | .job id, .noKeyUpdate => some id
    | _, _ => none

/-- Some recoveries have each locked the first jobs of their order, no job twice, and the next job of each is
among those that another one has locked. -/
def Crossing (operations : ι → Operation) (requests : ι → List (LockRequest Resource)) : Prop :=
  ∃ (members : Finset ι) (locked : ι → List ℕ) (next : ι → ℕ), members.Nonempty ∧
    (∀ i ∈ members, operations i = .recoverStaleJobs ∧ locked i ++ [next i] <+: order (requests i)) ∧
    (∀ i ∈ members, ∃ j ∈ members, next i ∈ locked j) ∧
    ∀ i ∈ members, ∀ j ∈ members, i ≠ j → (locked i).Disjoint (locked j)

private theorem order_updates (ids : List ℕ) : order (updates ids) = ids := by
  induction ids with
  | nil => rfl
  | cons id ids ih =>
    rw [order] at ih
    simp [order, updates, request] at ih ⊢

private theorem order_recovery {ids : List ℕ} {shares : List (LockRequest Resource)}
    (shared : ∀ share ∈ shares, Shares share) : order (updates ids ++ shares) = ids := by
  have nothing : order shares = [] := by
    refine List.filterMap_eq_nil_iff.mpr fun share member => ?_
    have mode : share.mode = .keyShare := shared share member
    rw [mode]
    cases share.resource <;> rfl
  rw [order, List.filterMap_append, ← order, ← order, order_updates, nothing, List.append_nil]

section Knot

variable {operations : ι → Operation} {requests : ι → List (LockRequest Resource)}
  {lockers : ι → Locker Resource} {knot : Set ι} {k : ι}

/-- What a transaction has locked for update, nobody else holds. -/
private theorem owned (standing : Locker.Standing requests lockers) {j : ι} (distinct : j ≠ k)
    {made : LockRequest Resource} (held : (made.resource, .update) ∈ (lockers k).held) :
    ¬(lockers j).Excludes made := by
  rintro ⟨mode, holds, _⟩
  have fine := standing.apart k j distinct.symm made.resource .update mode held holds
  rw [LockMode.conflicts_comm, LockMode.conflicts_update] at fine
  exact Bool.noConfusion fine

/-- A claim waits for nobody once it has its job. -/
private theorem claim_outside (shaped : ∀ i, Shaped (operations i) (requests i))
    (standing : Locker.Standing requests lockers) (tied : Locker.Knot lockers knot) (member : k ∈ knot)
    {workerId : ℕ} : operations k ≠ .claimNext workerId := by
  intro claims
  obtain ⟨granted, made, rest, whole, begun, held, _, j, _, distinct, excludes⟩ := tied.member standing member
  have shape := shaped k
  rw [claims] at shape
  rcases shape with nothing | ⟨jobId, more, whole', onJob⟩
  · simp [nothing] at whole
  · obtain ⟨first, granted, rfl⟩ := List.exists_cons_of_ne_nil begun
    rw [whole', List.cons_append, List.cons.injEq] at whole
    obtain ⟨rfl, rfl⟩ := whole
    refine owned standing distinct ?_ excludes
    rw [held, onJob made (by simp)]
    exact List.mem_cons_self

/-- What excludes a share lock is held for update: by a claim, or by a `create_job` that has its company. -/
private theorem excludes_share (shaped : ∀ i, Shaped (operations i) (requests i))
    (standing : Locker.Standing requests lockers) (tied : Locker.Knot lockers knot) {j : ι} (member : j ∈ knot)
    {made : LockRequest Resource} (shares : Shares made) (excludes : (lockers j).Excludes made) :
    ∃ companyId kind traceId key submittedBy, operations j = .createJob companyId kind traceId key submittedBy ∧
      made.resource = .company companyId := by
  obtain ⟨granted, _, _, whole, _, held, _⟩ := tied.member standing member
  obtain ⟨mode, holds, clash⟩ := excludes
  rw [held, List.mem_map] at holds
  obtain ⟨lock, inside, same⟩ := holds
  rw [LockRequest.lock, Prod.mk.injEq] at same
  have update : lock.mode = .update := by
    rw [same.2]
    rw [show made.mode = .keyShare from shares] at clash
    cases mode <;> simp [LockMode.conflicts] at clash ⊢
  rcases update_mode (shaped j) (whole ▸ List.mem_append_left _ inside) update with
    ⟨workerId, claims⟩ | ⟨companyId, kind, traceId, key, submittedBy, creates, resource⟩
  · exact absurd claims (claim_outside shaped standing tied member)
  · exact ⟨companyId, kind, traceId, key, submittedBy, creates, same.1 ▸ resource⟩

/-- A `create_job` waits for nobody once it has its company. -/
private theorem create_outside (shaped : ∀ i, Shaped (operations i) (requests i))
    (standing : Locker.Standing requests lockers) (tied : Locker.Knot lockers knot) (member : k ∈ knot)
    {companyId : ℕ} {kind : String} {traceId : Option String} {key : String} {submittedBy : Option String} :
    operations k ≠ .createJob companyId kind traceId key submittedBy := by
  intro creates
  obtain ⟨granted, made, rest, whole, begun, held, _, j, among, distinct, excludes⟩ := tied.member standing member
  have shape := shaped k
  rw [creates] at shape
  rcases shape with nothing | ⟨shares, whole', shared⟩
  · simp [nothing] at whole
  · obtain ⟨first, granted, rfl⟩ := List.exists_cons_of_ne_nil begun
    rw [whole', List.cons_append, List.cons.injEq] at whole
    obtain ⟨rfl, rfl⟩ := whole
    obtain ⟨shares, own⟩ := shared made (by simp)
    obtain ⟨other, _, _, _, _, _, resource⟩ := excludes_share shaped standing tied among shares excludes
    refine owned standing distinct ?_ excludes
    rw [held, resource, own other resource]
    exact List.mem_cons_self

/-- Nobody in a knot waits for a share lock. -/
private theorem next_not_share (shaped : ∀ i, Shaped (operations i) (requests i))
    (standing : Locker.Standing requests lockers) (tied : Locker.Knot lockers knot) {j : ι} (member : j ∈ knot)
    {made : LockRequest Resource} (excludes : (lockers j).Excludes made) : made.mode ≠ .keyShare := by
  intro shares
  obtain ⟨_, _, _, _, _, creates, _⟩ := excludes_share shaped standing tied member shares excludes
  exact create_outside shaped standing tied member creates

/-- Nobody in a knot waits to debit a company. -/
private theorem next_not_debit (shaped : ∀ i, Shaped (operations i) (requests i))
    (standing : Locker.Standing requests lockers) (tied : Locker.Knot lockers knot) {j : ι} (member : j ∈ knot)
    {companyId : ℕ} : ¬(lockers j).Excludes (request (.company companyId) .noKeyUpdate) := by
  rintro ⟨mode, holds, clash⟩
  obtain ⟨granted, made, rest, whole, _, held, _⟩ := tied.member standing member
  rw [held, List.mem_map] at holds
  obtain ⟨lock, inside, same⟩ := holds
  rw [LockRequest.lock, Prod.mk.injEq] at same
  have early : lock ∈ requests j := whole ▸ List.mem_append_left _ inside
  cases mode with
  | keyShare => cases clash
  | share => exact mode_ne_share (shaped j) early same.2
  | noKeyUpdate =>
    have shape := shaped j
    rw [whole] at shape
    exact debit_last shape inside same.1 same.2
  | update =>
    rcases update_mode (shaped j) early same.2 with ⟨workerId, claims⟩ | ⟨_, _, _, _, _, creates, _⟩
    · exact claim_outside shaped standing tied member claims
    · exact create_outside shaped standing tied member creates

/-- Everybody in a knot is a recovery that has locked some jobs and waits for the next one. -/
private theorem recovery_inside (shaped : ∀ i, Shaped (operations i) (requests i))
    (standing : Locker.Standing requests lockers) (tied : Locker.Knot lockers knot) (member : k ∈ knot) :
    ∃ locked next, operations k = .recoverStaleJobs ∧ locked ++ [next] <+: order (requests k) ∧
      (lockers k).held = (updates locked).map LockRequest.lock ∧
      ∃ j ∈ knot, (lockers j).Excludes (request (.job next) .noKeyUpdate) := by
  obtain ⟨granted, made, rest, whole, begun, held, _, j, among, _, excludes⟩ := tied.member standing member
  have mode := next_not_share shaped standing tied among excludes
  have shape := shaped k
  have one : UpdatesOne (requests k) → False := by
    intro updates
    rw [whole] at updates
    obtain ⟨⟨companyId, rfl⟩, _⟩ := updates.next begun mode
    exact next_not_debit shaped standing tied among excludes
  cases operation : operations k with
  | claimNext workerId => exact absurd operation (claim_outside shaped standing tied member)
  | createJob => exact absurd operation (create_outside shaped standing tied member)
  | recoverStaleJobs =>
    rw [operation] at shape
    obtain ⟨ids, shares, same, _, shared⟩ := shape
    have whole' := whole
    rw [same] at whole'
    -- the next request is not a share lock, so it is one of the updates
    have early : granted ++ [made] <+: updates ids := by
      rcases List.append_eq_append_iff.mp whole' with ⟨between, _, suffix⟩ | ⟨between, ids_eq, suffix⟩
      · cases between with
        | nil =>
          rw [List.nil_append] at suffix
          exact absurd (shared made (by rw [suffix]; exact List.mem_cons_self)) mode
        | cons _ _ => exact absurd (shared made (by rw [suffix]; simp)) mode
      · cases between with
        | nil =>
          rw [List.nil_append] at suffix
          exact absurd (shared made (by rw [← suffix]; exact List.mem_cons_self)) mode
        | cons first more =>
          rw [List.cons_append, List.cons.injEq] at suffix
          exact ⟨more, by rw [ids_eq, suffix.1]; simp⟩
    obtain ⟨more, grown⟩ := early
    obtain ⟨before, after, rfl, front, back⟩ := List.map_eq_append_iff.mp grown.symm
    obtain ⟨locked, last, rfl, rfl, only⟩ := List.map_eq_append_iff.mp front
    obtain ⟨next, tail, rfl, rfl, none⟩ := List.map_eq_cons_iff.mp only
    rw [List.map_eq_nil_iff] at none
    subst none
    refine ⟨locked, next, rfl, ?_, held, j, among, excludes⟩
    rw [same, order_recovery shared]
    exact List.prefix_append _ _
  | _ =>
    rw [operation] at shape
    exact (one shape).elim

/-- A knot is a crossing of the orders of its recoveries. -/
private theorem crossing_of_knot (shaped : ∀ i, Shaped (operations i) (requests i))
    (standing : Locker.Standing requests lockers) (tied : Locker.Knot lockers knot) :
    Crossing operations requests := by
  have finite : knot.Finite := by
    refine standing.finite.subset fun k member => ?_
    obtain ⟨granted, _, _, _, begun, held, _⟩ := tied.member standing member
    rw [Set.mem_ofPred_eq, held]
    simpa using begun
  choose! locked next recovers early held waits using
    fun k (member : k ∈ knot) => recovery_inside shaped standing tied member
  have mem_held : ∀ k ∈ knot, ∀ id mode, (Resource.job id, mode) ∈ (lockers k).held ↔
      id ∈ locked k ∧ mode = .noKeyUpdate := by
    intro k member id mode
    rw [held k member]
    simp [updates, request, LockRequest.lock, eq_comm]
  refine ⟨finite.toFinset, locked, next, by simpa using tied.nonempty, ?_, ?_, ?_⟩
  · intro k member
    rw [Set.Finite.mem_toFinset] at member
    exact ⟨recovers k member, early k member⟩
  · intro k member
    rw [Set.Finite.mem_toFinset] at member
    obtain ⟨j, among, mode, holds, _⟩ := waits k member
    exact ⟨j, finite.mem_toFinset.mpr among, ((mem_held j among _ _).mp holds).1⟩
  · intro i member j member' distinct id inside inside'
    rw [Set.Finite.mem_toFinset] at member member'
    have fine := standing.apart i j distinct _ _ _ ((mem_held i member id _).mpr ⟨inside, rfl⟩)
      ((mem_held j member' id _).mpr ⟨inside', rfl⟩)
    cases fine

end Knot

section Runs

variable [DecidableEq ι] {operations : ι → Operation} {requests : ι → List (LockRequest Resource)}

/-- Recoveries whose orders cross can lock their jobs up to the crossing. -/
private theorem deadlocked_of_crossing (shaped : ∀ i, Shaped (operations i) (requests i))
    (crossing : Crossing operations requests) : ∃ lockers, Locker.Reaches requests lockers ∧ Locker.Deadlocked lockers := by
  obtain ⟨members, locked, next, nonempty, orders, waits, disjoint⟩ := crossing
  have splits : ∀ i ∈ members, next i ∉ locked i ∧ ∃ rest,
      requests i = updates (locked i) ++ request (.job (next i)) .noKeyUpdate :: rest := by
    intro i member
    obtain ⟨recovers, early⟩ := orders i member
    have shape := shaped i
    rw [recovers] at shape
    obtain ⟨ids, shares, same, distinct, shared⟩ := shape
    rw [same, order_recovery shared] at early
    obtain ⟨more, rfl⟩ := early
    refine ⟨fun inside => ?_, updates more ++ shares, by rw [same]; simp [updates]⟩
    have apart := (List.nodup_append.mp (List.nodup_append.mp distinct).1).2.2
    exact apart _ inside _ (List.mem_singleton_self _) rfl
  choose! rest whole using fun i member => (splits i member).2
  obtain ⟨lockers, reached, inside, _⟩ := Locker.reaches_granted requests members (fun i => updates (locked i))
    (fun i => request (.job (next i)) .noKeyUpdate :: rest i) whole (by
      intro i member j member' distinct made first other second same
      obtain ⟨id, among, rfl⟩ := mem_updates.mp first
      obtain ⟨id', among', rfl⟩ := mem_updates.mp second
      cases same
      exact absurd among' (disjoint i member j member' distinct among))
  refine ⟨lockers, reached, Locker.deadlocked_of_finite members.finite_toSet nonempty ?_⟩
  intro i member
  obtain ⟨j, member', holds⟩ := waits i member
  refine ⟨j, member', ?_, request (.job (next i)) .noKeyUpdate, rest i, by rw [inside i member], rfl, .noKeyUpdate, ?_, rfl⟩
  · rintro rfl
    exact (splits i member).1 holds
  · rw [inside j member']
    exact List.mem_map.mpr ⟨request (.job (next i)) .noKeyUpdate, mem_updates.mpr ⟨_, holds, rfl⟩, rfl⟩

/-- What a recovery of two jobs of a company asks for. -/
def recovery (first second : ℕ) : List (LockRequest Resource) :=
  updates [first, second] ++ (eventKeys first 1 ++ eventKeys second 1)

private theorem recovery_asks {first second : ℕ} (distinct : first ≠ second) :
    Operation.recoverStaleJobs.Asks (recovery first second) := by
  let stale : List StaleJob := [⟨first, 1, "report", none, 1⟩, ⟨second, 1, "report", none, 1⟩]
  refine ⟨none, .inl ⟨(), [], _, rfl, .inl ⟨stale, updates [first, second], _, ?_, ?_, rfl⟩, rfl⟩⟩
  · exact ⟨[first, second], by simpa using distinct, by simp [stale], rfl⟩
  · exact .inl ⟨(), _, _, .inl rfl, .inl ⟨(), _, [], .inl rfl, ⟨rfl, rfl⟩, (List.append_nil _).symm⟩, rfl⟩

def oppositeRecoveries : Bool → List (LockRequest Resource)
  | false => recovery 1 2
  | true => recovery 2 1

/-- Two recoveries that take jobs 1 and 2 in opposite orders wait for each other. -/
theorem recoveries_deadlock :
    (∀ i, Operation.recoverStaleJobs.Asks (oppositeRecoveries i)) ∧
    ∃ lockers, Locker.Reaches oppositeRecoveries lockers ∧ Locker.Deadlocked lockers := by
  have asks : ∀ i, Operation.recoverStaleJobs.Asks (oppositeRecoveries i) := by
    intro i
    cases i with
    | false => exact recovery_asks (by decide)
    | true => exact recovery_asks (by decide)
  refine ⟨asks, deadlocked_of_crossing (fun i => Operation.shaped (asks i)) ?_⟩
  refine ⟨Finset.univ, fun i => [if i then 2 else 1], fun i => if i then 1 else 2, Finset.univ_nonempty, ?_,
    by decide, ?_⟩
  · intro i _
    cases i with
    | false => exact ⟨rfl, by decide⟩
    | true => exact ⟨rfl, by decide⟩
  · intro i _ j _ distinct
    cases i <;> cases j <;> simp at distinct ⊢

/-- However many of the nine transactions are open, no interleaving comes to a cycle of transactions each
waiting for the next, exactly if the orders in which the recoveries among them lock their jobs do not cross. -/
theorem no_deadlock_iff (asks : ∀ i, (operations i).Asks (requests i)) :
    (∀ lockers, Locker.Reaches requests lockers → ¬Locker.Deadlocked lockers) ↔ ¬Crossing operations requests := by
  have shaped : ∀ i, Shaped (operations i) (requests i) := fun i => Operation.shaped (asks i)
  constructor
  · intro free crossing
    obtain ⟨lockers, reached, deadlocked⟩ := deadlocked_of_crossing shaped crossing
    exact free lockers reached deadlocked
  · intro parallel lockers reached deadlocked
    obtain ⟨knot, tied⟩ := deadlocked.knot
    exact parallel (crossing_of_knot shaped reached.standing tied)

omit [DecidableEq ι] in
/-- Recoveries that lock their jobs in the order of their ids do not cross. -/
theorem not_crossing_of_sorted
    (sorted : ∀ i, operations i = .recoverStaleJobs → (order (requests i)).Pairwise (· < ·)) :
    ¬Crossing operations requests := by
  rintro ⟨members, locked, next, nonempty, orders, waits, _⟩
  obtain ⟨i, member, largest⟩ := members.exists_max_image next nonempty
  obtain ⟨j, member', inside⟩ := waits i member
  obtain ⟨recovers, early⟩ := orders j member'
  have ascending := (List.pairwise_append.mp ((sorted j recovers).sublist early.sublist)).2.2
  exact absurd (ascending _ inside _ (List.mem_singleton_self _)) (largest j member').not_gt

theorem no_deadlock_office :
    ¬∃ lockers, Locker.Reaches (fun _ : ℕ => recovery 1 2) lockers ∧ Locker.Deadlocked lockers := by
  rintro ⟨lockers, reached, deadlocked⟩
  have free := (@no_deadlock_iff ℕ _ (fun _ => .recoverStaleJobs) (fun _ => recovery 1 2) fun _ =>
    recovery_asks (by decide)).mpr (not_crossing_of_sorted fun _ _ => by decide)
  exact free lockers reached deadlocked

end Runs

end JobRelay.Guarantees
