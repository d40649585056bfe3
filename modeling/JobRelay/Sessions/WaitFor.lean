import JobRelay.Sessions.Locks
import JobRelay.Sessions.Program
import Mathlib.Data.Set.Finite.Lattice
import Mathlib.Data.Fintype.Pigeonhole
import Mathlib.Logic.Relation
import Mathlib.Logic.Function.Iterate

/-! # Transactions that wait for each other

Each transaction makes a sequence of lock requests, one at a time. A request is granted when no other
transaction holds the resource in a conflicting mode, and the locks are held until the transaction ends, which
it may at any time. A request under `SKIP LOCKED` never waits. A deadlock is a cycle of transactions each
waiting for the next.
-/

namespace JobRelay.Sessions

/-- A request for a lock; `skips` is `SKIP LOCKED`. -/
structure LockRequest (R : Type*) where
  resource : R
  mode : LockMode
  skips : Bool
deriving DecidableEq

variable {R ι : Type*}

/-- The lock that a granted request holds. -/
def LockRequest.lock (request : LockRequest R) : R × LockMode := (request.resource, request.mode)

/-- The locks that a transaction holds, and the requests that it has still to make. -/
structure Locker (R : Type*) where
  held : LockSet R
  left : List (LockRequest R)

namespace Locker

/-- The transaction holds a lock that excludes the request. -/
def Excludes (locker : Locker R) (request : LockRequest R) : Prop :=
  ∃ mode, (request.resource, mode) ∈ locker.held ∧ mode.conflicts request.mode = true

/-- No transaction has made a request. -/
def start (requests : ι → List (LockRequest R)) : ι → Locker R := fun i => ⟨[], requests i⟩

variable [DecidableEq ι]

/-- One transaction is granted its next lock, or ends and releases all it holds. -/
inductive Step (lockers : ι → Locker R) : (ι → Locker R) → Prop
  | grant (i : ι) (request : LockRequest R) (rest : List (LockRequest R))
      (next : (lockers i).left = request :: rest) (free : ∀ j, j ≠ i → ¬(lockers j).Excludes request) :
      Step lockers (Function.update lockers i ⟨(lockers i).held ++ [request.lock], rest⟩)
  | finish (i : ι) : Step lockers (Function.update lockers i ⟨[], []⟩)

/-- Any interleaving of the transactions. -/
abbrev Reaches (requests : ι → List (LockRequest R)) : (ι → Locker R) → Prop :=
  Relation.ReflTransGen Step (start requests)

omit [DecidableEq ι] in
/-- A transaction waits for another one to release what its next request needs. -/
def Waits (lockers : ι → Locker R) (i j : ι) : Prop :=
  i ≠ j ∧ ∃ request rest, (lockers i).left = request :: rest ∧ request.skips = false ∧
    (lockers j).Excludes request

/-- A cycle of transactions each waiting for the next. -/
def Deadlocked (lockers : ι → Locker R) : Prop := ∃ i, Relation.TransGen (Waits lockers) i i

/-- Transactions each of which waits for one of them, and is waited for by one of them. -/
structure Knot (lockers : ι → Locker R) (knot : Set ι) : Prop where
  nonempty : knot.Nonempty
  waits : ∀ i ∈ knot, ∃ j ∈ knot, Waits lockers i j
  blocks : ∀ j ∈ knot, ∃ i ∈ knot, Waits lockers i j

omit [DecidableEq ι] in
/-- The transactions of a cycle are a knot. -/
theorem Deadlocked.knot {lockers : ι → Locker R} (deadlocked : Deadlocked lockers) : ∃ knot, Knot lockers knot := by
  obtain ⟨i, cycle⟩ := deadlocked
  refine ⟨{k | Relation.TransGen (Waits lockers) i k ∧ Relation.TransGen (Waits lockers) k i}, ⟨i, cycle, cycle⟩, ?_, ?_⟩
  · rintro k ⟨onto, back⟩
    obtain ⟨j, waits, rest⟩ := Relation.TransGen.head'_iff.mp back
    rcases Relation.reflTransGen_iff_eq_or_transGen.mp rest with rfl | rest
    · exact ⟨i, ⟨cycle, cycle⟩, waits⟩
    · exact ⟨j, ⟨onto.tail waits, rest⟩, waits⟩
  · rintro k ⟨onto, back⟩
    obtain ⟨j, rest, waits⟩ := Relation.TransGen.tail'_iff.mp onto
    rcases Relation.reflTransGen_iff_eq_or_transGen.mp rest with rfl | rest
    · exact ⟨j, ⟨cycle, cycle⟩, waits⟩
    · exact ⟨j, ⟨rest, back.head waits⟩, waits⟩

omit [DecidableEq ι] in
/-- Finitely many transactions each of which waits for one of them are deadlocked. -/
theorem deadlocked_of_finite {lockers : ι → Locker R} {members : Set ι} (finite : members.Finite)
    (nonempty : members.Nonempty) (waits : ∀ i ∈ members, ∃ j ∈ members, Waits lockers i j) :
    Deadlocked lockers := by
  have := finite.to_subtype
  choose! next inside waits using waits
  let follow : members → members := fun i => ⟨next i, inside i i.2⟩
  obtain ⟨first, member⟩ := nonempty
  obtain ⟨m, n, apart, same⟩ := Finite.exists_ne_map_eq_of_infinite fun n => follow^[n] ⟨first, member⟩
  have path : ∀ k (i : members), 0 < k → Relation.TransGen (Waits lockers) i (follow^[k] i) := by
    intro k i positive
    induction k, positive using Nat.le_induction with
    | base => exact .single (waits i i.2)
    | succ k _ ih =>
      rw [Function.iterate_succ_apply']
      exact ih.tail (waits _ (follow^[k] i).2)
  wlog ordered : m < n generalizing m n
  · exact this n m apart.symm same.symm (by omega)
  refine ⟨(follow^[m] ⟨first, member⟩ : members), ?_⟩
  have cycle := path (n - m) (follow^[m] ⟨first, member⟩) (by omega)
  rw [← Function.iterate_add_apply, Nat.sub_add_cancel ordered.le] at cycle
  simpa only [← same] using cycle

/-- How far every transaction is: it holds what it was granted so far, or it has ended. -/
structure Standing (requests : ι → List (LockRequest R)) (lockers : ι → Locker R) : Prop where
  split : ∀ i, (∃ granted, requests i = granted ++ (lockers i).left ∧
    (lockers i).held = granted.map LockRequest.lock) ∨ lockers i = ⟨[], []⟩
  apart : ∀ i j, i ≠ j → ∀ resource mode other, (resource, mode) ∈ (lockers i).held →
    (resource, other) ∈ (lockers j).held → mode.conflicts other = false
  finite : {i | (lockers i).held ≠ []}.Finite

variable {requests : ι → List (LockRequest R)} {lockers next : ι → Locker R}

private theorem Standing.grant (standing : Standing requests lockers) {i : ι} {request : LockRequest R}
    {rest : List (LockRequest R)} (left : (lockers i).left = request :: rest)
    (free : ∀ j, j ≠ i → ¬(lockers j).Excludes request) :
    Standing requests (Function.update lockers i ⟨(lockers i).held ++ [request.lock], rest⟩) where
  split k := by
    by_cases same : k = i
    · subst same
      rcases standing.split k with ⟨granted, whole, held⟩ | ended
      · refine .inl ⟨granted ++ [request], ?_, ?_⟩
        · rw [whole, left]
          simp
        · simp [held]
      · rw [ended] at left
        cases left
    · rw [Function.update_of_ne same]
      exact standing.split k
  apart := by
    have origin : ∀ k resource mode,
        (resource, mode) ∈ (Function.update lockers i ⟨(lockers i).held ++ [request.lock], rest⟩ k).held →
        (resource, mode) ∈ (lockers k).held ∨ (k = i ∧ resource = request.resource ∧ mode = request.mode) := by
      intro k resource mode member
      by_cases same : k = i
      · subst same
        rw [Function.update_self] at member
        simpa [LockRequest.lock] using member
      · rw [Function.update_of_ne same] at member
        exact .inl member
    have new : ∀ j, j ≠ i → ∀ other, (request.resource, other) ∈ (lockers j).held →
        other.conflicts request.mode = false := by
      intro j other mode member
      by_contra clash
      exact free j other ⟨mode, member, by simpa using clash⟩
    intro k l distinct resource mode other member member'
    rcases origin k _ _ member with old | ⟨rfl, rfl, rfl⟩ <;> rcases origin l _ _ member' with old' | ⟨rfl, same, rfl⟩
    · exact standing.apart k l distinct resource mode other old old'
    · rw [same] at old
      exact new k distinct mode old
    · rw [LockMode.conflicts_comm]
      exact new l distinct.symm other old'
    · exact absurd rfl distinct
  finite := by
    refine (standing.finite.insert i).subset fun k holds => ?_
    by_cases same : k = i
    · exact .inl same
    · rw [Set.mem_ofPred_eq, Function.update_of_ne same] at holds
      exact .inr holds

private theorem Standing.finish (standing : Standing requests lockers) (i : ι) :
    Standing requests (Function.update lockers i ⟨[], []⟩) where
  split k := by
    by_cases same : k = i
    · subst same
      exact .inr (Function.update_self ..)
    · rw [Function.update_of_ne same]
      exact standing.split k
  apart := by
    have shrinks : ∀ k held, held ∈ (Function.update lockers i ⟨[], []⟩ k).held → held ∈ (lockers k).held := by
      intro k held member
      by_cases same : k = i
      · subst same
        rw [Function.update_self] at member
        cases member
      · rwa [Function.update_of_ne same] at member
    intro k l distinct resource mode other member member'
    exact standing.apart k l distinct resource mode other (shrinks _ _ member) (shrinks _ _ member')
  finite := by
    refine standing.finite.subset fun k holds => ?_
    by_cases same : k = i
    · subst same
      rw [Set.mem_ofPred_eq, Function.update_self] at holds
      exact absurd rfl holds
    · rwa [Set.mem_ofPred_eq, Function.update_of_ne same] at holds

/-- A step keeps the standing. -/
theorem Standing.step (standing : Standing requests lockers) (stepped : Step lockers next) :
    Standing requests next := by
  cases stepped with
  | grant i request rest left free => exact standing.grant left free
  | finish i => exact standing.finish i

/-- Every interleaving keeps it. -/
theorem Reaches.standing (reached : Reaches requests lockers) : Standing requests lockers := by
  induction reached with
  | refl => exact ⟨fun i => .inl ⟨[], rfl, rfl⟩, fun _ _ _ _ _ _ member => (by cases member), by simp [start]⟩
  | tail _ stepped standing => exact standing.step stepped

omit [DecidableEq ι] in
/-- A transaction of a knot holds something, and its next request is excluded by another one of the knot. -/
theorem Knot.member {knot : Set ι} (tied : Knot lockers knot) (standing : Standing requests lockers) {k : ι}
    (member : k ∈ knot) : ∃ granted made rest, requests k = granted ++ made :: rest ∧ granted ≠ [] ∧
      (lockers k).held = granted.map LockRequest.lock ∧ (lockers k).left = made :: rest ∧
      ∃ j ∈ knot, j ≠ k ∧ (lockers j).Excludes made := by
  obtain ⟨j, inside, apart, made, rest, left, _, excludes⟩ := tied.waits k member
  obtain ⟨_, _, _, _, _, _, _, mode, holds, _⟩ := tied.blocks k member
  rcases standing.split k with ⟨granted, whole, held⟩ | ended
  · rw [left] at whole
    refine ⟨granted, made, rest, whole, ?_, held, left, j, inside, apart.symm, excludes⟩
    rintro rfl
    rw [held] at holds
    cases holds
  · rw [ended] at left
    cases left

/-- A transaction alone is granted all that nobody holds. -/
private theorem grants (i : ι) {granted : List (LockRequest R)} (rest : List (LockRequest R))
    (free : ∀ request ∈ granted, ∀ j, j ≠ i → ¬(lockers j).Excludes request) (held : LockSet R) :
    Relation.ReflTransGen Step (Function.update lockers i ⟨held, granted ++ rest⟩)
      (Function.update lockers i ⟨held ++ granted.map LockRequest.lock, rest⟩) := by
  induction granted generalizing held with
  | nil =>
    rw [List.nil_append, List.map_nil, List.append_nil]
  | cons request granted ih =>
    have step : Step (Function.update lockers i ⟨held, request :: granted ++ rest⟩)
        (Function.update lockers i ⟨held ++ [request.lock], granted ++ rest⟩) := by
      have granting := @Step.grant _ _ _ (Function.update lockers i ⟨held, request :: granted ++ rest⟩) i
        request (granted ++ rest) (by simp) fun j other => by
          rw [Function.update_of_ne other]
          exact free request List.mem_cons_self j other
      simpa using granting
    have onward := ih (fun request member => free request (List.mem_cons_of_mem _ member)) (held ++ [request.lock])
    rw [List.append_assoc] at onward
    exact .head step onward

/-- Transactions that do not exclude each other reach any point of their sequences together. -/
theorem reaches_granted (requests : ι → List (LockRequest R)) (members : Finset ι)
    (granted rest : ι → List (LockRequest R)) (whole : ∀ i ∈ members, requests i = granted i ++ rest i)
    (apart : ∀ i ∈ members, ∀ j ∈ members, i ≠ j → ∀ request ∈ granted i, ∀ other ∈ granted j,
      request.resource = other.resource → other.mode.conflicts request.mode = false) :
    ∃ lockers, Reaches requests lockers ∧
      (∀ i ∈ members, lockers i = ⟨(granted i).map LockRequest.lock, rest i⟩) ∧
      ∀ i ∉ members, lockers i = start requests i := by
  induction members using Finset.induction_on with
  | empty => exact ⟨start requests, .refl, by simp, fun _ _ => rfl⟩
  | insert i members outside ih =>
    obtain ⟨lockers, reached, inside, others⟩ := ih (fun j member => whole j (Finset.mem_insert_of_mem member))
      fun j member k member' => apart j (Finset.mem_insert_of_mem member) k (Finset.mem_insert_of_mem member')
    have here : lockers i = ⟨[], granted i ++ rest i⟩ := by
      rw [others i outside, start, whole i (Finset.mem_insert_self i members)]
    have free : ∀ request ∈ granted i, ∀ j, j ≠ i → ¬(lockers j).Excludes request := by
      rintro request member j other ⟨mode, holds, clash⟩
      by_cases among : j ∈ members
      · rw [inside j among, List.mem_map] at holds
        obtain ⟨earlier, member', same⟩ := holds
        rw [LockRequest.lock, Prod.mk.injEq] at same
        have fine := apart i (Finset.mem_insert_self i members) j (Finset.mem_insert_of_mem among) other.symm
          request member earlier member' same.1.symm
        rw [same.2, clash] at fine
        exact Bool.noConfusion fine
      · rw [others j among] at holds
        cases holds
    have granting := grants i (rest i) free []
    rw [← here, Function.update_eq_self] at granting
    refine ⟨_, reached.trans granting, fun j member => ?_, fun j beyond => ?_⟩
    · by_cases same : j = i
      · subst same
        rw [Function.update_self, List.nil_append]
      · rw [Function.update_of_ne same]
        exact inside j (Finset.mem_of_mem_insert_of_ne member same)
    · rw [Finset.mem_insert, not_or] at beyond
      rw [Function.update_of_ne beyond.1]
      exact others j beyond.2

end Locker

namespace Program

variable {Q : Type} {Ans : Q → Type} {X E L A B : Type}

section Asks

variable (requests : (q : Q) → Ans q → List (LockRequest R) → Prop)

/-- The lock requests that a program makes until its transaction ends, and how the program ends if it does
without that. A statement that fails may have made any of its requests; the transaction then ends. -/
def Asks : Program Q Ans X E L A → List (LockRequest R) → Option (Except E A) → Prop
  | .ret value, asked, result => asked = [] ∧ result = some (.ok value)
  | .raise error, asked, result => asked = [] ∧ result = some (.error error)
  | .query q next, asked, result =>
      (∃ answer first rest, requests q answer first ∧ (next (.ok answer)).Asks rest result ∧ asked = first ++ rest) ∨
        ∃ error, (next (.error error)).Asks asked result
  | .commit _ _, asked, result | .rollback _ _, asked, result => asked = [] ∧ result = none
  | .publish _ next, asked, result => next.Asks asked result
  | .await next, asked, result => ∃ choice, (next choice).Asks asked result

end Asks

variable {requests : (q : Q) → Ans q → List (LockRequest R) → Prop} {asked : List (LockRequest R)}

/-- What a program asks for before and after it is bound. -/
theorem Asks.bind {program : Program Q Ans X E L A} {next : A → Program Q Ans X E L B}
    {result : Option (Except E B)} (asks : (program.bind next).Asks requests asked result) :
    ∃ first middle, program.Asks requests first middle ∧ match middle with
      | some (.ok value) => ∃ rest, (next value).Asks requests rest result ∧ asked = first ++ rest
      | some (.error error) => asked = first ∧ result = some (.error error)
      | none => asked = first ∧ result = none := by
  induction program generalizing asked with
  | ret value => exact ⟨[], some (.ok value), ⟨rfl, rfl⟩, asked, asks, rfl⟩
  | raise error => exact ⟨[], some (.error error), ⟨rfl, rfl⟩, asks⟩
  | query q rest ih =>
    rcases asks with ⟨answer, first, later, sends, asks, rfl⟩ | ⟨error, asks⟩
    · obtain ⟨second, middle, before, after⟩ := ih _ asks
      refine ⟨first ++ second, middle, .inl ⟨answer, first, second, sends, before, rfl⟩, ?_⟩
      match middle, after with
      | some (.ok value), ⟨rest, asks, same⟩ => exact ⟨rest, asks, by rw [same, List.append_assoc]⟩
      | some (.error error), ⟨same, raised⟩ => exact ⟨by rw [same], raised⟩
      | none, ⟨same, ended⟩ => exact ⟨by rw [same], ended⟩
    · obtain ⟨second, middle, before, after⟩ := ih _ asks
      exact ⟨second, middle, .inr ⟨error, before⟩, after⟩
  | commit label rest ih | rollback label rest ih => exact ⟨[], none, ⟨rfl, rfl⟩, asks⟩
  | publish label rest ih => exact ih asks
  | await rest ih =>
    obtain ⟨choice, asks⟩ := asks
    obtain ⟨second, middle, before, after⟩ := ih choice asks
    exact ⟨second, middle, ⟨choice, before⟩, after⟩

/-- What a program asks for before and after its exceptions are handled. -/
theorem Asks.handle {program : Program Q Ans X E L A} {handler : E → Program Q Ans X E L A}
    {result : Option (Except E A)} (asks : (program.handle handler).Asks requests asked result) :
    ∃ first middle, program.Asks requests first middle ∧ match middle with
      | some (.ok value) => asked = first ∧ result = some (.ok value)
      | some (.error error) => ∃ rest, (handler error).Asks requests rest result ∧ asked = first ++ rest
      | none => asked = first ∧ result = none := by
  induction program generalizing asked with
  | ret value => exact ⟨[], some (.ok value), ⟨rfl, rfl⟩, asks⟩
  | raise error => exact ⟨[], some (.error error), ⟨rfl, rfl⟩, asked, asks, rfl⟩
  | query q rest ih =>
    rcases asks with ⟨answer, first, later, sends, asks, rfl⟩ | ⟨error, asks⟩
    · obtain ⟨second, middle, before, after⟩ := ih _ asks
      refine ⟨first ++ second, middle, .inl ⟨answer, first, second, sends, before, rfl⟩, ?_⟩
      match middle, after with
      | some (.error error), ⟨rest, asks, same⟩ => exact ⟨rest, asks, by rw [same, List.append_assoc]⟩
      | some (.ok value), ⟨same, returned⟩ => exact ⟨by rw [same], returned⟩
      | none, ⟨same, ended⟩ => exact ⟨by rw [same], ended⟩
    · obtain ⟨second, middle, before, after⟩ := ih _ asks
      exact ⟨second, middle, .inr ⟨error, before⟩, after⟩
  | commit label rest ih | rollback label rest ih => exact ⟨[], none, ⟨rfl, rfl⟩, asks⟩
  | publish label rest ih => exact ih asks
  | await rest ih =>
    obtain ⟨choice, asks⟩ := asks
    obtain ⟨second, middle, before, after⟩ := ih choice asks
    exact ⟨second, middle, ⟨choice, before⟩, after⟩

/-- One statement asks for what it needs, or fails. -/
theorem Asks.exec {q : Q} {result : Option (Except E (Ans q))}
    (asks : (Program.exec q : Program Q Ans X E L (Ans q)).Asks requests asked result) :
    (∃ answer, requests q answer asked ∧ result = some (.ok answer)) ∨ asked = [] ∧ ∃ error, result = some (.error error) := by
  rcases asks with ⟨answer, first, rest, sends, ⟨rfl, returned⟩, rfl⟩ | ⟨error, rfl, raised⟩
  · exact .inl ⟨answer, by rwa [List.append_nil], returned⟩
  · exact .inr ⟨rfl, error, raised⟩

/-- A transaction block asks for what its body asks for. -/
theorem Asks.transaction {body : Program Q Ans X E L A} {committed : A → L} {aborted : E → L}
    {result : Option (Except E A)} (asks : (body.transaction committed aborted).Asks requests asked result) :
    ∃ middle, body.Asks requests asked middle := by
  obtain ⟨first, middle, handled, after⟩ := asks.bind
  obtain ⟨second, inner, before, handling⟩ := handled.handle
  have same : first = second := by
    rcases inner with _ | error | value
    · exact handling.1
    · obtain ⟨rest, ⟨rfl, _⟩, same⟩ := handling
      rw [same, List.append_nil]
    · exact handling.1
  subst same
  refine ⟨inner, ?_⟩
  rcases middle with _ | error | value
  · rwa [after.1]
  · rwa [after.1]
  · obtain ⟨rest, ⟨rfl, _⟩, same⟩ := after
    rwa [same, List.append_nil]

/-- A statement followed by the rest of the program. -/
theorem Asks.exec_bind {q : Q} {next : Ans q → Program Q Ans X E L B} {result : Option (Except E B)}
    (asks : ((Program.exec q).bind next).Asks requests asked result) :
    (∃ answer first rest, requests q answer first ∧ (next answer).Asks requests rest result ∧
      asked = first ++ rest) ∨ asked = [] := by
  obtain ⟨first, middle, sends, after⟩ := asks.bind
  rcases sends.exec with ⟨answer, sent, rfl⟩ | ⟨rfl, error, rfl⟩
  · obtain ⟨rest, asked, same⟩ := after
    exact .inl ⟨answer, first, rest, sent, asked, same⟩
  · exact .inr after.1

/-- Every request of the program has the property. -/
def AsksOnly (requests : (q : Q) → Ans q → List (LockRequest R) → Prop) (P : LockRequest R → Prop)
    (program : Program Q Ans X E L A) : Prop :=
  ∀ asked result, program.Asks requests asked result → ∀ request ∈ asked, P request

section AsksOnly

variable {P : LockRequest R → Prop}

theorem AsksOnly.ret (value : A) : (Program.ret value : Program Q Ans X E L A).AsksOnly requests P := by
  rintro _ _ ⟨rfl, _⟩ request member
  cases member

theorem AsksOnly.raise (error : E) : (Program.raise error : Program Q Ans X E L A).AsksOnly requests P := by
  rintro _ _ ⟨rfl, _⟩ request member
  cases member

theorem AsksOnly.exec {q : Q} (sends : ∀ answer asked, requests q answer asked → ∀ request ∈ asked, P request) :
    (Program.exec q : Program Q Ans X E L (Ans q)).AsksOnly requests P := by
  intro asked result asks request member
  rcases asks.exec with ⟨answer, sent, _⟩ | ⟨rfl, _⟩
  · exact sends answer asked sent request member
  · cases member

theorem AsksOnly.bind {program : Program Q Ans X E L A} {next : A → Program Q Ans X E L B}
    (before : program.AsksOnly requests P) (after : ∀ value, (next value).AsksOnly requests P) :
    (program.bind next).AsksOnly requests P := by
  intro asked result asks request member
  obtain ⟨first, middle, sends, rest⟩ := asks.bind
  rcases middle with _ | error | value
  · exact before first _ sends request (rest.1 ▸ member)
  · exact before first _ sends request (rest.1 ▸ member)
  · obtain ⟨later, asked, rfl⟩ := rest
    rcases List.mem_append.mp member with early | late
    · exact before first _ sends request early
    · exact after value later result asked request late

end AsksOnly

end Program

end JobRelay.Sessions
