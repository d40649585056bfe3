import Mathlib.Data.String.Basic
import JobRelay.Model.Migrations
import JobRelay.Sessions.Machine

/-! # The order of rolling back

The versions in force form a stack, which `run_migrations` piles up in the order of the file names and
`rollback_migrations` should unpile. It takes the versions from the end of the ledger in the order of the
database instead, so it unpiles exactly the stacks whose top versions are each greater than all below.
-/

namespace JobRelay.Guarantees

open Model.Migrations Sessions

variable {S : Type*} {directory : Directory} {statements : String → List S} {collate : String → String → Bool}

section Purpose

/-- A call that returned. -/
structure MigrationCall where
  directory : Directory
  command : Command
  result : List String

/-- The versions in force after a call, the newest first. -/
def MigrationCall.stack (call : MigrationCall) (stack : List String) : List String :=
  match call.command with
  | .runMigrations => call.result.reverse ++ stack
  | .rollbackMigrations _ => stack.filter (· ∉ call.result)

/-- The versions in force after calls on an empty ledger. -/
def stackOf (calls : List MigrationCall) : List String := calls.foldl (fun stack call => call.stack stack) []

/-- Each of the first versions of a stack is greater than all that are below it. -/
def Ascending : ℕ → List String → Prop
  | 0, _ => True
  | _ + 1, [] => True
  | k + 1, version :: older => (∀ other ∈ older, other < version) ∧ Ascending k older

/-- A process makes a call and its call returns, while no other runner is connected. -/
def CallReturns (statements : String → List S) (collate : String → String → Bool) (call : MigrationCall)
    (contents after : Contents S) : Prop :=
  ∃ outcomes : List Outcome, ∃ s session,
    Machine.run (step call.directory statements collate) (initial contents)
      (.start call.command :: outcomes.map (.run 0)) = some s ∧
    s.sessions = [session] ∧ session.line = .ended false ∧ session.result = call.result ∧ s.committed = after

/-- Calls that returned, one after the other. -/
inductive Returned (statements : String → List S) (collate : String → String → Bool) (start : Contents S) :
    List MigrationCall → Contents S → Prop where
  | none : Returned statements collate start [] start
  | next {calls : List MigrationCall} {contents after : Contents S} (call : MigrationCall)
      (earlier : Returned statements collate start calls contents)
      (returns : CallReturns statements collate call contents after) :
      Returned statements collate start (calls ++ [call]) after

end Purpose

section Ledgers

/-- The versions after a version was applied or reverted. -/
def inForce : Direction → List String → String → List String
  | .up, versions, version => versions ++ [version]
  | .down, versions, version => versions.filter (· ≠ version)

variable {contents other : Contents S} {changes : List (Change S)}

private theorem change_ledger (same : contents.ledger = other.ledger) (change : Change S) :
    (contents.change change).ledger = (other.change change).ledger := by
  cases change <;> simp [Contents.change, same]

/-- What is in the ledger does not depend on the schema. -/
private theorem view_ledger (same : contents.ledger = other.ledger) :
    (contents.view changes).ledger = (other.view changes).ledger := by
  induction changes generalizing contents other with
  | nil => exact same
  | cons change rest ih => exact ih (change_ledger same change)

private theorem execute_ledger (piece : List S) : (contents.view (piece.map .execute)).ledger = contents.ledger := by
  induction piece generalizing contents with
  | nil => rfl
  | cons statement rest ih => exact ih

private theorem versions_of_ledger (same : contents.ledger = other.ledger) : contents.versions = other.versions := by
  rw [Contents.versions, Contents.versions, same]

/-- What a session sees after one more change. -/
private theorem view_concat (change : Change S) :
    contents.view (changes ++ [change]) = (contents.view changes).change change := by
  rw [Contents.view, Contents.view, List.foldl_append]
  rfl

private theorem record_versions {step : Step} (recordable : step.Recordable contents) :
    (contents.change step.record).versions = inForce step.direction contents.versions step.version := by
  obtain ⟨direction, version⟩ := step
  cases direction with
  | up =>
    have new : version ∉ contents.versions := recordable.2 rfl
    change ((contents.ledger.getD .empty).insert version).versions = _
    exact congrArg Ledger.versions (dif_neg new)
  | down => rfl

end Ledgers

section Progress

/-- How far the call of a session is, from the versions that it found. -/
def Progress (directory : Directory) (collate : String → String → Bool) (start : List String) (s : State S)
    (session : Session S) : Prop :=
  let todo := (session.command.todo directory (start.insertionSort fun a b => collate a b)).map Item.version
  let after (result : List String) := result.foldl (inForce session.command.direction) start
  let seen := (s.committed.view session.changes).versions
  match session.line with
  | .lock | .commitLock _ | .ensureLedger | .selectVersions => session.result = [] ∧ seen = start
  | .next rest => session.result ++ rest.map Item.version = todo ∧ seen = after session.result
  | .execute version _ rest | .commitFirst version _ rest | .autocommit version _ rest | .record version rest =>
      session.result ++ version :: rest.map Item.version = todo ∧ seen = after session.result
  | .commit version rest | .append version rest =>
      session.result ++ version :: rest.map Item.version = todo ∧ seen = after (session.result ++ [version])
  | .unlock false | .commitUnlock false => session.result = todo ∧ seen = after session.result
  | .close false | .ended false => session.result = todo ∧ s.committed.versions = after session.result
  | _ => True

variable {start : List String} {s next : State S} {session : Session S} {outcome : Outcome}

private theorem progress_advance (alone : s.sessions = [session]) (progress : Progress directory collate start s session)
    (stepped : advance directory statements collate s 0 session outcome = some next) :
    ∃ after, next.sessions = [after] ∧ after.command = session.command ∧
      Progress directory collate start next after := by
  have turned (after : Session S) : (s.put 0 after).sessions = [after] := by
    rw [State.put, alone]
    rfl
  obtain ⟨command, line, changes, result⟩ := session
  unfold advance at stepped
  dsimp only at stepped
  split at stepped
  case h_1 =>
    split at stepped <;> cases stepped
    · exact ⟨_, turned _, rfl, progress⟩
    · exact ⟨_, turned _, rfl, progress⟩
  case h_2 locked =>
    cases stepped
    cases locked <;> exact ⟨_, turned _, rfl, progress⟩
  case h_3 =>
    cases stepped
    exact ⟨_, turned _, rfl, progress.1, (congrArg Contents.versions (view_concat _)).trans progress.2⟩
  case h_4 =>
    cases stepped
    obtain ⟨empty, seen⟩ := progress
    dsimp only at empty seen
    subst empty
    refine ⟨_, turned _, rfl, ?_, seen⟩
    dsimp only
    rw [seen]
    rfl
  case h_5 =>
    cases stepped
    exact ⟨_, turned _, rfl, (List.append_nil _).symm.trans progress.1, progress.2⟩
  case h_6 version todo =>
    cases stepped
    refine ⟨_, turned _, rfl, ?_⟩
    unfold Item.begin
    split
    · trivial
    · split
      · exact progress
      · exact progress
  case h_8 | h_11 =>
    cases stepped
    exact ⟨_, turned _, rfl, progress⟩
  case h_9 statement rest todo =>
    cases stepped
    exact ⟨_, turned _, rfl, progress.1, (congrArg Contents.versions (view_concat _)).trans progress.2⟩
  case h_10 | h_14 =>
    cases stepped
    exact ⟨_, turned _, rfl, progress⟩
  case h_12 piece pieces todo =>
    cases stepped
    refine ⟨_, turned _, rfl, progress.1, ?_⟩
    exact (versions_of_ledger (view_ledger (execute_ledger piece))).trans progress.2
  case h_13 version todo =>
    split at stepped <;> cases stepped
    next recordable =>
    have seen := (congrArg Contents.versions (view_concat _)).trans (record_versions recordable)
    refine ⟨_, turned _, rfl, progress.1, seen.trans ?_⟩
    rw [progress.2]
    exact (List.foldl_concat ..).symm
  case h_15 version todo =>
    cases stepped
    refine ⟨_, turned _, rfl, ?_, progress.2⟩
    rw [List.append_assoc]
    exact progress.1
  case h_18 raised | h_19 raised | h_31 raised =>
    cases stepped
    cases raised with
    | false => exact ⟨_, turned _, rfl, progress⟩
    | true => exact ⟨_, turned _, rfl, trivial⟩
  case h_33 => cases stepped
  all_goals
    cases stepped
    exact ⟨_, turned _, rfl, trivial⟩

private theorem progress_run {outcomes : List Outcome} (alone : s.sessions = [session])
    (progress : Progress directory collate start s session)
    (ran : Machine.run (step directory statements collate) s (outcomes.map (.run 0)) = some next) :
    ∃ after, next.sessions = [after] ∧ after.command = session.command ∧
      Progress directory collate start next after := by
  induction outcomes generalizing s session with
  | nil =>
    cases ran
    exact ⟨session, alone, rfl, progress⟩
  | cons outcome rest ih =>
    obtain ⟨middle, stepped, ran⟩ := Machine.run_cons ran
    obtain ⟨found, first, stepped⟩ := Option.bind_eq_some_iff.mp stepped
    rw [alone] at first
    obtain rfl := Option.some.inj first
    obtain ⟨turned, alone, command, progress⟩ := progress_advance alone progress stepped
    rw [← command]
    exact ih alone progress ran

/-- What a call that returned has done. -/
theorem returns_spec {call : MigrationCall} {contents after : Contents S}
    (returns : CallReturns statements collate call contents after) :
    call.result = (call.command.todo call.directory (contents.versions.insertionSort fun a b => collate a b)).map
      Item.version ∧
      after.versions = call.result.foldl (inForce call.command.direction) contents.versions := by
  obtain ⟨outcomes, s, session, ran, alone, line, result, rfl⟩ := returns
  obtain ⟨begun, started, ran⟩ := Machine.run_cons ran
  obtain rfl := Option.some.inj started
  have begins : Progress call.directory collate contents.versions ⟨contents, none, [⟨call.command, .lock, [], []⟩], []⟩
      ⟨call.command, .lock, [], []⟩ := ⟨rfl, rfl⟩
  obtain ⟨ended, same, command, progress⟩ := progress_run rfl begins ran
  obtain rfl : session = ended := by
    rw [alone] at same
    exact (List.cons.inj same).1
  unfold Progress at progress
  rw [line, command, result] at progress
  exact progress

end Progress

section Stacks

/-- A stack and its versions in descending order begin alike where each version is greater than all below it. -/
theorem take_descending_iff {descending stack : List String} (same : descending.Perm stack) (nodup : stack.Nodup)
    (sorted : descending.Pairwise (· ≥ ·)) (k : ℕ) : descending.take k = stack.take k ↔ Ascending k stack := by
  induction k generalizing descending stack with
  | zero => simp [Ascending]
  | succ k ih =>
    cases stack with
    | nil => simp [same.eq_nil, Ascending]
    | cons version older =>
      cases descending with
      | nil => simp at same
      | cons greatest rest =>
        have below := List.pairwise_cons.mp sorted
        have distinct := List.nodup_cons.mp nodup
        rw [List.take_succ_cons, List.take_succ_cons, List.cons.injEq, Ascending]
        constructor
        · rintro ⟨rfl, rest_eq⟩
          have others := same.cons_inv
          refine ⟨fun other member => ?_, (ih others distinct.2 below.2).mp rest_eq⟩
          refine (below.1 other (others.symm.subset member)).lt_of_ne ?_
          rintro rfl
          exact distinct.1 member
        · rintro ⟨greater, ascending⟩
          have top : greatest = version := by
            by_contra other
            have lower := greater greatest ((List.mem_cons.mp (same.subset List.mem_cons_self)).resolve_left other)
            have upper := below.1 version
              ((List.mem_cons.mp (same.symm.subset List.mem_cons_self)).resolve_left (Ne.symm other))
            exact absurd lower upper.not_gt
          subst top
          exact ⟨rfl, (ih same.cons_inv distinct.2 below.2).mpr ascending⟩

/-- What is taken from the end of the ledger. -/
theorem lastApplied_eq (k : ℕ) (applied : List String) : lastApplied k applied = applied.reverse.take k := by
  rw [lastApplied, List.take_reverse]
  split
  · simp
  · next none =>
    obtain rfl : k = 0 := by omega
    simp

variable {start contents after : Contents S} {calls : List MigrationCall}

private theorem foldl_up (result versions : List String) : result.foldl (inForce .up) versions = versions ++ result := by
  induction result generalizing versions with
  | nil => rw [List.foldl_nil, List.append_nil]
  | cons version rest ih =>
    rw [List.foldl_cons, ih]
    exact List.append_assoc ..

private theorem foldl_down (result versions : List String) :
    result.foldl (inForce .down) versions = versions.filter (· ∉ result) := by
  induction result generalizing versions with
  | nil => simp
  | cons version rest ih =>
    rw [List.foldl_cons, ih, inForce, List.filter_filter]
    refine List.filter_congr fun other _ => ?_
    simp [Bool.and_comm]

private theorem stack_of_returns {call : MigrationCall} {stack : List String} (before : contents.versions = stack.reverse)
    (returns : CallReturns statements collate call contents after) : after.versions = (call.stack stack).reverse := by
  rw [(returns_spec returns).2, before, MigrationCall.stack]
  cases call.command with
  | runMigrations => 
    rw [Command.direction, foldl_up]
    simp
  | rollbackMigrations steps =>
    rw [Command.direction, foldl_down]
    exact List.filter_reverse

/-- The ledger holds the stack, the newest version last. -/
theorem versions_of_returned (fresh : start.versions = []) (returned : Returned statements collate start calls contents) :
    contents.versions = (stackOf calls).reverse := by
  induction returned with
  | none => exact fresh
  | next call _ returns ih =>
    rw [stackOf, List.foldl_concat]
    exact stack_of_returns ih returns

theorem returned_split {earlier later : List MigrationCall} {call : MigrationCall}
    (returned : Returned statements collate start (earlier ++ call :: later) contents) :
    ∃ before after, Returned statements collate start earlier before ∧ CallReturns statements collate call before after := by
  generalize whole : earlier ++ call :: later = calls at returned
  induction returned generalizing later with
  | none => simp at whole
  | @next calls before after last returned returns ih =>
    rcases List.eq_nil_or_concat later with rfl | ⟨front, other, rfl⟩
    · obtain ⟨rfl, same⟩ := List.append_inj' whole rfl
      obtain rfl := List.singleton_inj.mp same
      exact ⟨before, after, returned, returns⟩
    · rw [List.concat_eq_append, ← List.cons_append, ← List.append_assoc] at whole
      exact ih (List.append_inj' whole rfl).1

end Stacks

/-- The order in which the database sorts versions, by code point. -/
def byCodePoint (version other : String) : Bool := decide (version ≤ other)

private theorem byCodePoint_iff {version other : String} : byCodePoint version other = true ↔ version ≤ other :=
  decide_eq_true_iff

instance : Std.Total fun version other => byCodePoint version other = true where
  total version other := by
    rw [byCodePoint_iff, byCodePoint_iff]
    exact le_total version other

instance : IsTrans String fun version other => byCodePoint version other = true where
  trans first second third := by
    rw [byCodePoint_iff, byCodePoint_iff, byCodePoint_iff]
    exact le_trans

/-- In every sequence of calls that returned, on an empty ledger at first and with any directory at each, the ledger
holds what they have applied and not reverted. `rollback_migrations(steps=k)` has reverted the `k` newest versions in
force, the newest first, exactly if each of these was greater than all that were applied before it and in force. -/
theorem rollback_newest_iff {start contents : Contents S} {calls : List MigrationCall} (fresh : start.versions = [])
    (returned : Returned statements byCodePoint start calls contents) :
    contents.versions = (stackOf calls).reverse ∧
      ∀ earlier call later, calls = earlier ++ call :: later → ∀ k : ℕ, call.command = .rollbackMigrations k →
        (call.result = (stackOf earlier).take k ↔ Ascending k (stackOf earlier)) := by
  refine ⟨versions_of_returned fresh returned, ?_⟩
  rintro earlier call later rfl k command
  obtain ⟨before, after, past, returns⟩ := returned_split returned
  have versions := versions_of_returned fresh past
  have nodup : (stackOf earlier).Nodup := by
    rw [← List.nodup_reverse, ← versions]
    exact (before.ledger.getD .empty).unique
  have result : call.result = (before.versions.insertionSort fun a b => byCodePoint a b).reverse.take k := by
    rw [(returns_spec returns).1, command]
    exact (versions_rollbackMigrations _ _ _).trans (lastApplied_eq k _)
  rw [result]
  apply take_descending_iff _ nodup
  · rw [List.pairwise_reverse]
    have sorted := List.pairwise_insertionSort (fun version other => byCodePoint version other = true) before.versions
    exact sorted.imp byCodePoint_iff.mp
  · have stored : before.versions.Perm (stackOf earlier) := by
      rw [versions]
      exact List.reverse_perm _
    exact (List.reverse_perm _).trans ((List.perm_insertionSort _ _).trans stored)

/-- Two migrations in a numbered order, both with a file down. -/
def numberedFiles : Directory where
  rows := [⟨"1.sql", "x"⟩, ⟨"2.sql", "y"⟩, ⟨"1.down.sql", "z"⟩, ⟨"2.down.sql", "w"⟩]
  unique := by decide

theorem rollback_newest_numbered : ["2"] = (stackOf [⟨numberedFiles, .runMigrations, ["1", "2"]⟩]).take 1 := by
  let applied : Contents Char := ⟨some ⟨["1", "2"], by decide⟩, ['x', 'y']⟩
  let reverted : Contents Char := ⟨some ⟨["1"], by decide⟩, ['x', 'y', 'w']⟩
  have first : CallReturns String.toList byCodePoint ⟨numberedFiles, .runMigrations, ["1", "2"]⟩ ⟨none, []⟩ applied :=
    ⟨List.replicate 20 .done, ⟨applied, none, [⟨.runMigrations, .ended false, [], ["1", "2"]⟩],
      [(0, ⟨.up, "1"⟩), (0, ⟨.up, "2"⟩)]⟩, _, by decide +kernel, rfl, rfl, rfl, rfl⟩
  have second : CallReturns String.toList byCodePoint ⟨numberedFiles, .rollbackMigrations 1, ["2"]⟩ applied reverted :=
    ⟨List.replicate 14 .done, ⟨reverted, none, [⟨.rollbackMigrations 1, .ended false, [], ["2"]⟩],
      [(0, ⟨.down, "2"⟩)]⟩, _, by decide +kernel, rfl, rfl, rfl, rfl⟩
  have ascending : Ascending 1 ["2", "1"] := ⟨by decide, trivial⟩
  have calls := rollback_newest_iff rfl (.next _ (.next _ .none first) second)
  exact (calls.2 [_] _ [] rfl 1 rfl).mpr ascending

/-- A version that is the start of another, whose next character comes before the dot of the suffix. -/
def hyphenated : Directory where
  rows := [⟨"a.sql", "x"⟩, ⟨"a-b.sql", "y"⟩, ⟨"a.down.sql", "z"⟩, ⟨"a-b.down.sql", "w"⟩]
  unique := by decide

/-- `a-b.sql` is applied before `a.sql`, but rolled back first as well. -/
theorem rollback_not_newest : ∃ contents : Contents Char,
    Returned String.toList byCodePoint ⟨none, []⟩
      [⟨hyphenated, .runMigrations, ["a-b", "a"]⟩, ⟨hyphenated, .rollbackMigrations 1, ["a-b"]⟩] contents ∧
    ["a-b"] ≠ (stackOf [⟨hyphenated, .runMigrations, ["a-b", "a"]⟩]).take 1 := by
  let applied : Contents Char := ⟨some ⟨["a-b", "a"], by decide⟩, ['y', 'x']⟩
  let reverted : Contents Char := ⟨some ⟨["a"], by decide⟩, ['y', 'x', 'w']⟩
  have first : CallReturns String.toList byCodePoint ⟨hyphenated, .runMigrations, ["a-b", "a"]⟩ ⟨none, []⟩ applied :=
    ⟨List.replicate 20 .done, ⟨applied, none, [⟨.runMigrations, .ended false, [], ["a-b", "a"]⟩],
      [(0, ⟨.up, "a-b"⟩), (0, ⟨.up, "a"⟩)]⟩, _, by decide +kernel, rfl, rfl, rfl, rfl⟩
  have second : CallReturns String.toList byCodePoint ⟨hyphenated, .rollbackMigrations 1, ["a-b"]⟩ applied reverted :=
    ⟨List.replicate 14 .done, ⟨reverted, none, [⟨.rollbackMigrations 1, .ended false, [], ["a-b"]⟩],
      [(0, ⟨.down, "a-b"⟩)]⟩, _, by decide +kernel, rfl, rfl, rfl, rfl⟩
  exact ⟨reverted, .next _ (.next _ .none first) second, by decide +kernel⟩

end JobRelay.Guarantees
