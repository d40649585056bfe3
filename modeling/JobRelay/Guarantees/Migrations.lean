import JobRelay.Model.Migrations
import JobRelay.Sessions.Machine

/-! # The ledger of the migrations and the schema agree

What is committed is what whole steps make, each the file of a version together with its row of the ledger. The
lock lets one session at a time go through its list, so the list stays right while it does, and a session that
fails leaves the steps it had completed and nothing else.
-/

namespace JobRelay.Guarantees

open Model.Migrations Sessions

variable {S : Type*} {directory : Directory} {statements : String → List S} {collate : String → String → Bool}

section Purpose

/-- The versions in force, and the schema. -/
structure Migrated (S : Type*) where
  versions : List String
  schema : List S

def Migrated.of (contents : Contents S) : Migrated S := ⟨contents.versions, contents.schema⟩

/-- The file that a step executes. -/
def fileOf (directory : Directory) (step : Step) : Option File :=
  match step.direction with
  | .up => directory.migrations.find? fun file => file.stem = step.version
  | .down => directory.find? (step.version ++ DOWN_SUFFIX)

/-- A whole step: all the statements of its file, up for a version that is not in force, or down for one that is. -/
def Migrated.perform (directory : Directory) (statements : String → List S) (before : Migrated S) (step : Step) :
    Option (Migrated S) :=
  (fileOf directory step).bind fun file =>
    let schema := before.schema ++ statements file.sql
    match step.direction with
    | .up => if step.version ∈ before.versions then none else some ⟨before.versions ++ [step.version], schema⟩
    | .down => if step.version ∈ before.versions then some ⟨before.versions.filter (· ≠ step.version), schema⟩ else none

/-- The steps that a session has committed. -/
def stepsOf (log : List (ℕ × Step)) (id : ℕ) : List Step := (log.filter (·.1 = id)).map Prod.snd

end Purpose

section Views

variable {contents : Contents S} {changes : List (Change S)} {made : List S}

theorem view_append {more : List (Change S)} :
    contents.view (changes ++ more) = (contents.view changes).view more := List.foldl_append

/-- What a session has written: the ledger if it was missing, then statements of a file, then a row. -/
def Wrote (changes : List (Change S)) (made : List S) (row : List (Change S)) : Prop :=
  ∃ n, changes = List.replicate n .createLedger ++ made.map .execute ++ row

private theorem view_creates (n : ℕ) :
    Migrated.of (contents.view (List.replicate n .createLedger)) = Migrated.of contents := by
  induction n generalizing contents with
  | zero => rfl
  | succ n ih => exact ih

private theorem view_executes :
    contents.view (made.map .execute) = { contents with schema := contents.schema ++ made } := by
  induction made generalizing contents with
  | nil =>
    rw [List.append_nil]
    rfl
  | cons statement rest ih =>
    refine ih.trans ?_
    rw [Contents.change, List.append_assoc]
    rfl

private theorem Wrote.view (wrote : Wrote changes made []) :
    Migrated.of (contents.view changes) = ⟨contents.versions, contents.schema ++ made⟩ := by
  obtain ⟨n, rfl⟩ := wrote
  have created := @view_creates _ contents n
  rw [Migrated.of, Migrated.of, Migrated.mk.injEq] at created
  rw [List.append_nil, view_append, view_executes, ← created.1, ← created.2]
  rfl

private theorem Wrote.versions (wrote : Wrote changes made []) :
    (contents.view changes).versions = contents.versions :=
  congrArg Migrated.versions (Wrote.view wrote)

private theorem perform_of_wrote {step : Step} {file : File} (found : fileOf directory step = some file)
    (right : step.version ∈ contents.versions ↔ step.direction = .down)
    (wrote : Wrote changes (statements file.sql) [step.record]) :
    Migrated.perform directory statements (.of contents) step = some (.of (contents.view changes)) := by
  obtain ⟨n, rfl⟩ := wrote
  have before : Wrote (List.replicate n .createLedger ++ (statements file.sql).map .execute) (statements file.sql) [] :=
    ⟨n, (List.append_nil _).symm⟩
  have same := @Wrote.view _ contents _ _ before
  rw [view_append]
  generalize contents.view _ = middle at same
  rw [Migrated.of, Migrated.mk.injEq] at same
  rw [Migrated.perform, found, Option.bind_some, Migrated.of]
  obtain ⟨direction, version⟩ := step
  cases direction with
  | up =>
    have new : version ∉ contents.versions := fun present => nomatch right.mp present
    dsimp only
    rw [if_neg new, ← same.1, ← same.2]
    rw [← same.1] at new
    simp only [Contents.view, List.foldl_cons, List.foldl_nil, Step.record, Contents.change, Migrated.of,
      Contents.versions, Option.getD_some, Ledger.insert] at new ⊢
    rw [dif_neg new]
  | down =>
    dsimp only
    rw [if_pos (right.mpr rfl), ← same.1, ← same.2]
    rfl

end Views

section Lines

/-- The lines between the lock and its release. -/
def Critical : Line S → Prop
  | .lock | .commitLock false | .commitUnlock _ | .close _ | .ended _ | .crashed => False
  | _ => True

/-- What a session has left to do. -/
def items : Line S → List Item
  | .next todo | .append _ todo | .execute _ _ todo | .record _ todo | .commit _ todo => todo
  | _ => []

/-- The versions whose rows the session has still to change. -/
def ahead (line : Line S) : List String :=
  match line with
  | .execute version _ todo | .record version todo | .commit version todo => version :: todo.map Item.version
  | line => (items line).map Item.version

/-- An item of a list up is a file of the directory. -/
def Planned (directory : Directory) : Direction → Item → Prop
  | .up, .up file => file ∈ directory.migrations
  | .down, .down _ => True
  | _, _ => False

/-- The list of a session is still right: up, none of its versions is in the ledger, and down, all are. -/
structure Due (directory : Directory) (direction : Direction) (versions todo : List String) (items : List Item) :
    Prop where
  nodup : todo.Nodup
  right : ∀ version ∈ todo, version ∈ versions ↔ direction = .down
  planned : ∀ item ∈ items, Planned directory direction item

def Written (directory : Directory) (statements : String → List S) (session : Session S) : Prop :=
  match session.line with
  | .lock | .commitLock _ | .ensureLedger | .ended _ | .crashed => session.changes = []
  | .execute version rest _ => ∃ file made, fileOf directory (session.step version) = some file ∧
      statements file.sql = made ++ rest ∧ Wrote session.changes made []
  | .record version _ => ∃ file, fileOf directory (session.step version) = some file ∧
      Wrote session.changes (statements file.sql) []
  | .commit version _ => ∃ file, fileOf directory (session.step version) = some file ∧
      Wrote session.changes (statements file.sql) [(session.step version).record]
  | .commitFirst _ _ _ | .autocommit _ _ _ => False
  | _ => Wrote session.changes [] []

def Noted (session : Session S) (steps : List Step) : Prop :=
  match session.line with
  | .append version _ => steps = (session.result ++ [version]).map session.step
  | .crashed => steps = session.result.map session.step ∨
      ∃ version, steps = (session.result ++ [version]).map session.step
  | _ => steps = session.result.map session.step

/-- What holds of a session at its line. -/
structure Fits (directory : Directory) (statements : String → List S) (s : State S) (id : ℕ) (session : Session S) :
    Prop where
  holds : Critical session.line → s.lock = some id
  written : Written directory statements session
  due : Due directory session.command.direction s.committed.versions (ahead session.line) (items session.line)
  recorded : Noted session (stepsOf s.log id)

structure Consistent (directory : Directory) (statements : String → List S) (start : Contents S) (s : State S) :
    Prop where
  fits : ∀ id session, s.sessions[id]? = some session → Fits directory statements s id session
  performed : (s.log.map Prod.snd).foldlM (Migrated.perform directory statements) (.of start) = some (.of s.committed)
  known : ∀ entry ∈ s.log, entry.1 < s.sessions.length

end Lines

section Lists

variable {direction : Direction} {versions todo : List String} {version : String} {items : List Item}

theorem Due.nil : Due directory direction versions [] [] := ⟨List.nodup_nil, nofun, nofun⟩

private theorem Due.tail (due : Due directory direction versions (version :: todo) items) :
    Due directory direction versions todo items :=
  ⟨due.nodup.of_cons, fun other later => due.right other (List.mem_cons_of_mem _ later), due.planned⟩

/-- Once its version is recorded, the rest of a list is still right. -/
private theorem Due.performed {contents after : Migrated S} {direction : Direction}
    (due : Due directory direction contents.versions (version :: todo) items)
    (performed : contents.perform directory statements ⟨direction, version⟩ = some after) :
    Due directory direction after.versions todo items := by
  refine ⟨due.nodup.of_cons, fun other later => ?_, due.planned⟩
  have distinct : other ≠ version := by
    rintro rfl
    exact (List.nodup_cons.mp due.nodup).1 later
  have before := due.right other (List.mem_cons_of_mem _ later)
  obtain ⟨file, _, made⟩ := Option.bind_eq_some_iff.mp performed
  cases direction with
  | up =>
    dsimp only at made
    split at made <;> cases made
    simpa [distinct] using before
  | down =>
    dsimp only at made
    split at made <;> cases made
    simpa [distinct] using before

/-- The list that a call computes is right for the versions it has read. -/
private theorem due_todo (distinct : (directory.migrations.map File.stem).Nodup) (command : Command)
    {applied : List String} (nodup : versions.Nodup) (read : applied.Perm versions) :
    Due directory command.direction versions ((command.todo directory applied).map Item.version)
      (command.todo directory applied) := by
  cases command with
  | runMigrations =>
    constructor
    · rw [versions_runMigrations]
      exact distinct.sublist (List.filter_sublist.map File.stem)
    · rw [versions_runMigrations]
      intro version member
      obtain ⟨file, pending, rfl⟩ := List.mem_map.mp member
      have new := (List.mem_filter.mp pending).2
      rw [decide_eq_true_eq, read.mem_iff] at new
      exact iff_of_false new nofun
    · intro item member
      obtain ⟨file, pending, rfl⟩ := List.mem_map.mp member
      exact (List.mem_filter.mp pending).1
  | rollbackMigrations steps =>
    rw [versions_rollbackMigrations]
    constructor
    · rw [lastApplied]
      split
      · exact List.nodup_reverse.mpr ((read.nodup_iff.mpr nodup).sublist (List.drop_sublist _ _))
      · exact List.nodup_nil
    · intro version member
      rw [lastApplied] at member
      split at member
      · exact iff_of_true (read.subset (List.drop_subset _ _ (List.mem_reverse.mp member))) rfl
      · cases member
    · intro item member
      obtain ⟨version, _, rfl⟩ := List.mem_map.mp member
      trivial

/-- The file of an item is that of its step, where no two files have one version. -/
private theorem file_of_planned (distinct : (directory.migrations.map File.stem).Nodup) {item : Item}
    (planned : Planned directory direction item) : fileOf directory ⟨direction, item.version⟩ = item.file directory := by
  cases item with
  | up file =>
    cases direction with
    | up =>
      have only : (directory.migrations.filter fun other => other.stem = file.stem) = [file] :=
        filter_of_nodup distinct planned
      change directory.migrations.find? (fun other => decide (other.stem = file.stem)) = some file
      rw [← List.head?_filter, only]
      rfl
    | down => exact planned.elim
  | down version =>
    cases direction with
    | up => exact planned.elim
    | down => rfl

private theorem mem_migrations {file : File} :
    file ∈ directory.migrations ↔ file ∈ directory.rows ∧ file.isSql = true ∧ file.isDown = false := by
  rw [Directory.migrations, List.mem_filter, (List.perm_insertionSort _ _).mem_iff, List.mem_filter, and_assoc,
    Bool.not_eq_true']

private theorem mem_of_planned {item : Item} {file : File} (planned : Planned directory direction item)
    (stored : item.file directory = some file) : file ∈ directory.rows := by
  cases item with
  | up other =>
    cases direction with
    | up =>
      cases stored
      exact (mem_migrations.mp planned).1
    | down => exact planned.elim
  | down version => exact Table.find?_mem stored

end Lists

section Steps

variable {start : Contents S} {s next : State S} {id : ℕ} {session after : Session S}

theorem stepsOf_append (log made : List (ℕ × Step)) : stepsOf (log ++ made) id = stepsOf log id ++ stepsOf made id := by
  rw [stepsOf, List.filter_append, List.map_append]
  rfl

/-- What one session does leaves what holds of the others. -/
private theorem Fits.other {other : ℕ} {theirs : Session S} (fits : Fits directory statements s other theirs)
    (distinct : other ≠ id) (lock : next.lock = s.lock ∨ s.lock = none ∨ s.lock = some id)
    (versions : next.committed.versions = s.committed.versions ∨ s.lock = some id)
    (log : stepsOf next.log other = stepsOf s.log other) : Fits directory statements next other theirs where
  holds critical := by
    have held := fits.holds critical
    rcases lock with same | free | mine
    · exact same.trans held
    · exact absurd (held.symm.trans free) nofun
    · exact absurd (Option.some.inj (held.symm.trans mine)) distinct
  written := fits.written
  due := by
    rcases versions with same | mine
    · rw [same]
      exact fits.due
    · suffices idle : ahead theirs.line = [] ∧ items theirs.line = [] by
        rw [idle.1, idle.2]
        exact .nil
      by_contra busy
      have critical : Critical theirs.line := by
        unfold Critical
        split <;> simp_all [ahead, items]
      exact distinct (Option.some.inj ((fits.holds critical).symm.trans mine))
  recorded := by
    rw [log]
    exact fits.recorded

/-- A session after its turn fits, and so do the others. -/
private theorem fits_set {sessions : List (Session S)}
    (fits : ∀ id session, s.sessions[id]? = some session → Fits directory statements s id session)
    (lock : next.lock = s.lock ∨ s.lock = none ∨ s.lock = some id)
    (versions : next.committed.versions = s.committed.versions ∨ s.lock = some id)
    (log : ∀ other, other ≠ id → stepsOf next.log other = stepsOf s.log other)
    (mine : Fits directory statements next id after) (turned : sessions = s.sessions.set id after) :
    ∀ other theirs, sessions[other]? = some theirs → Fits directory statements next other theirs := by
  subst turned
  intro other theirs found
  rw [List.getElem?_set] at found
  split at found
  · next same =>
    subst same
    split at found <;> cases found
    exact mine
  · next distinct => exact (fits other theirs found).other (Ne.symm distinct) lock versions (log other (Ne.symm distinct))

/-- A step of a session that commits no step of a migration. -/
private theorem Consistent.put (inv : Consistent directory statements start s) (lock : Option ℕ)
    (committed : Contents S) (framed : lock = s.lock ∨ s.lock = none ∨ s.lock = some id)
    (same : Migrated.of committed = .of s.committed)
    (fits : Fits directory statements { s.put id after with lock, committed } id after) :
    Consistent directory statements start { s.put id after with lock, committed } where
  fits := fits_set inv.fits framed (.inl (congrArg Migrated.versions same)) (fun _ _ => rfl) fits rfl
  performed := inv.performed.trans (congrArg some same.symm)
  known entry member := (inv.known entry member).trans_eq (List.length_set).symm

/-- A session goes on to another line and nothing else changes. -/
private theorem Consistent.move (inv : Consistent directory statements start s)
    (fits : Fits directory statements s id after) : Consistent directory statements start (s.put id after) :=
  inv.put s.lock s.committed (.inl rfl) rfl ⟨fits.holds, fits.written, fits.due, fits.recorded⟩

/-- A session goes on and no longer holds the lock. -/
private theorem Consistent.release (inv : Consistent directory statements start s)
    (written : Written directory statements after) (outside : ¬ Critical after.line)
    (done : ahead after.line = [] ∧ items after.line = [])
    (recorded : Noted after (stepsOf s.log id)) :
    Consistent directory statements start ((s.put id after).release id) := by
  refine inv.put _ s.committed ?_ rfl ⟨fun critical => absurd critical outside, written, ?_, recorded⟩
  · change (if s.lock = some id then none else s.lock) = _ ∨ _
    split
    · next mine => exact .inr (.inr mine)
    · exact .inl rfl
  · rw [done.1, done.2]
    exact .nil

private theorem Wrote.nil : Wrote ([] : List (Change S)) [] [] := ⟨0, rfl⟩

private theorem Wrote.execute {changes : List (Change S)} {made : List S} (wrote : Wrote changes made []) (statement : S) :
    Wrote (changes ++ [.execute statement]) (made ++ [statement]) [] := by
  obtain ⟨n, rfl⟩ := wrote
  exact ⟨n, by simp⟩

private theorem Wrote.record {changes : List (Change S)} {made : List S} (wrote : Wrote changes made [])
    (row : Change S) : Wrote (changes ++ [row]) made [row] := by
  obtain ⟨n, rfl⟩ := wrote
  exact ⟨n, by simp⟩

/-- The step of a migration is committed: its file and its row at once, under the lock. -/
private theorem consistent_commit (inv : Consistent directory statements start s)
    {version : String} {todo : List Item} (found : s.sessions[id]? = some session)
    (line : session.line = .commit version todo) :
    Consistent directory statements start
      { s.commit id session (.append version todo) with log := s.log ++ [(id, session.step version)] } := by
  obtain ⟨command, _, changes, result⟩ := session
  obtain rfl := line
  obtain ⟨holds, ⟨file, stored, wrote⟩, due, recorded⟩ := inv.fits id _ found
  have held : s.lock = some id := holds trivial
  have performed := perform_of_wrote stored (due.right version List.mem_cons_self) wrote
  have mine : stepsOf (s.log ++ [(id, (⟨command.direction, version⟩ : Step))]) id =
      (result ++ [version]).map (⟨command.direction, ·⟩) := by
    rw [stepsOf_append, recorded, List.map_append]
    simp [stepsOf, Session.step]
  constructor
  · refine fits_set inv.fits (.inr (.inr held)) (.inr held) (fun other distinct => ?_) ?_ rfl
    · rw [stepsOf_append]
      simp [stepsOf, Ne.symm distinct]
    · exact ⟨fun _ => held, .nil, due.performed performed, mine⟩
  · rw [List.map_append, List.foldlM_append, inv.performed]
    exact congrArg (Option.bind · fun last => some last) performed
  · intro entry member
    have live : id < s.sessions.length := (List.getElem?_eq_some_iff.mp found).1
    rw [State.commit, State.abort, State.put, List.length_set]
    rcases List.mem_append.mp member with before | latest
    · exact inv.known entry before
    · obtain rfl := List.mem_singleton.mp latest
      exact live

private theorem consistent_advance (unmarked : ∀ file ∈ directory.rows, file.nonTransactional = false)
    (distinct : (directory.migrations.map File.stem).Nodup) (inv : Consistent directory statements start s)
    (found : s.sessions[id]? = some session) {outcome : Outcome}
    (stepped : advance directory statements collate s id session outcome = some next) :
    Consistent directory statements start next := by
  obtain ⟨holds, written, due, recorded⟩ := inv.fits id session found
  unfold advance at stepped
  obtain ⟨command, line, changes, result⟩ := session
  dsimp only at stepped
  split at stepped
  case h_1 =>
    obtain rfl : changes = [] := written
    split at stepped <;> cases stepped
    · next free => exact inv.put (some id) s.committed (.inr (.inl free)) rfl ⟨fun _ => rfl, rfl, .nil, recorded⟩
    · exact inv.move ⟨nofun, rfl, .nil, recorded⟩
  case h_2 locked =>
    obtain rfl : changes = [] := written
    cases stepped
    cases locked with
    | true => exact inv.move ⟨holds, rfl, .nil, recorded⟩
    | false => exact inv.move ⟨nofun, rfl, .nil, recorded⟩
  case h_3 =>
    obtain rfl : changes = [] := written
    cases stepped
    exact inv.move ⟨holds, ⟨1, rfl⟩, .nil, recorded⟩
  case h_4 =>
    cases stepped
    have read : (s.committed.view changes).versions = s.committed.versions := Wrote.versions written
    refine inv.move ⟨holds, written, ?_, recorded⟩
    refine due_todo distinct command (s.committed.ledger.getD .empty).unique ?_
    rw [read]
    exact List.perm_insertionSort _ _
  case h_5 =>
    cases stepped
    exact inv.move ⟨holds, written, .nil, recorded⟩
  case h_6 item todo =>
    cases stepped
    have planned := due.planned item List.mem_cons_self
    unfold Item.begin
    split
    · exact inv.move ⟨holds, written, .nil, recorded⟩
    · next file stored =>
      have same := (file_of_planned distinct planned).trans stored
      have rest : Due directory command.direction s.committed.versions (item.version :: todo.map Item.version) todo :=
        ⟨due.nodup, due.right, fun other later => due.planned other (List.mem_cons_of_mem _ later)⟩
      rw [unmarked file (mem_of_planned planned stored)]
      exact inv.move ⟨holds, ⟨file, [], same, rfl, written⟩, rest, recorded⟩
  case h_8 =>
    cases stepped
    obtain ⟨file, made, stored, whole, wrote⟩ := written
    rw [List.append_nil] at whole
    exact inv.move ⟨holds, ⟨file, stored, whole ▸ wrote⟩, due, recorded⟩
  case h_9 statement rest todo =>
    cases stepped
    obtain ⟨file, made, stored, whole, wrote⟩ := written
    refine inv.move ⟨holds, ⟨file, made ++ [statement], stored, ?_, wrote.execute statement⟩, due, recorded⟩
    rw [whole, List.append_assoc, List.singleton_append]
  case h_10 | h_11 | h_12 => exact written.elim
  case h_13 =>
    split at stepped <;> cases stepped
    obtain ⟨file, stored, wrote⟩ := written
    exact inv.move ⟨holds, ⟨file, stored, wrote.record _⟩, due, recorded⟩
  case h_14 =>
    cases stepped
    exact consistent_commit inv found rfl
  case h_15 =>
    cases stepped
    exact inv.move ⟨holds, written, due, recorded⟩
  case h_16 =>
    cases stepped
    exact inv.move ⟨holds, .nil, .nil, recorded⟩
  case h_18 =>
    cases stepped
    exact inv.release written not_false ⟨rfl, rfl⟩ recorded
  case h_19 =>
    cases stepped
    refine inv.put s.lock (s.committed.view changes) (.inl rfl) ?_ ⟨nofun, .nil, .nil, recorded⟩
    rw [Wrote.view written, List.append_nil]
    rfl
  case h_7 | h_17 =>
    cases stepped
    exact inv.move ⟨holds, written, .nil, recorded⟩
  case h_20 | h_21 | h_22 | h_23 =>
    cases stepped
    exact inv.move ⟨nofun, .nil, .nil, recorded⟩
  case h_31 | h_32 =>
    cases stepped
    exact inv.release rfl not_false ⟨rfl, rfl⟩ recorded
  case h_33 => cases stepped
  all_goals
    cases stepped
    exact inv.move ⟨holds, .nil, .nil, recorded⟩

private theorem consistent_start (inv : Consistent directory statements start s) (command : Command) :
    Consistent directory statements start { s with sessions := s.sessions ++ [⟨command, .lock, [], []⟩] } where
  fits other theirs found := by
    rw [List.getElem?_append] at found
    split at found
    · have fits := inv.fits other theirs found
      exact ⟨fits.holds, fits.written, fits.due, fits.recorded⟩
    · next new =>
      obtain rfl := List.mem_singleton.mp (List.mem_of_getElem? found)
      refine ⟨nofun, rfl, .nil, ?_⟩
      have none : s.log.filter (·.1 = other) = [] := by
        refine List.filter_eq_nil_iff.mpr fun entry member same => ?_
        have known := inv.known entry member
        simp only [decide_eq_true_eq] at same
        omega
      exact congrArg (List.map Prod.snd) none
  performed := inv.performed
  known entry member := by
    rw [List.length_append]
    exact (inv.known entry member).trans_le (Nat.le_add_right _ _)

private theorem consistent_crash (inv : Consistent directory statements start s)
    (found : s.sessions[id]? = some session) :
    Consistent directory statements start ((s.abort id session .crashed).release id) := by
  have recorded := (inv.fits id session found).recorded
  refine inv.release rfl not_false ⟨rfl, rfl⟩ ?_
  unfold Noted at recorded
  split at recorded
  · exact .inr ⟨_, recorded⟩
  · exact recorded
  · exact .inl recorded

private theorem consistent_step (unmarked : ∀ file ∈ directory.rows, file.nonTransactional = false)
    (distinct : (directory.migrations.map File.stem).Nodup) (inv : Consistent directory statements start s) {action : Action}
    (stepped : step directory statements collate s action = some next) :
    Consistent directory statements start next := by
  cases action with
  | start command =>
    cases stepped
    exact consistent_start inv command
  | run id outcome =>
    obtain ⟨session, found, stepped⟩ := Option.bind_eq_some_iff.mp stepped
    exact consistent_advance unmarked distinct inv found stepped
  | crash id =>
    obtain ⟨session, found, stepped⟩ := Option.bind_eq_some_iff.mp stepped
    split at stepped <;> cases stepped
    exact consistent_crash inv found

private theorem consistent_initial : Consistent directory statements start (initial start) where
  fits _ _ found := nomatch found
  performed := rfl
  known _ member := nomatch member

end Steps

/-- An error or a crash leaves what is committed. -/
private theorem failure_keeps {s next : State S} {id : ℕ}
    (failed : step directory statements collate s (.run id .error) = some next ∨
      step directory statements collate s (.crash id) = some next) :
    next.committed = s.committed ∧ next.log = s.log := by
  rcases failed with stepped | stepped
  · obtain ⟨session, _, stepped⟩ := Option.bind_eq_some_iff.mp stepped
    unfold advance at stepped
    split at stepped <;> first | cases stepped; exact ⟨rfl, rfl⟩ | simp_all
  · obtain ⟨session, _, stepped⟩ := Option.bind_eq_some_iff.mp stepped
    split at stepped <;> cases stepped
    exact ⟨rfl, rfl⟩

/-- In a directory of transactional files, no two of which have one version, and for any number of concurrent calls,
what is committed is what whole steps make of the start. A file is executed up only while its version is not in the
ledger, and down only while it is. A call that raised has committed the steps of its list; one that crashed, these
and at most the step whose commit it did not get to note. An error or a crash changes neither the schema nor the
ledger. -/
theorem ledger_matches_schema (unmarked : ∀ file ∈ directory.rows, file.nonTransactional = false)
    (distinct : (directory.migrations.map File.stem).Nodup) {start : Contents S} {actions : List Action} {s : State S}
    (ran : Machine.run (step directory statements collate) (initial start) actions = some s) :
    (s.log.map Prod.snd).foldlM (Migrated.perform directory statements) (.of start) = some (.of s.committed) ∧
    (∀ session ∈ s.sessions, ∀ version rest todo, session.line = .execute version rest todo →
      (version ∈ s.committed.versions ↔ session.command.direction = .down)) ∧
    (∀ id session, s.sessions[id]? = some session →
      (∀ raised, session.line = .ended raised → stepsOf s.log id = session.result.map session.step) ∧
      (session.line = .crashed → stepsOf s.log id = session.result.map session.step ∨
        ∃ version, stepsOf s.log id = (session.result ++ [version]).map session.step)) ∧
    ∀ id next, (step directory statements collate s (.run id .error) = some next ∨
      step directory statements collate s (.crash id) = some next) →
      next.committed = s.committed ∧ next.log = s.log := by
  have inv : Consistent directory statements start s :=
    Machine.preserves (fun _ _ _ inv stepped => consistent_step unmarked distinct inv stepped) consistent_initial ran
  refine ⟨inv.performed, ?_, ?_, fun id next => failure_keeps⟩
  · intro session member version rest todo line
    obtain ⟨id, found⟩ := List.mem_iff_getElem?.mp member
    have due := (inv.fits id session found).due
    rw [line] at due
    exact due.right version List.mem_cons_self
  · intro id session found
    have recorded := (inv.fits id session found).recorded
    unfold Noted at recorded
    constructor
    · intro raised line
      rwa [line] at recorded
    · intro line
      rwa [line] at recorded

/-- Two migrations, of which only the first has a file down. -/
def twoMigrations : Directory where
  rows := [⟨"0002_b.sql", "w"⟩, ⟨"0001_a.down.sql", "z"⟩, ⟨"0001_a.sql", "xy"⟩]
  unique := by decide

/-- Two concurrent runners, of which the second waits for the lock and finds nothing left; then both migrations are to
be rolled back, which fails on the second. -/
def twoRunners : List Action :=
  [.start .runMigrations, .start .runMigrations, .run 0 .done, .run 1 .done, .run 0 .done, .run 1 .done] ++
    List.replicate 19 (.run 0 .done) ++ List.replicate 8 (.run 1 .done) ++
    .start (.rollbackMigrations 2) :: List.replicate 9 (.run 2 .done)

theorem ledger_matches_schema_two : ∃ s,
    Machine.run (step twoMigrations String.toList fun a b => decide (a ≤ b)) (initial ⟨none, []⟩) twoRunners = some s ∧
    s.committed.versions = ["0001_a", "0002_b"] ∧ s.sessions.map Session.line = [.ended false, .ended false, .ended true] ∧
    (s.log.map Prod.snd).foldlM (Migrated.perform twoMigrations String.toList) ⟨[], []⟩ = some (.of s.committed) := by
  have reached :
      (Machine.run (step twoMigrations String.toList fun a b => decide (a ≤ b)) (initial ⟨none, []⟩) twoRunners).map
        (fun s => (s.committed.versions, s.sessions.map Session.line)) =
        some (["0001_a", "0002_b"], [.ended false, .ended false, .ended true]) := by decide +kernel
  obtain ⟨s, ran, same⟩ := Option.map_eq_some_iff.mp reached
  rw [Prod.mk.injEq] at same
  exact ⟨s, ran, same.1, same.2, (ledger_matches_schema (by decide +kernel) (by decide +kernel) ran).1⟩

section Names

/-- The version of a file up is its name without the suffix, unless its name is nothing else. -/
theorem stem_of_isSql {file : File} (sql : file.isSql = true) :
    file.name = ".sql" ∧ file.stem = ".sql" ∨ file.name = file.stem ++ ".sql" := by
  obtain ⟨front, whole⟩ := of_decide_eq_true sql
  have found : rfind '.' file.name.toList = some front.length := by
    rw [← whole, rfind, List.reverse_append]
    change (List.idxOf? '.' ('l' :: 'q' :: 's' :: '.' :: front.reverse)).map _ = _
    simp [List.idxOf?_cons]
  have length : file.name.length = front.length + 4 := by
    rw [← String.length_toList, ← whole, List.length_append]
    rfl
  have stem : file.stem = if 0 < front.length then String.ofList front else file.name := by
    rw [File.stem, found]
    dsimp only
    rw [← whole, List.take_left, length]
    simp only [show front.length < front.length + 4 - 1 by omega, and_true]
  by_cases visible : 0 < front.length
  · right
    rw [stem, if_pos visible]
    apply String.toList_injective
    rw [← whole]
    simp
  · left
    rw [if_neg visible] at stem
    rw [List.eq_nil_of_length_eq_zero (Nat.eq_zero_of_not_pos visible)] at whole
    have name : file.name = ".sql" := String.toList_injective whole.symm
    exact ⟨name, stem.trans name⟩

/-- Only `.sql` and `.sql.sql` are two names with one version. -/
theorem versions_distinct_iff : (directory.migrations.map File.stem).Nodup ↔
    ¬(".sql" ∈ directory.rows.map File.name ∧ ".sql.sql" ∈ directory.rows.map File.name) := by
  constructor
  · rintro distinct ⟨first, second⟩
    obtain ⟨one, stored, name⟩ := List.mem_map.mp first
    obtain ⟨other, stored', name'⟩ := List.mem_map.mp second
    have member : one ∈ directory.migrations :=
      mem_migrations.mpr ⟨stored, by rw [File.isSql, name]; decide, by rw [File.isDown, name]; decide⟩
    have member' : other ∈ directory.migrations :=
      mem_migrations.mpr ⟨stored', by rw [File.isSql, name']; decide, by rw [File.isDown, name']; decide⟩
    have same : one.stem = other.stem := by
      rw [File.stem, File.stem, name, name']
      decide
    have equal := List.inj_on_of_nodup_map distinct member member' same
    rw [equal, name'] at name
    exact absurd name (by decide)
  · intro apart
    have names : (directory.migrations.map File.name).Nodup := by
      have filtered := directory.unique.sublist ((List.filter_sublist (p := File.isSql)).map File.name)
      have perm := (List.perm_insertionSort (fun file other : File => file.name ≤ other.name)
        (directory.rows.filter File.isSql)).map File.name
      have sorted := perm.nodup_iff.mpr filtered
      exact sorted.sublist (List.filter_sublist.map File.name)
    refine (List.nodup_map_iff_inj_on names.of_map).mpr fun one member other member' same => ?_
    have stored := mem_migrations.mp member
    have stored' := mem_migrations.mp member'
    have named : one.name = other.name := by
      rcases stem_of_isSql stored.2.1 with ⟨name, stem⟩ | name <;>
        rcases stem_of_isSql stored'.2.1 with ⟨name', stem'⟩ | name'
      · exact name.trans name'.symm
      · rw [← same, stem] at name'
        exact absurd ⟨List.mem_map.mpr ⟨one, stored.1, name⟩, List.mem_map.mpr ⟨other, stored'.1, name'⟩⟩ apart
      · rw [same, stem'] at name
        exact absurd ⟨List.mem_map.mpr ⟨other, stored'.1, name'⟩, List.mem_map.mpr ⟨one, stored.1, name⟩⟩ apart
      · rw [name, name', same]
    exact List.inj_on_of_nodup_map names member member' named

end Names

/-- Two migrations with one version: a dot that begins a name starts no suffix, so `.sql` is its own stem. -/
def dotFiles : Directory where
  rows := [⟨".sql", "x"⟩, ⟨".sql.sql", "y"⟩]
  unique := by decide

/-- The second file is executed while the version of both is applied. -/
theorem executed_while_applied : (∀ file ∈ dotFiles.rows, file.nonTransactional = false) ∧
    ∃ s, Machine.run (step dotFiles String.toList fun a b => decide (a ≤ b)) (initial ⟨none, []⟩)
        (.start .runMigrations :: List.replicate 11 (.run 0 .done)) = some s ∧
      ∃ session ∈ s.sessions, session.command = .runMigrations ∧ session.line = .execute ".sql" ['y'] [] ∧
        ".sql" ∈ s.committed.versions := by
  have reached : (Machine.run (step dotFiles String.toList fun a b => decide (a ≤ b)) (initial ⟨none, []⟩)
      (.start .runMigrations :: List.replicate 11 (.run 0 .done))).map (fun s => (s.committed.versions, s.sessions)) =
      some ([".sql"], [⟨.runMigrations, .execute ".sql" ['y'] [], [], [".sql"]⟩]) := by decide +kernel
  obtain ⟨s, ran, same⟩ := Option.map_eq_some_iff.mp reached
  rw [Prod.mk.injEq] at same
  refine ⟨by decide +kernel, s, ran, ?_⟩
  rw [same.1, same.2]
  exact ⟨_, List.mem_singleton_self _, rfl, rfl, List.mem_singleton_self _⟩

end JobRelay.Guarantees
