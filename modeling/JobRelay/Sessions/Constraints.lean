import Mathlib.Data.List.Nodup
import Mathlib.Data.List.Range
import JobRelay.Sessions.Queries

/-! # Tables under constraints

Contents that meet their constraints carry the proof as a field, so a statement that would leave others raises. Rows
that a statement inserts draw their keys from a sequence, in the order in which they come. An update changes one row
after the other, each time under the constraints; it succeeds if they hold whichever of its rows it has changed.
-/

namespace JobRelay.Sessions

variable {D ρ σ κ : Type*}

/-- Contents that meet the constraints. -/
structure Constrained (Valid : D → Prop) where
  contents : D
  valid : Valid contents

/-- In which order a query without `ORDER BY` returns the rows that it selects. -/
abbrev Scan (ρ : Type*) := Plan fun _ _ : ρ => True

/-- Contents, which raise where they do not meet the constraints. -/
def check (Valid : D → Prop) [DecidablePred Valid] (contents : D) : Option (Constrained Valid) :=
  if valid : Valid contents then some ⟨contents, valid⟩ else none

theorem check_of_valid {Valid : D → Prop} [DecidablePred Valid] {contents : D} (valid : Valid contents) :
    check Valid contents = some ⟨contents, valid⟩ := dif_pos valid

theorem check_eq_some {Valid : D → Prop} [DecidablePred Valid] {contents : D} {table : Constrained Valid}
    (checked : check Valid contents = some table) : table.contents = contents := by
  rw [check] at checked
  split at checked <;> cases checked
  rfl

section Insert

variable {Valid : List ρ → Prop} [DecidablePred Valid]

/-- `INSERT INTO ... SELECT` -/
def Constrained.insertSelect (table : Constrained Valid) (selected : List ρ) : Option (Constrained Valid) :=
  check Valid (table.contents ++ selected)

theorem Constrained.insertSelect_nil {none : Valid []} {selected : List ρ} (valid : Valid selected) :
    (Constrained.mk [] none).insertSelect selected = some ⟨selected, valid⟩ := check_of_valid valid

end Insert

/-- Rows with the values of a sequence from `first` on. -/
def numbered (first : ℕ) (rows : List (ℕ → ρ)) : List ρ := rows.mapIdx fun i row => row (first + i)

@[simp] theorem numbered_nil (first : ℕ) : numbered first ([] : List (ℕ → ρ)) = [] := rfl

@[simp] theorem numbered_cons (first : ℕ) (row : ℕ → ρ) (rows : List (ℕ → ρ)) :
    numbered first (row :: rows) = row first :: numbered (first + 1) rows := by
  rw [numbered, List.mapIdx_cons]
  simp [numbered, Nat.add_assoc, Nat.add_comm 1]

theorem numbered_append (first : ℕ) (rows later : List (ℕ → ρ)) :
    numbered first (rows ++ later) = numbered first rows ++ numbered (first + rows.length) later := by
  induction rows generalizing first with
  | nil => rfl
  | cons row rows ih =>
    rw [List.cons_append, numbered_cons, ih, numbered_cons, List.cons_append, List.length_cons]
    simp [Nat.add_assoc, Nat.add_comm 1]

/-- The column of the sequence. -/
theorem map_key_numbered {key : ρ → ℕ} {rows : List (ℕ → ρ)} (first : ℕ) (keyed : ∀ row ∈ rows, ∀ n, key (row n) = n) :
    (numbered first rows).map key = List.range' first rows.length := by
  induction rows generalizing first with
  | nil => rfl
  | cons row rows ih =>
    rw [numbered_cons, List.map_cons, keyed row List.mem_cons_self, List.length_cons, List.range'_succ,
      ih (first + 1) fun other member => keyed other (List.mem_cons_of_mem _ member)]

theorem nodup_key_numbered {key : ρ → ℕ} {rows : List (ℕ → ρ)} (first : ℕ) (keyed : ∀ row ∈ rows, ∀ n, key (row n) = n) :
    ((numbered first rows).map key).Nodup := by
  rw [map_key_numbered first keyed]
  exact List.nodup_range'

/-- Another column, of rows that are made from others. -/
theorem map_numbered (make : σ → ℕ → ρ) (column : ρ → κ) (source : σ → κ)
    (same : ∀ row n, column (make row n) = source row) (first : ℕ) (rows : List σ) :
    (numbered first (rows.map make)).map column = rows.map source := by
  induction rows generalizing first with
  | nil => rfl
  | cons row rows ih => rw [List.map_cons, numbered_cons, List.map_cons, ih, same, List.map_cons]

theorem mem_numbered {make : σ → ℕ → ρ} {first : ℕ} {rows : List σ} {row : ρ}
    (member : row ∈ numbered first (rows.map make)) : ∃ source ∈ rows, ∃ n, row = make source n := by
  induction rows generalizing first with
  | nil => cases member
  | cons source rows ih =>
    rw [List.map_cons, numbered_cons, List.mem_cons] at member
    rcases member with rfl | later
    · exact ⟨source, List.mem_cons_self, first, rfl⟩
    · obtain ⟨other, stored, n, rfl⟩ := ih later
      exact ⟨other, List.mem_cons_of_mem _ stored, n, rfl⟩

/-- A table of a database. -/
structure Part (D ρ : Type*) where
  get : D → List ρ
  put : D → List ρ → D
  get_put : ∀ db rows, get (put db rows) = rows
  put_put : ∀ db rows later, put (put db rows) later = put db later
  put_get : ∀ db, put db (get db) = db

namespace Part

variable (part : Part D ρ)

/-- The contents with each row of the table changed. -/
def map (set : ρ → ρ) (db : D) : D := part.put db ((part.get db).map set)

theorem map_map (set later : ρ → ρ) (db : D) : part.map later (part.map set db) = part.map (later ∘ set) db := by
  rw [map, map, map, part.get_put, part.put_put, List.map_map]

end Part

section Selected

variable {part : Part D ρ} {key : ρ → κ} {selected : ρ → Bool} {db : D}

/-- The keys that an update changes are those of the rows that it selects. -/
private theorem mem_changed (keyed : ((part.get db).map key).Nodup) (scan : Scan ρ) {row : ρ} (stored : row ∈ part.get db) :
    key row ∈ (scan.arrange ((part.get db).filter selected)).map key ↔ selected row = true := by
  constructor
  · intro member
    obtain ⟨other, listed, same⟩ := List.mem_map.mp member
    obtain ⟨there, chosen⟩ := List.mem_filter.mp ((scan.perm _).mem_iff.mp listed)
    rwa [← List.inj_on_of_nodup_map keyed there stored same]
  · intro chosen
    exact List.mem_map_of_mem ((scan.perm _).mem_iff.mpr (List.mem_filter.mpr ⟨stored, chosen⟩))

private theorem nodup_changed (keyed : ((part.get db).map key).Nodup) (scan : Scan ρ) :
    ((scan.arrange ((part.get db).filter selected)).map key).Nodup := by
  rw [((scan.perm _).map key).nodup_iff]
  exact keyed.sublist (List.filter_sublist.map key)

end Selected

/-- A row changed where it is selected. -/
def setWhere (selected : ρ → Bool) (set : ρ → ρ) (row : ρ) : ρ := if selected row then set row else row

theorem apply_setWhere (column : ρ → σ) (selected : ρ → Bool) (set : ρ → ρ) (row : ρ) :
    column (setWhere selected set row) = if selected row = true then column (set row) else column row :=
  apply_ite column _ _ _

theorem apply_setWhere_of_same (column : ρ → σ) {set : ρ → ρ} (same : ∀ row, column (set row) = column row)
    (selected : ρ → Bool) (row : ρ) : column (setWhere selected set row) = column row := by
  rw [apply_setWhere column, same, ite_self]

/-- A column that the change of a row keeps. -/
theorem map_setWhere (column : ρ → σ) {set : ρ → ρ} (same : ∀ row, column (set row) = column row)
    (selected : ρ → Bool) (rows : List ρ) : (rows.map (setWhere selected set)).map column = rows.map column := by
  rw [List.map_map]
  exact List.map_congr_left fun row _ => apply_setWhere_of_same column same selected row

/-- A nullable column that the change of a row keeps or sets to `NULL`. -/
theorem filterMap_setWhere_sublist (column : ρ → Option σ) {set : ρ → ρ}
    (same : ∀ row, column (set row) = column row ∨ column (set row) = none) (selected : ρ → Bool) (rows : List ρ) :
    ((rows.map (setWhere selected set)).filterMap column).Sublist (rows.filterMap column) := by
  induction rows with
  | nil => exact .slnil
  | cons row rows ih =>
    have kept : column (setWhere selected set row) = column row ∨ column (setWhere selected set row) = none := by
      rw [setWhere]
      split
      · exact same row
      · exact .inl rfl
    rw [List.map_cons, List.filterMap_cons, List.filterMap_cons]
    rcases kept with kept | kept
    · rw [kept]
      cases column row with
      | none => exact ih
      | some value => exact ih.cons_cons value
    · rw [kept]
      cases column row with
      | none => exact ih
      | some value => exact ih.cons value

section Update

variable {Valid : D → Prop} [DecidablePred Valid] [DecidableEq κ] (part : Part D ρ) (key : ρ → κ)

/-- The changes of single rows, one after the other. -/
def Constrained.changeEach (set : ρ → ρ) (table : Constrained Valid) (keys : List κ) : Option (Constrained Valid) :=
  keys.foldlM (fun table k => check Valid (part.map (setWhere (fun row => decide (key row = k)) set) table.contents)) table

/-- `UPDATE ... SET ... WHERE`, in the order of the scan -/
def Constrained.update (scan : Scan ρ) (selected : ρ → Bool) (set : ρ → ρ) (table : Constrained Valid) :
    Option (Constrained Valid) :=
  table.changeEach part key set ((scan.arrange ((part.get table.contents).filter selected)).map key)

variable {part key} {set : ρ → ρ} {selected : ρ → Bool} {db : D}

/-- Changing the rows of some keys, then that of another. -/
private theorem map_change (stays : ∀ row, key (set row) = key row) {k : κ} {keys : List κ} (new : k ∉ keys) :
    part.map (setWhere (fun row => decide (key row = k)) set)
        (part.map (setWhere (fun row => decide (key row ∈ keys)) set) db) =
      part.map (setWhere (fun row => decide (key row ∈ keys ++ [k])) set) db := by
  rw [part.map_map]
  congr 1
  funext row
  simp only [Function.comp_apply, setWhere, List.mem_append, List.mem_singleton, decide_eq_true_eq]
  by_cases changed : key row ∈ keys
  · have other : key row ≠ k := fun same => new (same ▸ changed)
    simp [changed, stays, other]
  · simp [changed]

private theorem changeEach_cons {table : Constrained Valid} {k : κ} {keys : List κ} :
    table.changeEach part key set (k :: keys) =
      (check Valid (part.map (setWhere (fun row => decide (key row = k)) set) table.contents)).bind
        fun table => table.changeEach part key set keys := rfl

private theorem changeEach_rows (stays : ∀ row, key (set row) = key row) {done keys : List κ}
    (distinct : (done ++ keys).Nodup) {table after : Constrained Valid}
    (begun : table.contents = part.map (setWhere (fun row => decide (key row ∈ done)) set) db)
    (changed : table.changeEach part key set keys = some after) :
    after.contents = part.map (setWhere (fun row => decide (key row ∈ done ++ keys)) set) db := by
  induction keys generalizing done table with
  | nil =>
    cases changed
    rw [begun, List.append_nil]
  | cons k keys ih =>
    rw [changeEach_cons] at changed
    obtain ⟨middle, checked, changed⟩ := Option.bind_eq_some_iff.mp changed
    have new : k ∉ done := by
      intro member
      exact (List.nodup_append.mp distinct).2.2 k member k List.mem_cons_self rfl
    have next := check_eq_some checked
    rw [begun, map_change stays new] at next
    rw [List.append_cons] at distinct ⊢
    exact ih distinct next changed

private theorem changeEach_of_valid (stays : ∀ row, key (set row) = key row) {done keys : List κ}
    (distinct : (done ++ keys).Nodup) {table : Constrained Valid}
    (begun : table.contents = part.map (setWhere (fun row => decide (key row ∈ done)) set) db)
    (mixed : ∀ front, front <+: keys → Valid (part.map (setWhere (fun row => decide (key row ∈ done ++ front)) set) db)) :
    ∃ after, table.changeEach part key set keys = some after := by
  induction keys generalizing done table with
  | nil => exact ⟨table, rfl⟩
  | cons k keys ih =>
    have new : k ∉ done := by
      intro member
      exact (List.nodup_append.mp distinct).2.2 k member k List.mem_cons_self rfl
    have next := mixed [k] ⟨keys, rfl⟩
    rw [changeEach_cons, begun, map_change stays new, check_of_valid next, Option.bind_some]
    rw [List.append_cons] at distinct
    refine ih distinct rfl fun front rest => ?_
    rw [List.append_assoc]
    exact mixed (k :: front) (List.cons_prefix_cons.mpr ⟨rfl, rest⟩)

private theorem map_congr {chosen other : ρ → Bool} (same : ∀ row ∈ part.get db, chosen row = other row) :
    part.map (setWhere chosen set) db = part.map (setWhere other set) db := by
  rw [Part.map, Part.map]
  congr 1
  refine List.map_congr_left fun row stored => ?_
  rw [setWhere, setWhere, same row stored]

private theorem map_nothing : part.map (setWhere (fun row => decide (key row ∈ ([] : List κ))) set) db = db := by
  have same : (part.get db).map (setWhere (fun row => decide (key row ∈ ([] : List κ))) set) = part.get db := by
    conv_rhs => rw [← List.map_id (part.get db)]
    refine List.map_congr_left fun row _ => ?_
    simp [setWhere]
  rw [Part.map, same, part.put_get]

namespace Constrained

variable {table after : Constrained Valid} {scan : Scan ρ}

/-- An update that succeeds has changed the rows that it selects. -/
theorem update_contents (keyed : ((part.get table.contents).map key).Nodup) (stays : ∀ row, key (set row) = key row)
    (updated : table.update part key scan selected set = some after) :
    after.contents = part.map (setWhere selected set) table.contents := by
  have begun : table.contents = part.map (setWhere (fun row => decide (key row ∈ ([] : List κ))) set) table.contents :=
    map_nothing.symm
  have changed := changeEach_rows stays (nodup_changed keyed scan) begun updated
  rw [changed, List.nil_append]
  refine map_congr fun row stored => ?_
  exact Bool.eq_iff_iff.mpr (decide_eq_true_iff.trans (mem_changed keyed scan stored))

/-- An update succeeds if the constraints hold whichever of its rows it has changed. -/
theorem update_of_mixed (keyed : ((part.get table.contents).map key).Nodup) (stays : ∀ row, key (set row) = key row)
    (mixed : ∀ chosen : ρ → Bool, (∀ row, chosen row = true → selected row = true) →
      Valid (part.map (setWhere chosen set) table.contents)) :
    ∃ after, table.update part key scan selected set = some after ∧
      after.contents = part.map (setWhere selected set) table.contents := by
  have begun : table.contents = part.map (setWhere (fun row => decide (key row ∈ ([] : List κ))) set) table.contents :=
    map_nothing.symm
  have fronts : ∀ front, front <+: (scan.arrange ((part.get table.contents).filter selected)).map key →
      Valid (part.map (setWhere (fun row => decide (key row ∈ [] ++ front)) set) table.contents) := by
    intro front initial
    have valid := mixed (fun row => decide (key row ∈ front) && selected row) fun row chosen => by
      rw [Bool.and_eq_true] at chosen
      exact chosen.2
    convert valid using 1
    refine map_congr fun row stored => ?_
    by_cases member : key row ∈ front
    · simp [member, (mem_changed keyed scan stored).mp (initial.subset member)]
    · simp [member]
  obtain ⟨after, updated⟩ := changeEach_of_valid stays (nodup_changed keyed scan) begun fronts
  exact ⟨after, updated, update_contents keyed stays updated⟩

end Constrained

end Update

end JobRelay.Sessions
