import Mathlib.Data.List.Nodup
import Mathlib.Data.List.Count

/-! # Tables with a primary key

A table is a list of rows whose keys are pairwise distinct; the constraint is a field, so no
operation can leave two rows with one key. `put` replaces the row of a key and `insert` appends a
row whose key is new. A serial table adds the sequence that supplies its keys: every stored key is
below the next value, and drawing a value never reuses one.
-/

namespace JobRelay.Sessions

/-- Where keys are pairwise distinct, one row has the key of a row. -/
theorem filter_of_nodup {ρ κ : Type*} [DecidableEq κ] {key : ρ → κ} {rows : List ρ} {row : ρ}
    (distinct : (rows.map key).Nodup) (member : row ∈ rows) :
    rows.filter (fun other => decide (key other = key row)) = [row] := by
  induction rows with
  | nil => cases member
  | cons head rest ih =>
    rw [List.map_cons, List.nodup_cons] at distinct
    rcases List.mem_cons.mp member with rfl | later
    · rw [List.filter_cons_of_pos (by simp), List.filter_eq_nil_iff.mpr]
      intro other inRest same
      exact distinct.1 (of_decide_eq_true same ▸ List.mem_map_of_mem inRest)
    · have other : key head ≠ key row := fun same => distinct.1 (same ▸ List.mem_map_of_mem later)
      rw [List.filter_cons_of_neg (by simpa using other), ih distinct.2 later]

/-- Rows in insertion order with pairwise distinct keys. -/
structure Table {ρ : Type*} {κ : Type*} (key : ρ → κ) where
  rows : List ρ
  unique : (rows.map key).Nodup

namespace Table

variable {ρ : Type*} {κ : Type*} {key : ρ → κ} [DecidableEq κ]

def empty : Table key := ⟨[], List.nodup_nil⟩

omit [DecidableEq κ] in
/-- A table is its rows. -/
theorem rows_injective : Function.Injective (rows : Table key → List ρ) := by
  rintro ⟨rows, unique⟩ ⟨_, _⟩ same
  cases same
  rfl

/-- The row stored under a key. -/
def find? (table : Table key) (k : κ) : Option ρ :=
  table.rows.find? (fun row => decide (key row = k))

private theorem map_key_put (rows : List ρ) (row : ρ) :
    (rows.map (fun old => if key old = key row then row else old)).map key = rows.map key := by
  rw [List.map_map]
  apply List.map_congr_left
  intro old _
  simp only [Function.comp_apply]
  split
  · next same => exact same.symm
  · rfl

/-- Replace the row with the same key; a table without that key is unchanged. -/
def put (table : Table key) (row : ρ) : Table key where
  rows := table.rows.map (fun old => if key old = key row then row else old)
  unique := by rw [map_key_put]; exact table.unique

/-- Append a row under a new key; an existing key leaves the table unchanged. -/
def insert (table : Table key) (row : ρ) : Table key :=
  if present : key row ∈ table.rows.map key then table
  else
    { rows := table.rows ++ [row]
      unique := by
        rw [List.map_append, List.nodup_append]
        refine ⟨table.unique, by simp, ?_⟩
        rintro k stored k' single rfl
        obtain rfl : k = key row := by simpa using single
        exact present stored }

omit [DecidableEq κ] in
/-- Where keys are numbers below a bound, there are at most that many rows. -/
theorem length_le {key : ρ → ℕ} (table : Table key) {bound : ℕ} (below : ∀ row ∈ table.rows, key row < bound) :
    table.rows.length ≤ bound := by
  have inside : table.rows.map key ⊆ List.range bound := by
    intro k member
    obtain ⟨row, stored, rfl⟩ := List.mem_map.mp member
    exact List.mem_range.mpr (below row stored)
  have shorter := (List.subperm_of_subset table.unique inside).length_le
  rwa [List.length_map, List.length_range] at shorter

theorem find?_key {table : Table key} {k : κ} {row : ρ} (found : table.find? k = some row) :
    key row = k := by
  simpa using List.find?_some found

theorem find?_mem {table : Table key} {k : κ} {row : ρ} (found : table.find? k = some row) :
    row ∈ table.rows := List.mem_of_find?_eq_some found

private theorem find?_of_mem {rows : List ρ} (unique : (rows.map key).Nodup) {row : ρ}
    (member : row ∈ rows) : rows.find? (fun other => decide (key other = key row)) = some row := by
  rw [← List.head?_filter, filter_of_nodup unique member, List.head?_cons]

/-- Stored rows are exactly those found under their own key. -/
theorem mem_rows_iff {table : Table key} {row : ρ} :
    row ∈ table.rows ↔ table.find? (key row) = some row :=
  ⟨fun member => find?_of_mem table.unique member, find?_mem⟩

theorem find?_eq_none {table : Table key} {k : κ} :
    table.find? k = none ↔ ∀ row ∈ table.rows, key row ≠ k := by
  simp [find?]

theorem find?_of_key {table : Table key} {row : ρ} {k : κ} (member : row ∈ table.rows)
    (same : key row = k) : table.find? k = some row := same ▸ mem_rows_iff.mp member

theorem put_of_absent {table : Table key} {row : ρ} (absent : table.find? (key row) = none) :
    table.put row = table := by
  cases table with
  | mk rows unique =>
    simp only [put, mk.injEq]
    conv_rhs => rw [← List.map_id rows]
    apply List.map_congr_left
    intro old member
    exact if_neg (find?_eq_none.mp absent old member)

theorem mem_put {table : Table key} {row other : ρ} {old : ρ}
    (stored : table.find? (key row) = some old) :
    other ∈ (table.put row).rows ↔ other = row ∨ (other ∈ table.rows ∧ key other ≠ key row) := by
  simp only [put, List.mem_map]
  constructor
  · rintro ⟨candidate, member, rfl⟩
    by_cases same : key candidate = key row
    · exact .inl (by rw [if_pos same])
    · exact .inr (by rw [if_neg same]; exact ⟨member, same⟩)
  · rintro (rfl | ⟨member, distinct⟩)
    · exact ⟨old, find?_mem stored, if_pos (find?_key stored)⟩
    · exact ⟨other, member, if_neg distinct⟩

theorem find?_put_self {table : Table key} {row old : ρ} (stored : table.find? (key row) = some old) :
    (table.put row).find? (key row) = some row :=
  mem_rows_iff.mp ((mem_put stored).mpr (.inl rfl))

theorem find?_put_ne {table : Table key} {row : ρ} {k : κ} (distinct : key row ≠ k) :
    (table.put row).find? k = table.find? k := by
  cases stored : table.find? (key row) with
  | none => rw [put_of_absent stored]
  | some old =>
    apply Option.ext
    intro other
    constructor
    · intro found
      have same := find?_key found
      rcases (mem_put stored).mp (find?_mem found) with rfl | ⟨member, _⟩
      · exact absurd same distinct
      · exact find?_of_key member same
    · intro found
      have same := find?_key found
      exact find?_of_key ((mem_put stored).mpr (.inr ⟨find?_mem found, fun h => distinct (h ▸ same)⟩)) same

theorem find?_put (table : Table key) (row : ρ) (k : κ) :
    (table.put row).find? k = if key row = k then (table.find? k).map (fun _ => row) else table.find? k := by
  split
  · next same =>
    subst same
    cases stored : table.find? (key row) with
    | none => rw [put_of_absent stored, stored, Option.map_none]
    | some old => rw [find?_put_self stored, Option.map_some]
  · next distinct => exact find?_put_ne distinct

theorem rows_insert {table : Table key} {row : ρ} (fresh : table.find? (key row) = none) :
    (table.insert row).rows = table.rows ++ [row] := by
  have absent : key row ∉ table.rows.map key := by
    intro stored
    obtain ⟨other, member, same⟩ := List.mem_map.mp stored
    exact find?_eq_none.mp fresh other member same
  rw [insert, dif_neg absent]

theorem insert_of_present {table : Table key} {row old : ρ} (stored : table.find? (key row) = some old) :
    table.insert row = table := by
  rw [insert, dif_pos]
  exact List.mem_map.mpr ⟨old, find?_mem stored, find?_key stored⟩

theorem find?_insert_ne {table : Table key} {row : ρ} {k : κ} (distinct : key row ≠ k) :
    (table.insert row).find? k = table.find? k := by
  cases stored : table.find? (key row) with
  | some old => rw [insert_of_present stored]
  | none =>
    rw [find?, rows_insert stored, List.find?_append, find?]
    simp [distinct]

theorem find?_insert_self {table : Table key} {row : ρ} (fresh : table.find? (key row) = none) :
    (table.insert row).find? (key row) = some row :=
  mem_rows_iff.mp (by rw [rows_insert fresh]; simp)

/-- Replacing one row moves every count by that row alone. -/
theorem countP_put {table : Table key} {row old : ρ} (stored : table.find? (key row) = some old)
    (p : ρ → Bool) :
    (table.put row).rows.countP p + (if p old then 1 else 0) =
      table.rows.countP p + (if p row then 1 else 0) := by
  obtain ⟨rows, unique⟩ := table
  have member : old ∈ rows := find?_mem stored
  have same : key old = key row := find?_key stored
  clear stored
  simp only [put]
  induction rows with
  | nil => cases member
  | cons head rest ih =>
    rw [List.map_cons, List.nodup_cons] at unique
    rw [List.map_cons, List.countP_cons, List.countP_cons]
    rcases List.mem_cons.mp member with rfl | later
    · have untouched : rest.map (fun r => if key r = key row then row else r) = rest := by
        conv_rhs => rw [← List.map_id rest]
        apply List.map_congr_left
        intro other inRest
        refine if_neg (fun h => unique.1 ?_)
        exact List.mem_map.mpr ⟨other, inRest, h.trans same.symm⟩
      rw [untouched, if_pos same]
      omega
    · have other : key head ≠ key row := fun h =>
        unique.1 (List.mem_map.mpr ⟨old, later, same.trans h.symm⟩)
      have rest := ih unique.2 later
      rw [if_neg other]
      omega

@[simp] theorem put_keys (table : Table key) (row : ρ) :
    (table.put row).rows.map key = table.rows.map key := map_key_put table.rows row

omit [DecidableEq κ] in
private theorem countP_le_of_keys {p : ρ → Bool} {later rows : List ρ}
    (keys : later.map key = rows.map key)
    (implies : ∀ row' ∈ later, ∀ row ∈ rows, key row' = key row → p row' = true → p row = true) :
    later.countP p ≤ rows.countP p := by
  induction later generalizing rows with
  | nil => exact Nat.zero_le _
  | cons head' rest' ih =>
    cases rows with
    | nil => cases keys
    | cons head rest =>
      rw [List.map_cons, List.map_cons, List.cons.injEq] at keys
      have step := ih keys.2 fun row' member' row member =>
        implies row' (List.mem_cons_of_mem _ member') row (List.mem_cons_of_mem _ member)
      have first := implies head' List.mem_cons_self head List.mem_cons_self keys.1
      rw [List.countP_cons, List.countP_cons]
      by_cases holds : p head' = true
      · rw [if_pos holds, if_pos (first holds)]
        omega
      · rw [if_neg holds]
        omega

/-- Rows that change under fixed keys count no more if none newly meets the predicate. -/
theorem countP_le_of_find? {before after : Table key} {p : ρ → Bool}
    (keys : after.rows.map key = before.rows.map key)
    (implies : ∀ k row row', before.find? k = some row → after.find? k = some row' →
      p row' = true → p row = true) : after.rows.countP p ≤ before.rows.countP p := by
  apply countP_le_of_keys keys
  intro row' member' row member same
  exact implies (key row) row row' (mem_rows_iff.mp member) (same ▸ mem_rows_iff.mp member')

/-- At most one row has a key. -/
theorem countP_key_le_one (table : Table key) (k : κ) :
    (table.rows.countP fun row => decide (key row = k)) ≤ 1 := by
  have once := List.nodup_iff_count_le_one.mp table.unique k
  rw [List.count, List.countP_map] at once
  refine le_of_eq_of_le (List.countP_congr fun row _ => ?_) once
  simp

/-- One row has a key, or none has it. -/
theorem countP_key (table : Table key) (k : κ) :
    (table.rows.countP fun row => decide (key row = k)) = if (table.find? k).isSome then 1 else 0 := by
  cases found : table.find? k with
  | none =>
    rw [List.countP_eq_zero.mpr]
    · rfl
    · intro row member same
      exact find?_eq_none.mp found row member (of_decide_eq_true same)
  | some row =>
    obtain rfl : key row = k := find?_key found
    rw [List.countP_eq_length_filter, filter_of_nodup table.unique (find?_mem found)]
    rfl

theorem countP_insert {table : Table key} {row : ρ} (fresh : table.find? (key row) = none)
    (p : ρ → Bool) :
    (table.insert row).rows.countP p = table.rows.countP p + (if p row then 1 else 0) := by
  rw [rows_insert fresh, List.countP_append, List.countP_singleton]

end Table

/-- A table whose keys come from a sequence: every stored key was drawn before. -/
structure SerialTable {ρ : Type*} (key : ρ → ℕ) extends Table key where
  next : ℕ
  below : ∀ row ∈ rows, key row < next

namespace SerialTable

variable {ρ : Type*} {key : ρ → ℕ}

def empty (next : ℕ) : SerialTable key := ⟨.empty, next, by intro row member; cases member⟩

/-- Draw the next value of the sequence; a drawn value is never returned. -/
def draw (table : SerialTable key) : SerialTable key where
  toTable := table.toTable
  next := table.next + 1
  below row member := Nat.lt_succ_of_lt (table.below row member)

def put (table : SerialTable key) (row : ρ) : SerialTable key where
  toTable := table.toTable.put row
  next := table.next
  below other member := by
    cases stored : table.toTable.find? (key row) with
    | none =>
      rw [Table.put_of_absent stored] at member
      exact table.below other member
    | some old =>
      rcases (Table.mem_put stored).mp member with rfl | ⟨kept, _⟩
      · exact Table.find?_key stored ▸ table.below old (Table.find?_mem stored)
      · exact table.below other kept

/-- Store a row under a drawn key. -/
def insert (table : SerialTable key) (row : ρ) : SerialTable key :=
  if drawn : key row < table.next then
    { toTable := table.toTable.insert row
      next := table.next
      below := by
        intro other member
        cases stored : table.toTable.find? (key row) with
        | some old =>
          rw [Table.insert_of_present stored] at member
          exact table.below other member
        | none =>
          rw [Table.rows_insert stored, List.mem_append, List.mem_singleton] at member
          rcases member with kept | rfl
          · exact table.below other kept
          · exact drawn }
  else table

@[simp] theorem draw_toTable (table : SerialTable key) : table.draw.toTable = table.toTable := rfl
@[simp] theorem draw_next (table : SerialTable key) : table.draw.next = table.next + 1 := rfl
@[simp] theorem put_toTable (table : SerialTable key) (row : ρ) :
    (table.put row).toTable = table.toTable.put row := rfl
@[simp] theorem put_next (table : SerialTable key) (row : ρ) : (table.put row).next = table.next := rfl

theorem insert_toTable {table : SerialTable key} {row : ρ} (drawn : key row < table.next) :
    (table.insert row).toTable = table.toTable.insert row := by rw [insert, dif_pos drawn]

@[simp] theorem insert_next (table : SerialTable key) (row : ρ) :
    (table.insert row).next = table.next := by
  unfold insert
  split <;> rfl

/-- A drawn but unused key has no row. -/
theorem find?_of_next_le {table : SerialTable key} {k : ℕ} (undrawn : table.next ≤ k) :
    table.toTable.find? k = none := by
  apply Table.find?_eq_none.mpr
  intro row member same
  have := table.below row member
  omega

end SerialTable

end JobRelay.Sessions
