import Mathlib.Data.List.Dedup
import Mathlib.Data.List.Sort

/-! # Queries

A query under an `ORDER BY` returns its rows in some order in which none follows one that it must precede; rows
that tie may come in any order, and in another one the next time. The pages read one after the other are the whole
result exactly if no rows that tie are on two pages. Grouping a left join by its left rows gives every one of them
its matches.
-/

namespace JobRelay.Sessions

variable {α : Type*} {le : α → α → Prop}

/-- `LIMIT limit OFFSET offset` -/
def page (limit offset : ℕ) (rows : List α) : List α := (rows.drop offset).take limit

/-- The first pages, one after the other. -/
def pages (limit n : ℕ) (query : ℕ → List α) : List α :=
  ((List.range n).map fun k => page limit (k * limit) (query k)).flatten

private theorem mem_page {limit offset i : ℕ} {rows : List α} {row : α} (found : rows[i]? = some row)
    (above : offset ≤ i) (below : i < offset + limit) : row ∈ page limit offset rows := by
  apply List.mem_iff_getElem?.mpr
  refine ⟨i - offset, ?_⟩
  rw [page, List.getElem?_take_of_lt (by omega), List.getElem?_drop, Nat.add_sub_cancel' above]
  exact found

/-- A query plan: the order in which it returns rows under an `ORDER BY`. -/
structure Plan (le : α → α → Prop) where
  arrange : List α → List α
  perm : ∀ rows, (arrange rows).Perm rows
  sorted : ∀ rows, (arrange rows).Pairwise le

theorem pages_succ (limit n : ℕ) (query : ℕ → List α) :
    pages limit (n + 1) query = pages limit n query ++ page limit (n * limit) (query n) := by
  rw [pages, pages, List.range_succ, List.map_append, List.flatten_append, List.map_singleton, List.flatten_singleton]

/-- Pages of one list are a front of it. -/
theorem pages_const (limit n : ℕ) (rows : List α) : pages limit n (fun _ => rows) = rows.take (n * limit) := by
  induction n with
  | zero => simp [pages]
  | succ n ih => rw [pages_succ, ih, page, Nat.succ_mul, List.take_add]

namespace Plan

/-- Under a key that no two rows share, all plans return the same. -/
theorem arrange_eq (plan plan' : Plan le) {rows : List α}
    (total : ∀ a ∈ rows, ∀ b ∈ rows, le a b → le b a → a = b) : plan.arrange rows = plan'.arrange rows := by
  have perm := (plan.perm rows).trans (plan'.perm rows).symm
  apply perm.eq_of_pairwise _ (plan.sorted rows) (plan'.sorted rows)
  intro a b member member'
  exact total a ((plan.perm rows).mem_iff.mp member) b ((plan'.perm rows).mem_iff.mp member')

/-- Rows that are in order stay as they are. -/
theorem arrange_sorted (plan : Plan le) {rows : List α} (total : ∀ a ∈ rows, ∀ b ∈ rows, le a b → le b a → a = b)
    (sorted : rows.Pairwise le) : plan.arrange rows = rows := by
  apply (plan.perm rows).eq_of_pairwise _ (plan.sorted rows) sorted
  intro a b member member'
  exact total a ((plan.perm rows).mem_iff.mp member) b member'

/-- Then the pages are the result, whatever plans the queries run under. -/
theorem pages_eq (plan : Plan le) (plans : ℕ → Plan le) {rows : List α} {limit n : ℕ}
    (total : ∀ a ∈ rows, ∀ b ∈ rows, le a b → le b a → a = b) (enough : rows.length ≤ n * limit) :
    pages limit n (fun k => (plans k).arrange rows) = plan.arrange rows := by
  have same : (fun k => (plans k).arrange rows) = fun _ => plan.arrange rows :=
    funext fun k => (plans k).arrange_eq plan total
  rw [same, pages_const, List.take_of_length_le]
  rwa [(plan.perm rows).length_eq]

/-- Of two rows that tie and follow each other, either may come first. -/
private theorem swapped {front rest : List α} {x y : α} (sorted : (front ++ x :: y :: rest).Pairwise le)
    (tie : le y x) : (front ++ y :: x :: rest).Pairwise le := by
  simp only [List.pairwise_append, List.pairwise_cons, List.mem_cons] at sorted ⊢
  grind

section Ties

variable [DecidableRel le]

/-- The plan that keeps rows that tie in the order in which they are stored. -/
def stable [Std.Total le] [IsTrans α le] : Plan le where
  arrange := List.insertionSort le
  perm := List.perm_insertionSort le
  sorted := List.pairwise_insertionSort le

/-- How many rows must come before a row. -/
def before (le : α → α → Prop) [DecidableRel le] (rows : List α) (row : α) : ℕ :=
  rows.countP fun other => !decide (le row other)

/-- How many rows do not have to come after a row, itself among them. -/
def upTo (le : α → α → Prop) [DecidableRel le] (rows : List α) (row : α) : ℕ :=
  rows.countP fun other => decide (le other row)

/-- No rows that tie are on two pages: the first and the last place that a row can have are on one. -/
def Together (le : α → α → Prop) [DecidableRel le] (limit : ℕ) (rows : List α) : Prop :=
  ∀ row ∈ rows, before le rows row / limit = (upTo le rows row - 1) / limit

instance (limit : ℕ) (rows : List α) : Decidable (Together le limit rows) := inferInstanceAs (Decidable (∀ _ ∈ _, _))

section Between

variable [IsTrans α le] {rows order : List α} (perm : order.Perm rows) (sorted : order.Pairwise le) (row : α) {i : ℕ}
  (small : i < order.length)

include perm sorted

/-- From the first place that a row can have on, no row must come before it. -/
private theorem le_of_before_le (first : before le rows row ≤ i) : le row order[i] := by
  by_contra sooner
  have all : (order.take (i + 1)).countP (fun other => !decide (le row other)) = (order.take (i + 1)).length := by
    apply List.countP_eq_length.mpr
    intro other member
    obtain ⟨t, bound, rfl⟩ := List.mem_take_iff_getElem.mp member
    rw [Bool.not_eq_true', decide_eq_false_iff_not]
    intro reached
    rcases Nat.lt_or_ge t i with early | late
    · exact sooner (trans_of le reached (List.pairwise_iff_getElem.mp sorted t i _ small early))
    · obtain rfl : t = i := by omega
      exact sooner reached
  have counted := (List.take_sublist (i + 1) order).countP_le (p := fun other => !decide (le row other))
  rw [all, List.length_take_of_le small, perm.countP_eq] at counted
  rw [before] at first
  omega

/-- Up to the last place that a row can have, no row must come after it. -/
private theorem le_of_lt_upTo (last : i < upTo le rows row) : le order[i] row := by
  by_contra later
  have none : (order.drop i).countP (fun other => decide (le other row)) = 0 := by
    apply List.countP_eq_zero.mpr
    intro other member
    obtain ⟨t, bound, rfl⟩ := List.mem_drop_iff_getElem.mp member
    rw [decide_eq_true_eq]
    intro reached
    rcases Nat.eq_zero_or_pos t with rfl | far
    · exact later reached
    · exact later (trans_of le (List.pairwise_iff_getElem.mp sorted i (i + t) small _ (by omega)) reached)
  rw [upTo, ← perm.countP_eq, ← List.take_append_drop i order, List.countP_append, none] at last
  have bound := (List.countP_le_length (p := fun other => decide (le other row)) (l := order.take i))
  rw [List.length_take_of_le small.le] at bound
  omega

end Between

variable [Std.Total le]

/-- The place of a row lies between those that the order leaves it. -/
private theorem place {rows order : List α} (perm : order.Perm rows) (sorted : order.Pairwise le) {i : ℕ}
    (small : i < order.length) : before le rows order[i] ≤ i ∧ i + 1 ≤ upTo le rows order[i] := by
  have parts : order = order.take i ++ order[i] :: order.drop (i + 1) := by
    rw [← List.drop_eq_getElem_cons small, List.take_append_drop]
  have length : (order.take i).length = i := List.length_take_of_le small.le
  generalize order[i] = row at parts
  generalize order.take i = front at parts length
  generalize order.drop (i + 1) = rest at parts
  subst parts
  obtain ⟨_, after, across⟩ := List.pairwise_append.mp sorted
  have reflexive : le row row := (Std.Total.total row row).elim id id
  have behind : (row :: rest).countP (fun other => !decide (le row other)) = 0 := by
    apply List.countP_eq_zero.mpr
    intro other member
    rcases List.mem_cons.mp member with rfl | member
    · simpa using reflexive
    · simpa using List.rel_of_pairwise_cons after member
  have ahead : front.countP (fun other => decide (le other row)) = front.length := by
    apply List.countP_eq_length.mpr
    intro other member
    simpa using across other member row List.mem_cons_self
  constructor
  · rw [before, ← perm.countP_eq, List.countP_append, behind, Nat.add_zero]
    exact List.countP_le_length.trans_eq length
  · rw [upTo, ← perm.countP_eq, List.countP_append, List.countP_cons_of_pos (by simpa using reflexive), ahead]
    omega

section Complete

variable {rows : List α} {limit : ℕ} (together : Together le limit rows)

include together

private theorem place_div {order : List α} (perm : order.Perm rows) (sorted : order.Pairwise le) {i : ℕ}
    (small : i < order.length) : before le rows order[i] / limit = i / limit := by
  obtain ⟨first, last⟩ := place perm sorted small
  have same := together order[i] (perm.mem_iff.mp (List.getElem_mem small))
  apply le_antisymm
  · exact Nat.div_le_div_right first
  · rw [same]
    exact Nat.div_le_div_right (by omega)

/-- A page is the rows whose places are on it. -/
private theorem page_eq_filter (positive : 0 < limit) {order : List α} (perm : order.Perm rows)
    (sorted : order.Pairwise le) (k : ℕ) :
    page limit (k * limit) order = order.filter fun row => decide (before le rows row / limit = k) := by
  have parts : order = order.take (k * limit) ++ (page limit (k * limit) order ++ order.drop (k * limit + limit)) := by
    rw [page, ← List.drop_drop, List.take_append_drop, List.take_append_drop]
  have early : (order.take (k * limit)).filter (fun row => decide (before le rows row / limit = k)) = [] := by
    apply List.filter_eq_nil_iff.mpr
    intro row member
    obtain ⟨i, bound, rfl⟩ := List.mem_take_iff_getElem.mp member
    have inside : i < order.length := by omega
    have sooner : i / limit < k := (Nat.div_lt_iff_lt_mul positive).mpr (by omega)
    rw [place_div together perm sorted inside, decide_eq_true_eq]
    omega
  have late : (order.drop (k * limit + limit)).filter (fun row => decide (before le rows row / limit = k)) = [] := by
    apply List.filter_eq_nil_iff.mpr
    intro row member
    obtain ⟨i, bound, rfl⟩ := List.mem_drop_iff_getElem.mp member
    have later : k + 1 ≤ (k * limit + limit + i) / limit := by
      rw [Nat.le_div_iff_mul_le positive, Nat.succ_mul]
      omega
    rw [place_div together perm sorted (by omega), decide_eq_true_eq]
    omega
  have inside : (page limit (k * limit) order).filter (fun row => decide (before le rows row / limit = k)) =
      page limit (k * limit) order := by
    apply List.filter_eq_self.mpr
    intro row member
    obtain ⟨i, bound, rfl⟩ := List.mem_take_iff_getElem.mp member
    rw [List.length_drop] at bound
    have here : (k * limit + i) / limit = k := by
      rw [Nat.mul_comm, Nat.mul_add_div positive, Nat.div_eq_of_lt (by omega), Nat.add_zero]
    rw [List.getElem_drop, place_div together perm sorted (by omega), decide_eq_true_eq]
    exact here
  conv_rhs => rw [parts, List.filter_append, List.filter_append, early, late, inside]
  simp

private theorem pages_perm_filter (positive : 0 < limit) (plans : ℕ → Plan le) (n : ℕ) :
    (pages limit n fun k => (plans k).arrange rows).Perm
      (rows.filter fun row => decide (before le rows row / limit < n)) := by
  induction n with
  | zero => simp [pages]
  | succ n ih =>
    have last := ((plans n).perm rows).filter fun row => decide (before le rows row / limit = n)
    rw [← page_eq_filter together positive ((plans n).perm rows) ((plans n).sorted rows)] at last
    rw [pages_succ]
    refine (ih.append last).trans ?_
    have halves := List.filter_append_perm (fun row => decide (before le rows row / limit < n))
      (rows.filter fun row => decide (before le rows row / limit < n + 1))
    rw [List.filter_filter, List.filter_filter] at halves
    convert halves using 2
    · apply List.filter_congr
      intro row _
      rw [Bool.eq_iff_iff, Bool.and_eq_true, decide_eq_true_eq, decide_eq_true_eq]
      omega
    · apply List.filter_congr
      intro row _
      rw [Bool.eq_iff_iff, Bool.and_eq_true, Bool.not_eq_true', decide_eq_true_eq, decide_eq_true_eq,
        decide_eq_false_iff_not]
      omega

theorem pages_perm (positive : 0 < limit) (plans : ℕ → Plan le) {n : ℕ} (enough : rows.length ≤ n * limit) :
    (pages limit n fun k => (plans k).arrange rows).Perm rows := by
  have all : (rows.filter fun row => decide (before le rows row / limit < n)) = rows := by
    apply List.filter_eq_self.mpr
    intro row member
    have perm := (plans 0).perm rows
    obtain ⟨i, inside, rfl⟩ := List.getElem_of_mem (perm.mem_iff.mpr member)
    rw [place_div together perm ((plans 0).sorted rows) inside, decide_eq_true_eq, Nat.div_lt_iff_lt_mul positive]
    rw [perm.length_eq] at inside
    omega
  have filtered := pages_perm_filter together positive plans n
  rwa [all] at filtered

end Complete


/-- A plan may arrange the rows of one list as another sorted order of them. -/
private theorem exists_plan [IsTrans α le] {rows order : List α} (perm : order.Perm rows)
    (sorted : order.Pairwise le) : ∃ plan : Plan le, plan.arrange rows = order := by
  classical
  let base : Plan le := stable
  refine ⟨⟨Function.update base.arrange rows order, fun other => ?_, fun other => ?_⟩, Function.update_self ..⟩
  · by_cases same : other = rows
    · rw [same, Function.update_self]
      exact perm
    · rw [Function.update_of_ne same]
      exact base.perm other
  · by_cases same : other = rows
    · rw [same, Function.update_self]
      exact sorted
    · rw [Function.update_of_ne same]
      exact base.sorted other

/-- Rows that tie across the end of a page may come on both pages. -/
private theorem exists_twice [IsTrans α le] {rows order : List α} {limit n m i : ℕ} (positive : 0 < limit)
    (distinct : rows.Nodup) (perm : order.Perm rows) (sorted : order.Pairwise le) (ends : i + 1 = m * limit)
    (read : m < n) (small : i + 1 < order.length) (tie : le order[i + 1] order[i]) :
    ∃ plans : ℕ → Plan le, ¬(pages limit n fun k => (plans k).arrange rows).Perm rows := by
  obtain ⟨m, rfl⟩ : ∃ earlier, m = earlier + 1 := Nat.exists_eq_succ_of_ne_zero (by rintro rfl; omega)
  rw [Nat.succ_mul] at ends
  have parts : order = order.take i ++ order[i] :: order[i + 1] :: order.drop (i + 2) := by
    rw [← List.drop_eq_getElem_cons small, ← List.drop_eq_getElem_cons, List.take_append_drop]
  have length : (order.take i).length = i := List.length_take_of_le (by omega)
  generalize order[i] = x at parts tie
  generalize order[i + 1] = y at parts tie
  generalize order.take i = front at parts length
  generalize order.drop (i + 2) = rest at parts
  subst parts
  obtain ⟨plan, first⟩ := exists_plan perm sorted
  obtain ⟨plan', second⟩ := exists_plan (((List.Perm.swap x y rest).append_left front).trans perm) (swapped sorted tie)
  refine ⟨Function.update (fun _ => plan) (m + 1) plan', fun complete => ?_⟩
  have disjoint := (List.nodup_flatten.mp (complete.nodup_iff.mpr distinct)).2
  rw [List.pairwise_map] at disjoint
  have apart := List.pairwise_iff_getElem.mp disjoint m (m + 1) (by simp; omega) (by simpa) (by omega)
  simp only [List.getElem_range, Function.update_self, Function.update_of_ne (show m ≠ m + 1 by omega), first, second]
    at apart
  apply apart (a := x)
  · exact mem_page (by simp [length]) (by omega) (by omega) (i := i)
  · rw [Nat.succ_mul, ← ends]
    exact mem_page (by simp [length]) (le_refl _) (by omega)

private theorem together_of_perm [IsTrans α le] {rows : List α} {limit n : ℕ} (positive : 0 < limit)
    (distinct : rows.Nodup) (enough : rows.length ≤ n * limit)
    (complete : ∀ plans : ℕ → Plan le, (pages limit n fun k => (plans k).arrange rows).Perm rows) :
    Together le limit rows := by
  intro row member
  by_contra apart
  have perm := List.perm_insertionSort le rows
  have sorted := List.pairwise_insertionSort le rows
  generalize List.insertionSort le rows = order at perm sorted
  obtain ⟨i, inside, rfl⟩ := List.getElem_of_mem (perm.mem_iff.mpr member)
  obtain ⟨first, last⟩ := place perm sorted inside
  have bound : upTo le rows order[i] ≤ order.length := by
    rw [upTo, ← perm.countP_eq]
    exact List.countP_le_length
  have starts := @le_of_before_le _ _ _ _ _ _ perm sorted order[i]
  have ends := @le_of_lt_upTo _ _ _ _ _ _ perm sorted order[i]
  generalize order[i] = row at apart first last bound starts ends
  have split : before le rows row / limit < (upTo le rows row - 1) / limit :=
    lt_of_le_of_ne (Nat.div_le_div_right (by omega)) apart
  have reached := Nat.div_mul_le_self (upTo le rows row - 1) limit
  generalize (upTo le rows row - 1) / limit = m at split reached
  have begun := (Nat.div_lt_iff_lt_mul positive).mp split
  have small : m * limit < order.length := by omega
  have read : m < n := by
    rw [perm.length_eq] at small
    exact Nat.lt_of_mul_lt_mul_right (small.trans_le enough)
  obtain ⟨i, same⟩ : ∃ i, i + 1 = m * limit := ⟨m * limit - 1, by omega⟩
  rw [← same] at small
  obtain ⟨plans, twice⟩ := exists_twice positive distinct perm sorted same read small
    (trans_of le (ends small (by omega)) (starts (by omega) (by omega)))
  exact twice (complete plans)

/-- The pages hold every row once, whatever plans the queries run under, exactly if no rows that tie are on two. -/
theorem pages_perm_iff [IsTrans α le] {rows : List α} {limit n : ℕ} (positive : 0 < limit)
    (distinct : rows.Nodup) (enough : rows.length ≤ n * limit) :
    (∀ plans : ℕ → Plan le, (pages limit n fun k => (plans k).arrange rows).Perm rows) ↔ Together le limit rows :=
  ⟨together_of_perm positive distinct enough, fun together plans => pages_perm together positive plans enough⟩

end Ties

end Plan

section Joins

variable {β : Type*}

/-- What a left join puts beside a row: its matches, or one `NULL`. -/
def matched (right : List β) (on : β → Bool) : List (Option β) :=
  match right.filter on with
  | [] => [none]
  | found => found.map some

/-- `left LEFT JOIN right ON on` -/
def leftJoin (left : List α) (right : List β) (on : α → β → Bool) : List (α × Option β) :=
  left.flatMap fun row => (matched right (on row)).map fun other => (row, other)

theorem matched_ne_nil (right : List β) (on : β → Bool) : matched right on ≠ [] := by
  rw [matched]
  split
  · exact List.cons_ne_nil _ _
  · next found => simpa using found

/-- A count over the matches that ignores `NULL` counts matching rows. -/
theorem countP_matched (right : List β) (on p : β → Bool) :
    (matched right on).countP (fun other => other.any p) = right.countP fun row => on row && p row := by
  rw [matched]
  split
  · next none =>
    have unmatched : right.countP (fun row => on row && p row) = 0 := by
      apply List.countP_eq_zero.mpr
      intro row member both
      exact absurd (Bool.and_eq_true_iff.mp both).1 (List.filter_eq_nil_iff.mp none row member)
    rw [unmatched]
    rfl
  · rw [List.countP_map, List.countP_filter]
    apply List.countP_congr
    intro row _
    simp [and_comm]

variable [DecidableEq α]

/-- The groups of rows that share the columns of a `GROUP BY`. -/
def groups (rows : List (α × β)) : List (α × List β) :=
  (rows.map Prod.fst).dedup.map fun key => (key, (rows.filter fun row => decide (row.1 = key)).map Prod.snd)

private theorem keys_of_blocks {left : List α} (distinct : left.Nodup) {block : α → List β}
    (nonempty : ∀ row, block row ≠ []) :
    ((left.flatMap fun row => (block row).map fun other => (row, other)).map Prod.fst).dedup = left := by
  induction left with
  | nil => rfl
  | cons row left ih =>
    obtain ⟨outside, distinct⟩ := List.nodup_cons.mp distinct
    have same : ((block row).map fun other => (row, other)).map Prod.fst = List.replicate (block row).length row := by
      rw [List.map_map, ← List.map_const']
      rfl
    have apart : List.Disjoint (List.replicate (block row).length row)
        ((left.flatMap fun row => (block row).map fun other => (row, other)).map Prod.fst).dedup := by
      intro key here there
      rw [ih distinct, List.eq_of_mem_replicate here] at there
      exact outside there
    rw [List.flatMap_cons, List.map_append, List.dedup_append, same, apart.union_eq, ih distinct,
      List.replicate_dedup (by simpa using nonempty row), List.singleton_append]

private theorem block_of_key {left : List α} (distinct : left.Nodup) {block : α → List β} {key : α}
    (member : key ∈ left) :
    (((left.flatMap fun row => (block row).map fun other => (row, other)).filter fun row =>
      decide (row.1 = key)).map Prod.snd) = block key := by
  have here : ((block key).map fun other => (key, other)).filter (fun row => decide (row.1 = key)) =
      (block key).map fun other => (key, other) := by
    apply List.filter_eq_self.mpr
    simp
  have elsewhere : ∀ row, row ≠ key →
      ((block row).map fun other => (row, other)).filter (fun row => decide (row.1 = key)) = [] := by
    intro row other
    apply List.filter_eq_nil_iff.mpr
    simpa using fun _ _ => other
  induction left with
  | nil => cases member
  | cons row left ih =>
    obtain ⟨outside, distinct⟩ := List.nodup_cons.mp distinct
    rw [List.flatMap_cons, List.filter_append, List.map_append]
    rcases List.mem_cons.mp member with rfl | inside
    · have none : (left.flatMap fun row => (block row).map fun other => (row, other)).filter
          (fun row => decide (row.1 = key)) = [] := by
        rw [List.filter_flatMap, List.flatMap_eq_nil_iff]
        exact fun row member => elsewhere row (ne_of_mem_of_not_mem member outside)
      rw [here, none, List.map_map]
      simp [Function.comp_def]
    · rw [elsewhere row (ne_of_mem_of_not_mem inside outside).symm, List.map_nil, List.nil_append]
      exact ih distinct inside

/-- A group of a left join is that of one of its left rows. -/
theorem mem_of_groups {left : List α} {right : List β} {on : α → β → Bool} {key : α} {found : List (Option β)}
    (member : (key, found) ∈ groups (leftJoin left right on)) : key ∈ left := by
  obtain ⟨other, inside, same⟩ := List.mem_map.mp member
  cases same
  obtain ⟨row, joined, rfl⟩ := List.mem_map.mp (List.mem_dedup.mp inside)
  obtain ⟨_, present, inside⟩ := List.mem_flatMap.mp joined
  obtain ⟨_, _, rfl⟩ := List.mem_map.mp inside
  exact present

theorem groups_leftJoin {left : List α} (distinct : left.Nodup) (right : List β) (on : α → β → Bool) :
    groups (leftJoin left right on) = left.map fun row => (row, matched right (on row)) := by
  rw [groups, leftJoin, keys_of_blocks distinct fun row => matched_ne_nil right (on row)]
  apply List.map_congr_left
  intro key member
  rw [block_of_key distinct member]

end Joins

end JobRelay.Sessions
