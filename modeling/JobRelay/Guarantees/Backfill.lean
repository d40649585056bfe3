import Mathlib.Data.List.Nodup
import JobRelay.Model.ValidationMigration

/-! # The repair of old rows

Migration 0007 succeeds on exactly the databases in which the repair of the e-mails keeps them apart. Every other
statement keeps the constraints in force, whichever of its rows it has changed, and what the statements leave meets
the constraints that are added.
-/

namespace JobRelay.Guarantees

open Model.ValidationMigration Sessions

variable {isSpace : Char → Bool}

section Texts

/-- A text without control characters. -/
def Clean (text : String) : Prop := ∀ c ∈ text.toList, Model.isControl c = false

instance (text : String) : Decidable (Clean text) :=
  List.decidableBAll (fun c => Model.isControl c = false) text.toList

theorem hasContent_iff {text : String} : Model.hasContent isSpace text = true ↔ isBlank isSpace text = false ∧ Clean text := by
  rw [Model.hasContent, isBlank, Bool.and_eq_true, Bool.not_eq_true', List.any_eq_false, List.any_eq_true,
    List.all_eq_false, Clean]
  simp

theorem clean_withoutControl (text : String) : Clean (withoutControl text) := by
  intro c member
  rw [withoutControl, String.toList_ofList] at member
  simpa using (List.mem_filter.mp member).2

theorem Clean.stripped {text : String} (clean : Clean text) (blank : Char → Bool) : Clean (Model.stripped blank text) := by
  intro c member
  rw [Model.stripped, String.toList_ofList] at member
  exact clean c ((List.dropWhile_suffix blank).subset ((List.rdropWhile_prefix blank _).subset member))

theorem Clean.left {text : String} (clean : Clean text) (n : ℕ) : Clean (left text n) := by
  intro c member
  rw [Model.ValidationMigration.left, String.toList_ofList] at member
  exact clean c (List.take_subset n _ member)

theorem clean_sanitized (text : String) : Clean (sanitized text) := (clean_withoutControl text).stripped _

theorem Clean.append {first second : String} (clean : Clean first) (clean' : Clean second) : Clean (first ++ second) := by
  intro c member
  rw [String.toList_append] at member
  exact (List.mem_append.mp member).elim (clean c) (clean' c)

theorem withoutControl_of_clean {text : String} (clean : Clean text) : withoutControl text = text := by
  have same : text.toList.filter (fun c => !Model.isControl c) = text.toList :=
    List.filter_eq_self.mpr fun c member => by simp [clean c member]
  rw [withoutControl, same, String.ofList_toList]

/-- Repairing a text again changes nothing. -/
theorem sanitized_sanitized (text : String) : sanitized (sanitized text) = sanitized text := by
  rw [sanitized, withoutControl_of_clean (clean_sanitized text)]
  exact Model.stripped_stripped _ _

private theorem clean_digit {c : Char} (digit : c.isDigit = true) : Model.isControl c = false := by
  simp only [Char.isDigit, Bool.and_eq_true, decide_eq_true_eq, ge_iff_le, UInt32.le_iff_toNat_le] at digit
  simp only [Model.isControl, Bool.or_eq_false_iff, Bool.and_eq_false_iff, decide_eq_false_iff_not,
    UInt32.lt_iff_toNat_lt, UInt32.le_iff_toNat_le]
  obtain ⟨least, most⟩ := digit
  change 48 ≤ c.val.toNat at least
  change c.val.toNat ≤ 57 at most
  change ¬c.val.toNat < 32 ∧ (¬127 ≤ c.val.toNat ∨ ¬c.val.toNat ≤ 159)
  omega

private theorem clean_repr (n : ℕ) : Clean n.repr := by
  intro c member
  rw [Nat.toList_repr] at member
  exact clean_digit (Nat.isDigit_of_mem_toDigits (by decide) (by decide) member)

theorem clean_toString (id : ℤ) : Clean (toString id) := by
  rw [Int.toString_eq_repr, Int.repr_eq_if]
  split
  · exact clean_repr _
  · have minus : Clean "-" := by decide
    exact minus.append (clean_repr _)

private theorem repr_inj {n m : ℕ} (same : n.repr = m.repr) : n = m := by
  have digits := congrArg String.toList same
  rw [Nat.toList_repr, Nat.toList_repr] at digits
  have values := congrArg (fun digits => Nat.ofDigitChars 10 digits 0) digits
  simpa only [Nat.ofDigitChars_ten_toDigits] using values

private theorem repr_ne_minus (n m : ℕ) : n.repr ≠ "-" ++ m.repr := by
  intro same
  have digits := congrArg String.toList same
  rw [Nat.toList_repr, String.toList_append] at digits
  have member : '-' ∈ Nat.toDigits 10 n := by
    rw [digits]
    simp
  exact absurd (Nat.isDigit_of_mem_toDigits (by decide) (by decide) member) (by decide)

/-- Different numbers are printed differently. -/
theorem toString_inj {id other : ℤ} (same : toString id = toString other) : id = other := by
  rw [Int.toString_eq_repr, Int.toString_eq_repr, Int.repr_eq_if, Int.repr_eq_if] at same
  split at same <;> split at same
  · have equal := repr_inj same
    omega
  · exact absurd same (repr_ne_minus _ _)
  · exact absurd same.symm (repr_ne_minus _ _)
  · rw [String.append_right_inj] at same
    have equal := repr_inj same
    omega

/-- A letter is no blank. -/
theorem not_blank_of_letter (letters : ∀ c : Char, c.isAlpha = true → isSpace c = false) {text : String} {c : Char}
    (member : c ∈ text.toList) (letter : c.isAlpha = true) : isBlank isSpace text = false :=
  List.all_eq_false.mpr ⟨c, member, by simp [letters c letter]⟩

/-- What replaces the e-mail of a user that is blank. -/
def placeholder (id : ℤ) : String := "user" ++ toString id ++ "@invalido.local"

theorem placeholder_inj {id other : ℤ} (same : placeholder id = placeholder other) : id = other := by
  rw [placeholder, placeholder, String.append_left_inj, String.append_right_inj] at same
  exact toString_inj same

theorem clean_placeholder (id : ℤ) : Clean (placeholder id) := by
  have before : Clean "user" := by decide
  have after : Clean "@invalido.local" := by decide
  exact (before.append (clean_toString id)).append after

theorem not_blank_placeholder (letters : ∀ c : Char, c.isAlpha = true → isSpace c = false) (id : ℤ) :
    isBlank isSpace (placeholder id) = false := by
  have member : 'u' ∈ (placeholder id).toList := by simp [placeholder]
  exact not_blank_of_letter letters member (by decide)

end Texts

attribute [local irreducible] sanitized

section Keeps

variable {db : Database}

private theorem inForce_companies (inForce : InForce db) {rows : List Company}
    (ids : rows.map Company.id = db.companies.map Company.id) : InForce { db with companies := rows } where
  __ := inForce
  companies_pkey := ids ▸ inForce.companies_pkey
  users_company_id_fkey := ids ▸ inForce.users_company_id_fkey
  jobs_company_id_fkey := ids ▸ inForce.jobs_company_id_fkey

private theorem inForce_users (inForce : InForce db) {rows : List User} (ids : rows.map User.id = db.users.map User.id)
    (companyIds : rows.map User.companyId = db.users.map User.companyId) (emails : (rows.map User.email).Nodup) :
    InForce { db with users := rows } where
  __ := inForce
  users_pkey := ids ▸ inForce.users_pkey
  users_company_id_fkey := companyIds ▸ inForce.users_company_id_fkey
  uq_users_email := emails
  jobs_created_by_fkey := ids ▸ inForce.jobs_created_by_fkey

private theorem inForce_jobs (inForce : InForce db) {rows : List Job} (ids : rows.map Job.id = db.jobs.map Job.id)
    (companyIds : rows.map Job.companyId = db.jobs.map Job.companyId)
    (creators : (rows.filterMap Job.createdBy).Sublist (db.jobs.filterMap Job.createdBy))
    (keys : (rows.filterMap Job.key?).Sublist (db.jobs.filterMap Job.key?)) : InForce { db with jobs := rows } where
  __ := inForce
  jobs_pkey := ids ▸ inForce.jobs_pkey
  jobs_company_id_fkey := companyIds ▸ inForce.jobs_company_id_fkey
  jobs_created_by_fkey := List.Subset.trans creators.subset inForce.jobs_created_by_fkey
  uq_jobs_company_idempotency_key := inForce.uq_jobs_company_idempotency_key.sublist keys
  job_results_job_id_fkey := ids ▸ inForce.job_results_job_id_fkey
  dead_letter_jobs_job_id_fkey := ids ▸ inForce.dead_letter_jobs_job_id_fkey

private theorem inForce_results (inForce : InForce db) {rows : List JobResult}
    (ids : (rows.map JobResult.id).Sublist (db.results.map JobResult.id))
    (jobIds : (rows.map JobResult.jobId).Sublist (db.results.map JobResult.jobId)) :
    InForce { db with results := rows } where
  __ := inForce
  job_results_pkey := inForce.job_results_pkey.sublist ids
  uq_job_results_job_id := inForce.uq_job_results_job_id.sublist jobIds
  job_results_job_id_fkey := List.Subset.trans jobIds.subset inForce.job_results_job_id_fkey

private theorem inForce_deadLetters (inForce : InForce db) {rows : List DeadLetter}
    (ids : (rows.map DeadLetter.id).Sublist (db.deadLetters.map DeadLetter.id))
    (jobIds : (rows.filterMap DeadLetter.jobId).Sublist (db.deadLetters.filterMap DeadLetter.jobId)) :
    InForce { db with deadLetters := rows } where
  __ := inForce
  dead_letter_jobs_pkey := inForce.dead_letter_jobs_pkey.sublist ids
  dead_letter_jobs_job_id_fkey := List.Subset.trans jobIds.subset inForce.dead_letter_jobs_job_id_fkey

end Keeps

section Updates

private theorem sublist_of_eq {α : Type} {rows later : List α} (same : later = rows) : later.Sublist rows :=
  same ▸ List.Sublist.refl _

variable (table : Constrained InForce)

private theorem update_companies (scan : Scan Company) (selected : Company → Bool) (set : Company → Company)
    (ids : ∀ row, (set row).id = row.id) : ∃ after, table.update companies Company.id scan selected set = some after ∧
      after.contents = { table.contents with companies := table.contents.companies.map (setWhere selected set) } :=
  Constrained.update_of_mixed table.valid.companies_pkey ids fun chosen _ =>
    inForce_companies table.valid (map_setWhere Company.id ids chosen _)

/-- A statement on users that leaves the e-mails as they are. -/
private theorem update_users (scan : Scan User) (selected : User → Bool) (set : User → User)
    (ids : ∀ row, (set row).id = row.id) (companyIds : ∀ row, (set row).companyId = row.companyId)
    (emails : ∀ row, (set row).email = row.email) : ∃ after, table.update users User.id scan selected set = some after ∧
      after.contents = { table.contents with users := table.contents.users.map (setWhere selected set) } :=
  Constrained.update_of_mixed table.valid.users_pkey ids fun chosen _ =>
    inForce_users table.valid (map_setWhere User.id ids chosen _) (map_setWhere User.companyId companyIds chosen _)
      ((map_setWhere User.email emails chosen _).symm ▸ table.valid.uq_users_email)

/-- A statement on jobs that may unset the creator or the key. -/
private theorem update_jobs (scan : Scan Job) (selected : Job → Bool) (set : Job → Job)
    (ids : ∀ row, (set row).id = row.id) (companyIds : ∀ row, (set row).companyId = row.companyId)
    (creators : ∀ row, (set row).createdBy = row.createdBy ∨ (set row).createdBy = none)
    (keys : ∀ row, (set row).key? = row.key? ∨ (set row).key? = none) :
    ∃ after, table.update jobs Job.id scan selected set = some after ∧
      after.contents = { table.contents with jobs := table.contents.jobs.map (setWhere selected set) } :=
  Constrained.update_of_mixed table.valid.jobs_pkey ids fun chosen _ =>
    inForce_jobs table.valid (map_setWhere Job.id ids chosen _) (map_setWhere Job.companyId companyIds chosen _)
      (filterMap_setWhere_sublist Job.createdBy creators chosen _) (filterMap_setWhere_sublist Job.key? keys chosen _)

private theorem update_results (scan : Scan JobResult) (selected : JobResult → Bool) (set : JobResult → JobResult)
    (ids : ∀ row, (set row).id = row.id) (jobIds : ∀ row, (set row).jobId = row.jobId) :
    ∃ after, table.update results JobResult.id scan selected set = some after ∧
      after.contents = { table.contents with results := table.contents.results.map (setWhere selected set) } :=
  Constrained.update_of_mixed table.valid.job_results_pkey ids fun chosen _ =>
    inForce_results table.valid (sublist_of_eq (map_setWhere JobResult.id ids chosen _))
      (sublist_of_eq (map_setWhere JobResult.jobId jobIds chosen _))

private theorem update_deadLetters (scan : Scan DeadLetter) (selected : DeadLetter → Bool)
    (set : DeadLetter → DeadLetter) (ids : ∀ row, (set row).id = row.id) (jobIds : ∀ row, (set row).jobId = row.jobId) :
    ∃ after, table.update deadLetters DeadLetter.id scan selected set = some after ∧
      after.contents = { table.contents with deadLetters := table.contents.deadLetters.map (setWhere selected set) } :=
  Constrained.update_of_mixed table.valid.dead_letter_jobs_pkey ids fun chosen _ =>
    inForce_deadLetters table.valid (sublist_of_eq (map_setWhere DeadLetter.id ids chosen _))
      (filterMap_setWhere_sublist DeadLetter.jobId (fun row => .inl (jobIds row)) chosen _)

end Updates

section Rows

/-- What is left of a text, or what replaces it where that is blank. -/
private theorem hasContent_repaired {text default : String} (clean : Clean text) (cleanDefault : Clean default)
    (shown : isBlank isSpace default = false) :
    Model.hasContent isSpace (if isBlank isSpace text = true then default else text) = true := by
  rw [hasContent_iff]
  split
  · exact ⟨shown, cleanDefault⟩
  · next seen => exact ⟨by simpa using seen, clean⟩

private theorem length_of_shown {text : String} (shown : isBlank isSpace text = false) : 1 ≤ text.length := by
  obtain ⟨c, member, -⟩ := List.all_eq_false.mp shown
  have filled := List.length_pos_of_mem member
  rwa [String.length_toList] at filled

private theorem length_left (text : String) (n : ℕ) : (left text n).length ≤ n := by
  rw [left, ← String.length_toList, String.toList_ofList]
  exact List.length_take_le n _

private theorem kindAccepted_repaired (letters : ∀ c : Char, c.isAlpha = true → isSpace c = false) (kind : String) :
    Model.kindAccepted isSpace
      (if isBlank isSpace (left (sanitized kind) 100) = true then "desconhecido" else left (sanitized kind) 100) = true := by
  have cleanDefault : Clean "desconhecido" := by decide
  have shown : isBlank isSpace "desconhecido" = false := not_blank_of_letter letters (c := 'd') (by simp) (by decide)
  have content := hasContent_repaired ((clean_sanitized kind).left 100) cleanDefault shown
  have short : (if isBlank isSpace (left (sanitized kind) 100) = true then "desconhecido"
      else left (sanitized kind) 100).length ≤ 100 := by
    split
    · decide
    · exact length_left _ _
  rw [Model.kindAccepted, content, Bool.and_true, decide_eq_true_eq]
  exact ⟨length_of_shown (hasContent_iff.mp content).1, short⟩

private theorem between_repaired (least most attempts : ℤ) (ordered : least ≤ most) :
    least ≤ (if (!decide (least ≤ attempts ∧ attempts ≤ most)) = true then min (max attempts least) most else attempts) ∧
      (if (!decide (least ≤ attempts ∧ attempts ≤ most)) = true then min (max attempts least) most else attempts) ≤ most := by
  split
  · omega
  · next within =>
    rw [Bool.not_eq_true', Bool.not_eq_false, decide_eq_true_eq] at within
    exact within

private theorem keyAccepted_repaired (job : Job) :
    Model.keyAccepted isSpace (if job.keyRejected isSpace = true then none else job.idempotencyKey) = true := by
  split
  · rfl
  · next kept =>
    rcases stored : job.idempotencyKey with _ | key
    · rfl
    · rw [Job.keyRejected, stored, Option.any_some, Bool.or_eq_true, Bool.or_eq_true, not_or, not_or,
        Bool.not_eq_true, Bool.not_eq_true, decide_eq_true_eq] at kept
      obtain ⟨⟨shown, clean⟩, short⟩ := kept
      have content : Model.hasContent isSpace key = true :=
        hasContent_iff.mpr ⟨shown, fun c member => Bool.eq_false_iff.mpr (List.any_eq_false.mp clean c member)⟩
      rw [Model.keyAccepted, content, Bool.and_true, decide_eq_true_eq]
      exact ⟨length_of_shown shown, Nat.le_of_not_lt short⟩

private theorem setWhere_true {ρ : Type} (set : ρ → ρ) : setWhere (fun _ => true) set = set := by
  funext row
  rw [setWhere, if_pos rfl]

end Rows

section Groups

variable (scans : Scans) (table : Constrained InForce)

private theorem backfillCompanies_spec (letters : ∀ c : Char, c.isAlpha = true → isSpace c = false) :
    ∃ after rows, backfillCompanies isSpace scans table = some after ∧
      after.contents = { table.contents with companies := rows } ∧
      ∀ row ∈ rows, Model.hasContent isSpace row.name = true ∧ 0 < row.maxConcurrentJobs := by
  obtain ⟨first, updated, contents⟩ := update_companies table (scans.companies 0) (fun _ => true)
    (fun row => { row with name := sanitized row.name }) fun _ => rfl
  obtain ⟨second, updated', contents'⟩ := update_companies first (scans.companies 1) (fun row => isBlank isSpace row.name)
    (fun row => { row with name := "empresa " ++ toString row.id }) fun _ => rfl
  obtain ⟨third, updated'', contents''⟩ := update_companies second (scans.companies 2)
    (fun row => decide (row.maxConcurrentJobs < 1)) (fun row => { row with maxConcurrentJobs := 1 }) fun _ => rfl
  rw [contents', contents] at contents''
  refine ⟨third, _, ?_, contents'', ?_⟩
  · rw [backfillCompanies, Option.bind_eq_bind, updated, Option.bind_some, updated', Option.bind_some, updated'']
  · simp only [List.map_map, List.forall_mem_map]
    intro row _
    have named : Clean ("empresa " ++ toString row.id) := (by decide : Clean "empresa ").append (clean_toString row.id)
    have shown : isBlank isSpace ("empresa " ++ toString row.id) = false :=
      not_blank_of_letter letters (c := 'e') (by simp) (by decide)
    have content := hasContent_repaired (clean_sanitized row.name) named shown
    rw [Function.comp_apply, Function.comp_apply]
    constructor
    · rw [apply_setWhere_of_same Company.name, apply_setWhere Company.name]
      · simp only [setWhere, if_true]
        exact content
      · exact fun _ => rfl
    · rw [apply_setWhere Company.maxConcurrentJobs]
      split
      · exact Int.one_pos
      · next above =>
        rw [decide_eq_true_eq] at above
        omega

/-- The first statement on users succeeds exactly if it keeps the e-mails apart. -/
private theorem sanitize_emails_iff (scan : Scan User) :
    (∃ after, table.update users User.id scan (fun _ => true) User.sanitizeEmail = some after) ↔
      (table.contents.users.map fun row => sanitized row.email).Nodup := by
  have again : ∀ row : User, sanitized row.sanitizeEmail.email = sanitized row.email := by
    intro row
    rw [User.sanitizeEmail_email, sanitized_sanitized]
  constructor
  · rintro ⟨after, updated⟩
    have contents := Constrained.update_contents table.valid.users_pkey User.sanitizeEmail_id updated
    have unique := after.valid.uq_users_email
    rw [contents] at unique
    change ((table.contents.users.map _).map User.email).Nodup at unique
    rw [List.map_map] at unique
    exact unique
  · intro apart
    have mixed : ∀ chosen : User → Bool, InForce (users.map (setWhere chosen User.sanitizeEmail) table.contents) := by
      intro chosen
      refine inForce_users table.valid (map_setWhere User.id User.sanitizeEmail_id chosen _)
        (map_setWhere User.companyId User.sanitizeEmail_companyId chosen _) ?_
      rw [← map_setWhere (fun row => sanitized row.email) again chosen] at apart
      have composed := List.map_map (l := table.contents.users.map (setWhere chosen User.sanitizeEmail))
        (f := User.email) (g := sanitized)
      exact (composed ▸ apart : (List.map sanitized _).Nodup).of_map
    obtain ⟨after, updated, -⟩ := Constrained.update_of_mixed table.valid.users_pkey
      User.sanitizeEmail_id fun chosen _ => mixed chosen
    exact ⟨after, updated⟩

private theorem email_of_replaced (chosen : User → Bool) (row : User) :
    (setWhere chosen User.replaceEmail row).email = if chosen row = true then placeholder row.id else row.email := by
  rw [apply_setWhere User.email, User.replaceEmail, placeholder]

/-- The second succeeds exactly if no user already has the e-mail that replaces a blank one. -/
private theorem replace_emails_iff (letters : ∀ c : Char, c.isAlpha = true → isSpace c = false) (scan : Scan User) :
    (∃ after, table.update users User.id scan (fun row => isBlank isSpace row.email) User.replaceEmail = some after) ↔
      ∀ user ∈ table.contents.users, isBlank isSpace user.email = true →
        ∀ other ∈ table.contents.users, other.email ≠ placeholder user.id := by
  have rows : table.contents.users.Nodup := table.valid.users_pkey.of_map
  constructor
  · rintro ⟨after, updated⟩ user stored blank other stored' same
    have contents := Constrained.update_contents table.valid.users_pkey User.replaceEmail_id updated
    have unique := after.valid.uq_users_email
    rw [contents] at unique
    change ((table.contents.users.map _).map User.email).Nodup at unique
    rw [List.map_map] at unique
    have shown : isBlank isSpace other.email = false := by
      rw [same]
      exact not_blank_placeholder letters user.id
    have equal : user = other := by
      apply List.inj_on_of_nodup_map unique stored stored'
      rw [Function.comp_apply, Function.comp_apply, email_of_replaced, email_of_replaced, if_pos blank, shown, same]
      rfl
    rw [← equal, blank] at shown
    cases shown
  · intro apart
    have mixed : ∀ chosen : User → Bool, (∀ row, chosen row = true → isBlank isSpace row.email = true) →
        InForce (users.map (setWhere chosen User.replaceEmail) table.contents) := by
      intro chosen blank
      refine inForce_users table.valid (map_setWhere User.id User.replaceEmail_id chosen _)
        (map_setWhere User.companyId User.replaceEmail_companyId chosen _) ?_
      rw [List.map_map]
      refine List.Nodup.map_on ?_ rows
      intro user stored other stored' same
      rw [Function.comp_apply, Function.comp_apply, email_of_replaced, email_of_replaced] at same
      split at same <;> split at same
      · exact List.inj_on_of_nodup_map table.valid.users_pkey stored stored' (placeholder_inj same)
      · next mine _ => exact absurd same.symm (apart user stored (blank user mine) other stored')
      · next _ theirs => exact absurd same (apart other stored' (blank other theirs) user stored)
      · exact List.inj_on_of_nodup_map table.valid.uq_users_email stored stored' same
    obtain ⟨after, updated, -⟩ := Constrained.update_of_mixed table.valid.users_pkey User.replaceEmail_id mixed
    exact ⟨after, updated⟩

/-- The repair keeps the e-mails apart: those that are left, and what replaces a blank one from those that are left. -/
def EmailsApart (isSpace : Char → Bool) (users : List User) : Prop :=
  (users.map fun user => sanitized user.email).Nodup ∧
    ∀ user ∈ users, isBlank isSpace (sanitized user.email) = true →
      ∀ other ∈ users, sanitized other.email ≠ placeholder user.id

private theorem users_contents {scan : Scan User} {selected : User → Bool} {set : User → User}
    (ids : ∀ row, (set row).id = row.id) {after : Constrained InForce}
    (updated : table.update users User.id scan selected set = some after) :
    after.contents = { table.contents with users := table.contents.users.map (setWhere selected set) } :=
  Constrained.update_contents table.valid.users_pkey ids updated

private theorem sanitized_users {scan : Scan User} {after : Constrained InForce}
    (updated : table.update users User.id scan (fun _ => true) User.sanitizeEmail = some after) :
    after.contents = { table.contents with users := table.contents.users.map User.sanitizeEmail } := by
  rw [users_contents table User.sanitizeEmail_id updated, setWhere_true]

/-- The statements on users succeed exactly if they keep the e-mails apart. -/
private theorem backfillUsers_iff (letters : ∀ c : Char, c.isAlpha = true → isSpace c = false) :
    (∃ after, backfillUsers isSpace scans table = some after) ↔ EmailsApart isSpace table.contents.users := by
  constructor
  · rintro ⟨after, done⟩
    obtain ⟨first, updated, done⟩ := Option.bind_eq_some_iff.mp done
    obtain ⟨second, updated', -⟩ := Option.bind_eq_some_iff.mp done
    have apart := (replace_emails_iff first letters _).mp ⟨second, updated'⟩
    rw [sanitized_users table updated] at apart
    simp only [List.forall_mem_map, User.sanitizeEmail_email, User.sanitizeEmail_id] at apart
    exact ⟨(sanitize_emails_iff table _).mp ⟨first, updated⟩, apart⟩
  · rintro ⟨unique, apart⟩
    obtain ⟨first, updated⟩ := (sanitize_emails_iff table (scans.users 0)).mpr unique
    have left := sanitized_users table updated
    obtain ⟨second, updated'⟩ := (replace_emails_iff first letters (scans.users 1)).mpr (by
      rw [left]
      simpa only [List.forall_mem_map, User.sanitizeEmail_email, User.sanitizeEmail_id] using apart)
    obtain ⟨third, updated'', -⟩ := update_users second (scans.users 2)
      (fun row => decide (row.role ∉ ["user", "admin"])) (fun row => { row with role := "user" }) (fun _ => rfl)
      (fun _ => rfl) fun _ => rfl
    refine ⟨third, ?_⟩
    rw [backfillUsers, Option.bind_eq_bind, updated, Option.bind_some, updated', Option.bind_some, updated'']

private theorem backfillUsers_spec (letters : ∀ c : Char, c.isAlpha = true → isSpace c = false)
    {after : Constrained InForce} (done : backfillUsers isSpace scans table = some after) :
    ∃ rows, after.contents = { table.contents with users := rows } ∧
      ∀ row ∈ rows, Model.hasContent isSpace row.email = true ∧ row.role ∈ ["user", "admin"] := by
  obtain ⟨first, updated, done⟩ := Option.bind_eq_some_iff.mp done
  obtain ⟨second, updated', done⟩ := Option.bind_eq_some_iff.mp done
  have contents := sanitized_users table updated
  have contents' := users_contents first User.replaceEmail_id updated'
  have stays : ∀ row : User, { row with role := "user" }.id = row.id := fun _ => rfl
  have contents'' := users_contents second stays done
  rw [contents', contents] at contents''
  refine ⟨_, contents'', ?_⟩
  simp only [List.map_map, List.forall_mem_map, Function.comp_apply]
  intro row _
  constructor
  · rw [apply_setWhere_of_same User.email, email_of_replaced, User.sanitizeEmail_email]
    · exact hasContent_repaired (clean_sanitized row.email) (clean_placeholder _) (not_blank_placeholder letters _)
    · exact fun _ => rfl
  · rw [apply_setWhere User.role]
    split
    · exact List.mem_cons_self
    · next known =>
      rw [decide_eq_true_eq, not_not] at known
      exact known

private theorem backfillJobs_spec (letters : ∀ c : Char, c.isAlpha = true → isSpace c = false) :
    ∃ after rows, backfillJobs isSpace scans table = some after ∧
      after.contents = { table.contents with jobs := rows } ∧
      ∀ row ∈ rows, Model.kindAccepted isSpace row.kind = true ∧ (0 ≤ row.attempts ∧ row.attempts ≤ 3) ∧
        Model.keyAccepted isSpace row.idempotencyKey = true := by
  obtain ⟨first, updated, contents⟩ := update_jobs table (scans.jobs 0) (fun _ => true)
    (fun row => { row with kind := left (sanitized row.kind) 100 }) (fun _ => rfl) (fun _ => rfl) (fun _ => .inl rfl)
    fun _ => .inl rfl
  obtain ⟨second, updated', contents'⟩ := update_jobs first (scans.jobs 1) (fun row => isBlank isSpace row.kind)
    (fun row => { row with kind := "desconhecido" }) (fun _ => rfl) (fun _ => rfl) (fun _ => .inl rfl) fun _ => .inl rfl
  obtain ⟨third, updated'', contents''⟩ := update_jobs second (scans.jobs 2)
    (fun row => !decide (0 ≤ row.attempts ∧ row.attempts ≤ 3))
    (fun row => { row with attempts := min (max row.attempts 0) 3 }) (fun _ => rfl) (fun _ => rfl) (fun _ => .inl rfl)
    fun _ => .inl rfl
  obtain ⟨fourth, updatedFourth, contentsFourth⟩ := update_jobs third (scans.jobs 3) (Job.keyRejected isSpace)
    (fun row => { row with idempotencyKey := none }) (fun _ => rfl) (fun _ => rfl) (fun _ => .inl rfl) fun _ => .inr rfl
  rw [contents'', contents', contents, setWhere_true] at contentsFourth
  refine ⟨fourth, _, ?_, contentsFourth, ?_⟩
  · rw [backfillJobs, Option.bind_eq_bind, updated, Option.bind_some, updated', Option.bind_some, updated'',
      Option.bind_some, updatedFourth]
  · simp only [List.map_map, List.forall_mem_map, Function.comp_apply]
    intro row _
    refine ⟨?_, ?_, ?_⟩
    · rw [apply_setWhere_of_same Job.kind, apply_setWhere_of_same Job.kind, apply_setWhere Job.kind]
      · exact kindAccepted_repaired letters row.kind
      · exact fun _ => rfl
      · exact fun _ => rfl
    · rw [apply_setWhere_of_same Job.attempts, apply_setWhere Job.attempts]
      · exact between_repaired 0 3 _ (by decide)
      · exact fun _ => rfl
    · rw [apply_setWhere Job.idempotencyKey]
      exact keyAccepted_repaired _

private theorem backfillResults_spec :
    ∃ after rows, backfillResults isSpace scans table = some after ∧
      after.contents = { table.contents with results := rows } ∧
      ∀ row ∈ rows, Model.hasContent isSpace row.payload = true := by
  obtain ⟨first, updated, contents⟩ := update_results table (scans.results 0) (fun _ => true)
    (fun row => { row with payload := withoutControl row.payload }) (fun _ => rfl) fun _ => rfl
  have kept : (first.contents.results.filter fun row => !isBlank isSpace row.payload).Sublist first.contents.results :=
    List.filter_sublist
  have inForce := inForce_results first.valid (kept.map JobResult.id) (kept.map JobResult.jobId)
  refine ⟨⟨_, inForce⟩, first.contents.results.filter fun row => !isBlank isSpace row.payload, ?_, ?_, ?_⟩
  · rw [backfillResults, Option.bind_eq_bind, updated, Option.bind_some]
    exact check_of_valid inForce
  · dsimp only
    rw [contents]
  · intro row member
    obtain ⟨stored, shown⟩ := List.mem_filter.mp member
    rw [contents, setWhere_true] at stored
    obtain ⟨source, -, rfl⟩ := List.mem_map.mp stored
    exact hasContent_iff.mpr ⟨by simpa using shown, clean_withoutControl source.payload⟩

private theorem backfillDeadLetters_spec (letters : ∀ c : Char, c.isAlpha = true → isSpace c = false) :
    ∃ after rows, backfillDeadLetters isSpace scans table = some after ∧
      after.contents = { table.contents with deadLetters := rows } ∧
      ∀ row ∈ rows, Model.kindAccepted isSpace row.kind = true ∧ 1 ≤ row.attempts ∧ row.attempts ≤ 3 := by
  obtain ⟨first, updated, contents⟩ := update_deadLetters table (scans.deadLetters 0) (fun _ => true)
    (fun row => { row with kind := left (sanitized row.kind) 100 }) (fun _ => rfl) fun _ => rfl
  obtain ⟨second, updated', contents'⟩ := update_deadLetters first (scans.deadLetters 1)
    (fun row => isBlank isSpace row.kind) (fun row => { row with kind := "desconhecido" }) (fun _ => rfl) fun _ => rfl
  obtain ⟨third, updated'', contents''⟩ := update_deadLetters second (scans.deadLetters 2)
    (fun row => !decide (1 ≤ row.attempts ∧ row.attempts ≤ 3))
    (fun row => { row with attempts := min (max row.attempts 1) 3 }) (fun _ => rfl) fun _ => rfl
  rw [contents', contents, setWhere_true] at contents''
  refine ⟨third, _, ?_, contents'', ?_⟩
  · rw [backfillDeadLetters, Option.bind_eq_bind, updated, Option.bind_some, updated', Option.bind_some, updated'']
  · simp only [List.map_map, List.forall_mem_map, Function.comp_apply]
    intro row _
    constructor
    · rw [apply_setWhere_of_same DeadLetter.kind, apply_setWhere DeadLetter.kind]
      · exact kindAccepted_repaired letters row.kind
      · exact fun _ => rfl
    · rw [apply_setWhere DeadLetter.attempts]
      exact between_repaired 1 3 _ (by decide)

/-- The creator of a job that is no orphan is a user of its company. -/
private theorem creator_of_kept {users : List User} {job : Job} (kept : job.orphan users = false) {id : ℤ}
    (creator : id ∈ job.createdBy) : (id, job.companyId) ∈ users.map fun user => (user.id, user.companyId) := by
  rw [Job.orphan, Option.mem_def.mp creator, Option.any_some, Bool.not_eq_false', List.any_eq_true] at kept
  obtain ⟨user, stored, same⟩ := kept
  rw [decide_eq_true_eq] at same
  exact List.mem_map.mpr ⟨user, stored, by rw [same.1, same.2]⟩

private theorem backfillCreators_spec :
    ∃ after rows, backfillCreators scans table = some after ∧
      after.contents = { table.contents with jobs := rows } ∧
      ∀ row ∈ rows,
        (∃ job ∈ table.contents.jobs,
          row.kind = job.kind ∧ row.attempts = job.attempts ∧ row.idempotencyKey = job.idempotencyKey) ∧
        ∀ id ∈ row.createdBy, (id, row.companyId) ∈ table.contents.users.map fun user => (user.id, user.companyId) := by
  obtain ⟨after, updated, contents⟩ := update_jobs table (scans.jobs 4) (Job.orphan table.contents.users)
    (fun row => { row with createdBy := none }) (fun _ => rfl) (fun _ => rfl) (fun _ => .inr rfl) fun _ => .inl rfl
  refine ⟨after, _, updated, contents, ?_⟩
  simp only [List.forall_mem_map]
  intro row stored
  constructor
  · refine ⟨row, stored, ?_, ?_, ?_⟩
    · apply apply_setWhere_of_same Job.kind
      exact fun _ => rfl
    · apply apply_setWhere_of_same Job.attempts
      exact fun _ => rfl
    · apply apply_setWhere_of_same Job.idempotencyKey
      exact fun _ => rfl
  · intro id creator
    rw [setWhere] at creator ⊢
    split at creator
    · cases creator
    · next kept =>
      rw [if_neg kept]
      exact creator_of_kept (by simpa using kept) creator

/-- Of two entries of a job, one is newer. -/
private theorem newer_or {entry other : DeadLetter} (different : entry.id ≠ other.id) :
    other.newer entry = true ∨ entry.newer other = true := by
  rw [DeadLetter.newer, DeadLetter.newer, decide_eq_true_eq, decide_eq_true_eq]
  rcases lt_trichotomy entry.failedAt other.failedAt with before | same | after
  · exact .inl (.inl before)
  · rcases Int.lt_or_gt_of_ne different with less | more
    · exact .inl (.inr ⟨same.symm, less⟩)
    · exact .inr (.inr ⟨same, more⟩)
  · exact .inr (.inl after)

private theorem superseded_of_newer {entries : List DeadLetter} {entry other : DeadLetter} {id : ℤ}
    (stored : other ∈ entries) (mine : entry.jobId = some id) (theirs : other.jobId = some id)
    (newer : other.newer entry = true) : entry.superseded entries = true := by
  rw [DeadLetter.superseded, mine, Option.isSome_some, Bool.true_and, List.any_eq_true]
  exact ⟨other, stored, by rw [theirs, newer, decide_eq_true rfl, Bool.true_and]⟩

private theorem deleteDuplicates_spec :
    ∃ after rows, deleteDuplicates table = some after ∧ after.contents = { table.contents with deadLetters := rows } ∧
      rows ⊆ table.contents.deadLetters ∧ (rows.filterMap DeadLetter.jobId).Nodup := by
  have kept : (table.contents.deadLetters.filter fun entry => !entry.superseded table.contents.deadLetters).Sublist
      table.contents.deadLetters := List.filter_sublist
  have checked := check_of_valid (inForce_deadLetters table.valid (kept.map DeadLetter.id) (kept.filterMap _))
  refine ⟨_, _, checked, rfl, kept.subset, ?_⟩
  have distinct := (List.pairwise_map.mp table.valid.dead_letter_jobs_pkey).sublist kept
  refine List.pairwise_filterMap.mpr (distinct.imp_of_mem ?_)
  rintro entry other member member' different id mine _ theirs rfl
  obtain ⟨stored, left⟩ := List.mem_filter.mp member
  obtain ⟨stored', left'⟩ := List.mem_filter.mp member'
  rw [Bool.not_eq_true'] at left left'
  rcases newer_or different with newer | newer
  · exact Bool.false_ne_true (left.symm.trans (superseded_of_newer stored' mine theirs newer))
  · exact Bool.false_ne_true (left'.symm.trans (superseded_of_newer stored theirs mine newer))

end Groups

section Migration

variable (scans : Scans)

/-- The statements after those on users succeed, and leave what the added constraints demand. -/
private theorem backfill_rest (letters : ∀ c : Char, c.isAlpha = true → isSpace c = false) (table : Constrained InForce)
    (companies : ∀ row ∈ table.contents.companies, Model.hasContent isSpace row.name = true ∧ 0 < row.maxConcurrentJobs)
    (users : ∀ row ∈ table.contents.users,
      Model.hasContent isSpace row.email = true ∧ row.role ∈ ["user", "admin"]) :
    ∃ after, (do
      let db ← backfillJobs isSpace scans table
      let db ← backfillResults isSpace scans db
      let db ← backfillDeadLetters isSpace scans db
      let db ← backfillCreators scans db
      deleteDuplicates db) = some after ∧ Added isSpace after.contents := by
  obtain ⟨first, jobs, run, contents, repaired⟩ := backfillJobs_spec scans table letters
  obtain ⟨second, results, run', contents', shown⟩ := @backfillResults_spec isSpace scans first
  obtain ⟨third, letters', run'', contents'', counted⟩ := backfillDeadLetters_spec scans second letters
  obtain ⟨fourth, owned, runFourth, contentsFourth, created⟩ := backfillCreators_spec scans third
  obtain ⟨fifth, kept, runLast, contentsLast, fewer, single⟩ := deleteDuplicates_spec fourth
  have unique := fifth.valid.users_pkey
  rw [contentsFourth, contents'', contents', contents] at contentsLast
  rw [contents'', contents', contents] at created
  rw [contentsFourth, contents''] at fewer
  refine ⟨fifth, ?_, ?_⟩
  · rw [run, Option.bind_eq_bind, Option.bind_some, run', Option.bind_some, run'', Option.bind_some, runFourth,
      Option.bind_some, runLast]
  · rw [contentsLast] at unique ⊢
    exact {
      ck_companies_name_content := fun row stored => (companies row stored).1
      ck_companies_max_concurrent_jobs := fun row stored => (companies row stored).2
      ck_users_email_content := fun row stored => (users row stored).1
      ck_users_role := fun row stored => (users row stored).2
      uq_users_id_company := by
        refine List.Nodup.of_map Prod.fst ?_
        rw [List.map_map]
        exact unique
      ck_jobs_kind_content := fun row stored => by
        obtain ⟨⟨job, there, kind, -, -⟩, -⟩ := created row stored
        rw [kind]
        exact (repaired job there).1
      ck_jobs_attempts := fun row stored => by
        obtain ⟨⟨job, there, -, attempts, -⟩, -⟩ := created row stored
        rw [attempts]
        exact (repaired job there).2.1
      ck_jobs_idempotency_key := fun row stored => by
        obtain ⟨⟨job, there, -, -, key⟩, -⟩ := created row stored
        rw [key]
        exact (repaired job there).2.2
      fk_jobs_creator_company := fun row stored => (created row stored).2
      ck_job_results_payload_content := shown
      ck_dead_letter_jobs_kind_content := fun row stored => (counted row (fewer stored)).1
      ck_dead_letter_jobs_attempts := fun row stored => (counted row (fewer stored)).2
      uq_dead_letter_jobs_job_id := single }

private theorem backfill_iff (letters : ∀ c : Char, c.isAlpha = true → isSpace c = false) (db : Constrained InForce) :
    (∃ after, backfill isSpace scans db = some after ∧ Added isSpace after.contents) ↔
      EmailsApart isSpace db.contents.users := by
  obtain ⟨first, companies, run, contents, named⟩ := backfillCompanies_spec scans db letters
  have same : first.contents.users = db.contents.users := by rw [contents]
  rw [← same, ← backfillUsers_iff scans first letters]
  constructor
  · rintro ⟨after, done, -⟩
    rw [backfill, Option.bind_eq_bind, run, Option.bind_some] at done
    obtain ⟨second, run', -⟩ := Option.bind_eq_some_iff.mp done
    exact ⟨second, run'⟩
  · rintro ⟨second, run'⟩
    obtain ⟨users, contents', shown⟩ := backfillUsers_spec scans first letters run'
    rw [contents] at contents'
    have named' : ∀ row ∈ second.contents.companies,
        Model.hasContent isSpace row.name = true ∧ 0 < row.maxConcurrentJobs := by
      rw [contents']
      exact named
    have shown' : ∀ row ∈ second.contents.users,
        Model.hasContent isSpace row.email = true ∧ row.role ∈ ["user", "admin"] := by
      rw [contents']
      exact shown
    obtain ⟨after, done, added⟩ := backfill_rest scans letters second named' shown'
    refine ⟨after, ?_, added⟩
    rw [backfill, Option.bind_eq_bind, run, Option.bind_some, run', Option.bind_some]
    exact done

/-- The migration succeeds on exactly the databases whose e-mails the repair keeps apart. -/
theorem migrates_iff (letters : ∀ c : Char, c.isAlpha = true → isSpace c = false) (db : Constrained InForce) :
    (∃ after, migrate isSpace scans db = some after) ↔ EmailsApart isSpace db.contents.users := by
  rw [← backfill_iff scans letters]
  constructor
  · rintro ⟨after, done⟩
    obtain ⟨middle, repaired, checked⟩ := Option.bind_eq_some_iff.mp done
    have added := after.valid.2
    rw [check_eq_some checked] at added
    exact ⟨middle, repaired, added⟩
  · rintro ⟨middle, repaired, added⟩
    refine ⟨⟨middle.contents, middle.valid, added⟩, ?_⟩
    rw [migrate, Option.bind_eq_bind, repaired, Option.bind_some]
    exact check_of_valid ⟨middle.valid, added⟩

instance (users : List User) : Decidable (EmailsApart isSpace users) :=
  inferInstanceAs (Decidable (_ ∧ ∀ user ∈ users, _ → ∀ other ∈ users, _))

/-- The class `[[:space:]]` of the locale `C` -/
def isSpaceC (c : Char) : Bool := [' ', '\t', '\n', '\x0b', '\x0c', '\r'].contains c

theorem letters_not_spaceC (c : Char) (letter : c.isAlpha = true) : isSpaceC c = false := by
  rw [isSpaceC, Bool.eq_false_iff, ne_eq, List.contains_iff_mem]
  intro member
  have none : [' ', '\t', '\n', '\x0b', '\x0c', '\r'].all (fun c => !c.isAlpha) = true := by decide
  exact absurd letter (by simpa using List.all_eq_true.mp none c member)

/-- Rows as they are stored. -/
def asStored (ρ : Type) : Scan ρ where
  arrange rows := rows
  perm rows := List.Perm.refl rows
  sorted _ := List.pairwise_of_forall fun _ _ => trivial

def inOrder : Scans where
  companies _ := asStored Company
  users _ := asStored User
  jobs _ := asStored Job
  results _ := asStored JobResult
  deadLetters _ := asStored DeadLetter

/-- A blank name, a blank e-mail, a blank kind, a creator of another company, and two entries of one job. -/
def history : Constrained InForce where
  contents := {
    companies := [⟨1, " ", 0⟩, ⟨2, "acme", 3⟩]
    users := [⟨1, 1, "\t", "owner"⟩, ⟨2, 2, "a@x", "admin"⟩]
    jobs := [⟨1, 1, some 2, "  ", 7, some ""⟩]
    results := [⟨1, 1, "\x1f"⟩]
    deadLetters := [⟨1, some 1, "report", 0, 5⟩, ⟨2, some 1, "report", 3, 5⟩] }
  valid := by decide +kernel

theorem migrates_history : ∃ after, migrate isSpaceC inOrder history = some after :=
  (migrates_iff inOrder letters_not_spaceC history).mpr (by decide +kernel)

/-- Two e-mails that differ in a space before them. -/
def clash : Constrained InForce where
  contents := {
    companies := [⟨1, "acme", 3⟩]
    users := [⟨1, 1, "a@x", "admin"⟩, ⟨2, 1, " a@x", "user"⟩]
    jobs := []
    results := []
    deadLetters := [] }
  valid := by decide +kernel

/-- The migration fails there, in its first statement on users. -/
theorem clash_aborts :
    ¬ ∀ (isSpace : Char → Bool) (scans : Scans) (db : Constrained InForce), ∃ after, migrate isSpace scans db = some after := by
  intro always
  obtain ⟨after, done⟩ := always isSpaceC inOrder clash
  have abort : migrate isSpaceC inOrder clash = none := by decide +kernel
  rw [abort] at done
  cases done

end Migration

end JobRelay.Guarantees
