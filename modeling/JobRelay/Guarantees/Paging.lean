import JobRelay.Guarantees.DeadLetters
import JobRelay.Model.Listings
import JobRelay.Soundness.Reports

/-! # Reading a listing page by page

Jobs and companies are listed under keys that no two rows share, so the pages are the listing, whatever plans the
queries run under. Dead letters are listed by `failed_at`, which the entries of one transaction share: the pages
hold every entry once exactly if no entries that tie are on two of them.
-/

namespace JobRelay.Guarantees

open Model Sessions Soundness Listings

/-- What a client reads at the offsets `0, limit, 2 * limit, …`. -/
def readThrough {α : Type} (limit n : ℕ) (query : ℕ → ℕ → Query (List α)) : List α :=
  ((List.range n).map fun k => (query k (k * limit)).rows).flatten

private theorem nodup_rows {ρ κ : Type} {key : ρ → κ} (table : Table key) : table.rows.Nodup :=
  List.Nodup.of_map key table.unique

section DeadLetters

/-- A deployment of one company that may run two jobs at a time. -/
def pairOffice : Service :=
  { office with state := { office.state with companies := ⟨[⟨1, "Acme", 2, 100, by decide⟩], by decide⟩ } }

/-- Two jobs fail, and a client retries both. -/
def bothFail (delay : ℕ) : List Step :=
  failedAttempt 8 ++ failedAttempt 8 ++ .start 0 (.request (.retryJob 1 2 "1:user" none)) :: statements 0 5 ++
    .finish 0 :: retriedAfter delay

/-- Two jobs fail twice, two workers claim them and stop, and a third recovers both in one transaction. -/
def bothAbandoned : List Step :=
  .spawn 0 .client :: submission 0 "a" ++ submission 0 "b" ++ .spawn 1 (.draining 2) :: bothFail 5 ++ bothFail 10 ++
    .start 1 .processNext :: statements 1 9 ++ .spawn 2 (.draining 6) :: .start 2 .processNext :: statements 2 9 ++
    .environment (.advance 40000000) :: .spawn 3 (.draining 6) :: .start 3 .processNext ::
    List.replicate 9 (.exec 3 ⟨[1, 2], 0, none, none⟩)

private theorem bothAbandoned_runs : ∃ world, pairOffice.runActions (service fun _ => true) bothAbandoned = some world ∧
    world.state.deadLetters.rows.map (fun entry => (entry.jobId, entry.failedAt)) =
      [(some 1, 55000000), (some 2, 55000000)] ∧
    ¬Plan.Together DeadLetter.NotEarlier 1 world.state.deadLetters.rows ∧
    Plan.Together DeadLetter.NotEarlier 50 world.state.deadLetters.rows := by
  have rows : (pairOffice.runActions (service fun _ => true) bothAbandoned).map
      (fun world => (world.state.deadLetters.rows.map fun entry => (entry.jobId, entry.failedAt),
        decide (Plan.Together DeadLetter.NotEarlier 1 world.state.deadLetters.rows),
        decide (Plan.Together DeadLetter.NotEarlier 50 world.state.deadLetters.rows))) =
        some ([(some 1, 55000000), (some 2, 55000000)], false, true) := by decide +kernel
  obtain ⟨world, ran, same⟩ := Option.map_eq_some_iff.mp rows
  rw [Prod.mk.injEq, Prod.mk.injEq, decide_eq_false_iff_not, decide_eq_true_eq] at same
  exact ⟨world, ran, same⟩

/-- The entries tie, and the two pages of one entry each may show one of them twice. -/
theorem dead_letter_overlooked : Fresh pairOffice ∧ ∃ world,
    pairOffice.runActions (service fun _ => true) bothAbandoned = some world ∧
    world.state.deadLetters.rows.map (fun entry => (entry.jobId, entry.failedAt)) =
      [(some 1, 55000000), (some 2, 55000000)] ∧
    ∃ plans : ℕ → Plan DeadLetter.NotEarlier,
      ¬(readThrough 1 2 fun k => listDeadLetters world.state (plans k) 1).Perm world.state.deadLetters.rows := by
  obtain ⟨world, ran, rows, apart, _⟩ := bothAbandoned_runs
  refine ⟨⟨rfl, rfl, rfl, fun _ member => (nomatch member), rfl, rfl⟩, world, ran, rows, ?_⟩
  have two : world.state.deadLetters.rows.length ≤ 2 * 1 := by
    have length := congrArg List.length rows
    rw [List.length_map] at length
    exact length.le
  by_contra complete
  push Not at complete
  exact apart ((Plan.pages_perm_iff Nat.one_pos (nodup_rows world.state.deadLetters.toTable) two).mp complete)

/-- Whatever the plans, the dead letters read page by page are all of them, each once, exactly if for every entry
the number of those that failed later and the number of the others that did not fail earlier, both divided by the
size of a page, give the same page. -/
theorem dead_letters_paged_iff (s : Store) {limit n : ℕ} (positive : 1 ≤ limit)
    (enough : (countDeadLetters s).rows ≤ n * limit) :
    (∀ plans : ℕ → Plan DeadLetter.NotEarlier,
      (readThrough limit n fun k => listDeadLetters s (plans k) limit).Perm s.deadLetters.rows) ↔
      Plan.Together DeadLetter.NotEarlier limit s.deadLetters.rows :=
  Plan.pages_perm_iff positive (nodup_rows s.deadLetters.toTable) enough

theorem dead_letters_paged_pair : ∃ world,
    pairOffice.runActions (service fun _ => true) bothAbandoned = some world ∧
    ∀ plans : ℕ → Plan DeadLetter.NotEarlier,
      (readThrough 50 1 fun k => listDeadLetters world.state (plans k) 50).Perm world.state.deadLetters.rows := by
  obtain ⟨world, ran, rows, _, together⟩ := bothAbandoned_runs
  have few : (countDeadLetters world.state).rows ≤ 1 * 50 := by
    have length := congrArg List.length rows
    rw [List.length_map] at length
    exact length.le.trans (by decide)
  exact ⟨world, ran, (dead_letters_paged_iff world.state (by decide) few).mpr together⟩

end DeadLetters

section Jobs

variable (s : Store)

/-- A page of rows, each of them shown. -/
private theorem readThrough_map {α β : Type} (limit n : ℕ) (rows : ℕ → List α) (shown : α → β)
    (integers : ℕ → ℕ → List (Use × ℤ)) :
    readThrough limit n (fun k offset => ⟨integers k offset, (page limit offset (rows k)).map shown⟩) =
      (pages limit n rows).map shown := by
  rw [readThrough, pages, List.map_flatten, List.map_map]
  rfl

/-- Some of the rows of a table, in another order, still have distinct keys. -/
private theorem distinct_keys {ρ κ : Type} {key : ρ → κ} {table : Table key} {some listed : List ρ}
    (perm : listed.Perm some) (inside : some.Sublist table.rows) : listed.Pairwise fun a b => key a ≠ key b :=
  List.pairwise_map.mp ((perm.map key).nodup_iff.mpr (table.unique.sublist (inside.map key)))

private theorem eq_of_key {ρ κ : Type} {key : ρ → κ} {table : Table key} {some : List ρ}
    (inside : some.Sublist table.rows) {a b : ρ} (member : a ∈ some) (member' : b ∈ some) (same : key a = key b) :
    a = b :=
  List.inj_on_of_nodup_map table.unique (inside.subset member) (inside.subset member') same

private theorem notOlder_antisymm {a b : Job} (left : a.NotOlder b) (right : b.NotOlder a) : a.id = b.id := by
  rcases left with newer | ⟨same, before⟩
  · rcases right with newer' | ⟨same, _⟩
    · exact absurd (newer.trans newer') (lt_irrefl _)
    · exact absurd (same ▸ newer) (lt_irrefl _)
  · rcases right with newer' | ⟨_, after⟩
    · exact absurd (same ▸ newer') (lt_irrefl _)
    · exact le_antisymm after before

private theorem total_jobsOf (companyId : ℕ) (status : Option JobStatus) : ∀ a ∈ s.jobsOf companyId status,
    ∀ b ∈ s.jobsOf companyId status, a.NotOlder b → b.NotOlder a → a = b :=
  fun _ member _ member' left right => eq_of_key List.filter_sublist member member' (notOlder_antisymm left right)

/-- Under any plan the query returns what the statement answers. -/
theorem listJobs_rows (plan : Plan Job.NotOlder) (companyId limit offset : ℕ) (status : Option JobStatus) :
    (listJobs s plan companyId limit offset status).rows = pageOf s companyId limit offset status := by
  rw [listJobs, pageOf, plan.arrange_eq Plan.stable (total_jobsOf s companyId status)]
  rfl

/-- The jobs of a company read page by page. -/
private theorem jobs_paged {companyId limit n : ℕ} {status : Option JobStatus}
    (enough : (countJobs s companyId status).rows ≤ n * limit) (plans : ℕ → Plan Job.NotOlder) :
    ∃ listed : List Job, listed.Perm (s.jobsOf companyId status) ∧
      listed.Pairwise (fun a b => b.createdAt < a.createdAt ∨ (a.createdAt = b.createdAt ∧ b.id < a.id)) ∧
      (readThrough limit n fun k offset => listJobs s (plans k) companyId limit offset status) =
        listed.map fun job => ⟨job.id, job.kind, job.status, job.createdAt,
          s.results.rows.countP fun result => decide (result.jobId = job.id)⟩ := by
  have inside : (s.jobsOf companyId status).Sublist s.jobs.rows := List.filter_sublist
  have perm := (plans 0).perm (s.jobsOf companyId status)
  refine ⟨(plans 0).arrange (s.jobsOf companyId status), perm, ?_, ?_⟩
  · apply (((plans 0).sorted _).and (distinct_keys perm inside)).imp
    rintro a b ⟨newer | ⟨same, after⟩, distinct⟩
    · exact .inl newer
    · exact .inr ⟨same, lt_of_le_of_ne after distinct.symm⟩
  · rw [← (plans 0).pages_eq plans (total_jobsOf s companyId status) enough]
    exact readThrough_map ..

/-- All jobs under a filter read page by page. -/
private theorem all_jobs_paged {limit n : ℕ} {companyId : Option ℕ} {status : Option JobStatus}
    (enough : (countAllJobs s companyId status).rows ≤ n * limit) (plans : ℕ → Plan Job.ById) :
    ∃ listed : List Job, listed.Perm (s.jobs.rows.filter (selected companyId status)) ∧
      listed.Pairwise (fun a b => a.id < b.id) ∧
      (readThrough limit n fun k offset => listAllJobs s (plans k) limit offset companyId status) =
        listed.map fun job => ⟨job.id, job.companyId, job.status⟩ := by
  have inside : (s.jobs.rows.filter (selected companyId status)).Sublist s.jobs.rows := List.filter_sublist
  have perm := (plans 0).perm (s.jobs.rows.filter (selected companyId status))
  refine ⟨(plans 0).arrange (s.jobs.rows.filter (selected companyId status)), perm, ?_, ?_⟩
  · apply (((plans 0).sorted _).and (distinct_keys perm inside)).imp
    rintro a b ⟨before, distinct⟩
    exact lt_of_le_of_ne before distinct
  · rw [countAllJobs, List.countP_eq_length_filter] at enough
    rw [← (plans 0).pages_eq plans (fun a member b member' left right =>
      eq_of_key inside member member' (le_antisymm left right)) enough]
    exact readThrough_map ..

end Jobs

section Companies

variable (s : Store)

/-- The row that `list_companies` returns for a company. -/
private def summaryOf (company : Company) : AdminCompany :=
  aggregate company (matched s.jobs.rows fun job => decide (job.companyId = company.id))

/-- The counts of a row are those of `count_all_jobs`, and its total is their sum. -/
def Tallies (row : AdminCompany) : Prop :=
  row.queued = (countAllJobs s (some row.id) (some .queued)).rows ∧
  row.running = (countAllJobs s (some row.id) (some .running)).rows ∧
  row.done = (countAllJobs s (some row.id) (some .done)).rows ∧
  row.failed = (countAllJobs s (some row.id) (some .failed)).rows ∧
  row.cancelled = (countAllJobs s (some row.id) (some .cancelled)).rows ∧
  row.totalJobs = row.queued + row.running + row.done + row.failed + row.cancelled

private theorem count_status (companyId : ℕ) (status : JobStatus) :
    (matched s.jobs.rows fun job => decide (job.companyId = companyId)).countP
      (fun row => row.any fun job => decide (job.status = status)) =
        (countAllJobs s (some companyId) (some status)).rows :=
  countP_matched ..

/-- Every job has one status. -/
private theorem countP_by_status (p : Job → Bool) (rows : List Job) :
    let count (status : JobStatus) := rows.countP fun job => p job && decide (job.status = status)
    rows.countP p = count .queued + count .running + count .done + count .failed + count .cancelled := by
  induction rows with
  | nil => rfl
  | cons job rows ih =>
    simp only [List.countP_cons] at ih ⊢
    rw [ih]
    cases p job <;> cases job.status <;> simp <;> omega

private theorem tallies_summaryOf (company : Company) : Tallies s (summaryOf s company) := by
  refine ⟨count_status .., count_status .., count_status .., count_status .., count_status .., ?_⟩
  have total : (summaryOf s company).totalJobs =
      s.jobs.rows.countP fun job => decide (job.companyId = company.id) := by
    have counted := countP_matched s.jobs.rows (fun job => decide (job.companyId = company.id)) fun _ => true
    simp only [Option.any_true, Bool.and_true] at counted
    exact counted
  rw [total, countP_by_status]
  simp only [summaryOf, aggregate, countP_matched]

/-- The companies of a page, each with the counts of its jobs. -/
private theorem listCompanies_rows (companies : Plan Company.ById) (plan : Plan AdminCompany.ById) (limit offset : ℕ) :
    (listCompanies s companies plan limit offset).rows =
      (page limit offset (companies.arrange s.companies.rows)).map (summaryOf s) := by
  have perm := companies.perm s.companies.rows
  have part : (page limit offset (companies.arrange s.companies.rows)).Sublist (companies.arrange s.companies.rows) :=
    (List.take_sublist ..).trans (List.drop_sublist ..)
  have distinct : (page limit offset (companies.arrange s.companies.rows)).Pairwise fun a b => a.id ≠ b.id :=
    (distinct_keys perm (List.Sublist.refl _)).sublist part
  have ordered : (page limit offset (companies.arrange s.companies.rows)).Pairwise Company.ById :=
    (companies.sorted _).sublist part
  have nodup : (page limit offset (companies.arrange s.companies.rows)).Nodup :=
    distinct.imp fun apart same => apart (congrArg Company.id same)
  dsimp only [listCompanies]
  rw [groups_leftJoin nodup, List.map_map]
  apply plan.arrange_sorted
  · simp only [List.forall_mem_map]
    intro a member b member' left right
    have known := fun company (member : company ∈ page limit offset (companies.arrange s.companies.rows)) =>
      perm.mem_iff.mp (part.subset member)
    rw [eq_of_key (List.Sublist.refl _) (known a member) (known b member') (le_antisymm left right)]
  · exact List.pairwise_map.mpr ordered

/-- A row of a page is a company with the counts of its jobs. -/
theorem listed_company {companies : Plan Company.ById} {plan : Plan AdminCompany.ById} {limit offset : ℕ}
    {row : AdminCompany} (member : row ∈ (listCompanies s companies plan limit offset).rows) :
    Tallies s row ∧ ∃ company ∈ s.companies.rows, row.id = company.id ∧ row.name = company.name ∧
      row.maxConcurrentJobs = company.maxConcurrentJobs ∧ row.jobQuota = company.jobQuota := by
  rw [listCompanies_rows] at member
  obtain ⟨company, inside, rfl⟩ := List.mem_map.mp member
  have stored := (companies.perm _).mem_iff.mp (List.mem_of_mem_drop (List.mem_of_mem_take inside))
  exact ⟨tallies_summaryOf s company, company, stored, rfl, rfl, rfl, rfl⟩

/-- The companies read page by page. -/
private theorem companies_paged {limit n : ℕ} (enough : (countCompanies s).rows ≤ n * limit)
    (companies : ℕ → Plan Company.ById) (plans : ℕ → Plan AdminCompany.ById) :
    ∃ listed : List Company, listed.Perm s.companies.rows ∧ listed.Pairwise (fun a b => a.id < b.id) ∧
      (readThrough limit n fun k offset => listCompanies s (companies k) (plans k) limit offset) =
        listed.map (summaryOf s) := by
  have perm := (companies 0).perm s.companies.rows
  refine ⟨(companies 0).arrange s.companies.rows, perm, ?_, ?_⟩
  · apply (((companies 0).sorted _).and (distinct_keys perm (List.Sublist.refl _))).imp
    rintro a b ⟨before, distinct⟩
    exact lt_of_le_of_ne before distinct
  · rw [← (companies 0).pages_eq companies (fun a member b member' left right =>
      eq_of_key (List.Sublist.refl _) member member' (le_antisymm left right)) enough]
    simp only [readThrough, listCompanies_rows, pages, List.map_flatten, List.map_map]
    rfl

end Companies

section Listings

/-- A job as a listing shows it, with whether it has a result. -/
def shown (s : Store) (job : Job) : JobSummary :=
  ⟨job.id, job.kind, job.status, job.createdAt, if (s.results.find? job.id).isSome then 1 else 0⟩

private theorem result_count (s : Store) (jobId : ℕ) : (s.results.rows.countP fun result =>
    decide (result.jobId = jobId)) = if (s.results.find? jobId).isSome then 1 else 0 := by
  have single := s.results.countP_key_le_one jobId
  cases found : s.results.find? jobId with
  | none =>
    apply List.countP_eq_zero.mpr
    simpa [Table.find?] using found
  | some result =>
    have positive : 0 < s.results.rows.countP fun result => decide (result.jobId = jobId) := by
      apply List.countP_pos_iff.mpr
      exact ⟨result, Table.find?_mem found, decide_eq_true (Table.find?_key found)⟩
    exact le_antisymm single positive

/-- The listing of the jobs of a company: what is read through it is every job once, the newest first, and as many
as are counted. -/
def JobsPaged (s : Store) (limit : ℕ) : Prop :=
  ∀ companyId status n, (countJobs s companyId status).rows ≤ n * limit → ∀ plans : ℕ → Plan Job.NotOlder,
    let listed := readThrough limit n fun k offset => listJobs s (plans k) companyId limit offset status
    listed.Perm ((s.jobsOf companyId status).map (shown s)) ∧
      listed.Pairwise (fun a b => b.createdAt < a.createdAt ∨ (a.createdAt = b.createdAt ∧ b.id < a.id)) ∧
      listed.length = (countJobs s companyId status).rows

/-- The listing of all jobs, under both filters. -/
def AllJobsPaged (s : Store) (limit : ℕ) : Prop :=
  ∀ companyId status n, (countAllJobs s companyId status).rows ≤ n * limit → ∀ plans : ℕ → Plan Job.ById,
    let listed := readThrough limit n fun k offset => listAllJobs s (plans k) limit offset companyId status
    listed.Perm ((s.jobs.rows.filter (selected companyId status)).map fun job => ⟨job.id, job.companyId, job.status⟩) ∧
      listed.Pairwise (fun a b => a.id < b.id) ∧ listed.length = (countAllJobs s companyId status).rows

/-- The listing of the companies, each with the counts of its jobs. -/
def CompaniesPaged (s : Store) (limit : ℕ) : Prop :=
  ∀ n, (countCompanies s).rows ≤ n * limit → ∀ (companies : ℕ → Plan Company.ById) (plans : ℕ → Plan AdminCompany.ById),
    let listed := readThrough limit n fun k offset => listCompanies s (companies k) (plans k) limit offset
    (listed.map fun row => (row.id, row.name, row.maxConcurrentJobs, row.jobQuota)).Perm
        (s.companies.rows.map fun row => (row.id, row.name, row.maxConcurrentJobs, row.jobQuota)) ∧
      listed.Pairwise (fun a b => a.id < b.id) ∧ listed.length = (countCompanies s).rows ∧
      ∀ row ∈ listed, Tallies s row ∧ ((∀ job ∈ s.jobs.rows, job.companyId ≠ row.id) →
        row.totalJobs = 0 ∧ row.queued = 0 ∧ row.running = 0 ∧ row.done = 0 ∧ row.failed = 0 ∧ row.cancelled = 0)

private theorem companiesPaged (s : Store) (limit : ℕ) : CompaniesPaged s limit := by
  intro n enough companies plans
  obtain ⟨listed, perm, ordered, same⟩ := companies_paged s enough companies plans
  simp only [same]
  refine ⟨?_, List.pairwise_map.mpr ordered, ?_, ?_⟩
  · rw [List.map_map]
    exact perm.map _
  · rw [List.length_map]
    exact perm.length_eq
  · intro row member
    obtain ⟨company, _, rfl⟩ := List.mem_map.mp member
    have tallies := tallies_summaryOf s company
    refine ⟨tallies, fun idle => ?_⟩
    have id : (summaryOf s company).id = company.id := rfl
    rw [id] at idle
    have none : ∀ status, (countAllJobs s (some company.id) (some status)).rows = 0 := by
      intro status
      apply List.countP_eq_zero.mpr
      intro job member
      simpa [selected] using fun owned => absurd owned (idle job member)
    obtain ⟨queued, running, done, failed, cancelled, total⟩ := tallies
    simp only [id, none] at queued running done failed cancelled
    omega

/-- With nothing written in between, the listings read page by page are complete and agree with their counts,
whatever plans the queries run under; and the counts of every company agree with the listing of its jobs. -/
theorem listings_paged (s : Store) (limit : ℕ) :
    JobsPaged s limit ∧ AllJobsPaged s limit ∧ CompaniesPaged s limit := by
  refine ⟨?_, ?_, companiesPaged s limit⟩
  · intro companyId status n enough plans
    obtain ⟨listed, perm, ordered, same⟩ := jobs_paged s enough plans
    have all : listed.map (fun job => (⟨job.id, job.kind, job.status, job.createdAt,
        s.results.rows.countP fun result => decide (result.jobId = job.id)⟩ : JobSummary)) = listed.map (shown s) := by
      apply List.map_congr_left
      intro job _
      rw [shown, result_count]
    simp only [same, all]
    refine ⟨perm.map _, List.pairwise_map.mpr ordered, ?_⟩
    rw [List.length_map]
    exact perm.length_eq
  · intro companyId status n enough plans
    obtain ⟨listed, perm, ordered, same⟩ := all_jobs_paged s enough plans
    simp only [same]
    refine ⟨perm.map _, List.pairwise_map.mpr ordered, ?_⟩
    rw [List.length_map, perm.length_eq, countAllJobs, List.countP_eq_length_filter]

end Listings

end JobRelay.Guarantees
