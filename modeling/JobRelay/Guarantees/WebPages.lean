import JobRelay.Guarantees.Decoding
import JobRelay.Guarantees.Paging
import JobRelay.Guarantees.Ranges
import JobRelay.Model.WebPages

/-! # What the client makes of the listings

The numbers of a stored row are far below the largest that the client reads exactly, so a page can only be refused
for a text: the kind of a job or the name of a company.
-/

namespace JobRelay.Guarantees

open Model Sessions Soundness Listings

/-- The columns of a company are in the ranges of their types. -/
structure InColumns (company : Company) : Prop where
  serial : serialRange company.id = true
  limit : company.maxConcurrentJobs ≤ 2147483647
  quota : company.accepted = true

/-- A job as the client has it when nothing was lost. -/
def adminJob (row : AdminJob) : Web.AdminJob := ⟨row.id, row.companyId, row.status⟩

def adminCompany (row : AdminCompany) : Web.AdminCompany :=
  ⟨row.id, row.name, row.maxConcurrentJobs, row.jobQuota, row.totalJobs, row.queued, row.running, row.done, row.failed,
    row.cancelled⟩

section Bodies

theorem requireInteger_intCast {n : ℤ} (field : String) (small : -9007199254740991 ≤ n ∧ n ≤ 9007199254740991) :
    Web.requireInteger (.number (some (n : ℚ))) field = .ok n := by
  have safe : Web.isSafeInteger (n : ℚ) = true := by
    rw [Web.isSafeInteger, Web.MAX_SAFE_INTEGER, Rat.den_intCast, Rat.num_intCast, decide_eq_true rfl, Bool.true_and,
      decide_eq_true_eq]
    omega
  simp [Web.requireInteger, Web.requireNumber, safe]
  rfl

theorem requireNonNegativeInteger_intCast {n : ℤ} (field : String) (positive : 0 ≤ n) (small : n ≤ 9007199254740991) :
    Web.requireNonNegativeInteger (.number (some (n : ℚ))) field none = .ok n := by
  have fits : ¬ (n < 0 ∨ (none : Option ℤ).any (fun maximum => decide (maximum < n)) = true) := by
    rintro (negative | above)
    · omega
    · cases above
  rw [Web.requireNonNegativeInteger, requireInteger_intCast field (by omega)]
  exact if_neg fits

/-- What the client needs of a job. -/
structure Small (row : AdminJob) : Prop where
  positive : 0 < row.id ∧ 0 < row.companyId
  small : row.id ≤ 2147483647 ∧ row.companyId ≤ 2147483647

theorem parseAdminJob_body {row : AdminJob} (small : Small row) :
    ∃ value, row.body = some value ∧ Web.parseAdminJob value = .ok (adminJob row) := by
  obtain ⟨positive, id, companyId⟩ := small
  have first := Web.requirePositiveInteger_natCast "id" (by omega : row.id ≤ 9007199254740991) positive.1
  have second := Web.requirePositiveInteger_natCast "company_id" (by omega : row.companyId ≤ 9007199254740991) positive.2
  have body : row.body = some (.object [("id", .number (some (row.id : ℚ))),
      ("company_id", .number (some (row.companyId : ℚ))), ("status", .string row.status.text)]) := by
    simp [AdminJob.body, positive, guard]
  refine ⟨_, body, ?_⟩
  simp [Web.parseAdminJob, Web.requireRecord, Web.property, List.lookup_cons, first, second]
  rfl

/-- What the client needs of the numbers of a company. -/
structure Counted (row : AdminCompany) : Prop where
  id : 1 ≤ row.id ∧ row.id ≤ 2147483647
  limit : 0 < row.maxConcurrentJobs ∧ row.maxConcurrentJobs ≤ 2147483647
  quota : -4294967296 ≤ row.jobQuota ∧ row.jobQuota ≤ 2147483647
  counts : row.queued ≤ 2147483648 ∧ row.running ≤ 2147483648 ∧ row.done ≤ 2147483648 ∧ row.failed ≤ 2147483648 ∧
    row.cancelled ≤ 2147483648
  total : row.totalJobs = row.queued + row.running + row.done + row.failed + row.cancelled

/-- A company is refused for its name alone. -/
theorem parseAdminCompany_body {row : AdminCompany} (counted : Counted row) :
    ∃ value, row.body = some value ∧
      (Visible isTrimmed row.name → Web.parseAdminCompany value = .ok (adminCompany row)) ∧
      (¬ Visible isTrimmed row.name → Web.parseAdminCompany value = .error (Web.invalidField "name")) := by
  obtain ⟨ids, limits, quotas, counts, sum⟩ := counted
  have id := Web.requirePositiveInteger_natCast "id" (by omega : row.id ≤ 9007199254740991) ids.1
  have limit := requireNonNegativeInteger_intCast "max_concurrent_jobs" limits.1.le (by omega)
  have quota := requireInteger_intCast "job_quota" (n := row.jobQuota) (by omega)
  have count : ∀ (n : ℕ) (field : String), n ≤ 10737418240 →
      Web.requireNonNegativeInteger (.number (some (n : ℚ))) field none = .ok (n : ℤ) := by
    intro n field few
    exact Web.requireNonNegativeInteger_natCast field (by omega) none rfl
  have total := count row.totalJobs "total_jobs" (by omega)
  have queued := count row.queued "queued" (by omega)
  have running := count row.running "running" (by omega)
  have done := count row.done "done" (by omega)
  have failed := count row.failed "failed" (by omega)
  have cancelled := count row.cancelled "cancelled" (by omega)
  have body : row.body = some (.object [("id", .number (some (row.id : ℚ))), ("name", .string row.name),
      ("max_concurrent_jobs", .number (some (row.maxConcurrentJobs : ℚ))),
      ("job_quota", .number (some (row.jobQuota : ℚ))), ("total_jobs", .number (some (row.totalJobs : ℚ))),
      ("queued", .number (some (row.queued : ℚ))), ("running", .number (some (row.running : ℚ))),
      ("done", .number (some (row.done : ℚ))), ("failed", .number (some (row.failed : ℚ))),
      ("cancelled", .number (some (row.cancelled : ℚ)))]) := by
    simp [AdminCompany.body, ids, limits.1.le, guard]
  refine ⟨_, body, fun visible => ?_, fun blank => ?_⟩
  · have name := Web.requireNonEmptyString_visible "name" visible
    simp [Web.parseAdminCompany, Web.requireRecord, Web.property, List.lookup_cons, id, name, limit, quota, total,
      queued, running, done, failed, cancelled]
    rfl
  · have name := Web.requireNonEmptyString_blank "name" blank
    simp [Web.parseAdminCompany, Web.requireRecord, Web.property, List.lookup_cons, id, name]
    rfl

end Bodies

section Replies

variable {α β : Type} {rows : Query (List α)} {total : Query ℕ} {body : α → Option Value}
  {parse : Value → Except String (List β)} {item : Value → Except String β} {shown : α → β} {good : α → Prop}
  {error : String}

/-- What a route answers when its queries and its response model accept. -/
theorem model_reply (listed : rows.Fits) (counted : total.Fits) {values : List Value}
    (bodies : rows.rows.mapM body = some values) :
    PageReply.model rows.run total.run body = ⟨⟨200, some (.array values)⟩, some total.rows⟩ := by
  simp [PageReply.model, Query.run, listed, counted, bodies]

/-- The reply of a route is read row by row, with its total. -/
theorem read_model (array : ∀ values, parse (.array values) = values.mapM item) (listed : rows.Fits)
    (counted : total.Fits) (small : total.rows ≤ 2147483648)
    (each : ∀ row ∈ rows.rows, ∃ value, body row = some value ∧ (good row → item value = .ok (shown row)) ∧
      (¬ good row → item value = .error error)) :
    ((∀ row ∈ rows.rows, good row) → Web.fetchPage (some (.model rows.run total.run body)) parse =
      .ok ⟨rows.rows.map shown, total.rows⟩) ∧
    ((∃ row ∈ rows.rows, ¬ good row) →
      Web.fetchPage (some (.model rows.run total.run body)) parse = .error (.error error)) := by
  obtain ⟨values, bodies, accepted, refused⟩ := parse_rows each
  rw [model_reply listed counted bodies]
  constructor
  · intro all
    exact Web.fetchPage_ok ((array values).trans (accepted all)) (by omega)
  · intro some
    exact Web.fetchPage_error ((array values).trans (refused some))

variable (parse) in
theorem read_model_iff (array : ∀ values, parse (.array values) = values.mapM item) (listed : rows.Fits)
    (counted : total.Fits) (small : total.rows ≤ 2147483648)
    (each : ∀ row ∈ rows.rows, ∃ value, body row = some value ∧ (good row → item value = .ok (shown row)) ∧
      (¬ good row → item value = .error error)) :
    Web.fetchPage (some (.model rows.run total.run body)) parse = .ok ⟨rows.rows.map shown, total.rows⟩ ↔
      ∀ row ∈ rows.rows, good row := by
  obtain ⟨accepted, refused⟩ := read_model array listed counted small each
  constructor
  · intro read
    by_contra bad
    push Not at bad
    rw [refused bad] at read
    cases read
  · exact accepted

/-- A request that the context and the validators let in, with an offset and a filter that the queries can take. -/
structure Granted (ctx : AuthContext) (window : Window) (listing : Listing) : Prop where
  accepted : listing.accepted ctx = true
  valid : listing.window = some window
  range : InRange listing

/-- A granted request is served. -/
theorem Granted.reply {ctx : AuthContext} {window : Window} {listing : Listing} (granted : Granted ctx window listing)
    (isoformat : Micros → String) (plans : Plans) (first second : Store) :
    listing.reply isoformat plans first second (.ok ctx) = listing.serve isoformat plans first second ctx window := by
  obtain ⟨accepted, valid, _⟩ := granted
  rw [Listing.accepted, Bool.and_eq_true, Bool.and_eq_true] at accepted
  obtain ⟨⟨authorized, _⟩, positive⟩ := accepted
  have same : listing.authorize ctx = .ok ctx := by
    cases listing with
    | listJobs => rfl
    | adminJobs | deadLetterQueue | adminCompanies =>
      simp only [Listing.authorize, requireAdmin] at authorized ⊢
      split at authorized
      · cases authorized
      · next admin => exact if_neg admin
  simp only [Listing.reply, Except.bind, same, valid, positive, if_true]

theorem Granted.fits {ctx : AuthContext} {window : Window} {listing : Listing} (granted : Granted ctx window listing)
    (plans : Plans) (first second : Store) :
    ∀ parameter ∈ listing.integers plans first second ctx window, parameter.1 ≠ .comparison →
      bigintRange parameter.2 = true :=
  (fits_iff plans first second ctx granted.valid).mpr granted.range

end Replies

section Pages

variable {start world : Service}

/-- There are at most as many jobs as there are values of a `SERIAL` column. -/
theorem few_jobs (fresh : Fresh start) (reached : World.Reaches (service Request.served) start world) :
    world.state.jobs.rows.length ≤ 2147483648 := by
  apply Table.length_le world.state.jobs.toTable
  intro job member
  have small := (stored_presentable fresh reached (Store.mem_jobs.mp member)).1.small
  omega

/-- A company is that of the start, with its quota spent. -/
theorem company_of_start (fresh : Fresh start) (reached : World.Reaches (service Request.served) start world)
    {company : Company} (member : company ∈ world.state.companies.rows) :
    ∃ first ∈ start.state.companies.rows, company.id = first.id ∧
      company.maxConcurrentJobs = first.maxConcurrentJobs ∧
      company.jobQuota = first.jobQuota - world.state.doneCount company.id := by
  have stored := Table.find?_of_key member rfl
  have kept := (reachable_valid fresh reached).companies company.id
  rw [Store.company?, stored, Store.company?, eq_comm, Option.map_eq_some_iff] at kept
  obtain ⟨first, found, same⟩ := kept
  refine ⟨first, Table.find?_mem found, ?_, ?_, ?_⟩
  · rw [← same]
  · rw [← same]
  · conv_lhs => rw [← same]

/-- A listed job is refused for its kind alone. -/
theorem parse_listed (dates : Dates) (fresh : Fresh start) (reached : World.Reaches (service Request.served) start world)
    {plan : Plan Job.NotOlder} {companyId limit offset : ℕ} {status : Option JobStatus} :
    ∀ row ∈ (Listings.listJobs world.state plan companyId limit offset status).rows,
      ∃ value, row.body dates.isoformat = some value ∧
        (Visible isTrimmed row.kind → Web.parseJob dates.dateParse value = .ok (dates.job row)) ∧
        (¬ Visible isTrimmed row.kind → Web.parseJob dates.dateParse value = .error (Web.invalidField "kind")) := by
  intro row member
  rw [listJobs_rows] at member
  obtain ⟨presentable, single⟩ := page_presentable fresh reached member
  exact parseJob_body dates presentable single

variable (columns : ∀ company ∈ start.state.companies.rows, InColumns company)

include columns

theorem few_companies (fresh : Fresh start) (reached : World.Reaches (service Request.served) start world) :
    world.state.companies.rows.length ≤ 2147483648 := by
  apply Table.length_le world.state.companies
  intro company member
  obtain ⟨first, known, id, _⟩ := company_of_start fresh reached member
  have serial := of_decide_eq_true (columns first known).serial
  omega

/-- The numbers that a page shows of a job. -/
theorem small_job (fresh : Fresh start) (reached : World.Reaches (service Request.served) start world)
    {plan : Plan Job.ById} {limit offset : ℕ} {companyId : Option ℕ} {status : Option JobStatus} {row : AdminJob}
    (member : row ∈ (listAllJobs world.state plan limit offset companyId status).rows) : Small row := by
  obtain ⟨job, inside, rfl⟩ := List.mem_map.mp member
  have stored := Store.mem_jobs.mp (List.mem_filter.mp (page_subset inside)).1
  obtain ⟨presentable, owned⟩ := stored_presentable fresh reached stored
  obtain ⟨company, found⟩ := Option.isSome_iff_exists.mp ((reachable_valid fresh reached).owners stored)
  have serial := of_decide_eq_true (columns company (Table.find?_mem found)).serial
  rw [Table.find?_key found] at serial
  exact ⟨⟨presentable.positive, owned⟩, presentable.small, serial.2⟩

/-- The numbers that a page shows of a company. -/
theorem counted_company (fresh : Fresh start) (reached : World.Reaches (service Request.served) start world)
    {companies : Plan Company.ById} {plan : Plan AdminCompany.ById} {limit offset : ℕ} {row : AdminCompany}
    (member : row ∈ (listCompanies world.state companies plan limit offset).rows) : Counted row := by
  obtain ⟨⟨queued, running, done, failed, cancelled, total⟩, company, stored, id, _, limited, quota⟩ :=
    listed_company world.state member
  obtain ⟨first, known, ids, limits, quotas⟩ := company_of_start fresh reached stored
  obtain ⟨serial, atMost, accepted⟩ := columns first known
  have jobs := few_jobs fresh reached
  have few : ∀ status, (countAllJobs world.state (some row.id) status).rows ≤ 2147483648 :=
    fun status => List.countP_le_length.trans jobs
  have spent : world.state.doneCount company.id ≤ 2147483648 := List.countP_le_length.trans jobs
  have serial := of_decide_eq_true serial
  have range := of_decide_eq_true accepted
  refine ⟨?_, ?_, ?_, ?_, total⟩
  · omega
  · rw [limited, limits]
    exact ⟨first.limited, atMost⟩
  · rw [quota, quotas]
    omega
  · rw [queued, running, done, failed, cancelled]
    exact ⟨few _, few _, few _, few _, few _⟩

end Pages

section Listings

variable {start : Service}

/-- The client reads every listed row and the total: jobs of all companies always, companies exactly if it can show every
name, and the jobs of a company exactly if it can show every kind. -/
theorem listings_read (dates : Dates) (fresh : Fresh start)
    (columns : ∀ company ∈ start.state.companies.rows, InColumns company) {first second : Service}
    (before : World.Reaches (service Request.served) start first)
    (later : World.Reaches (service Request.served) start second) (plans : Plans) (ctx : AuthContext) (window : Window) :
    (∀ limit offset status, Granted ctx window (.listJobs limit offset status) →
      let jobs := (Listings.listJobs first.state plans.jobs ctx.companyId window.limit window.offset status).rows
      (Web.fetchJobsPage dates.dateParse (some ((Listing.listJobs limit offset status).reply dates.isoformat plans
          first.state second.state (.ok ctx))) =
        .ok ⟨jobs.map dates.job, (countJobs second.state ctx.companyId status).rows⟩ ↔
          ∀ job ∈ jobs, Visible isTrimmed job.kind)) ∧
    (∀ limit offset companyId status, Granted ctx window (.adminJobs limit offset companyId status) →
      Web.fetchPage (some ((Listing.adminJobs limit offset companyId status).reply dates.isoformat plans
          first.state second.state (.ok ctx))) Web.parseAdminJobs =
        .ok ⟨(listAllJobs second.state plans.allJobs window.limit window.offset (companyId.map Int.toNat) status).rows.map
          adminJob, (countAllJobs first.state (companyId.map Int.toNat) status).rows⟩) ∧
    ∀ limit offset, Granted ctx window (.adminCompanies limit offset) →
      let companies := (listCompanies second.state plans.companies plans.adminCompanies window.limit window.offset).rows
      (Web.fetchPage (some ((Listing.adminCompanies limit offset).reply dates.isoformat plans
          first.state second.state (.ok ctx))) Web.parseAdminCompanies =
        .ok ⟨companies.map adminCompany, (countCompanies first.state).rows⟩ ↔
          ∀ company ∈ companies, Visible isTrimmed company.name) := by
  refine ⟨?_, ?_, ?_⟩
  · intro limit offset status granted jobs
    obtain ⟨listed, counted⟩ := List.forall_mem_append.mp (granted.fits plans first.state second.state)
    have few : (countJobs second.state ctx.companyId status).rows ≤ 2147483648 :=
      (List.length_filter_le ..).trans (few_jobs fresh later)
    rw [granted.reply, Web.fetchJobsPage_ok]
    exact read_model_iff (Web.parseJobs dates.dateParse) (fun _ => rfl) listed counted few
      (parse_listed dates fresh before)
  · intro limit offset companyId status granted
    obtain ⟨counted, listed⟩ := List.forall_mem_append.mp (granted.fits plans first.state second.state)
    have few : (countAllJobs first.state (companyId.map Int.toNat) status).rows ≤ 2147483648 :=
      List.countP_le_length.trans (few_jobs fresh before)
    -- no row is refused
    have each : ∀ row ∈ (listAllJobs second.state plans.allJobs window.limit window.offset (companyId.map Int.toNat)
        status).rows, ∃ value, row.body = some value ∧ (True → Web.parseAdminJob value = .ok (adminJob row)) ∧
          (¬ True → Web.parseAdminJob value = .error "") := by
      intro row member
      obtain ⟨value, body, read⟩ := parseAdminJob_body (small_job columns fresh later member)
      exact ⟨value, body, fun _ => read, fun bad => absurd trivial bad⟩
    rw [granted.reply]
    exact (read_model_iff Web.parseAdminJobs (fun _ => rfl) listed counted few each).mpr fun _ _ => trivial
  · intro limit offset granted companies
    obtain ⟨counted, listed⟩ := List.forall_mem_append.mp (granted.fits plans first.state second.state)
    rw [granted.reply]
    apply read_model_iff Web.parseAdminCompanies (fun _ => rfl) listed counted (few_companies columns fresh before)
    intro row member
    exact parseAdminCompany_body (counted_company columns fresh later member)

/-- A finished job of the only company is read on all three pages. -/
theorem listings_read_office : ∃ world, office.runActions (service Request.served) finishedJob = some world ∧
    Web.fetchJobsPage epoch.dateParse (some ((Listing.listJobs 50 0 none).reply epoch.isoformat .stable world.state
      world.state (.ok ⟨1, .admin, by decide⟩))) = .ok ⟨[⟨1, "report", .done, "1970-01-01T00:00:00Z", 1⟩], 1⟩ ∧
    Web.fetchPage (some ((Listing.adminJobs 50 0 (some 1) none).reply epoch.isoformat .stable world.state world.state
      (.ok ⟨1, .admin, by decide⟩))) Web.parseAdminJobs = .ok ⟨[⟨1, 1, .done⟩], 1⟩ ∧
    Web.fetchPage (some ((Listing.adminCompanies 50 0).reply epoch.isoformat .stable world.state world.state
      (.ok ⟨1, .admin, by decide⟩))) Web.parseAdminCompanies = .ok ⟨[⟨1, "Acme", 1, 99, 1, 0, 0, 1, 0, 0⟩], 1⟩ := by
  have listed : (office.runActions (service Request.served) finishedJob).map (fun world => decide (
      (Listings.listJobs world.state Plan.stable 1 50 0 none).rows = [⟨1, "report", .done, 0, 1⟩] ∧
      (countJobs world.state 1 none).rows = 1 ∧
      (listAllJobs world.state Plan.stable 50 0 (some 1) none).rows = [⟨1, 1, .done⟩] ∧
      (countAllJobs world.state (some 1) none).rows = 1 ∧
      (listCompanies world.state Plan.stable Plan.stable 50 0).rows = [⟨1, "Acme", 1, 99, 1, 0, 0, 1, 0, 0⟩] ∧
      (countCompanies world.state).rows = 1)) = some true := by
    decide +kernel
  obtain ⟨world, ran, same⟩ := Option.map_eq_some_iff.mp listed
  obtain ⟨jobs, jobCount, all, allCount, companies, companyCount⟩ := of_decide_eq_true same
  have columns : ∀ company ∈ office.state.companies.rows, InColumns company := by
    intro company member
    rw [List.mem_singleton.mp member]
    exact ⟨by decide, by decide, by decide⟩
  obtain ⟨first, second, third⟩ := listings_read epoch office_fresh columns ⟨finishedJob, ran⟩ ⟨finishedJob, ran⟩ .stable
    ⟨1, .admin, by decide⟩ ⟨50, 0, by decide⟩
  refine ⟨world, ran, ?_, ?_, ?_⟩
  · have read := first 50 0 none ⟨by decide, by decide, by decide, by simp [Listing.companyId]⟩
    simp only [Plans.stable, jobs, jobCount] at read
    apply read.mpr
    intro job member
    rw [List.mem_singleton.mp member]
    exact ⟨'r', by simp, by decide⟩
  · have read := second 50 0 (some 1) none ⟨by decide, by decide, by decide, by simp [Listing.companyId]⟩
    have one : (some (1 : ℤ)).map Int.toNat = some 1 := rfl
    simp only [Plans.stable, one, all, allCount] at read
    exact read
  · have read := third 50 0 ⟨by decide, by decide, by decide, by simp [Listing.companyId]⟩
    simp only [Plans.stable, companies, companyCount] at read
    apply read.mpr
    intro company member
    rw [List.mem_singleton.mp member]
    exact ⟨'A', by simp, by decide⟩

end Listings

end JobRelay.Guarantees
