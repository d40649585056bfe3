import JobRelay.Guarantees.JobRows
import JobRelay.Model.Listings
import JobRelay.Soundness.Origins
import JobRelay.Soundness.Reports

/-! # Integers on their way into a query

A route bounds `limit` and nothing else from above. The company of the context is only compared, but the offset goes
into `OFFSET`, and the filter of `/admin/jobs` is cast to `bigint`.
-/

namespace JobRelay.Guarantees

open Model Sessions Soundness Listings

section Bounds

variable {listing : Listing} {window : Window}

/-- The offset and the filter fit the type that they are used as. -/
def InRange (listing : Listing) : Prop :=
  listing.offset ≤ 9223372036854775807 ∧ ∀ id ∈ listing.companyId, id ≤ 9223372036854775807

private theorem window_offset (valid : listing.window = some window) : (window.offset : ℤ) = listing.offset := by
  rw [Listing.window, Window.validate] at valid
  split at valid
  · next bounds =>
    cases valid
    exact Int.toNat_of_nonneg bounds.2
  · cases valid

private theorem bigintRange_natCast (n : ℕ) : bigintRange n = true ↔ n ≤ 9223372036854775807 := by
  rw [bigintRange, decide_eq_true_eq]
  omega

private theorem fits_filter (companyId : Option ℕ) : (∀ parameter ∈ filterIntegers companyId,
    parameter.1 ≠ .comparison → bigintRange parameter.2 = true) ↔ ∀ id ∈ companyId, id ≤ 9223372036854775807 := by
  cases companyId with
  | none => simp [filterIntegers]
  | some id => simp [filterIntegers, bigintRange_natCast]

/-- Of the integers that a route uses, only the offset and the filter can be too large. -/
theorem fits_iff (plans : Plans) (first second : Store) (ctx : AuthContext)
    (valid : listing.window = some window) :
    (∀ parameter ∈ listing.integers plans first second ctx window, parameter.1 ≠ .comparison →
      bigintRange parameter.2 = true) ↔ InRange listing := by
  have offset := window_offset valid
  have limited := window.limited
  rw [InRange, ← offset]
  cases listing with
  | listJobs =>
    simp [Listing.integers, Listings.listJobs, countJobs, Listing.companyId, bigintRange_natCast]
    omega
  | adminJobs limit offset companyId status =>
    have cast : (∀ id ∈ companyId.map Int.toNat, id ≤ 9223372036854775807) ↔
        ∀ id ∈ companyId, id ≤ 9223372036854775807 := by
      cases companyId <;> simp
    have small : window.limit ≤ 9223372036854775807 := by omega
    simp only [Listing.integers, countAllJobs, listAllJobs, List.forall_mem_append, fits_filter, cast]
    have cast' : (window.offset : ℤ) ≤ 9223372036854775807 ↔ window.offset ≤ 9223372036854775807 := by omega
    simp only [Listing.companyId, bigintRange_natCast, cast', List.forall_mem_cons, small]
    simp
    tauto
  | deadLetterQueue =>
    simp [Listing.integers, countDeadLetters, listDeadLetters, Listing.companyId, bigintRange_natCast]
    omega
  | adminCompanies =>
    simp [Listing.integers, countCompanies, listCompanies, Listing.companyId, bigintRange_natCast]
    omega

end Bounds

section Replies

private theorem mapM_isSome {α β : Type} {rows : List α} {body : α → Option β}
    (each : ∀ row ∈ rows, (body row).isSome) : ∃ bodies, rows.mapM body = some bodies := by
  induction rows with
  | nil => exact ⟨[], rfl⟩
  | cons row rows ih =>
    obtain ⟨value, shown⟩ := Option.isSome_iff_exists.mp (each row List.mem_cons_self)
    obtain ⟨values, rest⟩ := ih fun other member => each other (List.mem_cons_of_mem _ member)
    exact ⟨value :: values, by rw [List.mapM_cons, shown, rest]; rfl⟩

/-- A route whose rows pass its response model fails exactly if one of its queries raises. -/
private theorem model_status {α : Type} {rows : Query (List α)} {total : Query ℕ} {body : α → Option Value}
    (each : ∀ row ∈ rows.rows, (body row).isSome) :
    (PageReply.model rows.run total.run body).status ≠ 500 ↔ rows.Fits ∧ total.Fits := by
  obtain ⟨values, shown⟩ := mapM_isSome each
  by_cases fits : rows.Fits
  · by_cases fits' : total.Fits
    · simp [PageReply.model, Query.run, fits, fits', shown]
    · simp [PageReply.model, Query.run, fits, fits', Reply.internalServerError]
  · simp [PageReply.model, Query.run, fits, Reply.internalServerError]

variable {start world : Service}

theorem page_subset {α : Type} {le : α → α → Prop} {plan : Plan le} {rows : List α} {limit offset : ℕ} {row : α}
    (member : row ∈ page limit offset (plan.arrange rows)) : row ∈ rows :=
  (plan.perm rows).mem_iff.mp (List.mem_of_mem_drop (List.mem_of_mem_take member))

/-- What the routes and the checks of the tables say about a stored job. -/
private theorem stored_job (fresh : Fresh start) (reached : World.Reaches (service Request.served) start world) {job : Job}
    (member : job ∈ world.state.jobs.rows) : 0 < job.id ∧ 0 < job.companyId ∧ jobKind job.kind = some job.kind := by
  obtain ⟨range, traceId, key, submittedBy, requested⟩ := reachable_sourced fresh reached (Store.mem_jobs.mp member)
  simp only [Request.served, Bool.and_eq_true, decide_eq_true_eq] at requested
  exact ⟨(of_decide_eq_true range).1, requested.1.1.1, requested.1.1.2⟩

/-- The companies are those that the deployment began with. -/
private theorem stored_company (fresh : Fresh start) (reached : World.Reaches (service Request.served) start world)
    {company : Company} (member : company ∈ world.state.companies.rows) :
    ∃ first ∈ start.state.companies.rows, company.id = first.id := by
  have stored := Table.find?_of_key member rfl
  have kept := (reachable_valid fresh reached).companies company.id
  rw [Store.company?, stored, Store.company?, eq_comm, Option.map_eq_some_iff] at kept
  obtain ⟨first, found, same⟩ := kept
  exact ⟨first, Table.find?_mem found, by rw [← same]⟩

/-- The rows that a listing selects pass its response model. -/
private theorem serve_status (fresh : Fresh start)
    (serial : ∀ company ∈ start.state.companies.rows, serialRange company.id = true)
    {first second : Service} (before : World.Reaches (service Request.served) start first)
    (later : World.Reaches (service Request.served) start second) (isoformat : Micros → String) (plans : Plans)
    (ctx : AuthContext) (window : Window) (listing : Listing) :
    (listing.serve isoformat plans first.state second.state ctx window).status ≠ 500 ↔
      ∀ parameter ∈ listing.integers plans first.state second.state ctx window, parameter.1 ≠ .comparison →
        bigintRange parameter.2 = true := by
  cases listing with
  | listJobs limit offset status =>
    rw [Listing.integers, List.forall_mem_append]
    apply model_status
    intro row member
    obtain ⟨job, inside, rfl⟩ := List.mem_map.mp member
    obtain ⟨positive, _, kind⟩ := stored_job fresh before (List.mem_filter.mp (page_subset inside)).1
    have single := first.state.results.countP_key_le_one job.id
    simp [JobSummary.body, kind, positive, single, guard]
  | adminJobs limit offset companyId status =>
    rw [Listing.integers, List.forall_mem_append, and_comm]
    apply model_status
    intro row member
    obtain ⟨job, inside, rfl⟩ := List.mem_map.mp member
    obtain ⟨positive, owned, _⟩ := stored_job fresh later (List.mem_filter.mp (page_subset inside)).1
    simp [AdminJob.body, positive, owned, guard]
  | deadLetterQueue =>
    rw [Listing.integers, List.forall_mem_append, and_comm]
    exact model_status fun row _ => rfl
  | adminCompanies =>
    rw [Listing.integers, List.forall_mem_append, and_comm]
    apply model_status
    intro row member
    obtain ⟨⟨company, jobs⟩, grouped, rfl⟩ := List.mem_map.mp ((plans.adminCompanies.perm _).mem_iff.mp member)
    obtain ⟨origin, known, same⟩ := stored_company fresh later (page_subset (mem_of_groups grouped))
    have positive := (of_decide_eq_true (serial origin known)).1
    rw [← same] at positive
    simp [AdminCompany.body, aggregate, positive, company.limited.le, guard]

/-- One past the range, an offset and a filter are accepted, and the request ends in a `500`. -/
theorem offset_out_of_range :
    (Listing.listJobs 50 9223372036854775808 none).accepted ⟨1, .user, by decide⟩ = true ∧
    ((Listing.listJobs 50 9223372036854775808 none).reply (fun _ => "") .stable office.state office.state
      (.ok ⟨1, .user, by decide⟩)).status = 500 ∧
    (Listing.adminJobs 50 0 (some 9223372036854775808) none).accepted ⟨1, .admin, by decide⟩ = true ∧
    ((Listing.adminJobs 50 0 (some 9223372036854775808) none).reply (fun _ => "") .stable office.state office.state
      (.ok ⟨1, .admin, by decide⟩)).status = 500 := by
  decide +kernel

/-- For a request that the validators and the context let in: every integer that reaches `LIMIT`, `OFFSET` or a cast
is in the range of `bigint`, and so the request does not end in a `500`, exactly if its offset and its filter are. -/
theorem edge_values_fit_iff (fresh : Fresh start)
    (serial : ∀ company ∈ start.state.companies.rows, serialRange company.id = true)
    {first second : Service} (before : World.Reaches (service Request.served) start first)
    (later : World.Reaches (service Request.served) start second) (isoformat : Micros → String) (plans : Plans)
    (ctx : AuthContext) (listing : Listing) (accepted : listing.accepted ctx = true) :
    (∀ window, listing.window = some window →
      ((∀ parameter ∈ listing.integers plans first.state second.state ctx window, parameter.1 ≠ .comparison →
        bigintRange parameter.2 = true) ↔ InRange listing)) ∧
    ((listing.reply isoformat plans first.state second.state (.ok ctx)).status ≠ 500 ↔ InRange listing) := by
  refine ⟨fun window valid => fits_iff plans first.state second.state ctx valid, ?_⟩
  rw [Listing.accepted, Bool.and_eq_true, Bool.and_eq_true] at accepted
  obtain ⟨⟨authorized, valid⟩, positive⟩ := accepted
  obtain ⟨window, valid⟩ := Option.isSome_iff_exists.mp valid
  have same : listing.authorize ctx = .ok ctx := by
    cases listing with
    | listJobs => rfl
    | adminJobs | deadLetterQueue | adminCompanies =>
      simp only [Listing.authorize, requireAdmin] at authorized ⊢
      split at authorized
      · cases authorized
      · next admin => exact if_neg admin
  have served : listing.reply isoformat plans first.state second.state (.ok ctx) =
      listing.serve isoformat plans first.state second.state ctx window := by
    simp only [Listing.reply, Except.bind, same, valid, positive, if_true]
  rw [served, serve_status fresh serial before later]
  exact fits_iff plans first.state second.state ctx valid

theorem edge_values_fit_office :
    ((Listing.listJobs 50 9223372036854775807 none).reply (fun _ => "") .stable office.state office.state
      (.ok ⟨1, .user, by decide⟩)).status ≠ 500 := by
  have serial : ∀ company ∈ office.state.companies.rows, serialRange company.id = true := by
    intro company member
    rw [List.mem_singleton.mp member]
    decide
  have fits := edge_values_fit_iff office_fresh serial (.refl _ _) (.refl _ _) (fun _ => "") .stable
    ⟨1, .user, by decide⟩ (.listJobs 50 9223372036854775807 none) (by decide)
  exact fits.2.mpr ⟨le_refl _, nofun⟩

end Replies

end JobRelay.Guarantees
