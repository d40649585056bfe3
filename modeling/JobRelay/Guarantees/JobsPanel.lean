import JobRelay.Guarantees.WebPages
import JobRelay.Model.JobsPanel

/-! # What the panel of jobs asks for and shows

Whatever the user does and whatever the services do meanwhile, the panel asks for pages that begin inside the list or
at its start, and it opens, cancels and retries jobs of the company of its user only. Who goes on from page to page
reads the whole list, unless the query client holds an older page that ends before one of them.
-/

namespace JobRelay.Guarantees

open Model Sessions Soundness Listings Web

section Counting

variable {page pageSize total : ℕ}

/-- A page before the last one begins inside the list. -/
theorem lt_of_lt_pageCount (positive : 0 < pageSize) (before : page < pageCount pageSize total) :
    page * pageSize < total := by
  have fits := (Nat.le_div_iff_mul_le positive).mp (Nat.succ_le_of_lt before)
  rw [Nat.succ_mul] at fits
  omega

/-- A page number that the effect leaves as it is. -/
theorem begins_inside (positive : 0 < pageSize) (kept : clampPage page pageSize total = page) :
    page = 0 ∨ page * pageSize < total := by
  rw [clampPage] at kept
  by_cases first : page = 0
  · exact .inl first
  · exact .inr (lt_of_lt_pageCount positive (by omega))

theorem lt_pageCount (positive : 0 < pageSize) (inside : page * pageSize < total) : page < pageCount pageSize total := by
  apply Nat.lt_of_succ_le
  apply (Nat.le_div_iff_mul_le positive).mpr
  rw [Nat.succ_mul]
  omega

theorem kept_of_begins (positive : 0 < pageSize) (begins : page = 0 ∨ page * pageSize < total) :
    clampPage page pageSize total = page := by
  rw [clampPage]
  rcases begins with rfl | inside
  · exact Nat.zero_min _
  · have before := lt_pageCount positive inside
    omega

theorem positive_of_pageSizes (sized : pageSize ∈ PAGE_SIZES) : 1 ≤ pageSize ∧ pageSize ≤ 50 := by
  simp only [PAGE_SIZES, List.mem_cons, List.not_mem_nil, or_false] at sized
  omega

end Counting

section Jobs

variable (dates : Dates) {start first second : Service} {ctx : AuthContext} {window : Window} {limit offset : ℤ}
  {status : Option JobStatus}

/-- A granted page of jobs is answered with a body. -/
theorem granted_status (fresh : Fresh start) (before : World.Reaches (service Request.served) start first)
    (granted : Granted ctx window (.listJobs limit offset status)) (plans : Plans) :
    ((Listing.listJobs limit offset status).reply dates.isoformat plans first.state second.state (.ok ctx)).status =
      200 := by
  obtain ⟨listed, counted⟩ := List.forall_mem_append.mp (granted.fits plans first.state second.state)
  obtain ⟨values, bodies, _⟩ := parse_rows (parse_listed dates fresh before)
  rw [granted.reply, Listing.serve, model_reply listed counted bodies]

/-- A page of jobs is read as it was listed, or refused for a kind. -/
theorem read_jobs (fresh : Fresh start) (before : World.Reaches (service Request.served) start first)
    (later : World.Reaches (service Request.served) start second)
    (granted : Granted ctx window (.listJobs limit offset status)) (plans : Plans) :
    let rows := (Listings.listJobs first.state plans.jobs ctx.companyId window.limit window.offset status).rows
    let fetched := fetchJobsPage dates.dateParse (some ((Listing.listJobs limit offset status).reply dates.isoformat plans
      first.state second.state (.ok ctx)))
    ((∀ row ∈ rows, Visible isTrimmed row.kind) →
      fetched = .ok ⟨rows.map dates.job, (countJobs second.state ctx.companyId status).rows⟩) ∧
    ((∃ row ∈ rows, ¬ Visible isTrimmed row.kind) → ∀ page, fetched ≠ .ok page) := by
  obtain ⟨listed, counted⟩ := List.forall_mem_append.mp (granted.fits plans first.state second.state)
  have few : (countJobs second.state ctx.companyId status).rows ≤ 2147483648 :=
    (List.length_filter_le ..).trans (few_jobs fresh later)
  have array : ∀ values, parseJobs dates.dateParse (.array values) = values.mapM (parseJob dates.dateParse) :=
    fun _ => rfl
  obtain ⟨accepted, refused⟩ := read_model array listed counted few (parse_listed dates fresh before)
  rw [granted.reply, Listing.serve]
  constructor
  · intro all
    exact fetchJobsPage_ok.mpr (accepted all)
  · rintro some ⟨jobs, total⟩ fetched
    have read := (refused some).symm.trans (fetchJobsPage_ok.mp fetched)
    cases read

/-- A page of jobs that is read is the page that was listed. -/
theorem fetched_jobs (fresh : Fresh start) (before : World.Reaches (service Request.served) start first)
    (later : World.Reaches (service Request.served) start second)
    (granted : Granted ctx window (.listJobs limit offset status)) {plans : Plans} {page : JobsPage}
    (fetched : fetchJobsPage dates.dateParse (some ((Listing.listJobs limit offset status).reply dates.isoformat plans
      first.state second.state (.ok ctx))) = .ok page) :
    page = ⟨(Listings.listJobs first.state plans.jobs ctx.companyId window.limit window.offset status).rows.map dates.job,
      (countJobs second.state ctx.companyId status).rows⟩ := by
  obtain ⟨accepted, refused⟩ := read_jobs dates fresh before later granted plans
  by_cases all : ∀ row ∈ (Listings.listJobs first.state plans.jobs ctx.companyId window.limit window.offset status).rows,
      Visible isTrimmed row.kind
  · exact Except.ok.inj (fetched.symm.trans (accepted all))
  · push Not at all
    exact absurd fetched (refused all page)

end Jobs

section Panel

variable (dates : Dates) (start : Service)

/-- A page that is read from what the services answer to the request of a panel, at once or before. -/
def Answers (panel : JobsPanel) (page : JobsPage) : Prop :=
  ∃ (first second : Service) (plans : Plans), World.Reaches (service Request.served) start first ∧
    World.Reaches (service Request.served) start second ∧
    fetchJobsPage dates.dateParse (some (panel.request.reply dates.isoformat plans first.state second.state
      (.ok panel.auth))) = .ok page

/-- The panels that users and services can bring about. -/
inductive Used : JobsPanel → Prop where
  | mounted (auth : AuthContext) : Used (.mounted auth)
  | event {panel after : JobsPanel} {event : JobsPanel.Event} (used : Used panel)
      (answered : ∀ page, event = .deliver page → Answers dates start panel page)
      (stepped : panel.step event = some after) : Used after

/-- What is rendered: the panel between two events, and after an event, before the effects have run or between two. -/
inductive Rendering (panel : JobsPanel) : JobsPanel → Prop where
  | still : Rendering panel panel
  | event {event : JobsPanel.Event} {new : JobsPanel}
      (answered : ∀ page, event = .deliver page → Answers dates start panel page)
      (handled : panel.handle event = some new) : Rendering panel new
  | effect {event : JobsPanel.Event} {new : JobsPanel}
      (answered : ∀ page, event = .deliver page → Answers dates start panel page)
      (handled : panel.handle event = some new) (effects : ℕ) :
      Rendering panel (Nat.iterate JobsPanel.followTotal effects new.applyAuth)

/-- A job that is stored for the company of a user. -/
def Owned (auth : AuthContext) (jobId : Int) : Prop :=
  ∃ world, World.Reaches (service Request.served) start world ∧
    ∃ job ∈ world.state.jobs.rows, (job.id : Int) = jobId ∧ job.companyId = auth.companyId

/-- What holds of a panel whose effects are still to run. -/
structure Steady (panel : JobsPanel) : Prop where
  sized : panel.pageSize ∈ PAGE_SIZES
  near : panel.page * panel.pageSize ≤ 2147483648
  cached : ∀ key data, panel.cache key = some data →
    data.total ≤ 2147483648 ∧ ∀ job ∈ data.jobs, Owned start key.1 job.id
  expanded : ∀ jobId, panel.expanded = some jobId → Owned start panel.appliedAuth jobId

/-- The page number is inside the list that is shown. -/
def Clamped (panel : JobsPanel) : Prop :=
  ∀ data, panel.data = some data → clampPage panel.page panel.pageSize data.total = panel.page

/-- What holds of a panel between two events. -/
structure Settled (panel : JobsPanel) : Prop extends Steady start panel where
  applied : panel.appliedAuth = panel.auth
  clamped : Clamped panel

/-- What following the total does: the page number falls until it is inside the list. -/
structure FollowsTotal (panel after : JobsPanel) : Prop where
  same : after = { panel with page := after.page, expanded := after.expanded }
  earlier : after.page ≤ panel.page
  clamped : Clamped after

variable {start} {panel new after : JobsPanel}

theorem unchanged_of_applied (applied : panel.appliedAuth = panel.auth) : panel.authChanged = false := by
  rw [JobsPanel.authChanged, applied]
  exact decide_eq_false fun different => different rfl

theorem visiblePage_of_applied (applied : panel.appliedAuth = panel.auth) : panel.visiblePage = panel.page := by
  rw [JobsPanel.visiblePage, unchanged_of_applied applied, if_neg Bool.false_ne_true]

theorem applyAuth_of_applied (applied : panel.appliedAuth = panel.auth) : panel.applyAuth = panel := by
  rw [JobsPanel.applyAuth, unchanged_of_applied applied, if_neg Bool.false_ne_true]

/-- The effect leaves a page inside the list, or goes to an earlier one. -/
theorem followTotal_cases (applied : panel.appliedAuth = panel.auth) :
    (panel.followTotal = panel ∧ Clamped panel) ∨
      ∃ page < panel.page, panel.followTotal = { panel with page, expanded := none } := by
  rw [JobsPanel.followTotal]
  cases stored : panel.data with
  | none =>
    refine .inl ⟨rfl, fun data some => ?_⟩
    rw [stored] at some
    cases some
  | some data =>
    simp only [unchanged_of_applied applied, Bool.false_eq_true, if_false]
    by_cases kept : clampPage panel.page panel.pageSize data.total = panel.page
    · refine .inl ⟨if_pos kept, fun other same => ?_⟩
      obtain rfl := Option.some.inj (stored.symm.trans same)
      exact kept
    · have lower : clampPage panel.page panel.pageSize data.total ≤ panel.page := Nat.min_le_left ..
      exact .inr ⟨_, by omega, if_neg kept⟩

/-- After as many effects as there are pages, the page number is inside the list. -/
theorem follows_iterate (applied : panel.appliedAuth = panel.auth) {effects : ℕ} (enough : panel.page ≤ effects) :
    FollowsTotal panel (Nat.iterate JobsPanel.followTotal effects panel) := by
  induction effects generalizing panel with
  | zero =>
    refine ⟨rfl, le_refl _, fun data _ => ?_⟩
    rw [Function.iterate_zero_apply, Nat.le_zero.mp enough]
    exact Nat.zero_min _
  | succ effects ih =>
    rcases followTotal_cases applied with ⟨kept, clamped⟩ | ⟨page, lower, moved⟩
    · rw [Function.iterate_fixed kept]
      exact ⟨rfl, le_refl _, clamped⟩
    · rw [Function.iterate_succ_apply, moved]
      have before : page ≤ effects := by omega
      obtain ⟨same, earlier, clamped⟩ := @ih { panel with page, expanded := none } applied before
      exact ⟨same, earlier.trans lower.le, clamped⟩

theorem follows_effects (applied : panel.appliedAuth = panel.auth) : FollowsTotal panel panel.effects := by
  rw [JobsPanel.effects, applyAuth_of_applied applied]
  exact follows_iterate applied (le_refl _)

/-- Where the page number is inside the list, the effects change nothing. -/
theorem effects_of_clamped (applied : panel.appliedAuth = panel.auth) (clamped : Clamped panel) : panel.effects = panel := by
  rw [JobsPanel.effects, applyAuth_of_applied applied]
  apply Function.iterate_fixed
  rw [JobsPanel.followTotal]
  cases stored : panel.data with
  | none => rfl
  | some data => simp only [clamped data stored, if_true, ite_self]

theorem Steady.applyAuth (steady : Steady start panel) :
    Steady start panel.applyAuth ∧ panel.applyAuth.appliedAuth = panel.applyAuth.auth := by
  rw [JobsPanel.applyAuth]
  split
  · refine ⟨⟨steady.sized, ?_, steady.cached, ?_⟩, rfl⟩
    · rw [Nat.zero_mul]
      exact Nat.zero_le _
    · intro jobId none
      cases none
  · next same =>
    refine ⟨steady, ?_⟩
    simpa [JobsPanel.authChanged] using same

/-- Following the total goes to an earlier page and closes the opened job, or changes nothing. -/
theorem Steady.iterate (steady : Steady start panel) (applied : panel.appliedAuth = panel.auth) (effects : ℕ) :
    Steady start (Nat.iterate JobsPanel.followTotal effects panel) ∧
      (Nat.iterate JobsPanel.followTotal effects panel).appliedAuth =
        (Nat.iterate JobsPanel.followTotal effects panel).auth := by
  induction effects generalizing panel with
  | zero => exact ⟨steady, applied⟩
  | succ effects ih =>
    rw [Function.iterate_succ_apply]
    rcases followTotal_cases applied with ⟨kept, _⟩ | ⟨page, lower, moved⟩
    · rw [kept]
      exact ih steady applied
    · rw [moved]
      refine @ih { panel with page, expanded := none } ⟨steady.sized, ?_, steady.cached, ?_⟩ applied
      · exact (Nat.mul_le_mul_right _ lower.le).trans steady.near
      · intro jobId none
        cases none

/-- The effects leave a page number inside the list. -/
theorem Steady.effects (steady : Steady start panel) : Settled start panel.effects := by
  obtain ⟨steady, applied⟩ := steady.applyAuth
  obtain ⟨steady, settled⟩ := steady.iterate applied panel.applyAuth.page
  exact ⟨steady, settled, (follows_iterate applied (le_refl _)).clamped⟩

/-- Between two events the page that is displayed is the page of the state. -/
theorem displayPage_of_clamped (applied : panel.appliedAuth = panel.auth) (clamped : Clamped panel) :
    panel.displayPage = panel.page := by
  rw [JobsPanel.displayPage, visiblePage_of_applied applied]
  cases stored : panel.data with
  | none => rfl
  | some data =>
    simp only [unchanged_of_applied applied, Bool.false_eq_true, if_false]
    exact clamped data stored

/-- A job that is shown is one of the company of the user. -/
theorem Steady.owned (steady : Steady start panel) {job : Web.Job} (shown : job ∈ panel.jobs) :
    Owned start panel.auth job.id := by
  cases stored : panel.data with
  | none =>
    rw [JobsPanel.jobs, stored] at shown
    cases shown
  | some data =>
    rw [JobsPanel.jobs, stored] at shown
    exact (steady.cached panel.key data stored).2 job shown

/-- What is read under a key is cached under it, or dropped. -/
theorem Steady.update (steady : Steady start panel) {key : PageKey} {entry : Option JobsPage}
    (known : ∀ data, entry = some data → data.total ≤ 2147483648 ∧ ∀ job ∈ data.jobs, Owned start key.1 job.id) :
    Steady start { panel with cache := Function.update panel.cache key entry } := by
  refine ⟨steady.sized, steady.near, fun other data stored => ?_, steady.expanded⟩
  dsimp only at stored
  by_cases same : other = key
  · subst same
    rw [Function.update_self] at stored
    exact known data stored
  · rw [Function.update_of_ne same] at stored
    exact steady.cached other data stored

/-- Starting over keeps what is cached. -/
theorem Steady.restart (steady : Steady start panel) {pageSize : ℕ} (sized : pageSize ∈ PAGE_SIZES)
    (status : Option JobStatus) :
    Steady start { panel with pageSize, status, page := 0, expanded := none } := by
  refine ⟨sized, ?_, steady.cached, ?_⟩
  · rw [Nat.zero_mul]
    exact Nat.zero_le _
  · intro jobId none
    cases none

/-- What an event sets, before the effects run. -/
theorem Settled.handle (settled : Settled start panel) {event : JobsPanel.Event}
    (answered : ∀ page, event = .deliver page →
      page.total ≤ 2147483648 ∧ ∀ job ∈ page.jobs, Owned start panel.auth job.id)
    (handled : panel.handle event = some new) : Steady start new := by
  obtain ⟨positive, _⟩ := positive_of_pageSizes settled.sized
  have display := displayPage_of_clamped settled.applied settled.clamped
  cases event with
  | authChange auth =>
    obtain rfl := Option.some.inj handled
    exact ⟨settled.sized, settled.near, settled.cached, settled.expanded⟩
  | deliver page =>
    obtain rfl := Option.some.inj handled
    refine settled.update fun data same => ?_
    obtain rfl := Option.some.inj same
    exact answered page rfl
  | collect dropped =>
    rw [JobsPanel.handle] at handled
    split at handled
    · cases handled
    · obtain rfl := Option.some.inj handled
      exact settled.update fun data none => by cases none
  | onStatus status =>
    obtain rfl := Option.some.inj handled
    exact settled.restart settled.sized status
  | previous =>
    rw [JobsPanel.handle] at handled
    split at handled
    · obtain rfl := Option.some.inj handled
      refine ⟨settled.sized, ?_, settled.cached, settled.expanded⟩
      rw [display]
      exact (Nat.mul_le_mul_right _ (Nat.sub_le ..)).trans settled.near
    · cases handled
  | next =>
    rw [JobsPanel.handle] at handled
    split at handled
    · next enabled =>
      obtain rfl := Option.some.inj handled
      obtain ⟨shown, more⟩ := enabled
      refine ⟨settled.sized, ?_, settled.cached, settled.expanded⟩
      have before : panel.displayPage + 1 < pageCount panel.pageSize panel.total := by
        rw [JobsPanel.totalPages] at more
        omega
      have inside := lt_of_lt_pageCount (by omega) before
      cases stored : panel.data with
      | none =>
        rw [JobsPanel.total, stored] at inside
        exact absurd inside (Nat.not_lt_zero _)
      | some data =>
        have few := (settled.cached panel.key data stored).1
        rw [JobsPanel.total, stored] at inside
        exact inside.le.trans few
    · cases handled
  | onPageSize size =>
    rw [JobsPanel.handle] at handled
    split at handled
    · next enabled =>
      obtain rfl := Option.some.inj handled
      exact settled.restart enabled.2 panel.status
    · cases handled
  | onToggle jobId =>
    rw [JobsPanel.handle] at handled
    split at handled
    · next shown =>
      obtain rfl := Option.some.inj handled
      refine ⟨settled.sized, settled.near, settled.cached, ?_⟩
      intro opened same
      dsimp only at same
      split at same
      · cases same
      · obtain rfl := Option.some.inj same
        obtain ⟨job, member, rfl⟩ := shown
        rw [settled.applied]
        exact settled.owned member
    · cases handled
  | onCancel jobId | onRetry jobId =>
    rw [JobsPanel.handle] at handled
    split at handled
    · obtain rfl := Option.some.inj handled
      exact ⟨settled.sized, settled.near, settled.cached, settled.expanded⟩
    · cases handled
  | cancelSettled | retrySettled =>
    obtain rfl := Option.some.inj handled
    exact ⟨settled.sized, settled.near, settled.cached, settled.expanded⟩
  | onCreated status =>
    obtain rfl := Option.some.inj handled
    exact settled.restart settled.sized _

/-- An event and the effects after it. -/
theorem Settled.step (settled : Settled start panel) {event : JobsPanel.Event}
    (answered : ∀ page, event = .deliver page →
      page.total ≤ 2147483648 ∧ ∀ job ∈ page.jobs, Owned start panel.auth job.id)
    (stepped : panel.step event = some after) : Settled start after := by
  obtain ⟨new, handled, rfl⟩ := Option.map_eq_some_iff.mp stepped
  exact (settled.handle answered handled).effects

/-- The job that an event cancels or retries is shown. -/
theorem Settled.mutation (settled : Settled start panel) {event : JobsPanel.Event} {request : JobsPanel.JobRequest}
    (made : panel.mutation event = some request) : Owned start request.auth request.jobId := by
  obtain ⟨new, handled, made⟩ := Option.bind_eq_some_iff.mp made
  cases event with
  | onCancel jobId | onRetry jobId =>
    cases made
    rw [JobsPanel.handle] at handled
    split at handled
    · next enabled =>
      obtain ⟨⟨job, shown, rfl, _⟩, _⟩ := enabled
      exact settled.owned shown
    · cases handled
  | _ => cases made

/-- The request of a panel passes the validators and stays in the range of the queries. -/
theorem granted_request (sized : panel.pageSize ∈ PAGE_SIZES) (near : panel.visiblePage * panel.pageSize ≤ 2147483648) :
    ∃ window : Window, Granted panel.auth window panel.request ∧ window.limit = panel.pageSize ∧
      window.offset = panel.visiblePage * panel.pageSize := by
  obtain ⟨positive, atMost⟩ := positive_of_pageSizes sized
  have valid : panel.request.window = some ⟨panel.pageSize, panel.visiblePage * panel.pageSize, by omega⟩ := by
    rw [JobsPanel.request, Listing.window, Window.validate, dif_pos]
    · simp only [Listing.limit, Listing.offset, Int.toNat_natCast]
    · simp only [Listing.limit, Listing.offset]
      omega
  refine ⟨_, ⟨?_, valid, ?_, ?_⟩, rfl, rfl⟩
  · rw [Listing.accepted, valid]
    rfl
  · rw [JobsPanel.request, Listing.offset]
    omega
  · intro id impossible
    cases impossible

theorem Steady.granted (steady : Steady start panel) : ∃ window, Granted panel.auth window panel.request := by
  have near : panel.visiblePage * panel.pageSize ≤ 2147483648 := by
    rw [JobsPanel.visiblePage]
    split
    · rw [Nat.zero_mul]
      exact Nat.zero_le _
    · exact steady.near
  obtain ⟨window, granted, _⟩ := granted_request steady.sized near
  exact ⟨window, granted⟩

/-- What is read for a panel is a page of jobs of its user's company. -/
theorem Settled.answered (settled : Settled start panel) (fresh : Fresh start) {page : JobsPage}
    (answers : Answers dates start panel page) :
    page.total ≤ 2147483648 ∧ ∀ job ∈ page.jobs, Owned start panel.auth job.id := by
  obtain ⟨first, second, plans, before, later, fetched⟩ := answers
  obtain ⟨window, granted⟩ := settled.granted
  rw [fetched_jobs dates fresh before later granted fetched]
  constructor
  · exact (List.length_filter_le ..).trans (few_jobs fresh later)
  · intro job member
    obtain ⟨row, listed, rfl⟩ := List.mem_map.mp member
    obtain ⟨stored, inside, rfl⟩ := List.mem_map.mp listed
    obtain ⟨known, owned⟩ := List.mem_filter.mp (page_subset inside)
    rw [Bool.and_eq_true, decide_eq_true_eq] at owned
    exact ⟨first, before, stored, known, rfl, owned.1⟩

theorem used_settled (fresh : Fresh start) (used : Used dates start panel) : Settled start panel := by
  induction used with
  | mounted auth =>
    have sized : 10 ∈ PAGE_SIZES := by decide
    refine ⟨⟨sized, Nat.zero_le _, ?_, ?_⟩, rfl, ?_⟩
    · intro key data none
      cases none
    · intro jobId none
      cases none
    · intro data none
      cases none
  | event used answered stepped ih =>
    exact ih.step (fun page same => ih.answered dates fresh (answered page same)) stepped

/-- What is rendered keeps in the range of the requests. -/
theorem steady_rendering (fresh : Fresh start) (used : Used dates start panel) {rendering : JobsPanel}
    (rendered : Rendering dates start panel rendering) : Steady start rendering := by
  have settled := used_settled dates fresh used
  cases rendered with
  | still => exact settled.toSteady
  | event answered handled =>
    exact settled.handle (fun page same => settled.answered dates fresh (answered page same)) handled
  | effect answered handled effects =>
    have steady := settled.handle (fun page same => settled.answered dates fresh (answered page same)) handled
    obtain ⟨steady, applied⟩ := steady.applyAuth
    exact (steady.iterate applied effects).1

/-- In every panel that comes about, each request for a page is answered with one in every state of the services, the
page that is shown begins at the start or inside the list, and the job that is opened, and every job that is asked for,
cancelled or retried, is of the company of the user. -/
theorem panel_in_its_list (fresh : Fresh start) (used : Used dates start panel) :
    (∀ rendering, Rendering dates start panel rendering →
      ∀ first second, World.Reaches (service Request.served) start first →
        World.Reaches (service Request.served) start second → ∀ plans,
          (rendering.request.reply dates.isoformat plans first.state second.state (.ok rendering.auth)).status = 200) ∧
    (∀ data, panel.data = some data → panel.page = 0 ∨ panel.page * panel.pageSize < data.total) ∧
    (∀ jobId, panel.visibleExpanded = some jobId → Owned start panel.auth jobId) ∧
    ∀ request, (request ∈ panel.details ∨ ∃ event, panel.mutation event = some request) →
      request.auth = panel.auth ∧ Owned start request.auth request.jobId := by
  have settled := used_settled dates fresh used
  refine ⟨?_, ?_, ?_, ?_⟩
  · intro rendering rendered first second before _ plans
    obtain ⟨window, granted⟩ := (steady_rendering dates fresh used rendered).granted
    exact granted_status dates fresh before granted plans
  · intro data stored
    exact begins_inside (positive_of_pageSizes settled.sized).1 (settled.clamped data stored)
  · intro jobId opened
    rw [JobsPanel.visibleExpanded, unchanged_of_applied settled.applied, if_neg Bool.false_ne_true] at opened
    rw [← settled.applied]
    exact settled.expanded jobId opened
  · rintro request (detail | ⟨event, made⟩)
    · obtain ⟨job, shown, member⟩ := List.mem_flatMap.mp detail
      have owned := settled.owned (List.mem_filter.mp shown).1
      rcases List.mem_cons.mp member with rfl | member
      · exact ⟨rfl, owned⟩
      · obtain rfl := List.mem_singleton.mp member
        exact ⟨rfl, owned⟩
    · refine ⟨?_, settled.mutation made⟩
      obtain ⟨_, _, made⟩ := Option.bind_eq_some_iff.mp made
      cases event <;> cases made <;> rfl

/-- A finished job of the only company is shown, and opened. -/
theorem panel_in_its_list_office : ∃ panel, Used epoch office panel ∧ panel.visibleExpanded = some 1 ∧
    (panel.request.reply epoch.isoformat .stable office.state office.state (.ok panel.auth)).status = 200 ∧
    Owned office panel.auth 1 ∧ ∀ request ∈ panel.details, Owned office panel.auth request.jobId := by
  let user : AuthContext := ⟨1, .user, by decide⟩
  let page : JobsPage := ⟨[⟨1, "report", .done, "1970-01-01T00:00:00Z", 1⟩], 1⟩
  have read : (office.runActions (service Request.served) finishedJob).map (fun world =>
      (fetchJobsPage epoch.dateParse (some ((JobsPanel.mounted user).request.reply epoch.isoformat .stable world.state
        world.state (.ok user)))).toOption) = some (some page) := by decide +kernel
  obtain ⟨world, ran, same⟩ := Option.map_eq_some_iff.mp read
  have fetched : fetchJobsPage epoch.dateParse (some ((JobsPanel.mounted user).request.reply epoch.isoformat .stable
      world.state world.state (.ok user))) = .ok page := by
    cases result : fetchJobsPage epoch.dateParse (some ((JobsPanel.mounted user).request.reply epoch.isoformat .stable
        world.state world.state (.ok user))) with
    | error thrown =>
      rw [result] at same
      cases same
    | ok other =>
      rw [result] at same
      rw [Option.some.inj same]
  have clicked : (((JobsPanel.mounted user).step (.deliver page)).bind fun shown => (shown.step (.onToggle 1)).map
      fun opened => (opened.visibleExpanded, opened.auth)) = some (some 1, user) := by decide +kernel
  obtain ⟨shown, delivered, clicked⟩ := Option.bind_eq_some_iff.mp clicked
  obtain ⟨opened, toggled, same⟩ := Option.map_eq_some_iff.mp clicked
  obtain ⟨expanded, owner⟩ := Prod.mk.inj same
  have before : Used epoch office shown := by
    refine Used.event (.mounted user) ?_ delivered
    intro other same
    cases same
    exact ⟨world, world, .stable, ⟨finishedJob, ran⟩, ⟨finishedJob, ran⟩, fetched⟩
  have used : Used epoch office opened := by
    refine Used.event before ?_ toggled
    intro other same
    cases same
  obtain ⟨served, _, owned, asked⟩ := panel_in_its_list epoch office_fresh used
  refine ⟨opened, used, expanded, served opened .still office office (.refl _ _) (.refl _ _) .stable, owned 1 expanded, ?_⟩
  intro request detail
  obtain ⟨auth, known⟩ := asked request (.inl detail)
  exact auth ▸ known

end Panel

section Browsing

/-- What a user reads who goes on to the next page as long as there is one, each page as it is answered. -/
def browse (answer : JobsPanel → Option JobsPage) : ℕ → JobsPanel → List Web.Job
  | 0, _ => []
  | fuel + 1, panel =>
      let read := (answer panel).bind fun page => (panel.step (.deliver page)).map fun shown => (page, shown)
      read.elim [] fun (page, shown) => page.jobs ++ (shown.step .next).elim [] (browse answer fuel)

/-- The panel is settled on the list of a user under a filter. -/
structure Lists (auth : AuthContext) (pageSize : ℕ) (status : Option JobStatus) (panel : JobsPanel) : Prop where
  auth : panel.auth = auth
  applied : panel.appliedAuth = panel.auth
  pageSize : panel.pageSize = pageSize
  status : panel.status = status

/-- What the query client holds of a list, by its pages. -/
def held (panel : JobsPanel) (k : ℕ) : Option JobsPage := panel.cache (panel.auth, k, panel.pageSize, panel.status)

/-- No page that is held ends before a later page of a list of this length begins. -/
def Outlasting (panel : JobsPanel) (length : ℕ) : Prop :=
  ∀ k, 0 < k → k * panel.pageSize < length → ∀ older, held panel k = some older → k * panel.pageSize < older.total

variable {auth : AuthContext} {k pageSize : ℕ} {status : Option JobStatus} {panel : JobsPanel} {page : JobsPage}

/-- The panel that shows a page as it is answered. -/
def showing (panel : JobsPanel) (page : JobsPage) : JobsPanel :=
  { panel with cache := Function.update panel.cache panel.key (some page) }

/-- The panel that goes on to the next page, before the effects run and after them. -/
def turning (panel : JobsPanel) (page : JobsPage) : JobsPanel :=
  { panel with page := panel.page + 1, cache := Function.update panel.cache panel.key (some page) }

def turned (panel : JobsPanel) (page : JobsPage) : JobsPanel := (turning panel page).effects

theorem data_showing : (showing panel page).data = some page := Function.update_self ..

theorem data_of_applied (applied : panel.appliedAuth = panel.auth) : panel.data = held panel panel.page := by
  rw [JobsPanel.data, JobsPanel.key, visiblePage_of_applied applied, held]

theorem held_showing (applied : panel.appliedAuth = panel.auth) :
    held (showing panel page) k = if k = panel.page then some page else held panel k := by
  have keys : panel.key = (panel.auth, panel.page, panel.pageSize, panel.status) := by
    rw [JobsPanel.key, visiblePage_of_applied applied]
  rw [held, showing, held]
  dsimp only
  by_cases same : k = panel.page
  · rw [if_pos same, same, ← keys, Function.update_self]
  · rw [if_neg same, Function.update_of_ne]
    rw [keys]
    intro equal
    exact same (congrArg (fun key : PageKey => key.2.1) equal)

theorem clamped_showing (kept : clampPage panel.page panel.pageSize page.total = panel.page) :
    Clamped (showing panel page) := by
  intro data shown
  rw [data_showing, Option.some.injEq] at shown
  exact shown ▸ kept

/-- A page of a list that reaches this far is shown where it was asked for. -/
theorem step_deliver (applied : panel.appliedAuth = panel.auth)
    (kept : clampPage panel.page panel.pageSize page.total = panel.page) :
    panel.step (.deliver page) = some (showing panel page) := by
  have same : (showing panel page).effects = showing panel page := effects_of_clamped applied (clamped_showing kept)
  exact congrArg some same

/-- There is a next page exactly if the page is not the last one. -/
theorem next_enabled {panel : JobsPanel} (positive : 0 < panel.pageSize) (display : panel.displayPage = panel.page)
    (stored : panel.data = some page) :
    (panel.paginated = true ∧ ¬ panel.totalPages ≤ panel.displayPage + 1) ↔
      panel.page + 1 < pageCount panel.pageSize page.total := by
  have total : panel.total = page.total := by
    rw [JobsPanel.total, stored]
    rfl
  rw [JobsPanel.paginated, JobsPanel.totalPages, display, total, isPaginationNeeded, Bool.and_eq_true,
    decide_eq_true_eq, decide_eq_true_eq]
  constructor
  · rintro ⟨_, more⟩
    omega
  · intro more
    have inside := lt_of_lt_pageCount positive more
    rw [Nat.succ_mul] at inside
    have beside : 0 < panel.page ∨ panel.pageSize < page.total := by
      by_cases first : panel.page = 0
      · rw [first, Nat.zero_mul] at inside
        omega
      · omega
    exact ⟨⟨by omega, beside⟩, by omega⟩

/-- The next page is asked for, if there is one. -/
theorem step_next (applied : panel.appliedAuth = panel.auth) (positive : 0 < panel.pageSize)
    (kept : clampPage panel.page panel.pageSize page.total = panel.page) :
    (showing panel page).step .next =
      if panel.page + 1 < pageCount panel.pageSize page.total then some (turned panel page) else none := by
  have display : (showing panel page).displayPage = panel.page :=
    displayPage_of_clamped applied (clamped_showing kept)
  have enabled := @next_enabled page (showing panel page) positive display data_showing
  rw [JobsPanel.step, JobsPanel.handle]
  by_cases more : panel.page + 1 < pageCount panel.pageSize page.total
  · rw [if_pos (enabled.mpr more), if_pos more, Option.map_some, display]
    rfl
  · rw [if_neg fun some => more (enabled.mp some), if_neg more]
    rfl

/-- A page is read, and the next one if there is one. -/
theorem browse_succ {answer : JobsPanel → Option JobsPage} (applied : panel.appliedAuth = panel.auth)
    (positive : 0 < panel.pageSize) (answered : answer panel = some page)
    (kept : clampPage panel.page panel.pageSize page.total = panel.page) (fuel : ℕ) :
    browse answer (fuel + 1) panel =
      page.jobs ++ if panel.page + 1 < pageCount panel.pageSize page.total then browse answer fuel (turned panel page)
        else [] := by
  simp only [browse, answered, Option.bind_some, step_deliver applied kept, Option.map_some, Option.elim_some,
    step_next applied positive kept]
  by_cases more : panel.page + 1 < pageCount panel.pageSize page.total
  · rw [if_pos more, if_pos more, Option.elim_some]
  · rw [if_neg more, if_neg more, Option.elim_none]

theorem follows_turned (applied : panel.appliedAuth = panel.auth) : FollowsTotal (turning panel page) (turned panel page) :=
  follows_effects applied

/-- Whatever the query client holds, the list stays the same, and so does what is held of the other pages. -/
theorem lists_turned (lists : Lists auth pageSize status panel) : Lists auth pageSize status (turned panel page) := by
  rw [(follows_turned lists.applied).same]
  exact ⟨lists.auth, lists.applied, lists.pageSize, lists.status⟩

theorem held_turned (applied : panel.appliedAuth = panel.auth) (k : ℕ) :
    held (turned panel page) k = if k = panel.page then some page else held panel k := by
  rw [← held_showing applied, (follows_turned applied).same]
  rfl

/-- Where no older page that is held is too short, the next page is the one shown. -/
theorem page_turned (applied : panel.appliedAuth = panel.auth) (positive : 0 < panel.pageSize)
    (reaches : ∀ older, held panel (panel.page + 1) = some older → (panel.page + 1) * panel.pageSize < older.total) :
    (turned panel page).page = panel.page + 1 := by
  have clamped : Clamped (turning panel page) := by
    intro older stored
    have asked : (turning panel page).data = held (turning panel page) (panel.page + 1) := data_of_applied applied
    have here : held (showing panel page) (panel.page + 1) = some older := asked.symm.trans stored
    rw [held_showing applied, if_neg (by omega)] at here
    exact kept_of_begins positive (.inr (reaches older here))
  have same : turned panel page = turning panel page := effects_of_clamped applied clamped
  rw [same]
  rfl

/-- An older page that ends before it begins sends the user back. -/
theorem page_turned_lt (applied : panel.appliedAuth = panel.auth) (positive : 0 < panel.pageSize) (before : panel.page < k)
    {older : JobsPage} (stored : held panel k = some older) (short : older.total ≤ k * panel.pageSize) :
    (turned panel page).page < k := by
  have follows : FollowsTotal (turning panel page) (turned panel page) := follows_turned applied
  have earlier : (turned panel page).page ≤ panel.page + 1 := follows.earlier
  by_contra past
  have here : (turned panel page).page = k := by omega
  have settled : (turned panel page).appliedAuth = (turned panel page).auth := by
    rw [follows.same]
    exact applied
  have shown : (turned panel page).data = some older := by
    rw [data_of_applied settled, held_turned applied, here, if_neg (by omega)]
    exact stored
  have clamped := follows.clamped older shown
  have sized : (turned panel page).pageSize = panel.pageSize := by
    rw [follows.same]
    rfl
  rw [here, sized] at clamped
  rcases begins_inside positive clamped with first | inside
  · omega
  · omega

section Lists

variable {answer : JobsPanel → Option JobsPage} {all : List Web.Job} (positive : 0 < pageSize)
  (answers : ∀ panel, Lists auth pageSize status panel → (panel.page = 0 ∨ panel.page * pageSize < all.length) →
    answer panel = some ⟨Sessions.page pageSize (panel.page * pageSize) all, all.length⟩)

include positive answers

/-- One page of the list, and what comes after it. -/
theorem browse_page (lists : Lists auth pageSize status panel)
    (begins : panel.page = 0 ∨ panel.page * pageSize < all.length) (fuel : ℕ) :
    browse answer (fuel + 1) panel = Sessions.page pageSize (panel.page * pageSize) all ++
      if panel.page + 1 < pageCount pageSize all.length then
        browse answer fuel (turned panel ⟨Sessions.page pageSize (panel.page * pageSize) all, all.length⟩) else [] := by
  have sized := lists.pageSize
  subst sized
  exact browse_succ lists.applied positive (answers panel lists begins) (kept_of_begins positive begins) fuel

/-- Where the answers are the pages of one list, the user reads the rest of the list. -/
theorem browse_pages {fuel : ℕ} (lists : Lists auth pageSize status panel)
    (enough : all.length ≤ (panel.page + fuel + 1) * pageSize)
    (begins : panel.page = 0 ∨ panel.page * pageSize < all.length) (outlasting : Outlasting panel all.length) :
    browse answer (fuel + 1) panel = all.drop (panel.page * pageSize) := by
  induction fuel generalizing panel with
  | zero =>
    rw [Nat.add_zero] at enough
    have last : ¬ panel.page + 1 < pageCount pageSize all.length := by
      intro more
      have inside := lt_of_lt_pageCount positive more
      omega
    rw [browse_page positive answers lists begins, if_neg last, List.append_nil]
    apply List.take_of_length_le
    rw [List.length_drop]
    rw [Nat.succ_mul] at enough
    omega
  | succ fuel ih =>
    rw [browse_page positive answers lists begins]
    by_cases more : panel.page + 1 < pageCount pageSize all.length
    · have sized := lists.pageSize
      have inside := lt_of_lt_pageCount positive more
      have page : (turned panel ⟨Sessions.page pageSize (panel.page * pageSize) all, all.length⟩).page = panel.page + 1 :=
        page_turned lists.applied (sized ▸ positive) fun older stored =>
          outlasting _ (Nat.succ_pos _) (by rw [sized]; exact inside) older stored
      have further : all.length ≤ (panel.page + 1 + fuel + 1) * pageSize := by
        rw [Nat.add_right_comm panel.page 1 fuel]
        exact enough
      have onward := ih (lists_turned lists) (by rw [page]; exact further) (by rw [page]; exact .inr inside) ?_
      · rw [if_pos more, onward, page, Nat.succ_mul, ← List.drop_drop]
        exact List.take_append_drop ..
      · intro k later shorter older stored
        rw [(lists_turned lists).pageSize] at shorter ⊢
        rw [held_turned lists.applied] at stored
        split at stored
        · obtain rfl := Option.some.inj stored
          exact shorter
        · rw [← sized] at shorter ⊢
          exact outlasting k later shorter older stored
    · rw [if_neg more, List.append_nil]
      apply List.take_of_length_le
      rw [List.length_drop]
      have short : all.length ≤ (panel.page + 1) * pageSize := by
        by_contra long
        exact more (lt_pageCount positive (by omega))
      rw [Nat.succ_mul] at short
      omega

/-- An older page that ends before it begins is never got past: the user is sent back whenever he comes to it. -/
theorem browse_short {older : JobsPage} (lists : Lists auth pageSize status panel) (before : panel.page < k)
    (inside : k * pageSize < all.length) (stored : held panel k = some older) (short : older.total ≤ k * pageSize)
    (fuel : ℕ) : ∀ job ∈ browse answer fuel panel, job ∈ all.take (k * pageSize) := by
  induction fuel generalizing panel with
  | zero =>
    intro job member
    cases member
  | succ fuel ih =>
    have upTo : (panel.page + 1) * pageSize ≤ k * pageSize := Nat.mul_le_mul_right _ before
    rw [Nat.succ_mul] at upTo
    intro job member
    rw [browse_page positive answers lists (.inr (by omega))] at member
    rcases List.mem_append.mp member with here | later
    · have within : job ∈ (all.drop (panel.page * pageSize)).take (k * pageSize - panel.page * pageSize) :=
        (List.take_subset_take_left _ (by omega)) here
      rw [← List.drop_take] at within
      exact List.mem_of_mem_drop within
    · split at later
      · refine ih (lists_turned lists) ?_ ?_ job later
        · exact page_turned_lt lists.applied (lists.pageSize ▸ positive) before stored (by rw [lists.pageSize]; exact short)
        · rw [held_turned lists.applied, if_neg (by omega)]
          exact stored
      · cases later

end Lists

variable (dates : Dates) {start world : Service}

/-- A stored job as the client has it. -/
def clientJob (s : Store) (job : Model.Job) : Web.Job :=
  ⟨job.id, job.kind, job.status, dates.isoformat job.createdAt,
    (s.results.rows.countP fun result => decide (result.jobId = job.id) : ℕ)⟩

/-- The jobs of a company, as the client has them. -/
def everyJob (s : Store) (companyId : ℕ) (status : Option JobStatus) : List Web.Job :=
  ((Plan.stable : Plan Model.Job.NotOlder).arrange (s.jobsOf companyId status)).map (clientJob dates s)

/-- What the services answer to a panel while they write nothing, whatever plans the queries run under. -/
def answerAt (plans : JobsPanel → Plans) (world : Service) (panel : JobsPanel) : Option JobsPage :=
  (fetchJobsPage dates.dateParse (some (panel.request.reply dates.isoformat (plans panel) world.state world.state
    (.ok panel.auth)))).toOption

theorem length_everyJob (auth : AuthContext) (status : Option JobStatus) :
    (everyJob dates world.state auth.companyId status).length = (countJobs world.state auth.companyId status).rows := by
  rw [everyJob, List.length_map, (Plan.perm _ _).length_eq]
  rfl

theorem answerAt_page (fresh : Fresh start) (reached : World.Reaches (service Request.served) start world)
    (plans : JobsPanel → Plans) (sized : pageSize ∈ PAGE_SIZES)
    (visible : ∀ job ∈ world.state.jobsOf auth.companyId status, Visible isTrimmed job.kind)
    (lists : Lists auth pageSize status panel)
    (begins : panel.page = 0 ∨ panel.page * pageSize < (everyJob dates world.state auth.companyId status).length) :
    answerAt dates plans world panel =
      some ⟨Sessions.page pageSize (panel.page * pageSize) (everyJob dates world.state auth.companyId status),
        (everyJob dates world.state auth.companyId status).length⟩ := by
  obtain ⟨rfl, applied, rfl, rfl⟩ := lists
  have jobs := few_jobs fresh reached
  have length : (everyJob dates world.state panel.auth.companyId panel.status).length =
      (countJobs world.state panel.auth.companyId panel.status).rows := length_everyJob dates _ _
  have few : (countJobs world.state panel.auth.companyId panel.status).rows ≤ 2147483648 :=
    (List.length_filter_le ..).trans jobs
  have near : panel.visiblePage * panel.pageSize ≤ 2147483648 := by
    rw [visiblePage_of_applied applied]
    rcases begins with first | inside
    · rw [first, Nat.zero_mul]
      exact Nat.zero_le _
    · omega
  obtain ⟨window, granted, limit, offset⟩ := granted_request sized near
  rw [visiblePage_of_applied applied] at offset
  have rows : ∀ plan, (Listings.listJobs world.state plan panel.auth.companyId window.limit window.offset
      panel.status).rows.map dates.job =
        Sessions.page panel.pageSize (panel.page * panel.pageSize)
          (everyJob dates world.state panel.auth.companyId panel.status) := by
    intro plan
    rw [listJobs_rows, ← listJobs_rows _ Plan.stable, limit, offset, Listings.listJobs, everyJob, List.map_map,
      Sessions.page, Sessions.page, List.map_take, List.map_drop]
    rfl
  have shown : ∀ plan, ∀ row ∈ (Listings.listJobs world.state plan panel.auth.companyId window.limit window.offset
      panel.status).rows, Visible isTrimmed row.kind := by
    intro plan row member
    obtain ⟨job, inside, rfl⟩ := List.mem_map.mp member
    exact visible job (page_subset inside)
  have read := (read_jobs dates fresh reached reached granted (plans panel)).1 (shown _)
  rw [rows, ← length] at read
  rw [answerAt, JobsPanel.request, read]
  rfl

/-- No job is listed twice. -/
theorem nodup_everyJob (auth : AuthContext) (status : Option JobStatus) :
    (everyJob dates world.state auth.companyId status).Nodup := by
  have stored : ((world.state.jobsOf auth.companyId status).map Model.Job.id).Nodup :=
    world.state.jobs.unique.sublist (List.filter_sublist.map _)
  have arranged := ((Plan.perm (Plan.stable : Plan Model.Job.NotOlder) _).map Model.Job.id).nodup_iff.mpr stored
  apply List.Nodup.of_map Web.Job.id
  rw [everyJob, List.map_map]
  have ids : Web.Job.id ∘ clientJob dates world.state = (fun id : ℕ => (id : Int)) ∘ Model.Job.id := rfl
  rw [ids, ← List.map_map]
  exact arranged.map Nat.cast_injective

/-- While nothing is written, a user who starts at the first page and goes on to the last reads every job once, the
newest first, whatever plans the queries run under: exactly if the query client holds no older page that ends before
one of these pages begins. -/
theorem browsing_reads_all (fresh : Fresh start) (reached : World.Reaches (service Request.served) start world)
    {panel : JobsPanel} (used : Used dates start panel) (first : panel.page = 0) (plans : JobsPanel → Plans)
    (visible : ∀ job ∈ world.state.jobsOf panel.auth.companyId panel.status, Visible isTrimmed job.kind) {fuel : ℕ}
    (enough : (countJobs world.state panel.auth.companyId panel.status).rows ≤ (fuel + 1) * panel.pageSize) :
    (∃ listed : List Model.Job, listed.Perm (world.state.jobsOf panel.auth.companyId panel.status) ∧
      listed.Pairwise Model.Job.NotOlder ∧
      browse (answerAt dates plans world) (fuel + 1) panel = listed.map (clientJob dates world.state)) ↔
    Outlasting panel (countJobs world.state panel.auth.companyId panel.status).rows := by
  have settled := used_settled dates fresh used
  have lists : Lists panel.auth panel.pageSize panel.status panel := ⟨rfl, settled.applied, rfl, rfl⟩
  have positive : 0 < panel.pageSize := (positive_of_pageSizes settled.sized).1
  have answers : ∀ other, Lists panel.auth panel.pageSize panel.status other → _ := fun other same begins =>
    answerAt_page dates fresh reached plans settled.sized visible same begins
  rw [← length_everyJob dates] at enough ⊢
  constructor
  · rintro ⟨listed, perm, _, read⟩ k later inside older stored
    by_contra short
    have known := browse_short positive answers lists (by omega) inside stored (by omega) (fuel + 1)
    have all : (listed.map (clientJob dates world.state)).Perm
        (everyJob dates world.state panel.auth.companyId panel.status) := (perm.trans (Plan.perm Plan.stable _).symm).map _
    -- the job at which that page begins
    have cut := List.drop_eq_getElem_cons inside
    have begun := cut ▸ List.mem_cons_self
    have read' := known _ (read ▸ all.mem_iff.mpr (List.mem_of_mem_drop begun))
    exact List.disjoint_take_drop (nodup_everyJob dates _ _) (le_refl _) read' begun
  · intro outlasting
    refine ⟨_, Plan.perm Plan.stable _, Plan.sorted _ _, ?_⟩
    have short : (everyJob dates world.state panel.auth.companyId panel.status).length ≤
        (panel.page + fuel + 1) * panel.pageSize := by
      rw [first, Nat.zero_add]
      exact enough
    rw [browse_pages positive answers lists short (.inl first) outlasting, first, Nat.zero_mul, List.drop_zero, everyJob]

/-- A finished job is all that the user reads. -/
theorem browsing_reads_all_office : ∃ (world : Service) (listed : List Model.Job),
    office.runActions (service Request.served) finishedJob = some world ∧
    listed.map Model.Job.status = [.done] ∧
    browse (answerAt epoch (fun _ => .stable) world) 1 (.mounted ⟨1, .user, by decide⟩) =
      listed.map (clientJob epoch world.state) := by
  have stored : (office.runActions (service Request.served) finishedJob).map (fun world =>
      (world.state.jobsOf 1 none).map fun job => (job.status, job.kind)) = some [(.done, "report")] := by decide +kernel
  obtain ⟨world, ran, rows⟩ := Option.map_eq_some_iff.mp stored
  have visible : ∀ job ∈ world.state.jobsOf 1 none, Visible isTrimmed job.kind := by
    intro job member
    have row : (job.status, job.kind) ∈ [(JobStatus.done, "report")] := rows ▸ List.mem_map_of_mem member
    rw [(Prod.mk.inj (List.mem_singleton.mp row)).2]
    exact ⟨'r', by simp, by decide⟩
  have few : (countJobs world.state 1 none).rows ≤ (0 + 1) * 10 := by
    have length := congrArg List.length rows
    rw [List.length_map] at length
    exact length.le.trans (by decide)
  obtain ⟨listed, perm, _, read⟩ := (browsing_reads_all epoch office_fresh ⟨finishedJob, ran⟩
    (.mounted ⟨1, .user, by decide⟩) rfl (fun _ => .stable) visible few).mpr fun k _ _ older none => by cases none
  have same : listed.map (fun job => (job.status, job.kind)) = [(.done, "report")] :=
    List.perm_singleton.mp (rows ▸ perm.map fun job => (job.status, job.kind))
  have statuses := congrArg (List.map Prod.fst) same
  rw [List.map_map] at statuses
  exact ⟨world, listed, ran, statuses, read⟩

end Browsing

end JobRelay.Guarantees
