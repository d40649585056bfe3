import JobRelay.Model.WebPages

/-! # The panel of jobs

The panel keeps a page number, a page size, a filter and an expanded job, and asks for the page under them. Its query
client holds the pages that were read before: a page that it holds under the new key is shown at once, until the
request that is made meanwhile is answered. The effects run before the next event: one starts over for another user,
the other pulls the page number back into a list that has become shorter, as often as the page shown is outside.
-/

namespace JobRelay.Model.Web

def PAGE_SIZES : List ℕ := [5, 10, 25, 50]

/-- `Math.ceil(total / pageSize)` -/
def pageCount (pageSize total : ℕ) : ℕ := (total + pageSize - 1) / pageSize

def isPaginationNeeded (page pageSize total : ℕ) : Bool := decide (0 < page ∨ pageSize < total)

def clampPage (page pageSize total : ℕ) : ℕ := min page (max 0 (pageCount pageSize total - 1))

/-- The `ACTIVE` of a `JobRow`. -/
def ACTIVE : List JobStatus := [.queued, .running]

/-- `jobQueryKeys.page` -/
abbrev PageKey := AuthContext × ℕ × ℕ × Option JobStatus

/-- The state of `JobsPanel`, with its property `auth`, the variables of its mutations that are pending, and the pages
that its query client holds. -/
structure JobsPanel where
  auth : AuthContext
  appliedAuth : AuthContext
  page : ℕ
  pageSize : ℕ
  expanded : Option Int
  status : Option JobStatus
  cancelling : Option Int
  retrying : Option Int
  cache : PageKey → Option JobsPage

namespace JobsPanel

def mounted (auth : AuthContext) : JobsPanel := ⟨auth, auth, 0, 10, none, none, none, none, fun _ => none⟩

section Rendering

variable (panel : JobsPanel)

def authChanged : Bool := decide (panel.appliedAuth ≠ panel.auth)

def visiblePage : ℕ := if panel.authChanged then 0 else panel.page

def visibleExpanded : Option Int := if panel.authChanged then none else panel.expanded

def key : PageKey := (panel.auth, panel.visiblePage, panel.pageSize, panel.status)

/-- The `data` of the query. -/
def data : Option JobsPage := panel.cache panel.key

/-- The request of the query. -/
def request : Listing := .listJobs panel.pageSize (panel.visiblePage * panel.pageSize : ℕ) panel.status

def total : ℕ := (panel.data.map JobsPage.total).getD 0

def jobs : List Job := (panel.data.map JobsPage.jobs).getD []

def displayPage : ℕ :=
  match panel.data with
  | some data => if panel.authChanged then panel.visiblePage else clampPage panel.visiblePage panel.pageSize data.total
  | none => panel.visiblePage

/-- The panel shows a `Pagination` that is not empty. -/
def paginated : Bool := decide (0 < panel.total) && isPaginationNeeded panel.displayPage panel.pageSize panel.total

/-- `totalPages` of the `Pagination`. -/
def totalPages : ℕ := max 1 (pageCount panel.pageSize panel.total)

/-- The buttons of a `JobRow` are disabled. -/
def busy (jobId : Int) : Bool := decide (panel.cancelling = some jobId) || decide (panel.retrying = some jobId)

end Rendering

/-- The effect that applies another `auth`. -/
def applyAuth (panel : JobsPanel) : JobsPanel :=
  if panel.authChanged then { panel with appliedAuth := panel.auth, page := 0, expanded := none } else panel

/-- The effect that follows the total. -/
def followTotal (panel : JobsPanel) : JobsPanel :=
  match panel.data with
  | none => panel
  | some data =>
      if panel.authChanged then panel
      else
        let nextPage := clampPage panel.page panel.pageSize data.total
        if nextPage = panel.page then panel else { panel with page := nextPage, expanded := none }

/-- The effects, until none of them sets anything: each page that `followTotal` goes to is an earlier one. -/
def effects (panel : JobsPanel) : JobsPanel := Nat.iterate followTotal panel.applyAuth.page panel.applyAuth

inductive Event where
  | authChange (auth : AuthContext)
  /-- The query is answered; a query whose key is left is aborted. -/
  | deliver (page : JobsPage)
  /-- The query client drops a page that is not shown. -/
  | collect (key : PageKey)
  | onStatus (status : Option JobStatus)
  | previous
  | next
  | onPageSize (size : ℕ)
  | onToggle (jobId : Int)
  | onCancel (jobId : Int)
  | onRetry (jobId : Int)
  /-- The mutation is answered or fails; the refetch that it causes is a `deliver`. -/
  | cancelSettled
  | retrySettled
  /-- A created job, with the filter of the rendering in which it was submitted. -/
  | onCreated (status : Option JobStatus)

/-- What an event sets; a control that is disabled or not shown has none. -/
def handle (panel : JobsPanel) : Event → Option JobsPanel
  | .authChange auth => some { panel with auth }
  | .deliver page => some { panel with cache := Function.update panel.cache panel.key (some page) }
  | .collect key =>
      if key = panel.key then none else some { panel with cache := Function.update panel.cache key none }
  | .onStatus status => some { panel with status, page := 0, expanded := none }
  | .previous =>
      if panel.paginated ∧ panel.displayPage ≠ 0 then some { panel with page := panel.displayPage - 1 } else none
  | .next =>
      if panel.paginated ∧ ¬ panel.totalPages ≤ panel.displayPage + 1 then
        some { panel with page := panel.displayPage + 1 }
      else none
  | .onPageSize size =>
      if panel.paginated ∧ size ∈ PAGE_SIZES then some { panel with pageSize := size, page := 0, expanded := none }
      else none
  | .onToggle jobId =>
      if ∃ job ∈ panel.jobs, job.id = jobId then
        some { panel with expanded := if panel.visibleExpanded = some jobId then none else some jobId }
      else none
  | .onCancel jobId =>
      if (∃ job ∈ panel.jobs, job.id = jobId ∧ job.status ∈ ACTIVE) ∧ ¬ panel.busy jobId then
        some { panel with cancelling := some jobId }
      else none
  | .onRetry jobId =>
      if (∃ job ∈ panel.jobs, job.id = jobId ∧ job.status = .failed) ∧ ¬ panel.busy jobId then
        some { panel with retrying := some jobId }
      else none
  | .cancelSettled => some { panel with cancelling := none }
  | .retrySettled => some { panel with retrying := none }
  | .onCreated status =>
      some { panel with
        page := 0, expanded := none,
        status := if status.any fun status => decide (status ≠ .queued) then none else panel.status }

def step (panel : JobsPanel) (event : Event) : Option JobsPanel := (panel.handle event).map effects

/-- The routes that name a job. -/
inductive JobRoute where
  | detail | result | cancel | retry
deriving DecidableEq

/-- A request that names a job, in the name of a user. -/
structure JobRequest where
  auth : AuthContext
  route : JobRoute
  jobId : Int
deriving DecidableEq

/-- The requests of the `JobDetailPanel` under the row of the expanded job; it asks for the result of a job that it
reads as done. -/
def details (panel : JobsPanel) : List JobRequest :=
  (panel.jobs.filter fun job => decide (panel.visibleExpanded = some job.id)).flatMap fun job =>
    [⟨panel.auth, .detail, job.id⟩, ⟨panel.auth, .result, job.id⟩]

/-- The request of the mutation that an event starts. -/
def mutation (panel : JobsPanel) (event : Event) : Option JobRequest :=
  (panel.handle event).bind fun _ =>
    match event with
    | .onCancel jobId => some ⟨panel.auth, .cancel, jobId⟩
    | .onRetry jobId => some ⟨panel.auth, .retry, jobId⟩
    | _ => none

end JobsPanel

end JobRelay.Model.Web
