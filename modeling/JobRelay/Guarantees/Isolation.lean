import JobRelay.Guarantees.Tenants

/-! # Sequences of requests by all companies

Requests of all companies are handled one after the other. What a company hears is a function of what it asks:
both are read with the company's jobs under their numbers, so they say nothing of the ids that the database gave
out in between. Whether an id is left for a new job is part of what is asked, since all companies draw from one
sequence.
-/

namespace JobRelay.Guarantees

open Model Sessions Soundness

variable {companyId : ℕ} {f : ℕ → ℕ} {s s' t t' : Store} {pid : ℕ} {choice : Choice}

section Constraints

variable {admits : Request → Bool} {start world : Service}

end Constraints

section Exchanges

/-- A request and the time at which it is handled. -/
structure Timed where
  now : Micros
  request : Request

/-- A request that was handled, with its outcome and the database before and after it. -/
structure Exchange where
  made : Timed
  before : Store
  outcome : Except Exc Response
  after : Store

/-- Handle a request at its time. -/
def exchange (pid : ℕ) (choice : Choice) (s : Store) (made : Timed) : Exchange :=
  let (outcome, after) := (JobsService.handle made.request).run postgres pid choice none { s with clock := made.now }
  ⟨made, s, outcome, after⟩

/-- What a company asks: when, what, of which of its jobs by its number, and whether an id is left for a new job. -/
def Exchange.asks (companyId : ℕ) (exchange : Exchange) : Micros × Request × Bool :=
  (exchange.made.now, renamedRequest (number companyId exchange.before) exchange.made.request,
    finds exchange.made.request exchange.before)

/-- What a company hears, its jobs under their numbers: an error names a job that it asked for. -/
def Exchange.hears (companyId : ℕ) (exchange : Exchange) : Except Exc Response :=
  match exchange.outcome with
  | .ok response => .ok (renamedResponse (number companyId exchange.after) response)
  | .error error => .error (renamedError (number companyId exchange.before) error)

end Exchanges

section Apart

end Apart

end JobRelay.Guarantees
