import Mathlib.Data.Rat.Defs
import JobRelay.Model.Messages
import JobRelay.Model.Text

/-! # What the page accepts

The decoders of the web client over JavaScript values. A decoder returns what it read, or the message of the
`TypeError` it throws; it looks at the properties in the order of the source.
-/

namespace JobRelay.Model

/-- A JavaScript value; a number is `none` when it is not finite. -/
inductive Value where
  | undefined
  | null
  | boolean (value : Bool)
  | number (value : Option ℚ)
  | string (value : String)
  | array (items : List Value)
  | object (properties : List (String × Value))

namespace Web

/-- The value of a property; reading an absent one gives `undefined`. -/
def property (row : List (String × Value)) (name : String) : Value := (row.lookup name).getD .undefined

def JOB_STATUSES : List JobStatus := [.queued, .running, .done, .failed, .cancelled]

def invalidField (field : String) : String := "Campo inválido: " ++ field

def requireRecord (value : Value) (context : String) : Except String (List (String × Value)) :=
  match value with
  | .object row => pure row
  | _ => throw ("Resposta inválida em " ++ context)

def requireNumber (value : Value) (field : String) : Except String ℚ :=
  match value with
  | .number (some value) => pure value
  | _ => throw (invalidField field)

/-- `Number.MAX_SAFE_INTEGER` -/
def MAX_SAFE_INTEGER : Int := 9007199254740991

/-- `Number.isSafeInteger` -/
def isSafeInteger (value : ℚ) : Bool :=
  decide (value.den = 1) && decide (-MAX_SAFE_INTEGER ≤ value.num ∧ value.num ≤ MAX_SAFE_INTEGER)

def requireInteger (value : Value) (field : String) : Except String Int := do
  let parsed ← requireNumber value field
  if isSafeInteger parsed then pure parsed.num else throw (invalidField field)

def requirePositiveInteger (value : Value) (field : String) : Except String Int := do
  let parsed ← requireInteger value field
  if parsed ≤ 0 then throw (invalidField field) else pure parsed

def requireNonNegativeInteger (value : Value) (field : String) (maximum : Option Int) : Except String Int := do
  let parsed ← requireInteger value field
  if parsed < 0 ∨ maximum.any (fun maximum => decide (maximum < parsed)) then throw (invalidField field)
  else pure parsed

section Numbers

variable {n : ℕ} (field : String) (small : n ≤ 9007199254740991)

include small

theorem requireInteger_natCast : requireInteger (.number (some (n : ℚ))) field = .ok n := by
  have safe : isSafeInteger (n : ℚ) = true := by
    rw [isSafeInteger, MAX_SAFE_INTEGER, Rat.den_natCast, Rat.num_natCast, decide_eq_true rfl, Bool.true_and,
      decide_eq_true_eq]
    omega
  simp [requireInteger, requireNumber, safe]
  rfl

theorem requireNonNegativeInteger_natCast (maximum : Option Int)
    (bounded : maximum.any (fun maximum => decide (maximum < (n : Int))) = false) :
    requireNonNegativeInteger (.number (some (n : ℚ))) field maximum = .ok n := by
  have fits : ¬ ((n : Int) < 0 ∨ maximum.any (fun maximum => decide (maximum < (n : Int))) = true) := by
    rintro (negative | above)
    · omega
    · rw [bounded] at above
      cases above
  rw [requireNonNegativeInteger, requireInteger_natCast field small]
  exact if_neg fits

theorem requirePositiveInteger_natCast (positive : 0 < n) :
    requirePositiveInteger (.number (some (n : ℚ))) field = .ok n := by
  have above : ¬ ((n : Int) ≤ 0) := by omega
  rw [requirePositiveInteger, requireInteger_natCast field small]
  exact if_neg above

end Numbers

def requireString (value : Value) (field : String) : Except String String :=
  match value with
  | .string value => pure value
  | _ => throw (invalidField field)

def requireNonEmptyString (value : Value) (field : String) : Except String String := do
  let parsed ← requireString value field
  if (stripped isTrimmed parsed).isEmpty then throw (invalidField field) else pure parsed

theorem requireNonEmptyString_visible {text : String} (field : String) (visible : Visible isTrimmed text) :
    requireNonEmptyString (.string text) field = .ok text := by
  change (if (stripped isTrimmed text).isEmpty = true then _ else _) = _
  rw [stripped_isEmpty.mpr visible]
  rfl

theorem requireNonEmptyString_blank {text : String} (field : String) (blank : ¬ Visible isTrimmed text) :
    requireNonEmptyString (.string text) field = .error (invalidField field) := by
  change (if (stripped isTrimmed text).isEmpty = true then _ else _) = _
  rw [Bool.eq_true_of_not_eq_false fun some => blank (stripped_isEmpty.mp some)]
  rfl

/-- A `string | null`. -/
def requireNullableString (value : Value) (field : String) : Except String (Option String) :=
  match value with
  | .null => pure none
  | .string value => pure (some value)
  | _ => throw (invalidField field)

def requireStatus (value : Value) : Except String JobStatus :=
  match value with
  | .string value =>
      match JOB_STATUSES.find? fun status => decide (status.text = value) with
      | some status => pure status
      | none => throw (invalidField "status")
  | _ => throw (invalidField "status")

@[simp] theorem requireStatus_text (status : JobStatus) : requireStatus (.string status.text) = .ok status := by
  cases status <;> rfl

def requireExpectedStatus (value : Value) (expected : JobStatus) : Except String JobStatus := do
  let status ← requireStatus value
  if status ≠ expected then throw ("Status inválido: esperado " ++ expected.text) else pure status

theorem requireExpectedStatus_text (status expected : JobStatus) :
    requireExpectedStatus (.string status.text) expected =
      if status = expected then .ok status else .error ("Status inválido: esperado " ++ expected.text) := by
  rw [requireExpectedStatus, requireStatus_text]
  change (if status ≠ expected then Except.error _ else Except.ok status) = _
  rw [ite_not]

def eventTypes : List EventType := [.submitted, .cancelled, .retryRequested, .completed, .failed]

def requireEventType (value : Value) (field : String) : Except String EventType :=
  match value with
  | .string value =>
      match eventTypes.find? fun eventType => decide (eventType.text = value) with
      | some eventType => pure eventType
      | none => throw (invalidField field)
  | _ => throw (invalidField field)

@[simp] theorem requireEventType_text (eventType : EventType) (field : String) :
    requireEventType (.string eventType.text) field = .ok eventType := by
  cases eventType <;> rfl

/-- The type `Job`. -/
structure Job where
  id : Int
  kind : String
  status : JobStatus
  createdAt : String
  resultCount : Int
deriving DecidableEq

/-- The type `CancellationAudit`. -/
structure CancellationAudit where
  cancelledBy : String
  cancelledAt : String
deriving DecidableEq

/-- The type `AuditEvent`. -/
structure AuditEvent where
  eventType : EventType
  actor : String
  occurredAt : String
  traceId : Option String
deriving DecidableEq

/-- The type `JobDetail`. -/
structure JobDetail where
  id : Int
  companyId : Int
  kind : String
  status : JobStatus
  attempts : Int
  lastError : Option String
  cancellation : Option CancellationAudit
  auditEvents : List AuditEvent
deriving DecidableEq

/-- The type `JobResult`. -/
structure JobResult where
  payload : String
deriving DecidableEq

section Jobs

/- `Date.parse`, which reads nothing where it gives `NaN`. -/
variable (dateParse : String → Option Int)

def requireDateTime (value : Value) (field : String) : Except String String := do
  let parsed ← requireNonEmptyString value field
  if (dateParse parsed).isNone then throw (invalidField field) else pure parsed

theorem requireDateTime_string {text field : String} (visible : Visible isTrimmed text)
    (parses : (dateParse text).isSome) : requireDateTime dateParse (.string text) field = .ok text := by
  rw [requireDateTime, requireNonEmptyString_visible _ visible]
  change (if (dateParse text).isNone = true then _ else _) = _
  rw [Option.isNone_eq_false_iff.mpr parses]
  rfl

def parseAuditEvent (value : Value) : Except String AuditEvent := do
  let row ← requireRecord value "evento de auditoria"
  let eventType ← requireEventType (property row "event_type") "audit_events.event_type"
  let traceId ← requireNullableString (property row "trace_id") "audit_events.trace_id"
  return ⟨eventType, ← requireNonEmptyString (property row "actor") "audit_events.actor",
    ← requireDateTime dateParse (property row "occurred_at") "audit_events.occurred_at", traceId⟩

def parseAuditEvents (value : Value) : Except String (List AuditEvent) :=
  match value with
  | .array items => items.mapM (parseAuditEvent dateParse)
  | _ => throw (invalidField "audit_events")

def parseJob (value : Value) : Except String Job := do
  let row ← requireRecord value "job"
  return ⟨← requirePositiveInteger (property row "id") "id",
    ← requireNonEmptyString (property row "kind") "kind", ← requireStatus (property row "status"),
    ← requireDateTime dateParse (property row "created_at") "created_at",
    ← requireNonNegativeInteger (property row "result_count") "result_count" none⟩

def parseJobs (value : Value) : Except String (List Job) :=
  match value with
  | .array items => items.mapM (parseJob dateParse)
  | _ => throw "Resposta inválida na listagem de jobs"

def parseCancellation (value : Value) : Except String (Option CancellationAudit) :=
  match value with
  | .null => pure none
  | .object row => do
      return some ⟨← requireNonEmptyString (property row "cancelled_by") "cancellation.cancelled_by",
        ← requireDateTime dateParse (property row "cancelled_at") "cancellation.cancelled_at"⟩
  | _ => throw (invalidField "cancellation")

def parseJobDetail (value : Value) : Except String JobDetail := do
  let row ← requireRecord value "detalhe do job"
  let lastError ← requireNullableString (property row "last_error") "last_error"
  let cancellation ← parseCancellation dateParse (property row "cancellation")
  return ⟨← requirePositiveInteger (property row "id") "id",
    ← requirePositiveInteger (property row "company_id") "company_id",
    ← requireNonEmptyString (property row "kind") "kind", ← requireStatus (property row "status"),
    ← requireNonNegativeInteger (property row "attempts") "attempts" (some 3), lastError, cancellation,
    ← parseAuditEvents dateParse (property row "audit_events")⟩

def parseJobResult (value : Value) : Except String JobResult := do
  let row ← requireRecord value "resultado do job"
  return ⟨← requireNonEmptyString (property row "payload") "payload"⟩

end Jobs

/-- The type `JobCreated`. -/
structure JobCreated where
  id : Int
  status : JobStatus
deriving DecidableEq

def parseJobCreated (value : Value) : Except String JobCreated := do
  let row ← requireRecord value "mutação do job"
  return ⟨← requirePositiveInteger (property row "id") "id",
    ← requireExpectedStatus (property row "status") .queued⟩

/-- The type `JobCancelled`. -/
structure JobCancelled where
  id : Int
  status : JobStatus
deriving DecidableEq

def parseJobCancelled (value : Value) : Except String JobCancelled := do
  let row ← requireRecord value "cancelamento do job"
  return ⟨← requirePositiveInteger (property row "id") "id",
    ← requireExpectedStatus (property row "status") .cancelled⟩

/-- The type `JobRetried`. -/
structure JobRetried where
  id : Int
  status : JobStatus
  attempts : Int
deriving DecidableEq

def parseJobRetried (value : Value) : Except String JobRetried := do
  let row ← requireRecord value "retry do job"
  return ⟨← requirePositiveInteger (property row "id") "id", ← requireExpectedStatus (property row "status") .queued,
    ← requireNonNegativeInteger (property row "attempts") "attempts" (some 3)⟩

end Web

end JobRelay.Model
