import JobRelay.Model.Routes

/-! # The authentication context

`current_ctx` reads the header `X-Auth`, `<company_id>:<role>`. What pydantic makes of a text given for an
integer is a parameter.
-/

namespace JobRelay.Model

/-- `HTTPException(status_code, detail)` -/
structure HTTPException where
  statusCode : ℕ
  detail : String
deriving DecidableEq

def ASCII_ZERO : ℕ := '0'.toNat
def ASCII_NINE : ℕ := '9'.toNat

def isAsciiDigit (char : Char) : Bool := decide (ASCII_ZERO ≤ char.toNat ∧ char.toNat ≤ ASCII_NINE)

/-- The longest text that pydantic reads as an integer. -/
def INT_PARSING_SIZE : ℕ := 4300

/-- How pydantic validates a text for an `int`: a text of decimal digits is their value, unless it is too long. -/
structure IntParsing where
  parse : String → Option ℤ
  digits : ∀ text : String, text ≠ "" → (∀ char ∈ text.toList, isAsciiDigit char) →
    parse text = if text.length ≤ INT_PARSING_SIZE then some (Nat.ofDigitChars 10 text.toList 0 : ℤ) else none

/-- `Literal["user", "admin"]` -/
def Role.ofText? (text : String) : Option Role :=
  if text = "user" then some .user else if text = "admin" then some .admin else none

structure AuthContext where
  companyId : ℕ
  role : Role
  /-- `Field(gt=0)` -/
  positive : 0 < companyId
deriving DecidableEq

section

variable (parsing : IntParsing)

/-- `AuthContext.model_validate`, with `none` for a `ValidationError`. -/
def AuthContext.modelValidate (companyId role : String) : Option AuthContext := do
  let id ← parsing.parse companyId
  let role ← Role.ofText? role
  if positive : 0 < id then some ⟨id.toNat, role, by omega⟩ else none

/-- `text.split(separator, 1)`, of a text that has the separator. -/
def splitOnce (text : String) (separator : Char) : String × String :=
  (String.ofList (text.toList.takeWhile (· ≠ separator)),
    String.ofList (text.toList.dropWhile (· ≠ separator)).tail)

def canonicalCompanyId (companyId : String) : Bool :=
  !companyId.isEmpty && companyId.toList.all isAsciiDigit && decide (companyId.toList.head? ≠ some '0')

def currentCtx (xAuth : Option String) : Except HTTPException AuthContext :=
  match xAuth with
  | none => .error ⟨401, "missing X-Auth"⟩
  | some xAuth =>
      if xAuth.isEmpty || !xAuth.toList.contains ':' then .error ⟨401, "missing X-Auth"⟩
      else
        let (companyId, role) := splitOnce xAuth ':'
        if !canonicalCompanyId companyId then .error ⟨401, "invalid X-Auth"⟩
        else
          match AuthContext.modelValidate parsing companyId role with
          | none => .error ⟨401, "invalid X-Auth"⟩
          | some ctx => .ok ctx

end

end JobRelay.Model
