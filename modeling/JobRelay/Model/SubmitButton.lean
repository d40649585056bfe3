import JobRelay.Model.Routes

/-! # The submit button over the services

The page sends `POST /jobs` under the `Idempotency-Key` that it holds, one request at a time, and draws a new
key when it has read a created job. A session is the page beside a deployment of the services: a click starts
the request on one of the API's connections, and its response reaches the page or is lost, while everything
else goes on.
-/

namespace JobRelay.Model

namespace Web

/-- What `post` throws: an `ApiError`, or something else. -/
inductive Thrown where
  | apiError (status : ℕ) (detail : String)
  | error (message : String)

def parseError (reply : Reply) : Thrown :=
  let fallback := "Erro " ++ toString reply.status
  match reply.body with
  | some (.object row) =>
      match property row "detail" with
      | .string detail => .apiError reply.status detail
      | _ => .apiError reply.status fallback
  | _ => .apiError reply.status fallback

/-- `post` once the request is sent; no reply means that `fetch` failed. -/
def post {α : Type} (reply : Option Reply) (parse : Value → Except String α) : Except Thrown α :=
  match reply with
  | none => throw (.error "Failed to fetch")
  | some reply =>
      if reply.ok then
        match reply.body with
        | some value => (parse value).mapError Thrown.error
        | none => throw (.error "Unexpected token in JSON")
      else throw (parseError reply)

inductive Tone where
  | success | error
deriving DecidableEq

structure Toast where
  tone : Tone
  title : String
  text : String
deriving DecidableEq

/-- The state of `SubmitButton`: whose jobs it creates, `idempotencyKey.current`, the connection that serves
the request it waits for, and the toasts it has shown. -/
structure SubmitButton where
  companyId : ℕ
  principal : String
  idempotencyKey : String
  pending : Option ℕ
  toasts : List Toast

namespace SubmitButton

def request (button : SubmitButton) (traceId : Option String) : Request :=
  .createJob button.companyId "report" traceId button.idempotencyKey (some button.principal)

/-- `submit` after its `await`; `uuid` is what `crypto.randomUUID()` draws. -/
def settle (button : SubmitButton) (reply : Option Reply) (uuid : String) : SubmitButton :=
  match post reply parseJobCreated with
  | .ok job =>
      { button with
        idempotencyKey := uuid
        toasts := button.toasts ++
          [⟨.success, "Job #" ++ toString job.id ++ " criado", "Na fila para processamento."⟩]
        pending := none }
  | .error thrown =>
      let text := match thrown with
        | .apiError _ detail => detail
        | .error _ => "erro inesperado"
      { button with
        toasts := button.toasts ++ [⟨.error, "Não foi possível criar o job", text⟩]
        pending := none }

end SubmitButton

end Web

open Web Sessions

/-- A page and the services behind it. -/
structure Session where
  world : Service
  button : SubmitButton

inductive SessionEvent where
  /-- Any step of the services. -/
  | service (step : Step)
  | click (pid : ℕ) (traceId : Option String)
  | deliver (uuid : String)
  | lose

/-- The process whose call a step ends. -/
def finishes? : Step → Option ℕ
  | .finish pid => some pid
  | _ => none

namespace Session

/-- One event. The response of the request that the page waits for is sent when it is delivered; a key
that is drawn is not the one in use. -/
def step (admits : Request → Bool) (session : Session) : SessionEvent → Option Session
  | .service action =>
      if session.button.pending.isSome ∧ finishes? action = session.button.pending then none
      else (session.world.step (service admits) action).map fun world => ⟨world, session.button⟩
  | .click pid traceId =>
      if session.button.pending.isSome then none
      else
        (session.world.step (service admits) (.start pid (.request (session.button.request traceId)))).map
          fun world => ⟨world, { session.button with pending := some pid }⟩
  | .deliver uuid =>
      if uuid = session.button.idempotencyKey then none
      else
        session.button.pending.bind fun pid => (answer? session.world pid).bind fun (_, result) =>
          (session.world.step (service admits) (.finish pid)).map fun world =>
            ⟨world, session.button.settle (some (createJobReply result)) uuid⟩
  | .lose => session.button.pending.map fun _ => { session with button := session.button.settle none "" }

def run (admits : Request → Bool) (session : Session) (events : List SessionEvent) : Option Session :=
  events.foldlM (step admits) session

end Session

end JobRelay.Model
