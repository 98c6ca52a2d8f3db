import StageFusion.Json.Reader
import StageFusion.Json.Wire
import StageFusion.Service.Answer
import StageFusion.Service.Body
import StageFusion.Service.Target

/-! The fusion checker over HTTP.

Every path has one method. A body is read as a JSON object whose fields must have the right sorts;
one that does not fit is answered with status 422 and the misfits. The action is carried out over
the builtin registry, and an answer with an error has status 400. An answer that cannot be sent
fails, and an answer to the method HEAD has no body. -/

namespace StageFusion.Service

structure HttpRequest where
  method : String
  target : String
  body : List UInt8

structure HttpResponse where
  status : Nat
  /-- What is in the body, if there is one. -/
  body : Option Value

namespace HttpResponse

def withBody (status : Nat) (body : Value) : HttpResponse :=
  ⟨status, some body⟩

def withDetail (status : Nat) (detail : Value) : HttpResponse :=
  withBody status (.dict [("detail", detail)])

def notJson : HttpResponse :=
  withDetail 422 (.list [.dict [("type", .str "json_invalid"), ("loc", .list bodyPlace),
    ("msg", .str "JSON decode error"), ("input", .dict [])]])

/-- The answer to a body that cannot be read at all. -/
def unreadable : HttpResponse :=
  withDetail 400 (.str "There was an error parsing the body")

def ofMisfits (misfits : List Misfit) : HttpResponse :=
  withDetail 422 (.list (misfits.map (·.report)))

/-- The answer of an action: a bad request if it reports an error. -/
def ofAnswer (answer : Value) : HttpResponse :=
  withBody (if (answer.field? "error").isSome then 400 else 200) answer

/-- What a client reads from the body. -/
def content (r : HttpResponse) : Except Fault Value :=
  match r.body with
  | some v => .ok v
  | none => .error .emptyJson

end HttpResponse

/-- What is behind a path. -/
inductive Endpoint where
  | health
  | operators
  /-- An action with the reader of its request from the fields of a body. -/
  | action (read : Value → Reading Value)

/-- The paths, each with its method. -/
def endpoints : List (String × String × Endpoint) :=
  [("/api/health", "GET", .health),
    ("/api/operators", "GET", .operators),
    ("/api/check", "POST", .action readCheck),
    ("/api/optimize", "POST", .action readOptimize),
    ("/api/bound", "POST", .action readProduct)]

/-- The value in the bytes of a body; no bytes are null. -/
def bodyValue (body : List UInt8) : Except Json.Refusal Value :=
  if body.isEmpty then .ok .null else Json.readBytes body

/-- Answers a body with the action that it asks for. -/
def respondToBody (read : Value → Reading Value) (body : List UInt8) :
    Logged Event HttpResponse :=
  match bodyValue body with
  | .error .malformed => return .notJson
  | .error _ => return .unreadable
  | .ok v =>
    match readBody read v with
    | .ok request => HttpResponse.ofAnswer <$> answer .builtin request
    | .error misfits => return .ofMisfits misfits

def respondAt (endpoint : Endpoint) (body : List UInt8) : Logged Event HttpResponse :=
  match endpoint with
  | .health => return .withBody 200 (.dict [("status", .str "ok")])
  | .operators =>
    HttpResponse.ofAnswer <$> answer .builtin (.dict [("action", .str "list_ops")])
  | .action read => respondToBody read body

/-- The answer to a request, before it is sent. -/
def answerHttp (method path : String) (body : List UInt8) : Logged Event HttpResponse :=
  match endpoints.lookup path with
  | none => return .withDetail 404 (.str "Not Found")
  | some (wanted, endpoint) =>
    if wanted = method then respondAt endpoint body
    else return .withDetail 405 (.str "Method Not Allowed")

/-- Answers a request. Methods are named in either case. -/
def respond (request : HttpRequest) : Logged Event HttpResponse := do
  let method := request.method.toUpper
  let response ← answerHttp method (pathOf request.target) request.body
  if let some body := response.body then
    let _ ← liftM (sendValue body)
  return if method = "HEAD" then ⟨response.status, none⟩ else response

end StageFusion.Service
