import Scad.Json.Writer
import Scad.Rpc.Params

/-!
# Scad.Rpc

The server as a service for JSON-RPC messages. Before it is initialized it refuses everything else,
after shutdown it refuses everything, and after exit it is gone.

* `Rpc.Service.call`: the service after a message, its response, and the messages it sent meanwhile.
-/

namespace Scad
namespace Rpc

/-- The life of a service. -/
inductive Phase where
  | uninitialized
  | initialized
  | shutDown
  | exited
  deriving DecidableEq, Repr

/-- A service: its phase, the number of its next own request, and the conversation. -/
structure Service where
  phase : Phase
  nextId : Nat
  session : Session

/-- A message from the client. Only a request has an id. -/
structure Request where
  method : String
  params : Option Json
  id : Option Json

/-- The message that a JSON object writes. An id that is `null` is one, and so are parameters. -/
def Request.ofJson (j : Json) : Request :=
  ⟨(j.member "method").str?.getD "", j.get? "params", j.get? "id"⟩

/-- A refusal. -/
inductive Refusal where
  | invalidRequest
  | methodNotFound (data : Option String)
  | invalidParams (reason : String)
  | notInitialized
  | failed (e : ServerError)
  deriving DecidableEq, Repr

namespace Refusal

/-- The number of a refusal. -/
def code : Refusal → Int
  | .invalidRequest => -32600
  | .methodNotFound _ => -32601
  | .invalidParams _ => -32602
  | .notInitialized => -32002
  | .failed e => e.code

/-- The text of a refusal. -/
def message : Refusal → String
  | .invalidRequest => "Invalid request"
  | .methodNotFound _ => "Method not found"
  | .invalidParams reason => reason
  | .notInitialized => "Server not initialized"
  | .failed e => e.message

/-- A refusal in a message. -/
def toJson (r : Refusal) : Json :=
  let data :=
    match r with
    | .methodNotFound data => data
    | _ => none
  .ofPairs [("code", some (.int r.code)), ("message", some (.str r.message)),
    ("data", data.map Json.str)]

end Refusal

/-- The outcome of a message: a result, a refusal, or nothing to say. -/
inductive Outcome where
  | result (value : Json)
  | refused (r : Refusal)
  | silent

/-- The response to a message with the given id. Without an id there is none. -/
def Outcome.response (id : Option Json) (o : Outcome) : Option Json :=
  match id, o with
  | some id, .result value =>
    some (.obj [("jsonrpc", .str "2.0"), ("result", value), ("id", id)])
  | some id, .refused r =>
    some (.obj [("jsonrpc", .str "2.0"), ("error", r.toJson), ("id", id)])
  | _, _ => none

/-- A notification to the client. -/
def notification (method : String) (params : Json) : Json :=
  .obj [("jsonrpc", .str "2.0"), ("method", .str method), ("params", params)]

/-- A request to the client. -/
def request (id : Nat) (method : String) (params : Json) : Json :=
  .obj [("jsonrpc", .str "2.0"), ("method", .str method), ("params", params), ("id", .nat id)]

/-- The messages of the server as they are sent, requests numbered from `id`, and the next number.
-/
def encode (id : Nat) : List Message → Nat × List Json
  | [] => (id, [])
  | .publish uri diagnostics version :: rest =>
    let (next, sent) := encode id rest
    let params := Json.ofPairs [("uri", some (.str uri.text)),
      ("diagnostics", some (.arr (diagnostics.map Diagnostic.toJson))),
      ("version", version.map .int)]
    (next, notification "textDocument/publishDiagnostics" params :: sent)
  | .register :: rest =>
    let (next, sent) := encode (id + 1) rest
    let registration : Json :=
      .obj [("id", .str Message.registrationId), ("method", .str Message.registeredMethod)]
    (next, request id "client/registerCapability" (.obj [("registrations", .arr [registration])])
      :: sent)
  | .configuration scope :: rest =>
    let (next, sent) := encode (id + 1) rest
    let item : Json :=
      .obj [("scopeUri", .str scope.text), ("section", .str Settings.sectionName)]
    (next, request id "workspace/configuration" (.obj [("items", .arr [item])]) :: sent)

/-- The outcome that the server's reply amounts to. -/
def Outcome.ofReply : Session.Reply → Outcome
  | .silent => .silent
  | .failed e => .refused (.failed e)
  | reply => .result reply.toJson

namespace Service

/-- The service before the first message. The client gives `answer` when it is asked for settings.
-/
def initial (disk : Disk) (answer : ClientAnswer) : Service :=
  ⟨.uninitialized, 0, ⟨.initial, disk, answer⟩⟩

/-- A step of the conversation. -/
def perform (s : Service) (x : Session.Step) : Service × Outcome × List Json :=
  let (session, reply, messages) := s.session.step x
  let (nextId, sent) := encode s.nextId messages
  ({ s with session, nextId }, .ofReply reply, sent)

/-- A message whose method takes parameters. They must have their shape, and what the server does
not implement it refuses. -/
def dispatch (s : Service) (r : Request) : Service × Outcome × List Json :=
  match r.params with
  | none => (s, .refused (.invalidParams "Missing params field"), [])
  | some params =>
    match ((shapeOf? r.method).getD .any).read params with
    | .error misfit => (s, .refused (.invalidParams misfit.message), [])
    | .ok params =>
      match step? r.method params with
      | none => (s, .refused (.methodNotFound none), [])
      | some x => s.perform x

/-- The end of the conversation, which takes no parameters. -/
def shutdown (s : Service) (r : Request) : Service × Outcome × List Json :=
  match r.params with
  | some params => (s, .refused (.invalidParams ("Unexpected params: " ++ params.render)), [])
  | none => s.perform .shutdown

/-- The refusal of a message in a phase in which it cannot be served. -/
def refusal (s : Service) : Refusal :=
  if s.phase = .uninitialized then .notInitialized else .invalidRequest

/-- The outcome of a message whose method is known and whose form is right. -/
def serve (s : Service) (r : Request) : Service × Outcome × List Json :=
  if r.method = "initialize" then
    if s.phase = .uninitialized then
      match s.dispatch r with
      | (s, .result value, sent) => ({ s with phase := .initialized }, .result value, sent)
      | other => other
    else (s, .refused .invalidRequest, [])
  else if s.phase = .initialized then
    if r.method = "shutdown" then shutdown { s with phase := .shutDown } r else s.dispatch r
  else (s, .refused s.refusal, [])

/-- The outcome of a message to a service that has not exited. A request without an id and a
notification with one are not served, but shutdown takes effect all the same. -/
def handle (s : Service) (r : Request) : Service × Outcome × List Json :=
  if r.method = "exit" then ({ s with phase := .exited }, .silent, [])
  else if requests.contains r.method then
    if r.id.isSome then s.serve r
    else if r.method = "shutdown" ∧ s.phase = .initialized then
      ({ s with phase := .shutDown }, .silent, [])
    else (s, .silent, [])
  else if r.method = "$/cancelRequest" then
    (s, if r.id.isSome then .refused .invalidRequest else .silent, [])
  else if notifications.contains r.method then
    if s.phase = .initialized then
      if r.id.isSome then (s, .refused .invalidRequest, []) else s.dispatch r
    else (s, .refused s.refusal, [])
  else if "$/".toList.isPrefixOf r.method.toList then (s, .silent, [])
  else (s, .refused (.methodNotFound (some r.method)), [])

/-- The service after a message, the response to it, and what was sent meanwhile; nothing once the
service has exited. -/
def call (s : Service) (j : Json) : Option (Service × Option Json × List Json) :=
  if s.phase = .exited then none
  else
    let r := Request.ofJson j
    let (s, outcome, sent) := s.handle r
    some (s, outcome.response r.id, sent)

end Service
end Rpc
end Scad
