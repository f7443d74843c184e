import LWorkbench.Editor.ClientShape
import LWorkbench.Editor.Params
import LWorkbench.Editor.RequestShape

/-!
# The language server

A server takes messages of a client, each a request, which wants an answer, or a notification, which
does not. A session begins with a request to start and ends with one to shut down and a notification
to exit; what comes at the wrong time or cannot be read is refused if it is a request and ignored if
it is not.

## Main definitions

* `Incoming` — a message of a client
* `Server` — a workspace and the phase of the session
* `RpcError` — why a request is refused
* `Server.receive` — what follows from a message
-/

namespace LWorkbench

/-- A message of a client. -/
structure Incoming where
  method : String
  params : Option Json
  isRequest : Bool

/-- The phase of a session. -/
inductive Phase where
  | beforeStart
  | running
  | shutDown
  | exited
  deriving DecidableEq, Repr

/-- Why a request is refused. -/
inductive RpcError where
  | notStarted
  | invalidRequest
  | unknownMethod
  | invalidParams
  deriving DecidableEq, Repr

/-- The number of an error. -/
def RpcError.code : RpcError → Int
  | notStarted => -32002
  | invalidRequest => -32600
  | unknownMethod => -32601
  | invalidParams => -32602

/-- What a client gets for a message. -/
inductive Receipt where
  /-- A notification wants no answer. -/
  | silent
  | result (value : Json)
  | refused (error : RpcError)
  /-- The session is over. -/
  | exited

/-- A language server. -/
structure Server where
  phase : Phase
  workspace : Workspace

namespace Server

/-- A server that has received nothing. -/
def start : Server := ⟨.beforeStart, .empty⟩

/-- What the server can do. -/
def capabilities : Json :=
  .record [
    ("capabilities", .record [
      ("textDocumentSync", .int 2), ("hoverProvider", true), ("definitionProvider", true),
      ("referencesProvider", true), ("documentHighlightProvider", true),
      ("documentSymbolProvider", true),
      ("diagnosticProvider", .record [("identifier", languageName),
        ("interFileDependencies", false), ("workspaceDiagnostics", false)])]),
    ("serverInfo", .record [("name", "L Language Server"), ("version", "0.2.0")])]

/-- The answer to a request, and nothing for a notification. -/
def respond (message : Incoming) (outcome : Except RpcError Json) : Receipt :=
  if message.isRequest then
    match outcome with
    | .ok value => .result value
    | .error e => .refused e
  else .silent

/-- Why a message that only a running session takes is refused, if it is. -/
def phaseError? : Phase → Option RpcError
  | .beforeStart => some .notStarted
  | .running => none
  | .shutDown => some .invalidRequest
  | .exited => some .invalidRequest

/-- Starts the session. -/
def begin (s : Server) (message : Incoming) : Server × Receipt :=
  if s.phase != .beforeStart then (s, respond message (.error .invalidRequest))
  else
    match message.params.filter Shape.greeting with
    | none => (s, respond message (.error .invalidParams))
    | some _ =>
      ({ s with phase := if message.isRequest then .running else s.phase },
        respond message (.ok capabilities))

/-- Shuts the session down. -/
def shutDown (s : Server) (message : Incoming) : Server × Receipt :=
  match phaseError? s.phase with
  | some e => (s, respond message (.error e))
  | none =>
    ({ s with phase := .shutDown },
      respond message (if message.params.isNone then .ok .null else .error .invalidParams))

/-- The answer to a request whose parameters must have a shape. -/
def answer (s : Server) (shape : Shape) (message : Incoming) : Except RpcError Json :=
  match message.params.filter shape with
  | none => .error .invalidParams
  | some params =>
    match Question.ofParams? message.method params with
    | none => .error .unknownMethod
    | some question => .ok (s.workspace.answer question)

/-- Takes a notification in a running session, where `answer` is how the client answers a request
for its configuration. One that cannot be read is ignored. -/
def notify (s : Server) (answer : Option (List Json)) (notice : Option Notice) :
    Server × List Outgoing :=
  match notice with
  | none => (s, [])
  | some notice =>
    let (workspace, sent) := s.workspace.notify answer notice
    ({ s with workspace }, sent)

/-- Takes a message in a running session, where `answer` is how the client answers a request for its
configuration. -/
def process (s : Server) (answer : Option (List Json)) (message : Incoming) :
    Server × Receipt × List Outgoing :=
  match Shape.request? message.method with
  | some shape => (s, respond message (s.answer shape message), [])
  | none =>
    match Notice.ofParams? message.method (message.params.getD .null) with
    | some notice =>
      if message.isRequest then (s, .refused .invalidRequest, [])
      else
        let (s, sent) := s.notify answer notice
        (s, .silent, sent)
    | none => (s, respond message (.error .invalidRequest), [])

/-- Whether the protocol has a method, whatever the server does about it. -/
def knows (method : String) : Bool :=
  (Shape.request? method).isSome || (Notice.ofParams? method .null).isSome ||
    unsupportedNotifications.contains method

/-- What a client gets for a message with an unknown method. Methods that begin with a dollar sign
and a slash may be ignored by anyone. -/
def unknown (message : Incoming) : Receipt :=
  if "$/".isPrefixOf message.method then .silent
  else respond message (.error .unknownMethod)

/-- What follows from a message, where `answer` is how the client answers a request for its
configuration. -/
def receive (s : Server) (answer : Option (List Json)) (message : Incoming) :
    Server × Receipt × List Outgoing :=
  if s.phase = .exited then (s, .exited, [])
  else
    match message.method with
    | "initialize" => let (s, receipt) := s.begin message; (s, receipt, [])
    | "shutdown" => let (s, receipt) := s.shutDown message; (s, receipt, [])
    | "exit" => ({ s with phase := .exited }, .silent, [])
    | "$/cancelRequest" => (s, respond message (.error .invalidRequest), [])
    | method =>
      if knows method then
        match phaseError? s.phase with
        | some e => (s, respond message (.error e), [])
        | none => s.process answer message
      else (s, unknown message, [])

end Server

/-- The method and the parameters of what is sent to a client. -/
def Outgoing.toJson : Outgoing → Json
  | logMessage text =>
    .record [("method", "window/logMessage"),
      ("params", .record [("type", .int 3), ("message", text)])]
  | configuration =>
    .record [("method", "workspace/configuration"),
      ("params", .record [("items", .array [.record [("section", "l.lsp")]])])]
  | publish uri diagnostics version =>
    .record [("method", "textDocument/publishDiagnostics"),
      ("params", .record ([("uri", .string uri.render),
        ("diagnostics", .ofList Diagnostic.toJson diagnostics)] ++
        Json.optional "version" .int version))]

end LWorkbench
