import LWorkbench.Debugger.Debuggee
import LWorkbench.Debugger.Request

/-!
# Messages from a debugger

Every request is answered by one response, and what happens to the program is told by events. A
message is written as a JSON object that begins with its number and its type; whatever stands inside
the body of a message has its fields in the order of their names.

## Main definitions

* `Response`, `Event`, `Message` — what a debugger sends
* `Answer` — success with or without a body, or why a request failed
* `Message.toJson`, `Message.encode` — the written form, without and with a number
-/

namespace LWorkbench

/-- The only thread there is. -/
def threadId : Nat := 1

/-- What a client gets when a request succeeds. -/
inductive Body where
  | capabilities
  | threads
  | stackTrace (frames : List StackFrame) (total : Nat)
  | scopes (groups : List ScopeGroup)
  | parts (list : List Variable)
  | continued

/-- An error that a client can show to its user. -/
structure ErrorMessage where
  id : Nat
  format : String
  /-- Whether the client should show the error; none leaves it to the client. -/
  showUser : Option Bool
  deriving DecidableEq, Repr

/-- How a request came out. -/
inductive Answer where
  | success (body : Option Body)
  /-- The request is refused with a short reason. -/
  | refusal (reason : String)
  | error (error : ErrorMessage)

/-- The answer to a request. -/
structure Response where
  requestSeq : Int
  command : String
  answer : Answer

/-- Why a program has stopped. -/
inductive StopReason where
  | entry
  | step
  | exception (fault : Fault)
  deriving DecidableEq, Repr

/-- What happens to the program, or to the session. -/
inductive Event where
  | initialized
  | terminated
  | stopped (reason : StopReason)
  /-- The program wrote an error. -/
  | output (text : String)
  deriving DecidableEq, Repr

/-- What a debugger sends. -/
inductive Message where
  | response (r : Response)
  | event (e : Event)

/-! ### Bodies -/

/-- The written form of a frame. -/
def StackFrame.toJson (f : StackFrame) : Json :=
  .record [("id", f.id), ("name", f.name), ("line", f.line), ("column", f.column),
    ("source", .record [("name", FilePath.baseName f.path), ("path", f.path)])]

/-- The written form of a scope of a frame. -/
def ScopeGroup.toJson (g : ScopeGroup) : Json :=
  .record [("name", g.name), ("variablesReference", g.reference), ("expensive", false)]

/-- The written form of a named part. -/
def Variable.toJson (v : Variable) : Json :=
  .record [("name", v.name), ("value", v.value), ("variablesReference", v.reference)]

/-- The written form of a body. -/
def Body.toJson : Body → Json
  | capabilities => .record [("supportsConfigurationDoneRequest", true)]
  | threads => .record [("threads", .array [.record [("id", threadId), ("name", "thread 1")]])]
  | stackTrace frames total =>
    .record [("stackFrames", .ofList StackFrame.toJson frames), ("totalFrames", total)]
  | scopes groups => .record [("scopes", .ofList ScopeGroup.toJson groups)]
  | parts list => .record [("variables", .ofList Variable.toJson list)]
  | continued => .record [("allThreadsContinued", true)]

/-- The written form of an error. -/
def ErrorMessage.toJson (e : ErrorMessage) : Json :=
  .record ([("id", Json.int e.id), ("format", e.format)] ++
    Json.optional "showUser" .bool e.showUser)

namespace Answer

/-- Whether the request succeeded. -/
def isSuccess : Answer → Bool
  | success _ => true
  | _ => false

/-- The error of a failed request, if it has one that can be shown. -/
def error? : Answer → Option ErrorMessage
  | error e => some e
  | _ => none

/-- The reason why a request failed. -/
def reason? : Answer → Option String
  | success _ => none
  | refusal reason => some reason
  | error e => some e.format

/-- The body of a response. -/
def body? : Answer → Option Json
  | success body => body.map Body.toJson
  | refusal _ => none
  | error e => some (.record [("error", e.toJson)])

end Answer

/-! ### Events -/

/-- The word for a reason. -/
def StopReason.word : StopReason → String
  | entry => "entry"
  | step => "step"
  | exception _ => "exception"

/-- The fault that stopped the program. -/
def StopReason.fault? : StopReason → Option Fault
  | exception fault => some fault
  | _ => none

namespace Event

/-- The name of an event. -/
def name : Event → String
  | initialized => "initialized"
  | terminated => "terminated"
  | stopped _ => "stopped"
  | output _ => "output"

/-- The body of an event. A fault is told twice, as a description and as a text. -/
def body? : Event → Option Json
  | initialized | terminated => none
  | stopped reason =>
    let fault := reason.fault?.map Fault.message
    some (.record ([("reason", Json.string reason.word), ("threadId", threadId),
      ("allThreadsStopped", true)] ++ Json.optional "description" .string fault ++
      Json.optional "text" .string fault))
  | output text => some (.record [("category", "stderr"), ("output", text)])

end Event

/-! ### Messages -/

namespace Message

/-- The fields of a message behind its number. -/
def fields : Message → List (String × Json)
  | response r =>
    [("type", Json.string "response"), ("request_seq", .int r.requestSeq),
      ("success", r.answer.isSuccess), ("command", r.command)] ++
      Json.optional "message" .string r.answer.reason? ++
      Json.optional "body" id r.answer.body?
  | event e => [("type", Json.string "event"), ("event", e.name)] ++ Json.optional "body" id e.body?

/-- The written form of a message without a number. -/
def toJson (m : Message) : Json := .object m.fields

/-- The text of the message with the given number. -/
def encode (seq : Nat) (m : Message) : String :=
  (Json.object (("seq", .int seq) :: m.fields)).compact

end Message

end LWorkbench
