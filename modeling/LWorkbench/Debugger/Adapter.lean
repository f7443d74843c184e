import LWorkbench.Debugger.Session
import LWorkbench.Framing

/-!
# Debug adapters

An adapter joins a session to a stream. It reads framed requests until the stream ends or is broken,
skips messages that are no requests, has the session answer them until the client disconnects, and
writes the answers framed and numbered from one on.

## Main definitions

* `Adapter.requests` — the requests in a stream
* `Adapter.converse?` — the messages with which a session answers requests
* `Adapter.write` — messages framed and numbered
* `Adapter.serve?` — everything an adapter writes for a stream
-/

namespace LWorkbench.Adapter

/-- The requests in a stream of bytes, up to its end or the first broken frame. -/
def requests (input : List UInt8) : List Request :=
  (Framing.messages input).1.filterMap Request.ofText?

/-- The messages with which a session answers requests, up to the one that disconnects; none if a
request takes more than `fuel` steps. -/
def converse? (read : String → Except ReadError String) (fuel : Nat) (s : Session) :
    List Request → Option (List Message)
  | [] => some []
  | request :: rest =>
    match s.handle? read fuel request with
    | none => none
    | some (s, reply) =>
      let messages := Session.messages request reply
      if s.disconnected then some messages
      else (converse? read fuel s rest).map (messages ++ ·)

/-- The messages framed one after another, numbered in order. -/
def write (messages : List Message) : String :=
  String.join (messages.zipIdx.map fun (message, i) => Framing.frame (message.encode (i + 1)))

/-- Everything that is written for a stream of bytes; none if a request takes more than `fuel`
steps. -/
def serve? (read : String → Except ReadError String) (fuel : Nat) (input : List UInt8) :
    Option String :=
  (converse? read fuel (.start false) (requests input)).map write

end LWorkbench.Adapter
