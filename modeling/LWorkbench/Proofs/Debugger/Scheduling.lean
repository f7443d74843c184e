import LWorkbench.Debugger.Adapter
import LWorkbench.Proofs.Debugger.Conversations
import Mathlib.Data.Prod.Lex
import Mathlib.Logic.Relation

/-!
# Scheduling

An adapter is three parties that work at the same time. The reader takes requests off the stream and
puts them into a queue; the handler answers them and puts its messages into another queue; the writer
numbers these and writes them. When a client says that it is configured, the reader opens a gate
before it passes the request on, and a launch waits for the gate until its patience ends. The reader
is told to stop when the handler has ended.

However the steps of the parties are interleaved, what has been written in the end is the same, and
it is what answering the requests one after another gives.

## Main definitions

* `Adapter.Reader`, `Adapter.Handler`, `Adapter.Parties` — where the parties stand, with the queues
* `Adapter.Parties.Step` — one step of one of the parties
* `Adapter.Parties.Results` — the messages that there will be in the end
* `Adapter.untilDisconnect` — requests up to the first one that disconnects

## Main results

* `Adapter.converse?_eq` — answering requests, as a conversation
* `Adapter.Parties.Step.results_iff` — no step changes the messages that there will be
* `Adapter.Parties.wellFounded_step` — no run goes on for ever
* `Adapter.Parties.exists_step`, `Adapter.Parties.Reachable.exists_completion` — a run that has not
  come to its end can go on
* `Adapter.Parties.Reachable.output_independent` — what has been written in the end
-/

namespace LWorkbench.Adapter

/-! ### The parties -/

/-- Where the reader stands. -/
inductive Reader where
  | reading (bytes : List UInt8)
  /-- A request has been read. -/
  | decoded (request : Request) (rest : List UInt8)
  /-- The gate has been opened, if the request is to open it. -/
  | announced (request : Request) (rest : List UInt8)
  | ended

/-- Where the handler stands. -/
inductive Handler where
  | waiting (s : Session)
  | handling (s : Session) (request : Request)
  /-- A request has been answered, and the messages are passed on. -/
  | sending (s : Session) (messages : List Message)
  | ended (s : Session)

/-- The parties with the gate and the two queues between them. -/
structure Parties where
  reader : Reader
  gate : Bool
  requests : List Request
  handler : Handler
  messages : List Message
  /-- The number of the next message. -/
  seq : Nat
  /-- What has been written, each message with its number. -/
  written : List (Nat × Message)
  /-- The writer has ended. -/
  closed : Bool

namespace Parties

/-- All parties at their beginning. -/
def start (input : List UInt8) : Parties where
  reader := .reading input
  gate := false
  requests := []
  handler := .waiting (.start false)
  messages := []
  seq := 1
  written := []
  closed := false

/-- What has been written, as a text. -/
def output (parties : Parties) : String :=
  String.join (parties.written.map fun (seq, message) => Framing.frame (message.encode seq))

/-- One step of one of the parties. A program that is run by a request may take any number of steps
of its own, but it has to come to an end. -/
inductive Step (read : String → Except ReadError String) (parties : Parties) : Parties → Prop
  | decode {bytes rest : List UInt8} {content : String} {request : Request}
      (hreader : parties.reader = .reading bytes)
      (hnext : Framing.next? bytes = .ok (some (content, rest)))
      (hrequest : Request.ofText? content = some request) :
      Step read parties { parties with reader := .decoded request rest }
  /-- A message that is no request is skipped. -/
  | skip {bytes rest : List UInt8} {content : String} (hreader : parties.reader = .reading bytes)
      (hnext : Framing.next? bytes = .ok (some (content, rest)))
      (hrequest : Request.ofText? content = none) :
      Step read parties { parties with reader := .reading rest }
  /-- The stream has ended, or is broken. -/
  | stop {bytes : List UInt8} (hreader : parties.reader = .reading bytes)
      (hnext : ∀ content rest, Framing.next? bytes ≠ .ok (some (content, rest))) :
      Step read parties { parties with reader := .ended }
  | announce {request : Request} {rest : List UInt8}
      (hreader : parties.reader = .decoded request rest) :
      Step read parties { parties with
        reader := .announced request rest
        gate := parties.gate || request.command == "configurationDone" }
  | enqueue {request : Request} {rest : List UInt8}
      (hreader : parties.reader = .announced request rest) :
      Step read parties { parties with
        reader := .reading rest
        requests := parties.requests ++ [request] }
  /-- The reader is stopped because the handler has ended. -/
  | abort {s : Session} (hhandler : parties.handler = .ended s) (hreader : parties.reader ≠ .ended) :
      Step read parties { parties with reader := .ended }
  | take {s : Session} {request : Request} {rest : List Request}
      (hhandler : parties.handler = .waiting s) (hrequests : parties.requests = request :: rest) :
      Step read parties { parties with handler := .handling s request, requests := rest }
  /-- There are no more requests. -/
  | finish {s : Session} (hhandler : parties.handler = .waiting s)
      (hrequests : parties.requests = []) (hreader : parties.reader = .ended) :
      Step read parties { parties with handler := .ended s }
  | answer {s s' : Session} {request : Request} {reply : Reply} {fuel : Nat}
      (hhandler : parties.handler = .handling s request) (hlaunches : request.launches = false)
      (hreply : s.reply? read fuel request = some (s', reply)) :
      Step read parties { parties with handler := .sending s' (Session.messages request reply) }
  /-- A launch finds the gate open. -/
  | launch {s s' : Session} {request : Request} {reply : Reply} {fuel : Nat}
      (hhandler : parties.handler = .handling s request) (hlaunches : request.launches = true)
      (hgate : parties.gate = true)
      (hreply : { s with configured := true }.reply? read fuel request = some (s', reply)) :
      Step read parties { parties with handler := .sending s' (Session.messages request reply) }
  /-- A launch has waited for too long. The gate may have been opened at the last moment. -/
  | timeOut {s s' : Session} {request : Request} {reply : Reply} {fuel : Nat}
      (hhandler : parties.handler = .handling s request) (hlaunches : request.launches = true)
      (hreply : { s with configured := false }.reply? read fuel request = some (s', reply)) :
      Step read parties { parties with handler := .sending s' (Session.messages request reply) }
  | send {s : Session} {message : Message} {messages : List Message}
      (hhandler : parties.handler = .sending s (message :: messages)) :
      Step read parties { parties with
        handler := .sending s messages
        messages := parties.messages ++ [message] }
  | next {s : Session} (hhandler : parties.handler = .sending s [])
      (hconnected : s.disconnected = false) :
      Step read parties { parties with handler := .waiting s }
  | leave {s : Session} (hhandler : parties.handler = .sending s [])
      (hdisconnected : s.disconnected = true) :
      Step read parties { parties with handler := .ended s }
  | write {message : Message} {messages : List Message} (hopen : parties.closed = false)
      (hmessages : parties.messages = message :: messages) :
      Step read parties { parties with
        messages
        seq := parties.seq + 1
        written := parties.written ++ [(parties.seq, message)] }
  /-- There are no more messages. -/
  | close {s : Session} (hopen : parties.closed = false) (hmessages : parties.messages = [])
      (hhandler : parties.handler = .ended s) :
      Step read parties { parties with closed := true }

end Parties

/-! ### Answering one after another -/

section

variable {read : String → Except ReadError String} {fuel more : Nat} {s s' t : Session}
  {request : Request} {reply : Reply} {requests : List Request}

/-- The messages for the requests that come after a turn, if any are answered. -/
def after? (read : String → Except ReadError String) (fuel : Nat) (s : Session)
    (requests : List Request) : Option (List Message) :=
  if s.disconnected then some [] else converse? read fuel s requests

theorem converse?_cons : converse? read fuel s (request :: requests) =
    (s.handle? read fuel request).bind fun r =>
      (after? read fuel r.1 requests).map (Session.messages request r.2 ++ ·) := by
  rw [converse?]
  cases s.handle? read fuel request with
  | none => rfl
  | some r =>
    obtain ⟨s', reply⟩ := r
    dsimp only [Option.bind_some, after?]
    split
    · rw [Option.map_some, List.append_nil]
    · rfl

theorem converse?_mono {messages : List Message}
    (h : converse? read fuel s requests = some messages) (hle : fuel ≤ more) :
    converse? read more s requests = some messages := by
  induction requests generalizing s messages with
  | nil => exact h
  | cons request requests ih =>
    rw [converse?_cons] at h ⊢
    obtain ⟨⟨s', reply⟩, hhandle, hrest⟩ := Option.bind_eq_some_iff.1 h
    obtain ⟨others, hothers, rfl⟩ := Option.map_eq_some_iff.1 hrest
    refine Option.bind_eq_some_iff.2 ⟨_, Session.reply?_mono hhandle hle,
      Option.map_eq_some_iff.2 ⟨others, ?_, rfl⟩⟩
    rw [after?] at hothers ⊢
    split at hothers
    · rename_i hdisconnected
      rw [if_pos hdisconnected]
      exact hothers
    · rename_i hconnected
      rw [if_neg hconnected]
      exact ih hothers

theorem after?_mono {messages : List Message} (h : after? read fuel s requests = some messages)
    (hle : fuel ≤ more) : after? read more s requests = some messages := by
  rw [after?] at h ⊢
  split at h
  · rename_i hdisconnected
    rw [if_pos hdisconnected]
    exact h
  · rename_i hconnected
    rw [if_neg hconnected]
    exact converse?_mono h hle

/-- Twins answer with the same messages. -/
theorem converse?_eq_of_twins (h : s.Twins t) :
    converse? read fuel s requests = converse? read fuel t requests := by
  induction requests generalizing s t with
  | nil => rfl
  | cons request requests ih =>
    rw [converse?_cons, converse?_cons]
    cases hhandle : s.handle? read fuel request with
    | none =>
      cases hhandle' : t.handle? read fuel request with
      | none => rfl
      | some r =>
        obtain ⟨_, _, hsome, -⟩ := h.symm.handle? hhandle'
        rw [hhandle] at hsome
        cases hsome
    | some r =>
      obtain ⟨s', reply⟩ := r
      obtain ⟨t', reply', hhandle', h', hmessages⟩ := h.handle? hhandle
      rw [hhandle', Option.bind_some, Option.bind_some, hmessages, after?, after?,
        h'.disconnected, ih h']

theorem after?_eq_of_twins (h : s.Twins t) :
    after? read fuel s requests = after? read fuel t requests := by
  rw [after?, after?, h.disconnected, converse?_eq_of_twins h]

/-- The messages when the answer to the first request is known, whatever the gate was. -/
theorem converse?_of_reply (hreply : t.reply? read fuel request = some (s', reply))
    (h : t.Twins s) (hle : fuel ≤ more) : converse? read more s (request :: requests) =
      (after? read more s' requests).map (Session.messages request reply ++ ·) := by
  obtain ⟨s₁, reply₁, hhandle, htwins, hmessages⟩ :=
    (h.trans (Session.Twins.notice s request).symm).reply? (Session.reply?_mono hreply hle)
  have hhandle : s.handle? read more request = some (s₁, reply₁) := hhandle
  rw [converse?_cons, hhandle, Option.bind_some, hmessages, after?_eq_of_twins htwins]

/-! ### Requests in a stream -/

theorem requests_of_next {bytes rest : List UInt8} {content : String}
    (h : Framing.next? bytes = .ok (some (content, rest))) :
    Adapter.requests bytes = (Request.ofText? content).toList ++ Adapter.requests rest := by
  rw [Adapter.requests, Framing.messages]
  split
  · rename_i error hnext
    rw [h] at hnext
    cases hnext
  · rename_i hnext
    rw [h] at hnext
    cases hnext
  · rename_i content' rest' hnext
    rw [h] at hnext
    cases hnext
    rw [Adapter.requests, List.filterMap_cons]
    cases Request.ofText? content <;> rfl

theorem requests_of_end {bytes : List UInt8}
    (h : ∀ content rest, Framing.next? bytes ≠ .ok (some (content, rest))) :
    Adapter.requests bytes = [] := by
  rw [Adapter.requests, Framing.messages]
  split
  · rfl
  · rfl
  · rename_i content rest hnext
    exact absurd hnext (h content rest)

end

/-- The requests that the reader will still pass on. -/
def Reader.ahead : Reader → List Request
  | reading bytes => Adapter.requests bytes
  | decoded request rest | announced request rest => request :: Adapter.requests rest
  | ended => []

namespace Parties

variable {read : String → Except ReadError String} {fuel more : Nat} {parties parties' : Parties}
  {messages : List Message}

/-! ### What there will be in the end -/

/-- The requests that the handler has not taken yet. -/
def ahead (parties : Parties) : List Request := parties.requests ++ parties.reader.ahead

/-- The messages that the handler has passed on. -/
def passed (parties : Parties) : List Message :=
  parties.written.map Prod.snd ++ parties.messages

/-- The messages that the handler will still pass on. -/
def remaining? (read : String → Except ReadError String) (fuel : Nat) (parties : Parties) :
    Option (List Message) :=
  match parties.handler with
  | .waiting s => converse? read fuel s parties.ahead
  | .handling s request => converse? read fuel s (request :: parties.ahead)
  | .sending s messages => (after? read fuel s parties.ahead).map (messages ++ ·)
  | .ended _ => some []

/-- All messages that there will be, if no request takes more than `fuel` steps. -/
def total? (read : String → Except ReadError String) (fuel : Nat) (parties : Parties) :
    Option (List Message) :=
  (parties.remaining? read fuel).map (parties.passed ++ ·)

/-- The messages that there will be in the end. -/
def Results (read : String → Except ReadError String) (parties : Parties)
    (messages : List Message) : Prop :=
  ∃ fuel, parties.total? read fuel = some messages

theorem total?_mono (h : parties.total? read fuel = some messages) (hle : fuel ≤ more) :
    parties.total? read more = some messages := by
  obtain ⟨rest, hremaining, heq⟩ := Option.map_eq_some_iff.1 h
  refine Option.map_eq_some_iff.2 ⟨rest, ?_, heq⟩
  unfold remaining? at hremaining ⊢
  cases hhandler : parties.handler with
  | waiting s =>
    simp only [hhandler] at hremaining
    exact converse?_mono hremaining hle
  | handling s request =>
    simp only [hhandler] at hremaining
    exact converse?_mono hremaining hle
  | sending s toSend =>
    simp only [hhandler] at hremaining
    obtain ⟨others, hothers, rfl⟩ := Option.map_eq_some_iff.1 hremaining
    exact Option.map_eq_some_iff.2 ⟨others, after?_mono hothers hle, rfl⟩
  | ended s =>
    simp only [hhandler] at hremaining
    exact hremaining

/-- Parties that come to the same with many steps for each request have the same results. -/
theorem results_congr (fuel : Nat) (h : ∀ more, fuel ≤ more →
    parties.total? read more = parties'.total? read more) :
    parties.Results read messages ↔ parties'.Results read messages := by
  constructor
  · rintro ⟨enough, htotal⟩
    refine ⟨max fuel enough, ?_⟩
    rw [← h _ (Nat.le_max_left _ _)]
    exact total?_mono htotal (Nat.le_max_right _ _)
  · rintro ⟨enough, htotal⟩
    refine ⟨max fuel enough, ?_⟩
    rw [h _ (Nat.le_max_left _ _)]
    exact total?_mono htotal (Nat.le_max_right _ _)

/-- Parties that differ only in where the requests ahead of the handler are have the same results. -/
theorem results_of_ahead_eq (hhandler : parties'.handler = parties.handler)
    (hpassed : parties'.passed = parties.passed) (hahead : parties'.ahead = parties.ahead) :
    parties.Results read messages ↔ parties'.Results read messages := by
  refine results_congr 0 fun more _ => ?_
  rw [total?, total?, remaining?, remaining?, hhandler, hpassed, hahead]

/-- Parties of which one has just answered a request have the same results. -/
theorem results_of_reply {s s' t : Session} {request : Request} {reply : Reply}
    (hhandler : parties.handler = .handling s request)
    (hreply : t.reply? read fuel request = some (s', reply)) (htwins : t.Twins s) :
    parties.Results read messages ↔
      { parties with handler := .sending s' (Session.messages request reply) }.Results read
        messages := by
  refine results_congr fuel fun more hle => ?_
  simp only [total?, remaining?, hhandler]
  rw [converse?_of_reply hreply htwins hle]
  rfl

/-- No step changes the messages that there will be. -/
theorem Step.results_iff (h : Step read parties parties') :
    parties.Results read messages ↔ parties'.Results read messages := by
  cases h with
  | decode hreader hnext hrequest =>
    refine results_of_ahead_eq rfl rfl ?_
    simp only [ahead, hreader, Reader.ahead, requests_of_next hnext, hrequest]
    rfl
  | skip hreader hnext hrequest =>
    refine results_of_ahead_eq rfl rfl ?_
    simp only [ahead, hreader, Reader.ahead, requests_of_next hnext, hrequest]
    rfl
  | stop hreader hnext =>
    refine results_of_ahead_eq rfl rfl ?_
    simp only [ahead, hreader, Reader.ahead, requests_of_end hnext]
  | announce hreader =>
    refine results_of_ahead_eq rfl rfl ?_
    simp only [ahead, hreader, Reader.ahead]
  | enqueue hreader =>
    refine results_of_ahead_eq rfl rfl ?_
    simp only [ahead, hreader, Reader.ahead, List.append_assoc]
    rfl
  | answer hhandler _ hreply => exact results_of_reply hhandler hreply ⟨rfl, rfl⟩
  | launch hhandler _ _ hreply => exact results_of_reply hhandler hreply ⟨rfl, rfl⟩
  | timeOut hhandler _ hreply => exact results_of_reply hhandler hreply ⟨rfl, rfl⟩
  -- All other steps only pass on what is there.
  | abort hhandler hreader =>
    refine results_congr 0 fun more _ => ?_
    simp only [total?, remaining?, hhandler]
    rfl
  | take hhandler hrequests =>
    refine results_congr 0 fun more _ => ?_
    simp only [total?, remaining?, hhandler, ahead, hrequests]
    rfl
  | finish hhandler hrequests hreader =>
    refine results_congr 0 fun more _ => ?_
    simp only [total?, remaining?, hhandler, ahead, hrequests, hreader, Reader.ahead]
    rfl
  | @send s message toSend hhandler =>
    refine results_congr 0 fun more _ => ?_
    simp only [total?, remaining?, hhandler, passed, Option.map_map, ahead]
    congr 1
    funext rest
    simp
  | @next s hhandler hconnected =>
    refine results_congr 0 fun more _ => ?_
    simp only [total?, remaining?, hhandler, after?, hconnected, ahead, passed]
    simp
  | @leave s hhandler hdisconnected =>
    refine results_congr 0 fun more _ => ?_
    simp only [total?, remaining?, hhandler, after?, hdisconnected]
    rfl
  | write hopen hmessages =>
    refine results_congr 0 fun more _ => ?_
    simp only [total?, remaining?, passed, hmessages]
    simp [ahead]
  | close hopen hmessages hhandler => exact results_of_ahead_eq rfl rfl rfl

/-! ### What has been written -/

/-- The numbers of what has been written count from one, and when the writer has ended nothing is
left for it. -/
structure Orderly (parties : Parties) : Prop where
  written : parties.written = (parties.written.map Prod.snd).zipIdx.map fun (message, i) =>
    (i + 1, message)
  seq : parties.seq = parties.written.length + 1
  closed : parties.closed = true → parties.messages = [] ∧ ∃ s, parties.handler = .ended s

theorem orderly_start (input : List UInt8) : (start input).Orderly := ⟨rfl, rfl, nofun⟩

theorem Orderly.step (h : parties.Orderly) (hstep : Step read parties parties') :
    parties'.Orderly := by
  cases hstep with
  | decode | skip | stop | announce | enqueue | abort => exact ⟨h.written, h.seq, h.closed⟩
  | take hhandler | finish hhandler | answer hhandler | launch hhandler | timeOut hhandler
  | send hhandler | next hhandler | leave hhandler =>
    refine ⟨h.written, h.seq, fun hclosed => ?_⟩
    obtain ⟨-, s, hended⟩ := h.closed hclosed
    rw [hhandler] at hended
    cases hended
  | write hopen hmessages =>
    refine ⟨?_, ?_, fun hclosed => absurd hclosed (by rw [hopen]; nofun)⟩
    · simp only [List.map_append, List.zipIdx_append, List.map_cons, List.map_nil,
        List.length_map, List.zipIdx_cons, List.zipIdx_nil, Nat.zero_add, ← h.written, h.seq]
    · simp only [List.length_append, List.length_singleton, h.seq]
  | close hopen hmessages hhandler => exact ⟨h.written, h.seq, fun _ => ⟨hmessages, _, hhandler⟩⟩

theorem Orderly.output_eq (h : parties.Orderly) :
    parties.output = write (parties.written.map Prod.snd) := by
  rw [output, write]
  conv_lhs => rw [h.written]
  rw [List.map_map]
  rfl

/-- The parties that can be reached for a stream. -/
def Reachable (read : String → Except ReadError String) (input : List UInt8) (parties : Parties) :
    Prop :=
  Relation.ReflTransGen (Step read) (start input) parties

variable {input : List UInt8}

theorem Reachable.orderly (h : Reachable read input parties) : parties.Orderly := by
  induction h with
  | refl => exact orderly_start input
  | tail _ hstep ih => exact ih.step hstep

theorem Reachable.results_iff (h : Reachable read input parties) :
    (start input).Results read messages ↔ parties.Results read messages := by
  induction h with
  | refl => rfl
  | tail _ hstep ih => exact ih.trans hstep.results_iff

theorem results_start_iff : (start input).Results read messages ↔
    ∃ fuel, converse? read fuel (.start false) (Adapter.requests input) = some messages := by
  have htotal (fuel : Nat) : (start input).total? read fuel =
      converse? read fuel (.start false) (Adapter.requests input) :=
    Option.map_id' (x := converse? read fuel (.start false) (Adapter.requests input))
  simp only [Results, htotal]

/-- When the writer has ended, what has been written is all that there will be. -/
theorem Orderly.results_of_closed (h : parties.Orderly) (hclosed : parties.closed = true) :
    parties.Results read (parties.written.map Prod.snd) := by
  obtain ⟨hmessages, s, hhandler⟩ := h.closed hclosed
  refine ⟨0, ?_⟩
  rw [total?, remaining?, hhandler, passed, hmessages]
  simp

end Parties

/-! ### The requests that are answered -/

theorem serve?_mono {read : String → Except ReadError String} {fuel more : Nat}
    {input : List UInt8} {output : String} (h : serve? read fuel input = some output)
    (hle : fuel ≤ more) : serve? read more input = some output := by
  obtain ⟨messages, hconverse, heq⟩ := Option.map_eq_some_iff.1 h
  exact Option.map_eq_some_iff.2 ⟨messages, converse?_mono hconverse hle, heq⟩

/-- Requests up to the first one that disconnects, which is among them. -/
def untilDisconnect : List Request → List Request
  | [] => []
  | request :: rest =>
    if request.kind = .disconnect then [request] else request :: untilDisconnect rest

/-- Answering requests is a conversation that ends with the first request that disconnects. -/
theorem converse?_eq {read : String → Except ReadError String} {fuel : Nat} {s : Session}
    (hconnected : s.disconnected = false) (requests : List Request) :
    converse? read fuel s requests =
      (s.handleAll? ((untilDisconnect requests).map fun request => ⟨request, read, fuel⟩)).map
        fun r => r.2.flatMap Turn.messages := by
  induction requests generalizing s with
  | nil => rfl
  | cons request requests ih =>
    rw [converse?_cons, untilDisconnect]
    cases hhandle : s.handle? read fuel request with
    | none => split <;> simp [Session.handleAll?, hhandle]
    | some r =>
      obtain ⟨s', reply⟩ := r
      have hdisconnected := Session.disconnected_of_handle hhandle
      rw [hconnected, Bool.false_or] at hdisconnected
      rw [Option.bind_some, after?]
      by_cases hkind : request.kind = .disconnect
      · rw [decide_eq_true hkind] at hdisconnected
        simp [Session.handleAll?, hhandle, hkind, hdisconnected, Turn.messages]
      · rw [decide_eq_false hkind] at hdisconnected
        simp only [hdisconnected, hkind, ih hdisconnected, Session.handleAll?, hhandle,
          List.map_cons, Option.bind_some, Option.map_map, Bool.false_eq_true, if_false]
        rfl

namespace Parties

variable {read : String → Except ReadError String} {fuel : Nat} {parties parties' : Parties}
  {messages : List Message} {input : List UInt8}

/-! ### Getting to the end -/

/-- The parties can go on until the writer has ended, if every request can be answered. -/
theorem exists_step (hresults : parties.Results read messages) (hopen : parties.closed = false) :
    ∃ parties', Step read parties parties' := by
  cases hhandler : parties.handler with
  | ended s =>
    cases hmessages : parties.messages with
    | nil => exact ⟨_, .close hopen hmessages hhandler⟩
    | cons message rest => exact ⟨_, .write hopen hmessages⟩
  | sending s toSend =>
    cases toSend with
    | cons message rest => exact ⟨_, .send hhandler⟩
    | nil =>
      cases hdisconnected : s.disconnected with
      | true => exact ⟨_, .leave hhandler hdisconnected⟩
      | false => exact ⟨_, .next hhandler hdisconnected⟩
  | handling s request =>
    obtain ⟨fuel, htotal⟩ := hresults
    obtain ⟨rest, hremaining, -⟩ := Option.map_eq_some_iff.1 htotal
    rw [remaining?, hhandler] at hremaining
    dsimp only at hremaining
    rw [converse?_cons] at hremaining
    obtain ⟨⟨s', reply⟩, hhandle, -⟩ := Option.bind_eq_some_iff.1 hremaining
    -- What the gate is makes no difference to whether there is an answer.
    have hanswer (t : Session) (htwins : s.Twins t) :
        ∃ t' reply', t.reply? read fuel request = some (t', reply') := by
      obtain ⟨t', reply', hreply, -⟩ :=
        ((Session.Twins.notice s request).trans htwins).reply? hhandle
      exact ⟨t', reply', hreply⟩
    cases hlaunches : request.launches with
    | false =>
      obtain ⟨t', reply', hreply⟩ := hanswer s ⟨rfl, rfl⟩
      exact ⟨_, .answer hhandler hlaunches hreply⟩
    | true =>
      obtain ⟨t', reply', hreply⟩ := hanswer { s with configured := false } ⟨rfl, rfl⟩
      exact ⟨_, .timeOut hhandler hlaunches hreply⟩
  | waiting s =>
    cases hrequests : parties.requests with
    | cons request rest => exact ⟨_, .take hhandler hrequests⟩
    | nil =>
      cases hreader : parties.reader with
      | ended => exact ⟨_, .finish hhandler hrequests hreader⟩
      | decoded request rest => exact ⟨_, .announce hreader⟩
      | announced request rest => exact ⟨_, .enqueue hreader⟩
      | reading bytes =>
        cases hnext : Framing.next? bytes with
        | error e => exact ⟨_, .stop hreader fun _ _ => by rw [hnext]; nofun⟩
        | ok found =>
          cases found with
          | none => exact ⟨_, .stop hreader fun _ _ => by rw [hnext]; nofun⟩
          | some found =>
            obtain ⟨content, rest⟩ := found
            cases hrequest : Request.ofText? content with
            | none => exact ⟨_, .skip hreader hnext hrequest⟩
            | some request => exact ⟨_, .decode hreader hnext hrequest⟩

end Parties

/-- Bounds the steps that the reader will make. -/
def Reader.work : Reader → Nat
  | reading bytes => 3 * bytes.length + 1
  | decoded _ rest => 3 * rest.length + 3
  | announced _ rest => 3 * rest.length + 2
  | ended => 0

/-- How far the handler is from being done with its request. -/
def Handler.phase : Handler → Nat
  | handling .. => 3
  | sending .. => 2
  | waiting _ => 1
  | ended _ => 0

/-- The number of messages that the handler has at hand. -/
def Handler.atHand : Handler → Nat
  | sending _ messages => messages.length
  | _ => 0

namespace Parties

variable {read : String → Except ReadError String} {parties parties' : Parties}
  {messages : List Message} {input : List UInt8}

/-- What is left to do, the work of the parties that come first in front. -/
def work (parties : Parties) : Nat ×ₗ Nat ×ₗ Nat ×ₗ Nat ×ₗ Nat :=
  toLex (parties.reader.work, toLex (parties.requests.length, toLex (parties.handler.phase,
    toLex (parties.handler.atHand, parties.messages.length + (!parties.closed).toNat))))

/-- Every step of a party leaves less to do. -/
theorem Step.work_lt (h : Step read parties parties') : parties'.work < parties.work := by
  simp only [work, Prod.Lex.toLex_lt_toLex]
  cases h with
  | decode hreader hnext | skip hreader hnext =>
    have hshorter := Framing.length_next?_lt hnext
    simp only [hreader, Reader.work]
    omega
  | stop hreader | announce hreader | enqueue hreader =>
    simp only [hreader, Reader.work]
    omega
  | abort hhandler hreader =>
    have hpos : 0 < parties.reader.work := by
      cases hwork : parties.reader with
      | ended => exact absurd hwork hreader
      | reading | decoded | announced => exact Nat.succ_pos _
    exact .inl hpos
  | take hhandler hrequests => simp [hrequests]
  | finish hhandler | answer hhandler | launch hhandler | timeOut hhandler | next hhandler
  | leave hhandler => simp [hhandler, Handler.phase]
  | send hhandler => simp [hhandler, Handler.phase, Handler.atHand]
  | write hopen hmessages => simp [hmessages]
  | close hopen hmessages hhandler => simp [hopen, hmessages]

/-- No run goes on for ever. -/
theorem wellFounded_step (read : String → Except ReadError String) :
    WellFounded fun parties' parties => Step read parties parties' :=
  Subrelation.wf Step.work_lt (InvImage.wf work wellFounded_lt)

/-- Where every request can be answered, a run can get to its end. -/
theorem exists_completion (hresults : parties.Results read messages) :
    ∃ parties', Relation.ReflTransGen (Step read) parties parties' ∧ parties'.closed = true := by
  induction parties using (wellFounded_step read).induction with
  | _ parties ih =>
    cases hclosed : parties.closed with
    | true => exact ⟨parties, .refl, hclosed⟩
    | false =>
      -- The step leaves less to do and keeps what there will be, so the rest can be completed, too.
      obtain ⟨next, hstep⟩ := exists_step hresults hclosed
      obtain ⟨last, hrun, hlast⟩ := ih next hstep (hstep.results_iff.1 hresults)
      exact ⟨last, .head hstep hrun, hlast⟩

end Parties

/-! ### What is written -/

theorem turns_of_handleAll {s t : Session} {calls : List Call} {turns : Transcript}
    (h : s.handleAll? calls = some (t, turns)) :
    turns.map Prod.fst = calls.map Call.request := by
  induction calls generalizing s turns with
  | nil =>
    cases h
    rfl
  | cons call calls ih =>
    obtain ⟨s', reply, rest, -, hrest, rfl⟩ := Session.handleAll?_cons_eq_some_iff.1 h
    rw [List.map_cons, List.map_cons, ih hrest]

namespace Parties

variable {read : String → Except ReadError String} {parties parties' : Parties}
  {input : List UInt8}

/-- What has been written when the writer has ended is what one party alone writes. -/
theorem Reachable.serve?_eq (h : Reachable read input parties) (hclosed : parties.closed = true) :
    ∃ fuel, serve? read fuel input = some parties.output := by
  obtain ⟨fuel, hconverse⟩ :=
    results_start_iff.1 (h.results_iff.2 (h.orderly.results_of_closed hclosed))
  exact ⟨fuel, Option.map_eq_some_iff.2 ⟨_, hconverse, h.orderly.output_eq.symm⟩⟩

/-- However the steps of the parties are interleaved, what has been written when the writer has
ended is the same. It is framed and numbered from one on, and it has the turns of one session that
handles the requests in the stream one after another, up to the first one that disconnects: for each
request its response and then the events. -/
theorem Reachable.output_independent (h : Reachable read input parties)
    (hclosed : parties.closed = true) :
    (∃ (fuel : Nat) (s : Session) (turns : Transcript),
      serve? read fuel input = some parties.output ∧
      (Session.start false).handleAll?
        ((untilDisconnect (Adapter.requests input)).map fun request => ⟨request, read, fuel⟩) =
          some (s, turns) ∧
      turns.map Prod.fst = untilDisconnect (Adapter.requests input) ∧
      parties.output = write (turns.flatMap fun turn =>
        .response ⟨turn.1.seq, turn.1.command, turn.2.answer⟩ :: turn.2.events.map .event)) ∧
    ∀ parties', Reachable read input parties' → parties'.closed = true →
      parties'.output = parties.output := by
  obtain ⟨fuel, hserve⟩ := h.serve?_eq hclosed
  refine ⟨?_, fun parties' h' hclosed' => ?_⟩
  · obtain ⟨messages, hconverse, houtput⟩ := Option.map_eq_some_iff.1 hserve
    rw [converse?_eq rfl] at hconverse
    obtain ⟨⟨s, turns⟩, hall, rfl⟩ := Option.map_eq_some_iff.1 hconverse
    refine ⟨fuel, s, turns, hserve, hall, ?_, houtput.symm⟩
    rw [turns_of_handleAll hall, List.map_map]
    exact List.map_id' _
  · -- The two runs may have needed different numbers of steps, and the larger one does for both.
    obtain ⟨fuel', hserve'⟩ := h'.serve?_eq hclosed'
    have hmax := serve?_mono hserve (Nat.le_max_left fuel fuel')
    rw [serve?_mono hserve' (Nat.le_max_right fuel fuel')] at hmax
    exact Option.some.inj hmax

/-- Where one party alone comes to an end, so do the three, from wherever they have got to. -/
theorem Reachable.exists_completion {fuel : Nat} {output : String}
    (h : Reachable read input parties) (hserve : serve? read fuel input = some output) :
    ∃ parties', Relation.ReflTransGen (Step read) parties parties' ∧ parties'.closed = true := by
  obtain ⟨messages, hconverse, -⟩ := Option.map_eq_some_iff.1 hserve
  exact Parties.exists_completion (h.results_iff.1 (results_start_iff.2 ⟨fuel, hconverse⟩))

end Parties

/-- A client that launches a program and disconnects, and then asks for something else. -/
def launchAndLeave : List UInt8 :=
  (String.join (["\x7b\"seq\":1,\"command\":\"launch\"\x7d", "[2,\"\",\"disconnect\"]",
    "[3,\"\",\"threads\"]"].map Framing.frame)).toUTF8.toList

/-- What it gets, if the program is an empty block. -/
def launchAndLeaveOutput : String :=
  String.join (["\x7b\"seq\":1,\"type\":\"response\",\"request_seq\":1,\"success\":true," ++
      "\"command\":\"launch\"\x7d",
    "\x7b\"seq\":2,\"type\":\"event\",\"event\":\"terminated\"\x7d",
    "\x7b\"seq\":3,\"type\":\"response\",\"request_seq\":2,\"success\":true," ++
      "\"command\":\"disconnect\"\x7d"].map Framing.frame)

theorem serve?_launchAndLeave :
    serve? (fun _ => .ok "\x7b\x7d") 2 launchAndLeave = some launchAndLeaveOutput := by
  decide +kernel

/-- The parties get to the end, and this is what has been written then. -/
theorem Parties.Reachable.output_independent_launch : ∃ parties : Parties,
    Reachable (fun _ => .ok "\x7b\x7d") launchAndLeave parties ∧ parties.closed = true ∧
    parties.output = launchAndLeaveOutput := by
  obtain ⟨parties, hrun, hclosed⟩ :=
    Reachable.exists_completion .refl serve?_launchAndLeave
  obtain ⟨⟨fuel, s, turns, hserve, -⟩, -⟩ := Reachable.output_independent hrun hclosed
  refine ⟨parties, hrun, hclosed, ?_⟩
  have hmax := serve?_mono hserve (Nat.le_max_left fuel 2)
  rw [serve?_mono serve?_launchAndLeave (Nat.le_max_right fuel 2)] at hmax
  exact (Option.some.inj hmax).symm

end LWorkbench.Adapter
