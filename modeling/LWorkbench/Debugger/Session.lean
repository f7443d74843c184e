import LWorkbench.Debugger.Message
import LWorkbench.Program.Parser

/-!
# Debug sessions

A session answers the requests of one client in the order in which they arrive. A launch reads and
parses a program, loads it and runs it to its first stop; resuming runs it further. What became of
the program decides the state of the session and is told by an event.

A launch waits for the client to say that it is configured, but not for long. The gate tells whether
the client has said so; it opens as soon as the request arrives.

A program may run for ever. How many steps a single request may take is a parameter, and a request
that would take more has no result.

## Main definitions

* `SessionState`, `Session` — a session and where it stands
* `Session.notice` — what happens as soon as a request arrives
* `Session.launch?`, `Session.resume?` — starting a program and going on with it
* `Session.report` — the state and the event that an outcome leads to
* `Session.handle?` — the answer to a request
-/

namespace LWorkbench

/-- Where a session stands. -/
inductive SessionState where
  /-- No program has been started, or the last start failed. -/
  | idle
  | launching
  | running
  | stopped
  | terminated
  deriving DecidableEq, Repr

/-- A debug session. -/
structure Session where
  state : SessionState
  debuggee : Debuggee
  /-- Whether the client has said that it is configured. -/
  configured : Bool
  /-- Whether the client has asked to end the session. -/
  disconnected : Bool

/-- What a request leads to: the answer, what happened, and whether a launch had to wait. -/
structure Reply where
  answer : Answer
  events : List Event
  waited : Bool

/-- How to go on with a program. -/
inductive ResumeMode where
  | toEnd
  | oneStep
  deriving DecidableEq, Repr

namespace Reply

/-- A successful answer with nothing else. -/
def success (body : Option Body) (events : List Event) : Reply :=
  ⟨.success body, events, false⟩

/-- A refusal. -/
def refusal (reason : String) : Reply :=
  ⟨.refusal reason, [], false⟩

/-- The refusal of a request whose arguments cannot be read. -/
def badArguments (request : Request) : Reply :=
  refusal s!"invalid arguments for '{request.command}'"

end Reply

namespace Session

/-- A session that has seen no request. -/
def start (configured : Bool) : Session :=
  { state := .idle, debuggee := .fresh, configured, disconnected := false }

/-- Opens the gate when a request says that the client is configured. -/
def notice (s : Session) (request : Request) : Session :=
  if request.command == "configurationDone" then { s with configured := true } else s

/-- The state and the event that an outcome leads to, where a pause is told with the given
reason. -/
def report (s : Session) (reason : StopReason) : StepOutcome → Session × Event
  | .paused => ({ s with state := .stopped }, .stopped reason)
  | .finished => ({ s with state := .terminated }, .terminated)
  | .failed fault => ({ s with state := .stopped }, .stopped (.exception fault))

/-! ### Starting a program -/

/-- The pretended compile error. -/
def compileError (e : CompileError) : ErrorMessage :=
  ⟨1001, "compile error: some fake error.", e.showUser?⟩

/-- The error for a program that cannot be read. -/
def readError (path : String) (e : ReadError) : ErrorMessage :=
  ⟨1002, s!"could not read '{path}': {e.message}", some true⟩

/-- The error for a program that does not parse. -/
def parseError (e : ParseError) : ErrorMessage :=
  ⟨1003, s!"parse error: {e.display}", some true⟩

/-- The source and the program that a launch asks for, or why there is none. -/
def fetch (read : String → Except ReadError String) (arguments : LaunchArguments) :
    Except ErrorMessage (SourceFile × Program) :=
  match arguments.compileError with
  | some e => .error (compileError e)
  | none =>
    let path := arguments.program.getD ""
    match read path with
    | .error e => .error (readError path e)
    | .ok text =>
      match Program.parse text with
      | .error e => .error (parseError e)
      | .ok p => .ok (⟨path, text⟩, p)

/-- Runs a program that was just loaded to its first stop. Without debugging, a fault is told as
output and ends the run. -/
def firstRun? (fuel : Nat) (arguments : LaunchArguments) (d : Debuggee) :
    Option (Debuggee × StepOutcome × List Event) :=
  if arguments.noDebug then
    match d.runFor fuel with
    | none => none
    | some (d, .failed fault) =>
      (d.runFor fuel).map fun (d, _) => (d, .finished, [.output (fault.message ++ "\n")])
    | some (d, _) => some (d, .finished, [])
  else if arguments.stopOnEntry then
    let (d, outcome) := d.step
    some (d, outcome, [])
  else (d.runFor fuel).map fun (d, outcome) => (d, outcome, [])

/-- Starts a program. -/
def launch? (read : String → Except ReadError String) (fuel : Nat) (s : Session)
    (request : Request) : Option (Session × Reply) :=
  match request.launchArguments? with
  | none => some (s, .badArguments request)
  | some arguments =>
    let waited := !s.configured
    let s := { s with state := .launching }
    match fetch read arguments with
    | .error e => some ({ s with state := .idle }, ⟨.error e, [], waited⟩)
    | .ok (source, p) =>
      let s := { s with state := .running }
      (firstRun? fuel arguments (s.debuggee.load source p)).map fun (debuggee, outcome, events) =>
        let (s, event) := { s with debuggee }.report .entry outcome
        (s, ⟨.success none, events ++ [event], waited⟩)

/-! ### Going on -/

/-- Goes on with the program that is loaded. -/
def resume? (fuel : Nat) (s : Session) (mode : ResumeMode) : Option (Session × Reply) :=
  if s.debuggee.loaded.isNone then some (s, .refusal "no program is running")
  else
    let s := { s with state := .running }
    let advanced : Option (Debuggee × StepOutcome) :=
      match mode with
      | .toEnd => s.debuggee.runFor fuel
      | .oneStep => some s.debuggee.step
    let body : Option Body :=
      match mode with
      | .toEnd => some .continued
      | .oneStep => none
    advanced.map fun (debuggee, outcome) =>
      let (s, event) := { s with debuggee }.report .step outcome
      (s, .success body [event])

/-! ### Looking -/

/-- Takes note of how the client counts lines and columns. -/
def configure (s : Session) (request : Request) : Session × Reply :=
  match request.initializeArguments? with
  | none => (s, .badArguments request)
  | some arguments =>
    let convention : Convention :=
      ⟨arguments.linesFromOne.getD true, arguments.columnsFromOne.getD true⟩
    ({ s with debuggee := { s.debuggee with convention } },
      .success (some .capabilities) [.initialized])

/-- Lists frames. -/
def stackTrace (s : Session) (request : Request) : Session × Reply :=
  match request.stackTraceArguments? with
  | none => (s, .badArguments request)
  | some arguments =>
    let (frames, total) := s.debuggee.stackTrace (arguments.startFrame.getD 0) arguments.levels
    (s, .success (some (.stackTrace frames total)) [])

/-- Lists the scopes of a frame. -/
def scopes (s : Session) (request : Request) : Session × Reply :=
  match request.frameId? with
  | none => (s, .badArguments request)
  | some frame =>
    let (debuggee, groups) := s.debuggee.scopes frame
    ({ s with debuggee }, .success (some (.scopes groups)) [])

/-- Lists the parts of what a handle stands for. -/
def expand (s : Session) (request : Request) : Session × Reply :=
  match request.variablesReference? with
  | none => (s, .badArguments request)
  | some handle =>
    let (debuggee, list) := s.debuggee.expand handle
    ({ s with debuggee }, .success (some (.parts list)) [])

/-! ### Requests -/

/-- Answers a request; none if it takes more than `fuel` steps. -/
def reply? (read : String → Except ReadError String) (fuel : Nat) (s : Session)
    (request : Request) : Option (Session × Reply) :=
  match request.command with
  | "initialize" => some (s.configure request)
  | "launch" => s.launch? read fuel request
  | "attach" => s.launch? read fuel request
  | "configurationDone" => some (s, .success none [])
  | "threads" => some (s, .success (some .threads) [])
  | "stackTrace" => some (s.stackTrace request)
  | "scopes" => some (s.scopes request)
  | "variables" => some (s.expand request)
  | "continue" => s.resume? fuel .toEnd
  | "next" => s.resume? fuel .oneStep
  | "stepIn" => s.resume? fuel .oneStep
  | "disconnect" => some ({ s with disconnected := true }, .success none [])
  | command => some (s, .refusal s!"unrecognized request '{command}'")

/-- The messages that answer a request: the response, and then the events. -/
def messages (request : Request) (reply : Reply) : List Message :=
  .response ⟨request.seq, request.command, reply.answer⟩ :: reply.events.map .event

/-- Takes in a request and answers it; none if that takes more than `fuel` steps. -/
def handle? (read : String → Except ReadError String) (fuel : Nat) (s : Session)
    (request : Request) : Option (Session × Reply) :=
  (s.notice request).reply? read fuel request

end Session

end LWorkbench
