import LWorkbench.Json.Parser
import LWorkbench.Json.Record

/-!
# Requests to a debugger

A client sends requests, each with a number of its own, a command and arguments. Arguments are read
only when a command needs them, and are records with defaults for everything.

## Main definitions

* `Request` — a request
* `Request.ofJson?`, `Request.ofText?` — reading a request
* `LaunchArguments`, `StackTraceArguments`, … — the arguments of the commands
* `Request.decode?` — the arguments of a request
-/

namespace LWorkbench

/-- A request of a client. -/
structure Request where
  seq : Int
  command : String
  arguments : Json

namespace Request

/-- The fields of a request in order. -/
def fieldNames : List String := ["seq", "type", "command", "arguments"]

/-- The request with the given fields. The type is not looked at, but must be a text. -/
def ofFields? (fields : List (String × Json)) : Option Request := do
  let seq ← Json.required fields "seq" Json.int?
  let _ ← Json.plain fields "type" Json.string? ""
  let command ← Json.required fields "command" Json.string?
  let arguments ← Json.plain fields "arguments" some .null
  return { seq, command, arguments }

/-- The request that a JSON value stands for. -/
def ofJson? (j : Json) : Option Request :=
  (j.recordFields? fieldNames).bind ofFields?

/-- Whether no name occurs twice. -/
def distinct (names : List String) : Bool :=
  decide names.Nodup

/-- The request written in a text. No field of a request may be there twice. -/
def ofText? (text : String) : Option Request :=
  match Json.objectFields? fieldNames text with
  | some fields => if distinct (fields.map (·.1)) then ofFields? fields else none
  | none =>
    match Json.parse? text with
    | some (.array items) => ofJson? (.array items)
    | _ => none

/-- The arguments of a request, read as the record with the given field names. Arguments that are
left out are read as if every field were. -/
def decode? {α : Type} (request : Request) (names : List String)
    (read : List (String × Json) → Option α) : Option α :=
  match request.arguments with
  | .null => read []
  | j => (j.recordFields? names).bind read

end Request

/-- What a client says about itself. -/
structure InitializeArguments where
  linesFromOne : Option Bool
  columnsFromOne : Option Bool
  deriving DecidableEq, Repr

/-- The arguments of a request that opens a session. -/
def Request.initializeArguments? (request : Request) : Option InitializeArguments :=
  request.decode? ["linesStartAt1", "columnsStartAt1"] fun fields => do
    return {
      linesFromOne := ← Json.nullable fields "linesStartAt1" Json.bool?
      columnsFromOne := ← Json.nullable fields "columnsStartAt1" Json.bool? }

/-- How a pretended compile error is to be shown. -/
inductive CompileError where
  /-- The client decides. -/
  | byClient
  | shown
  | hidden
  deriving DecidableEq, Repr

namespace CompileError

/-- Whether the client is told to show the error, or not to. -/
def showUser? : CompileError → Option Bool
  | byClient => none
  | shown => some true
  | hidden => some false

/-- The way of showing with a given name. -/
def ofName? (name : String) : Option CompileError :=
  if name == "default" then some byClient
  else if name == "show" then some shown
  else if name == "hide" then some hidden
  else none

/-- The way of showing that a JSON value stands for: its name, or an object with that name as its
only field, which is `null`. -/
def ofJson? : Json → Option CompileError
  | .string name => ofName? name
  | .object fields =>
    match fields.map (·.1) with
    | name :: names =>
      if names.all (· == name) && ((Json.field? fields name).map Json.isNull).getD false then
        ofName? name
      else none
    | [] => none
  | _ => none

end CompileError

/-- What to run, and how. -/
structure LaunchArguments where
  program : Option String
  stopOnEntry : Bool
  noDebug : Bool
  compileError : Option CompileError
  deriving DecidableEq, Repr

/-- The arguments of a request to run a program. Whether messages are to be logged is read, but
makes no difference here. -/
def Request.launchArguments? (request : Request) : Option LaunchArguments :=
  request.decode? ["program", "stopOnEntry", "noDebug", "trace", "compileError"] fun fields => do
    let program ← Json.nullable fields "program" Json.string?
    let stopOnEntry ← Json.plain fields "stopOnEntry" Json.bool? false
    let noDebug ← Json.plain fields "noDebug" Json.bool? false
    let _ ← Json.plain fields "trace" Json.bool? false
    let compileError ← Json.nullable fields "compileError" CompileError.ofJson?
    return { program, stopOnEntry, noDebug, compileError }

/-- Which frames to list. -/
structure StackTraceArguments where
  startFrame : Option Nat
  levels : Option Nat
  deriving DecidableEq, Repr

/-- The arguments of a request for frames. There is only one thread, so its number is read but makes
no difference. -/
def Request.stackTraceArguments? (request : Request) : Option StackTraceArguments :=
  request.decode? ["threadId", "startFrame", "levels"] fun fields => do
    let _ ← Json.plain fields "threadId" Json.int? 0
    let startFrame ← Json.nullable fields "startFrame" Json.nat?
    let levels ← Json.nullable fields "levels" Json.nat?
    return { startFrame, levels }

/-- The frame whose scopes are asked for. -/
def Request.frameId? (request : Request) : Option Nat :=
  request.decode? ["frameId"] fun fields => Json.plain fields "frameId" Json.nat? 0

/-- The handle whose parts are asked for. -/
def Request.variablesReference? (request : Request) : Option Int :=
  request.decode? ["variablesReference"] fun fields =>
    Json.plain fields "variablesReference" Json.int? 0

end LWorkbench
