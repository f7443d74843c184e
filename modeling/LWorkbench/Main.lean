import LWorkbench.CommandLine
import LWorkbench.Debugger.Adapter

/-!
# The program

With `--analyze` the program checks a file and prints what there is to say about it. Otherwise it
serves one debug session over its standard input and output.
-/

namespace LWorkbench

/-- Reads a file, with the reason when that fails. -/
def readFile (path : String) : IO (Except ReadError String) := do
  try
    return .ok (← IO.FS.readFile path)
  catch
    | .noFileOrDirectory .. => return .error .notFound
    | .inappropriateType .. => return .error .isDirectory
    | _ => return .error .notFound

/-- The file that a request wants to run, read in advance. -/
def readRequested (request : Request) : IO (String → Except ReadError String) := do
  let path := (request.launchArguments?.bind LaunchArguments.program).getD ""
  let content ← readFile path
  return fun _ => content

/-- More steps than anyone waits for. -/
def patience : Nat := Nat.pow 10 15

/-- Answers requests as they arrive. `buffer` holds the bytes that have not been read as a message,
and `seq` is the number of the next message to write. -/
partial def serve (input output : IO.FS.Stream) (s : Session) (seq : Nat) (buffer : List UInt8) :
    IO Unit := do
  match Framing.next? buffer with
  | .ok (some (content, rest)) =>
    let some request := Request.ofText? content | serve input output s seq rest
    let read ← readRequested request
    let some (s, reply) := s.handle? read patience request | return
    let messages := Session.messages request reply
    for (message, i) in messages.zipIdx do
      output.putStr (Framing.frame (message.encode (seq + i)))
    output.flush
    unless s.disconnected do
      serve input output s (seq + messages.length) rest
  | _ =>
    let more ← input.read 4096
    unless more.isEmpty do
      serve input output s seq (buffer ++ more.data.toList)

end LWorkbench

open LWorkbench in
/-- Checks a file or serves a debug session, as the arguments say. -/
def main (arguments : List String) : IO UInt32 := do
  let path := (CommandLine.requestedPath? arguments).join.getD ""
  let content ← if CommandLine.isSafePath path then readFile path else pure (.error .notFound)
  match CommandLine.analyze (fun _ => content) arguments with
  | .error e =>
    IO.eprintln s!"l-lsp analyze error: {e.message}"
    return 2
  | .ok (some output) =>
    IO.println output
    return 0
  | .ok none =>
    serve (← IO.getStdin) (← IO.getStdout) (.start false) 1 []
    return 0
