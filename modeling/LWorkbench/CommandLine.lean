import LWorkbench.Editor.Wire
import LWorkbench.FileTree
import LWorkbench.Json.Printer

/-!
# Checking from the command line

A file can be checked without an editor. The result is the diagnostics and symbols in JSON, or just
the errors, one to a line. Only files below the current directory are read.

## Main definitions

* `CommandLine.isSafePath` — whether a path stays below the current directory
* `CommandLine.report` — what there is to say about a text
* `CommandLine.Error` — why nothing was checked
* `CommandLine.analyze` — the output for a list of arguments
-/

namespace LWorkbench.CommandLine

/-- Whether a path is relative, never goes up, has no control characters that could confuse a
reader, and does not begin with the letter of a drive. -/
def isSafePath (path : String) : Bool :=
  let startsWithDrive :=
    match path.toList with
    | c :: ':' :: _ => c.toNat < 128
    | _ => false
  !path.isEmpty && !path.startsWith "/" && !(FilePath.components path).contains ".." &&
    !path.toList.any (fun c => c.toNat = 0 || c = '\n' || c = '\r' || c = '\t') && !startsWithDrive

/-- An error on a line of its own, with its place counted from one. -/
def errorLine (d : Diagnostic) : String :=
  s!"Line {d.range.start.line + 1}:{d.range.start.column + 1}: {d.message}"

/-- What there is to say about a text. -/
def report (text : String) (errorsOnly : Bool) : String :=
  let checked := CheckedText.ofText text
  if errorsOnly then
    if checked.diagnostics.isEmpty then "No errors found"
    else "\n".intercalate (checked.diagnostics.map errorLine)
  else
    let symbols := (checked.program.map (·.symbols text)).getD []
    (Json.record [("diagnostics", .ofList Diagnostic.toJson checked.diagnostics),
      ("symbols", .ofList DocumentSymbol.toJson symbols)]).pretty

/-- Why nothing was checked. -/
inductive Error where
  /-- No file is given. -/
  | usage
  | unsafePath (path : String)
  | unreadable (path : String)
  deriving DecidableEq, Repr

/-- The text of an error. -/
def Error.message : Error → String
  | usage =>
    "Usage: l-lsp --analyze [--errors-only] <relative-file-path>\n" ++
      "  --analyze <file>     : Full analysis with JSON output\n" ++
      "  --errors-only        : Show only errors in simple format"
  | unsafePath path => s!"Unsafe file path: {path}"
  | unreadable path => s!"Failed to read file '{path}'"

/-- The path of the file to check: the first argument after the one that asks for it which is no
option. Nothing when no argument asks for a check. -/
def requestedPath? (arguments : List String) : Option (Option String) :=
  match arguments.dropWhile (· != "--analyze") with
  | [] => none
  | _ :: rest => some (rest.find? (!·.startsWith "--"))

/-- The output for a list of arguments; nothing when no argument asks for a check. -/
def analyze (read : String → Except ReadError String) (arguments : List String) :
    Except Error (Option String) :=
  match requestedPath? arguments with
  | none => .ok none
  | some none => .error .usage
  | some (some path) =>
    if !isSafePath path then .error (.unsafePath path)
    else
      match read path with
      | .error _ => .error (.unreadable path)
      | .ok text => .ok (some (report text (arguments.contains "--errors-only")))

end LWorkbench.CommandLine
