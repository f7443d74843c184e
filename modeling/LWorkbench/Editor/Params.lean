import LWorkbench.Editor.Workspace

/-!
# Parameters of methods

What a client tells and asks comes as the name of a method with parameters in JSON.

## Main definitions

* `Wire.uri?`, `Wire.caret?`, `Wire.range?`, `Wire.edit?`, `Wire.document?`, `Wire.place?` — reading
  parts of parameters
* `Notice.ofParams?`, `Question.ofParams?` — reading the parameters of a method
-/

namespace LWorkbench

namespace Wire

/-- A uri. -/
def uri? (j : Json) : Option Uri :=
  j.string?.bind Uri.parse?

/-- A caret. -/
def caret? (j : Json) : Option Caret := do
  let fields ← j.recordFields? ["line", "character"]
  return ⟨← Json.required fields "line" Json.nat32?, ← Json.required fields "character" Json.nat32?⟩

/-- A range. -/
def range? (j : Json) : Option TextRange := do
  let fields ← j.recordFields? ["start", "end"]
  return ⟨← Json.required fields "start" caret?, ← Json.required fields "end" caret?⟩

/-- A change of a document. -/
def edit? (j : Json) : Option Edit := do
  let fields ← j.recordFields? ["range", "rangeLength", "text"]
  let range ← Json.nullable fields "range" range?
  let _ ← Json.nullable fields "rangeLength" Json.nat32?
  let replacement ← Json.required fields "text" Json.string?
  return { range, replacement }

/-- The uri of a document that is only named. -/
def documentName? (j : Json) : Option Uri := do
  let fields ← j.recordFields? ["uri"]
  Json.required fields "uri" uri?

/-- The uri and the version of a document. -/
def versionedName? (j : Json) : Option (Uri × Int) := do
  let fields ← j.recordFields? ["uri", "version"]
  return (← Json.required fields "uri" uri?, ← Json.required fields "version" Json.int32?)

/-- A document with its uri. -/
def document? (j : Json) : Option (Uri × Document) := do
  let fields ← j.recordFields? ["uri", "languageId", "version", "text"]
  let uri ← Json.required fields "uri" uri?
  let _ ← Json.required fields "languageId" Json.string?
  let version ← Json.required fields "version" Json.int32?
  let content ← Json.required fields "text" Json.string?
  return (uri, { content, version })

/-- The uri and the caret that a question is about. -/
def place? (j : Json) : Option (Uri × Caret) := do
  let fields ← j.recordFields? []
  return (← Json.required fields "textDocument" documentName?,
    ← Json.required fields "position" caret?)

/-- Whether a question for references wants the binding too. -/
def withDefinition? (j : Json) : Option Bool := do
  let fields ← j.recordFields? ["includeDeclaration"]
  Json.required fields "includeDeclaration" Json.bool?

end Wire

open Wire

/-- What a client tells with a method and its parameters; none if the method is no notification, and
none inside if the parameters cannot be read. -/
def Notice.ofParams? (method : String) (params : Json) : Option (Option Notice) :=
  match method with
  | "initialized" => some ((params.recordFields? []).map fun _ => .ready)
  | "textDocument/didOpen" => some do
    let fields ← params.recordFields? ["textDocument"]
    let (uri, document) ← Json.required fields "textDocument" document?
    return .opened uri document
  | "textDocument/didChange" => some do
    let fields ← params.recordFields? ["textDocument", "contentChanges"]
    let (uri, version) ← Json.required fields "textDocument" versionedName?
    let changes ← Json.required fields "contentChanges" Json.array?
    return .changed uri version (← changes.mapM edit?)
  | "textDocument/didClose" => some do
    let fields ← params.recordFields? ["textDocument"]
    return .closed (← Json.required fields "textDocument" documentName?)
  | "workspace/didChangeConfiguration" => some do
    let fields ← params.recordFields? ["settings"]
    let _ ← Json.required fields "settings" some
    return .configurationChanged
  | _ => none

/-- What a client asks with a method and its parameters; none if the server does not answer such
questions. -/
def Question.ofParams? (method : String) (params : Json) : Option Question :=
  match method with
  | "textDocument/hover" => (place? params).map fun (uri, caret) => .hover uri caret
  | "textDocument/definition" => (place? params).map fun (uri, caret) => .definition uri caret
  | "textDocument/references" => do
    let (uri, caret) ← place? params
    let context ← params.get? "context"
    return .references uri caret (← withDefinition? context)
  | "textDocument/documentHighlight" =>
    (place? params).map fun (uri, caret) => .highlights uri caret
  | "textDocument/documentSymbol" =>
    ((params.get? "textDocument").bind documentName?).map .symbols
  | "textDocument/diagnostic" =>
    ((params.get? "textDocument").bind documentName?).map .diagnostics
  | _ => none

/-- The notifications of the protocol that this server knows and does nothing about. -/
def unsupportedNotifications : List String :=
  ["textDocument/didSave", "textDocument/willSave", "workspace/didChangeWatchedFiles",
    "workspace/didChangeWorkspaceFolders", "workspace/didCreateFiles", "workspace/didDeleteFiles",
    "workspace/didRenameFiles"]

end LWorkbench
