import LWorkbench.Editor.Cache
import LWorkbench.Editor.Edit
import LWorkbench.Editor.Settings
import LWorkbench.Editor.Wire

/-!
# The workspace of an editor

A workspace holds the documents that a client has open, what is known about them and the settings.
A client tells when documents are opened, changed and closed, and when its configuration has
changed; the workspace publishes the diagnostics of a document whenever there is a new result for
it, and those of all documents when the settings may have changed. Questions are answered from the
last result.

## Main definitions

* `Workspace` — documents, results and settings
* `Notice` — what a client tells; `Workspace.notify` — what follows from it
* `Question` — what a client asks; `Workspace.answer` — the answer
* `Outgoing` — what is sent to the client on the way
-/

namespace LWorkbench

/-- An open document. -/
structure Document where
  content : String
  version : Int
  deriving DecidableEq, Repr

/-- What is sent to a client. -/
inductive Outgoing where
  | logMessage (text : String)
  /-- A request for the client's configuration. -/
  | configuration
  | publish (uri : Uri) (diagnostics : List Diagnostic) (version : Option Int)
  deriving DecidableEq, Repr

/-- What a client tells. -/
inductive Notice where
  | ready
  | opened (uri : Uri) (document : Document)
  | changed (uri : Uri) (version : Int) (edits : List Edit)
  | closed (uri : Uri)
  | configurationChanged
  deriving DecidableEq, Repr

/-- What a client asks. -/
inductive Question where
  | hover (uri : Uri) (caret : Caret)
  | definition (uri : Uri) (caret : Caret)
  | references (uri : Uri) (caret : Caret) (withDefinition : Bool)
  | highlights (uri : Uri) (caret : Caret)
  | symbols (uri : Uri)
  | diagnostics (uri : Uri)
  deriving DecidableEq, Repr

/-- The open documents, what is known about them and the settings. -/
structure Workspace where
  documents : UriMap Document
  cache : Cache
  settings : Settings

namespace Workspace

/-- A workspace without documents. -/
def empty : Workspace := ⟨.empty, .empty, {}⟩

/-! ### Publishing -/

/-- Publishes a result for a document, unless there is a later one. -/
def publish (w : Workspace) (uri : Uri) (result : Recomputed) (version : Int) : List Outgoing :=
  if w.cache.isLatest uri result.seq then
    [.publish uri (w.settings.filter result.diagnostics) (some version)]
  else []

/-- Checks a document again and publishes the result if it is a new one. -/
def refresh (w : Workspace) (uri : Uri) : Workspace × List Outgoing :=
  match w.documents.get? uri with
  | none => (w, [])
  | some document =>
    let (cache, result) := w.cache.recompute uri document.content
    let w := { w with cache }
    (w, if result.changed then w.publish uri result document.version else [])

/-- Publishes what is known about every open document. -/
def republish (w : Workspace) : List Outgoing :=
  w.documents.entries.flatMap fun (uri, document) =>
    match w.cache.current? uri with
    | some result => w.publish uri result document.version
    | none => []

/-! ### What a client tells -/

/-- Takes over the settings from an answer to a request for the configuration. -/
def configure (w : Workspace) (answer : Option (List Json)) : Workspace :=
  { w with settings := w.settings.load answer }

/-- What follows from what a client tells, where `answer` is how the client answers a request for
its configuration. A document that is changed without having been opened starts out empty. -/
def notify (w : Workspace) (answer : Option (List Json)) : Notice → Workspace × List Outgoing
  | .ready => (w.configure answer, [.logMessage "L Language Server started", .configuration])
  | .opened uri document => { w with documents := w.documents.insert uri document }.refresh uri
  | .changed _ _ [] => (w, [])
  | .changed uri version edits =>
    let content := ((w.documents.get? uri).map Document.content).getD ""
    let document := ⟨Edit.applyAll content edits, version⟩
    { w with documents := w.documents.insert uri document }.refresh uri
  | .closed uri =>
    ({ w with documents := w.documents.erase uri, cache := w.cache.evict uri },
      [.publish uri [] none])
  | .configurationChanged =>
    let w := w.configure answer
    (w, .configuration :: w.republish)

/-! ### What a client asks -/

/-- The diagnostics of a document that a client gets. -/
def currentDiagnostics (w : Workspace) (uri : Uri) : List Diagnostic :=
  w.settings.filter (w.cache.diagnostics uri)

/-- The list, or `null` when it is empty. -/
def listOrNull {α : Type} (encode : α → Json) (items : List α) : Json :=
  if items.isEmpty then .null else .ofList encode items

/-- The answer from the program of a document, or `null` when there is none. -/
def withProgram (w : Workspace) (uri : Uri) (answer : Annotated → String → Json) : Json :=
  match w.cache.snapshot? uri with
  | some (program, text) => answer program text
  | none => .null

/-- The answer to a question. -/
def answer (w : Workspace) : Question → Json
  | .hover uri caret => w.withProgram uri fun a text =>
    Json.ofOption Hover.toJson (a.hover? text caret)
  | .definition uri caret => w.withProgram uri fun a text =>
    Json.ofOption (TextRange.locationJson uri) (a.definition? text caret)
  | .references uri caret withDefinition => w.withProgram uri fun a text =>
    listOrNull (TextRange.locationJson uri) (a.references text caret withDefinition)
  | .highlights uri caret => w.withProgram uri fun a text =>
    listOrNull Highlight.toJson (a.highlights text caret)
  | .symbols uri => w.withProgram uri fun a text =>
    listOrNull DocumentSymbol.toJson (a.symbols text)
  | .diagnostics uri =>
    .record [("kind", "full"), ("items", .ofList Diagnostic.toJson (w.currentDiagnostics uri))]

end Workspace

end LWorkbench
