import LWorkbench.Json.Shape
import LWorkbench.Uri

/-!
# Shapes of what editors talk about

Places in documents, diagnostics, edits and commands occur in the parameters of many requests.

## Main definitions

* `Shape.position`, `Shape.range`, `Shape.location` — places
* `Shape.document`, `Shape.place` — documents and places in them
* `Shape.diagnostic`, `Shape.command`, `Shape.workspaceEdit` — what requests carry along
* `Shape.progress`, `Shape.partialProgress` — how a client wants to hear about progress
-/

namespace LWorkbench.Shape

/-- A uri. -/
def uri : Shape := fun j => (j.string?.bind Uri.parse?).isSome

/-- A list of texts. -/
def strings : Shape := list string

/-! ### Places -/

/-- A position in a document. -/
def position : Shape := record [required "line" nat32, required "character" nat32]

/-- A range of a document. -/
def range : Shape := record [required "start" position, required "end" position]

/-- A range with the document that it is in. -/
def location : Shape := record [required "uri" uri, required "range" range]

/-- A document by its name. -/
def document : Shape := record [required "uri" uri]

/-- The field that names a document. -/
def inDocument : Field := required "textDocument" document

/-- The fields that name a place in a document. -/
def place : List Field := [inDocument, required "position" position]

/-! ### Progress -/

/-- A number or a text by which something is named. -/
def token : Shape := either int32 string

/-- The field by which a client hears that work is being done. -/
def progress : List Field := [optional "workDoneToken" token]

/-- The fields by which a client hears that work is being done and gets results in parts. -/
def partialProgress : List Field := progress ++ [optional "partialResultToken" token]

/-! ### Texts -/

/-- The kinds of marked text. -/
def markupKind : Shape := word ["plaintext", "markdown"]

/-- A plain or a marked text. -/
def documentation : Shape :=
  either string (record [required "kind" markupKind, required "value" string])

/-- A command that a client can send back. -/
def command : Shape :=
  record [required "title" string, required "command" string,
    optional "arguments" (list anything)]

/-! ### Diagnostics -/

/-- A remark on a diagnostic. -/
def relatedInformation : Shape :=
  record [required "location" location, required "message" string]

/-- A diagnostic. -/
def diagnostic : Shape :=
  record [required "range" range, optional "severity" int32, optional "code" token,
    optional "codeDescription" (record [required "href" uri]), optional "source" string,
    required "message" string, optional "relatedInformation" (list relatedInformation),
    optional "tags" (list int32), optional "data" anything]

/-! ### Edits -/

/-- The fields of a change of a range. -/
def editFields : List Field := [required "range" range, required "newText" string]

/-- A change of a range. -/
def textEdit : Shape := record editFields

/-- A change of a range with the name of a note on it. -/
def annotatedEdit : Shape := keyed (editFields ++ [required "annotationId" string])

/-- Changes of a document. -/
def documentEdit : Shape :=
  record [
    required "textDocument" (record [required "uri" uri, optional "version" int32]),
    required "edits" (list (either textEdit annotatedEdit))]

/-- An operation on a file with its kind. -/
def fileOperation (kind : String) (fields : List Field) : Shape :=
  keyed (required "kind" (text kind) :: fields)

/-- An operation on files. -/
def resourceOperation : Shape :=
  either
    (fileOperation "create" [required "uri" uri,
      optional "options" (record (flags ["overwrite", "ignoreIfExists"])),
      optional "annotationId" string])
    (either
      (fileOperation "rename" [required "oldUri" uri, required "newUri" uri,
        optional "options" (record (flags ["overwrite", "ignoreIfExists"])),
        optional "annotationId" string])
      (fileOperation "delete" [required "uri" uri,
        optional "options" (record (flags ["recursive", "ignoreIfNotExists"] ++
          [optional "annotationId" string]))]))

/-- A note on changes. -/
def changeAnnotation : Shape :=
  record [required "label" string, optional "needsConfirmation" bool,
    optional "description" string]

/-- Changes of many documents. -/
def workspaceEdit : Shape :=
  record [
    defaulted "changes" (table (fun name => (Uri.parse? name).isSome) (list textEdit)),
    optional "documentChanges"
      (either (list documentEdit) (list (either resourceOperation documentEdit))),
    optional "changeAnnotations" (table (fun _ => true) changeAnnotation)]

end LWorkbench.Shape
