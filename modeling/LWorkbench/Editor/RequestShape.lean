import LWorkbench.Editor.Shapes

/-!
# Shapes of requests

The protocol prescribes the shape of the parameters of every request. A server checks it for the
requests that it answers and for those that it knows and does not support.

## Main definitions

* `Shape.requests` — the requests of the protocol with the shapes of their parameters
* `Shape.request?` — the shape of the parameters of a request
-/

namespace LWorkbench.Shape

/-! ### Parts of parameters -/

/-- How a document is to be formatted. Fields that the protocol does not know may be there too. -/
def formatting : Shape :=
  keyedWith ([required "tabSize" nat32, required "insertSpaces" bool] ++
    flags ["trimTrailingWhitespace", "insertFinalNewline", "trimFinalNewlines"])
    (either bool (either int32 string))

/-- The fields of something with a name and a kind in a document. -/
def itemFields (tags : Shape) : List Field :=
  [required "name" string, required "kind" int32, optional "tags" tags, optional "detail" string,
    required "uri" uri, required "range" range, required "selectionRange" range,
    optional "data" anything]

/-- A function that calls or is called. -/
def callItem : Shape := record (itemFields (list int32))

/-- A type above or below others; it has a single tag. -/
def typeItem : Shape := record (itemFields int32)

/-- A parameter of a function, by its name or by where its name is in that of the function. -/
def parameter : Shape :=
  record [required "label" (either string (pair nat32)), optional "documentation" documentation]

/-- The signature of a function. -/
def signature : Shape :=
  record [required "label" string, optional "documentation" documentation,
    optional "parameters" (list parameter), optional "activeParameter" nat32]

/-- Why signatures are asked for. -/
def signatureContext : Shape :=
  record [required "triggerKind" int32, optional "triggerCharacter" string,
    required "isRetrigger" bool,
    optional "activeSignatureHelp" (record [required "signatures" (list signature),
      optional "activeSignature" nat32, optional "activeParameter" nat32])]

/-- A completion. -/
def completionItem : Shape :=
  record [required "label" string,
    optional "labelDetails" (record [optional "detail" string, optional "description" string]),
    optional "kind" int32, optional "detail" string, optional "documentation" documentation,
    optional "deprecated" bool, optional "preselect" bool, optional "sortText" string,
    optional "filterText" string, optional "insertText" string, optional "insertTextFormat" int32,
    optional "insertTextMode" int32,
    optional "textEdit" (either textEdit (record [required "newText" string,
      required "insert" range, required "replace" range])),
    optional "additionalTextEdits" (list textEdit), optional "command" command,
    optional "commitCharacters" strings, optional "data" anything, optional "tags" (list int32)]

/-- An action on code. -/
def codeAction : Shape :=
  record [required "title" string, optional "kind" string,
    optional "diagnostics" (list diagnostic), optional "edit" workspaceEdit,
    optional "command" command, optional "isPreferred" bool,
    optional "disabled" (record [required "reason" string]), optional "data" anything]

/-- A part of a hint between the characters of a line. -/
def hintPart : Shape :=
  record [required "value" string, optional "tooltip" documentation,
    optional "location" location, optional "command" command]

/-- A hint between the characters of a line. -/
def hint : Shape :=
  record [required "position" position, required "label" (either string (list hintPart)),
    optional "kind" int32, optional "textEdits" (list textEdit),
    optional "tooltip" documentation, optional "paddingLeft" bool, optional "paddingRight" bool,
    optional "data" anything]

/-- A symbol of any document, with its range or without. -/
def workspaceSymbol : Shape :=
  record [required "name" string, required "kind" int32, optional "tags" (list int32),
    optional "containerName" string, required "location" (either location document),
    optional "data" anything]

/-- A color. -/
def color : Shape :=
  record [required "red" number, required "green" number, required "blue" number,
    required "alpha" number]

/-! ### Parameters -/

/-- Parameters that are a place, with the field for progress. -/
def atPlace : Shape := keyed (place ++ progress)

/-- Parameters that are a place, with the fields for progress and partial results. -/
def atPlaceInParts : Shape := keyed (place ++ partialProgress)

/-- Parameters that are a document and more, with the fields for progress and partial results. -/
def ofDocument (more : List Field) : Shape := keyed (inDocument :: more ++ partialProgress)

/-- Parameters that are an item, with the fields for progress and partial results. -/
def ofItem (item : Shape) : Shape := keyed (required "item" item :: partialProgress)

/-- Parameters that are a list of files. -/
def ofFiles (fields : List String) : Shape :=
  record [required "files" (list (record (fields.map (required · string))))]

/-- The requests about a place or a document. -/
def documentRequests : List (String × Shape) :=
  [("textDocument/codeAction", ofDocument [required "range" range,
      required "context" (record [required "diagnostics" (list diagnostic),
        optional "only" strings, optional "triggerKind" int32])]),
    ("textDocument/codeLens", ofDocument []),
    ("textDocument/colorPresentation",
      ofDocument [required "color" color, required "range" range]),
    ("textDocument/completion", keyed (place ++ partialProgress ++
      [optional "context"
        (record [required "triggerKind" int32, optional "triggerCharacter" string])])),
    ("textDocument/declaration", atPlaceInParts),
    ("textDocument/definition", atPlaceInParts),
    ("textDocument/diagnostic",
      ofDocument [optional "identifier" string, optional "previousResultId" string]),
    ("textDocument/documentColor", ofDocument []),
    ("textDocument/documentHighlight", atPlaceInParts),
    ("textDocument/documentLink", ofDocument []),
    ("textDocument/documentSymbol", ofDocument []),
    ("textDocument/foldingRange", ofDocument []),
    ("textDocument/formatting",
      keyed ([inDocument, required "options" formatting] ++ progress)),
    ("textDocument/hover", atPlace),
    ("textDocument/implementation", atPlaceInParts),
    ("textDocument/inlayHint", keyed ([inDocument, required "range" range] ++ progress)),
    ("textDocument/inlineValue", keyed ([inDocument, required "range" range,
      required "context"
        (record [required "frameId" int32, required "stoppedLocation" range])] ++ progress)),
    ("textDocument/linkedEditingRange", atPlace),
    ("textDocument/moniker", atPlaceInParts),
    ("textDocument/onTypeFormatting",
      keyed (place ++ [required "ch" string, required "options" formatting])),
    ("textDocument/prepareCallHierarchy", atPlace),
    ("textDocument/prepareRename", record place),
    ("textDocument/prepareTypeHierarchy", atPlace),
    ("textDocument/rangeFormatting", keyed ([inDocument, required "range" range,
      required "options" formatting] ++ progress)),
    ("textDocument/references", keyed (place ++ partialProgress ++
      [required "context" (record [required "includeDeclaration" bool])])),
    ("textDocument/rename", keyed (place ++ [required "newName" string] ++ progress)),
    ("textDocument/selectionRange", ofDocument [required "positions" (list position)]),
    ("textDocument/semanticTokens/full", ofDocument []),
    ("textDocument/semanticTokens/full/delta", ofDocument [required "previousResultId" string]),
    ("textDocument/semanticTokens/range", ofDocument [required "range" range]),
    ("textDocument/signatureHelp",
      keyed (optional "context" signatureContext :: place ++ progress)),
    ("textDocument/typeDefinition", atPlaceInParts),
    ("textDocument/willSaveWaitUntil", record [inDocument, required "reason" int32])]

/-- The requests about something that an earlier answer contained. -/
def itemRequests : List (String × Shape) :=
  [("callHierarchy/incomingCalls", ofItem callItem),
    ("callHierarchy/outgoingCalls", ofItem callItem),
    ("codeAction/resolve", codeAction),
    ("codeLens/resolve", record [required "range" range, optional "command" command,
      optional "data" anything]),
    ("completionItem/resolve", completionItem),
    ("documentLink/resolve", record [required "range" range, optional "target" uri,
      optional "tooltip" string, optional "data" anything]),
    ("inlayHint/resolve", hint),
    ("typeHierarchy/subtypes", ofItem typeItem),
    ("typeHierarchy/supertypes", ofItem typeItem),
    ("workspaceSymbol/resolve", workspaceSymbol)]

/-- The requests about the workspace. -/
def workspaceRequests : List (String × Shape) :=
  [("workspace/diagnostic", keyed ([optional "identifier" string,
      required "previousResultIds"
        (list (record [required "uri" uri, required "value" string]))] ++ partialProgress)),
    ("workspace/executeCommand", keyed ([required "command" string,
      ⟨"arguments", .defaulted, list anything⟩] ++ progress)),
    ("workspace/symbol", keyed (required "query" string :: partialProgress)),
    ("workspace/willCreateFiles", ofFiles ["uri"]),
    ("workspace/willDeleteFiles", ofFiles ["uri"]),
    ("workspace/willRenameFiles", ofFiles ["oldUri", "newUri"])]

/-- The requests of the protocol with the shapes of their parameters. -/
def requests : List (String × Shape) :=
  documentRequests ++ itemRequests ++ workspaceRequests

/-- The shape of the parameters of a request. -/
def request? (method : String) : Option Shape :=
  (requests.find? (·.1 == method)).map (·.2)

end LWorkbench.Shape
