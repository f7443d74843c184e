import LWorkbench.Editor.Shapes

/-!
# Shapes of what clients can do

A client that starts a session tells who it is and what it can do. Everything about what it can do
may be left out, but what is there must have the right shape.

## Main definitions

* `Shape.client` — what a client can do
* `Shape.greeting` — the parameters with which a session starts
-/

namespace LWorkbench.Shape

/-- Something that can be registered while a session runs. -/
def dynamic : Shape := record (flags ["dynamicRegistration"])

/-- Whether a client can be asked to forget its results. -/
def refreshing : Shape := record (flags ["refreshSupport"])

/-- A field that can be registered while a session runs. -/
def dynamicField (name : String) : Field := optional name dynamic

/-- The properties that a client resolves later. -/
def resolving : Shape := record [required "properties" strings]

/-- A set of numbers that a client knows, which may be left out. -/
def optionalNumbers : Shape := record [optional "valueSet" (list int32)]

/-- The tags that a client knows. A truth value stands for none. -/
def tags : Shape := either bool (record [required "valueSet" (list int32)])

/-- A list of kinds of marked text. -/
def markupKinds : Shape := list markupKind

/-! ### Workspaces -/

/-- What a client can do with changes of many documents. -/
def clientEdits : Shape :=
  record [optional "documentChanges" bool,
    optional "resourceOperations" (list (word ["create", "rename", "delete"])),
    optional "failureHandling"
      (word ["abort", "transactional", "textOnlyTransactional", "undo"]),
    optional "normalizesLineEndings" bool,
    optional "changeAnnotationSupport" (record (flags ["groupsOnLabel"]))]

/-- What a client can do with the symbols of all documents. -/
def clientWorkspaceSymbols : Shape :=
  record [optional "dynamicRegistration" bool, optional "symbolKind" optionalNumbers,
    defaulted "tagSupport" tags, optional "resolveSupport" resolving]

/-- What a client can do with a workspace. -/
def clientWorkspace : Shape :=
  record [optional "applyEdit" bool, optional "workspaceEdit" clientEdits,
    dynamicField "didChangeConfiguration",
    optional "didChangeWatchedFiles"
      (record (flags ["dynamicRegistration", "relativePatternSupport"])),
    optional "symbol" clientWorkspaceSymbols, dynamicField "executeCommand",
    optional "workspaceFolders" bool, optional "configuration" bool,
    optional "semanticTokens" refreshing, optional "codeLens" refreshing,
    optional "fileOperations" (record (flags ["dynamicRegistration", "didCreate", "willCreate",
      "didRename", "willRename", "didDelete", "willDelete"])),
    optional "inlineValue" refreshing, optional "inlayHint" refreshing,
    optional "diagnostic" refreshing]

/-! ### Documents -/

/-- What a client can do with a completion. -/
def clientCompletionItem : Shape :=
  record (flags ["snippetSupport", "commitCharactersSupport"] ++
    [optional "documentationFormat" markupKinds] ++
    flags ["deprecatedSupport", "preselectSupport"] ++
    [defaulted "tagSupport" tags, optional "insertReplaceSupport" bool,
      optional "resolveSupport" resolving,
      optional "insertTextModeSupport" (record [required "valueSet" (list int32)]),
      optional "labelDetailsSupport" bool])

/-- What a client can do with completions. -/
def clientCompletion : Shape :=
  record [optional "dynamicRegistration" bool, optional "completionItem" clientCompletionItem,
    optional "completionItemKind" optionalNumbers, optional "contextSupport" bool,
    optional "insertTextMode" int32,
    optional "completionList" (record [optional "itemDefaults" strings])]

/-- What a client can do with the signatures of functions. -/
def clientSignatures : Shape :=
  record [optional "dynamicRegistration" bool,
    optional "signatureInformation" (record [optional "documentationFormat" markupKinds,
      optional "parameterInformation" (record (flags ["labelOffsetSupport"])),
      optional "activeParameterSupport" bool]),
    optional "contextSupport" bool]

/-- What a client can do with the symbols of a document. -/
def clientSymbols : Shape :=
  record [optional "dynamicRegistration" bool, optional "symbolKind" optionalNumbers,
    optional "hierarchicalDocumentSymbolSupport" bool, defaulted "tagSupport" tags]

/-- What a client can do with definitions. -/
def clientGoto : Shape := record (flags ["dynamicRegistration", "linkSupport"])

/-- What a client can do with actions on code. -/
def clientActions : Shape :=
  record [optional "dynamicRegistration" bool,
    optional "codeActionLiteralSupport"
      (record [required "codeActionKind" (record [required "valueSet" strings])]),
    optional "isPreferredSupport" bool, optional "disabledSupport" bool,
    optional "dataSupport" bool, optional "resolveSupport" resolving,
    optional "honorsChangeAnnotations" bool]

/-- What a client can do with new names. -/
def clientRename : Shape :=
  record [optional "dynamicRegistration" bool, optional "prepareSupport" bool,
    optional "prepareSupportDefaultBehavior" int32, optional "honorsChangeAnnotations" bool]

/-- What a client can do with diagnostics. -/
def clientDiagnostics : Shape :=
  record [optional "relatedInformation" bool, defaulted "tagSupport" tags,
    optional "versionSupport" bool, optional "codeDescriptionSupport" bool,
    optional "dataSupport" bool]

/-- What a client can do with parts of a document that fold. -/
def clientFolding : Shape :=
  record [optional "dynamicRegistration" bool, optional "rangeLimit" nat32,
    optional "lineFoldingOnly" bool,
    optional "foldingRangeKind"
      (record [optional "valueSet" (list (word ["comment", "imports", "region"]))]),
    optional "foldingRange" (record (flags ["collapsedText"]))]

/-- Which tokens a client asks for. -/
def clientTokenRequests : Shape :=
  record [optional "range" bool, optional "full" (either bool (record (flags ["delta"])))]

/-- What a client can do with tokens. -/
def clientTokens : Shape :=
  record ([optional "dynamicRegistration" bool, required "requests" clientTokenRequests,
    required "tokenTypes" strings, required "tokenModifiers" strings,
    required "formats" strings] ++
    flags ["overlappingTokenSupport", "multilineTokenSupport", "serverCancelSupport",
      "augmentsSyntaxTokens"])

/-- What a client can do with a document. -/
def clientDocument : Shape :=
  record [
    optional "synchronization"
      (record (flags ["dynamicRegistration", "willSave", "willSaveWaitUntil", "didSave"])),
    optional "completion" clientCompletion,
    optional "hover"
      (record [optional "dynamicRegistration" bool, optional "contentFormat" markupKinds]),
    optional "signatureHelp" clientSignatures, dynamicField "references",
    dynamicField "documentHighlight", optional "documentSymbol" clientSymbols,
    dynamicField "formatting", dynamicField "rangeFormatting", dynamicField "onTypeFormatting",
    optional "declaration" clientGoto, optional "definition" clientGoto,
    optional "typeDefinition" clientGoto, optional "implementation" clientGoto,
    optional "codeAction" clientActions, dynamicField "codeLens",
    optional "documentLink" (record (flags ["dynamicRegistration", "tooltipSupport"])),
    dynamicField "colorProvider", optional "rename" clientRename,
    optional "publishDiagnostics" clientDiagnostics, optional "foldingRange" clientFolding,
    dynamicField "selectionRange", dynamicField "linkedEditingRange",
    dynamicField "callHierarchy", optional "semanticTokens" clientTokens,
    dynamicField "moniker", dynamicField "typeHierarchy", dynamicField "inlineValue",
    optional "inlayHint"
      (record [optional "dynamicRegistration" bool, optional "resolveSupport" resolving]),
    optional "diagnostic" (record (flags ["dynamicRegistration", "relatedDocumentSupport"]))]

/-! ### The client itself -/

/-- What a client can do with its windows. -/
def clientWindow : Shape :=
  record [optional "workDoneProgress" bool,
    optional "showMessage" (record [optional "messageActionItem"
      (record (flags ["additionalPropertiesSupport"]))]),
    optional "showDocument" (record [required "support" bool])]

/-- What a client can do in general. -/
def clientGeneral : Shape :=
  record [
    optional "regularExpressions"
      (record [required "engine" string, optional "version" string]),
    optional "markdown" (record [required "parser" string, optional "version" string,
      optional "allowedTags" strings]),
    optional "staleRequestSupport"
      (record [required "cancel" bool, required "retryOnContentModified" strings]),
    optional "positionEncodings" strings]

/-- What a client can do. -/
def client : Shape :=
  record [optional "workspace" clientWorkspace, optional "textDocument" clientDocument,
    optional "window" clientWindow, optional "general" clientGeneral,
    optional "experimental" anything]

/-- The parameters with which a session starts. -/
def greeting : Shape :=
  record [optional "processId" nat32, optional "rootPath" string, defaulted "rootUri" uri,
    optional "initializationOptions" anything, required "capabilities" client,
    defaulted "trace" (word ["off", "messages", "verbose"]),
    optional "workspaceFolders" (list (record [required "uri" uri, required "name" string])),
    optional "clientInfo" (record [required "name" string, optional "version" string]),
    optional "locale" string]

end LWorkbench.Shape
