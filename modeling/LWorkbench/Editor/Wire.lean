import LWorkbench.Editor.Query
import LWorkbench.Json
import LWorkbench.Uri

/-!
# Editor messages in JSON

The written form of what an editor is told. Fields are in the order of their names, and a field
without a value is left out.

## Main definitions

* `Caret.toJson`, `TextRange.toJson`, `Diagnostic.toJson` — places and diagnostics
* `Hover.toJson`, `TextRange.locationJson`, `Highlight.toJson`, `DocumentSymbol.toJson` — answers
-/

namespace LWorkbench

/-- The name of the language, as diagnostics and hovers give it. -/
def languageName : String := "l"

/-- The written form of a caret. -/
def Caret.toJson (c : Caret) : Json :=
  .record [("line", c.line), ("character", c.column)]

/-- The written form of a range. -/
def TextRange.toJson (r : TextRange) : Json :=
  .record [("start", r.start.toJson), ("end", r.stop.toJson)]

/-- The written form of a range of a document. -/
def TextRange.locationJson (uri : Uri) (r : TextRange) : Json :=
  .record [("uri", uri.render), ("range", r.toJson)]

/-- The written form of a diagnostic, which is always an error. -/
def Diagnostic.toJson (d : Diagnostic) : Json :=
  .record [("range", d.range.toJson), ("severity", .int 1), ("source", languageName),
    ("message", d.message)]

/-- The written form of a hover. -/
def Hover.toJson (h : Hover) : Json :=
  .record [("contents", .record [("language", languageName), ("value", h.value)]),
    ("range", h.range.toJson)]

/-- The number of a kind of highlight. -/
def HighlightKind.code : HighlightKind → Nat
  | read => 2
  | write => 3

/-- The written form of a highlight. -/
def Highlight.toJson (h : Highlight) : Json :=
  .record [("range", h.range.toJson), ("kind", h.kind.code)]

/-- The number of a kind of symbol: labels count as keys. -/
def BindingKind.symbolCode : BindingKind → Nat
  | .variable => 13
  | .parameter => 13
  | .label => 20

/-- The written form of a symbol. -/
def DocumentSymbol.toJson (s : DocumentSymbol) : Json :=
  .record [("name", s.name), ("detail", s.kind.describe), ("kind", s.kind.symbolCode),
    ("range", s.range.toJson), ("selectionRange", s.range.toJson)]

end LWorkbench
