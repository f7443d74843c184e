import LWorkbench.Editor.CheckedText

/-!
# Questions about a program

What an editor asks about the name under the caret: what it is, where it is bound and where else the
binding is used; and which bindings there are in the whole text. A caret is at a name only if the
innermost node there is one.

## Main definitions

* `Annotated.nodeAt?`, `Annotated.nameAt?` — the node and the name under a caret
* `Annotated.hover?`, `Annotated.definition?`, `Annotated.references`, `Annotated.highlights` —
  about the name under a caret
* `Annotated.symbols` — the bindings of the text
-/

namespace LWorkbench

/-- What a name is, with the range of the name. -/
structure Hover where
  value : String
  range : TextRange
  deriving DecidableEq, Repr

/-- Whether a highlighted name is the binding or a use of it. -/
inductive HighlightKind where
  | write
  | read
  deriving DecidableEq, Repr

/-- A highlighted name. -/
structure Highlight where
  range : TextRange
  kind : HighlightKind
  deriving DecidableEq, Repr

/-- A binding in the outline of a text. -/
structure DocumentSymbol where
  name : String
  kind : BindingKind
  range : TextRange
  deriving DecidableEq, Repr

namespace Annotated

/-- The innermost node under a caret. -/
def nodeAt? (a : Annotated) (text : String) (caret : Caret) : Option Node :=
  a.program.locate? (caret.offset text)

/-- The name under a caret. -/
def nameAt? (a : Annotated) (text : String) (caret : Caret) : Option Name :=
  (a.nodeAt? text caret).bind Node.name?

/-- The binding of the name under a caret. -/
def bindingAt? (a : Annotated) (text : String) (caret : Caret) : Option NodeId :=
  (a.nameAt? text caret).bind a.bindingOf?

/-- The range of the node with a number. -/
def rangeOf? (a : Annotated) (text : String) (id : NodeId) : Option TextRange :=
  (a.program.span? id).map (TextRange.ofSpan text)

/-- What the name under a caret is; nothing for a name without a binding. -/
def hover? (a : Annotated) (text : String) (caret : Caret) : Option Hover := do
  let name ← a.nameAt? text caret
  let kind ← a.kindOf? name.id
  return ⟨s!"({kind.describe}) {name.identifier}", .ofSpan text name.site.span⟩

/-- The range of the binding of the name under a caret. -/
def definition? (a : Annotated) (text : String) (caret : Caret) : Option TextRange :=
  (a.bindingAt? text caret).bind (a.rangeOf? text)

/-- The ranges of the names with the same binding as the name under a caret, in the order of the
text; the binding itself is one of them only when asked for. -/
def references (a : Annotated) (text : String) (caret : Caret) (withDefinition : Bool) :
    List TextRange :=
  match a.bindingAt? text caret with
  | none => []
  | some definition =>
    (a.referencesTo definition withDefinition).map fun n => .ofSpan text n.site.span

/-- The binding of the name under a caret, and then every use of it. -/
def highlights (a : Annotated) (text : String) (caret : Caret) : List Highlight :=
  match a.bindingAt? text caret with
  | none => []
  | some definition =>
    (a.rangeOf? text definition).toList.map (⟨·, .write⟩) ++
      (a.referencesTo definition false).map fun n => ⟨.ofSpan text n.site.span, .read⟩

/-- The bindings of the text in its order. -/
def symbols (a : Annotated) (text : String) : List DocumentSymbol :=
  a.names.filterMap fun n =>
    (a.bindingKind? n.id).map fun kind => ⟨n.identifier, kind, .ofSpan text n.site.span⟩

end Annotated

end LWorkbench
