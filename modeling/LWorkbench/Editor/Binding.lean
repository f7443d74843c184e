import LWorkbench.Analysis

/-!
# Bindings and references

What a name in an analyzed program refers to, and from where a binding is referred to. A binding
refers to itself. A reference that had no binding yet when analysis came by is looked up once more
through the chain recorded for it, so that a function may use what is declared after it.

## Main definitions

* `BindingKind` — variable, parameter or label, told by where the binding stands
* `Annotated.definitionOf?` — the binding of a name
* `Annotated.referencesTo` — the names that refer to a binding
* `Annotated.bindingKind?`, `Annotated.kindOf?` — the kind of a binding, and of a name's binding
-/

namespace LWorkbench

/-- What a binding is. -/
inductive BindingKind where
  | variable
  | parameter
  | label
  deriving DecidableEq, Repr

/-- The word for a kind of binding. -/
def BindingKind.describe : BindingKind → String
  | .variable => "variable"
  | .parameter => "parameter"
  | .label => "label"

namespace Annotated

/-- The note of a node. -/
def note (a : Annotated) (id : NodeId) : Note := a.notes[id]?.getD {}

/-- The binding of a name: the one that analysis found, or else the one that the recorded chain has
in the end. -/
def bindingOf? (a : Annotated) (n : Name) : Option NodeId :=
  let note := a.note n.id
  match note.definition with
  | some definition => some definition
  | none => note.environment.bind fun env => a.store.lookupKind? env n.identifier n.kind

/-- The binding of the name with a number. -/
def definitionOf? (a : Annotated) (id : NodeId) : Option NodeId :=
  (a.program.name? id).bind a.bindingOf?

/-- The names of the program in the order of the text. -/
def names (a : Annotated) : List Name := a.program.preorder.filterMap Node.name?

/-- The names for which analysis found the given binding. -/
def foundReferences (a : Annotated) (definition : NodeId) : List Name :=
  a.names.filter fun n => (a.note n.id).definition == some definition

/-- The names that refer to a binding, in the order of the text; the binding itself is one of them
only when asked for. -/
def referencesTo (a : Annotated) (definition : NodeId) (withDefinition : Bool) : List Name :=
  a.names.filter fun n =>
    (withDefinition || n.id != definition) && a.bindingOf? n == some definition

/-- The kind of the binding that a node is, if it is one. -/
def bindingKind? (a : Annotated) (id : NodeId) : Option BindingKind :=
  match a.program.parentNode? id with
  | some (.stmt (.declare _ name _)) => if name.id = id then some .variable else none
  | some (.stmt (.labeled _ label _)) => if label.id = id then some .label else none
  | some (.expr (.function _ params _)) =>
    if params.any (·.id == id) then some .parameter else none
  | _ => none

/-- The kind of the binding of the name with a number. -/
def kindOf? (a : Annotated) (id : NodeId) : Option BindingKind :=
  (a.definitionOf? id).bind a.bindingKind?

end Annotated

end LWorkbench
