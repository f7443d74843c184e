import LWorkbench.Debugger.Handles
import LWorkbench.Json.Printer
import LWorkbench.Value

/-!
# Looking into a run

A client of a debugger looks into scopes, chains of scopes and values. Each is shown as a short
text, and those that have parts can be looked into further. A scope shows what it holds at the
moment of looking; a value never changes.

## Main definitions

* `Inspectable` — something that can be shown
* `Inspectable.render` — its text
* `Inspectable.children` — its parts with their names
* `Variable` — a part as a client sees it, with a handle if it can be looked into
* `Variable.list` — the parts of something, with new handles
-/

namespace LWorkbench

/-- Something that a client can look at. -/
inductive Inspectable where
  | scope (id : ScopeId)
  | environment (env : Environment)
  | value (v : Value)

namespace Inspectable

/-- Whether there is something to look into. -/
def isExpandable : Inspectable → Bool
  | scope _ | environment _ => true
  | value v => v.isComposite

/-- The text of a value. A number that is not finite is shown as `null`. -/
def renderValue : Value → String
  | .undefined => "#undefined"
  | .null => "#null"
  | .boolean true => "#true"
  | .boolean false => "#false"
  | .number x => if x.isFinite then Number.display x else "null"
  | .string text => Json.quote text
  | v => v.type.word

/-- The text of something. -/
def render : Inspectable → String
  | scope _ => "scope"
  | environment _ => "environment"
  | value v => renderValue v

/-- The items with their numbers from zero on as names. -/
def numbered {α : Type} (entity : α → Inspectable) (items : List α) : List (String × Inspectable) :=
  items.zipIdx.map fun (item, i) => (toString i, entity item)

/-- The parts of something with their names. The scopes of a chain are told from the
innermost on. -/
def children (store : Store Value) : Inspectable → List (String × Inspectable)
  | scope id => (store.scope id).entries.map fun (name, v) => (name, .value v)
  | environment env => numbered .scope env.scopeIds
  | value (.array items) => numbered .value items
  | value (.tuple items) => numbered .value items
  | value (.object properties) => properties.map fun (key, v) => (key, .value v)
  | value (.function closure) => [("[[environment]]", .environment closure.environment)]
  | value _ => []

end Inspectable

/-- A named part as a client sees it. The reference is a handle, or zero if there is nothing to look
into. -/
structure Variable where
  name : String
  value : String
  reference : Nat
  deriving DecidableEq, Repr

/-- The handle of something that can be looked into, which is new; zero for anything else. -/
def Handles.offer (handles : Handles Inspectable) (entity : Inspectable) :
    Nat × Handles Inspectable :=
  if entity.isExpandable then handles.create entity else (0, handles)

/-- The named parts as a client sees them, with new handles in their order. -/
def Variable.list (handles : Handles Inspectable) :
    List (String × Inspectable) → List Variable × Handles Inspectable
  | [] => ([], handles)
  | (name, entity) :: rest =>
    let (reference, handles) := handles.offer entity
    let (parts, handles) := Variable.list handles rest
    (⟨name, entity.render, reference⟩ :: parts, handles)

end LWorkbench
