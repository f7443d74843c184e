import LWorkbench.Scope
import LWorkbench.Text.Visible

/-!
# Environments

An environment is a chain of scopes, innermost first. Making a longer chain never changes the
shorter one, so whoever holds a chain keeps it. The scopes themselves are shared: what is declared
in a scope is seen through every chain that runs through it, also through those made before.

Shared scopes live in a store, and a chain is made of links that name scopes of the store. Every
link has a serial number of its own, which tells two chains apart even when they run through the
same scopes.

## Main definitions

* `Store` — the scopes made so far
* `Environment` — a chain of links into a store, never empty
* `Store.root`, `Store.single`, `Store.extend`, `Store.push` — making chains
* `Store.resolve?`, `Store.resolveKind?`, `Store.lookupKind?`, `Store.lookup?`,
  `Store.variableScope?`, `Store.nearest?` — finding an identifier or a scope along a chain
* `Store.declare`, `Store.assign?` — binding in the innermost scope, and changing the nearest
  variable
* `Store.describe` — a chain as a text for debugging
-/

namespace LWorkbench

/-- The number of a scope in a store. -/
abbrev ScopeId := Nat

/-- One link of a chain: its own serial number and the scope it names. -/
structure Link where
  serial : Nat
  scope : ScopeId
  deriving DecidableEq, Repr

/-- A chain of scopes with at least one link, innermost first. -/
structure Environment where
  innermost : Link
  outer : List Link
  deriving DecidableEq, Repr

namespace Environment

/-- The links from the innermost to the outermost. -/
def links (env : Environment) : List Link := env.innermost :: env.outer

/-- The scopes from the innermost to the outermost. -/
def scopeIds (env : Environment) : List ScopeId := env.links.map Link.scope

/-- The innermost scope. -/
def scopeId (env : Environment) : ScopeId := env.innermost.scope

/-- The number of scopes. -/
def size (env : Environment) : Nat := env.outer.length + 1

/-- The chain without its innermost link, if any link is left. -/
def parent? (env : Environment) : Option Environment :=
  match env.outer with
  | link :: links => some ⟨link, links⟩
  | [] => none

/-- The scope a number of links further out; `0` is the innermost. -/
def ancestor? (env : Environment) (depth : Nat) : Option ScopeId := env.scopeIds[depth]?

/-- Whether two chains are the same chain, and not merely chains through the same scopes. -/
def sameAs (a b : Environment) : Bool := a.innermost.serial == b.innermost.serial

end Environment

/-- Where an identifier was found: the kind of the scope and how many links further out it is. -/
structure Resolution where
  kind : ScopeKind
  depth : Nat
  deriving DecidableEq, Repr

/-- The scopes made so far, and the number of links made so far. -/
structure Store (α : Type) where
  scopes : Array (Scope α)
  linkCount : Nat

namespace Store

variable {α : Type}

/-- The store without scopes. -/
def empty : Store α := ⟨#[], 0⟩

/-- The scope with a number; a number that was never given out stands for an empty scope. -/
def scope (store : Store α) (id : ScopeId) : Scope α :=
  store.scopes[id]?.getD (.empty .variable)

/-- The scopes of a chain, innermost first. -/
def chain (store : Store α) (env : Environment) : List (Scope α) :=
  env.scopeIds.map store.scope

/-! ### Making chains -/

/-- Makes an empty scope. -/
def makeScope (store : Store α) (kind : ScopeKind) : ScopeId × Store α :=
  (store.scopes.size, { store with scopes := store.scopes.push (.empty kind) })

/-- Makes a link to a scope, in front of the given links. -/
def makeLink (store : Store α) (scope : ScopeId) (outer : List Link) : Environment × Store α :=
  (⟨⟨store.linkCount, scope⟩, outer⟩, { store with linkCount := store.linkCount + 1 })

/-- Makes a chain of one new scope. -/
def single (store : Store α) (kind : ScopeKind) : Environment × Store α :=
  let (scope, store) := store.makeScope kind
  store.makeLink scope []

/-- Makes a chain of one new scope for variables. -/
def root (store : Store α) : Environment × Store α := store.single .variable

/-- Makes a chain with a given scope in front of a chain. -/
def push (store : Store α) (env : Environment) (scope : ScopeId) : Environment × Store α :=
  store.makeLink scope env.links

/-- Makes a chain with a new scope in front of a chain. -/
def extend (store : Store α) (env : Environment) (kind : ScopeKind) : Environment × Store α :=
  let (scope, store) := store.makeScope kind
  store.push env scope

/-! ### Finding -/

/-- The first of the scopes that satisfies a condition, with its place counted from `depth`. -/
def findFrom (store : Store α) (accept : Scope α → Bool) :
    List ScopeId → (depth : Nat) → Option (Nat × ScopeId)
  | [], _ => none
  | id :: ids, depth =>
    if accept (store.scope id) then some (depth, id) else findFrom store accept ids (depth + 1)

/-- The innermost scope of a chain that satisfies a condition, with its place in the chain. -/
def find? (store : Store α) (env : Environment) (accept : Scope α → Bool) :
    Option (Nat × ScopeId) :=
  store.findFrom accept env.scopeIds 0

/-- Whether a scope is of a kind and binds an identifier. -/
def binds (kind : ScopeKind) (name : String) (s : Scope α) : Bool :=
  s.kind == kind && s.contains name

/-- Where the innermost scope of any kind that binds an identifier is. -/
def resolve? (store : Store α) (env : Environment) (name : String) : Option Resolution :=
  (store.find? env (·.contains name)).map fun (depth, id) => ⟨(store.scope id).kind, depth⟩

/-- Where the innermost scope of one kind that binds an identifier is. -/
def resolveKind? (store : Store α) (env : Environment) (name : String) (kind : ScopeKind) :
    Option Resolution :=
  (store.find? env (binds kind name)).map fun (depth, _) => ⟨kind, depth⟩

/-- The value of an identifier in the innermost scope of one kind that binds it. -/
def lookupKind? (store : Store α) (env : Environment) (name : String) (kind : ScopeKind) :
    Option α :=
  (store.find? env (binds kind name)).bind fun (_, id) => (store.scope id).get? name

/-- The value of the nearest variable with a name. -/
def lookup? (store : Store α) (env : Environment) (name : String) : Option α :=
  store.lookupKind? env name .variable

/-- The innermost scope for variables that binds an identifier. -/
def variableScope? (store : Store α) (env : Environment) (name : String) : Option ScopeId :=
  (store.find? env (binds .variable name)).map (·.2)

/-- The innermost scope of a kind. -/
def nearest? (store : Store α) (env : Environment) (kind : ScopeKind) : Option ScopeId :=
  (store.find? env (·.kind == kind)).map (·.2)

/-! ### Changing scopes -/

/-- Replaces a scope. -/
def put (store : Store α) (id : ScopeId) (s : Scope α) : Store α :=
  { store with scopes := store.scopes.setIfInBounds id s }

/-- Binds an identifier in a scope. -/
def declareIn (store : Store α) (id : ScopeId) (name : String) (value : α) : Store α :=
  store.put id ((store.scope id).declare name value)

/-- Binds an identifier in the innermost scope of a chain. -/
def declare (store : Store α) (env : Environment) (name : String) (value : α) : Store α :=
  store.declareIn env.scopeId name value

/-- Changes the value of an identifier in a scope that binds it. -/
def setIn? (store : Store α) (id : ScopeId) (name : String) (value : α) : Option (Store α) :=
  ((store.scope id).set? name value).map (store.put id)

/-- Changes the value of the nearest variable with a name; none when there is no such variable. -/
def assign? (store : Store α) (env : Environment) (name : String) (value : α) :
    Option (Store α) :=
  (store.variableScope? env name).map fun id => store.declareIn id name value

/-! ### Showing chains -/

/-- The word for a kind of scope. -/
def kindWord : ScopeKind → String
  | .variable => "Variable"
  | .label => "Label"

/-- A scope as its kind and its identifiers. -/
def showScope (s : Scope α) : String :=
  "Scope \x7b kind: " ++ kindWord s.kind ++ ", names: [" ++
    ", ".intercalate (s.names.map Visible.quote) ++ "] \x7d"

/-- A chain as the list of its scopes, innermost first. -/
def describe (store : Store α) (env : Environment) : String :=
  "[" ++ ", ".intercalate ((store.chain env).map showScope) ++ "]"

end Store

end LWorkbench
