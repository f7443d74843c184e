import LWorkbench.Text.Span

/-!
# Syntax trees

A program is a list of statements, and statements and expressions hold each other. Every node
knows its site: the number it was given when the parser finished it and the bytes it was read
from. Numbers are given in the order in which nodes are finished, so that a node has a higher
number than every node inside it.

A name stands for a binding or a reference; which of the two is told by where it stands in the tree.

## Main definitions

* `Site` — number and span of a node
* `Literal`, `UnaryOp`, `BinaryOp`, `LogicalOp` — the leaves of expressions and the operators
* `ScopeKind`, `Name` — an identifier and the kind of scope in which it is looked up
* `Expr`, `Stmt` — expressions and statements
-/

namespace LWorkbench

/-- The number of a node. -/
abbrev NodeId := Nat

/-- Where a node stands: its number and the bytes it was read from. -/
structure Site where
  id : NodeId
  span : Span
  deriving DecidableEq, Repr, Inhabited

/-- A value that is written down. -/
inductive Literal where
  | undefined
  | null
  | boolean (value : Bool)
  | number (value : Float)
  | string (value : String)
  deriving DecidableEq

/-- The operators with one operand. -/
inductive UnaryOp where
  | not
  | negate
  deriving DecidableEq, Repr

/-- The operators that evaluate both operands. -/
inductive BinaryOp where
  | add
  | subtract
  | multiply
  | divide
  | modulo
  | equal
  | notEqual
  | less
  | lessEqual
  | greater
  | greaterEqual
  deriving DecidableEq, Repr

/-- The operators that may leave out their second operand. -/
inductive LogicalOp where
  | and
  | or
  deriving DecidableEq, Repr

/-- The two kinds of scopes, and so of names: variables, which include parameters, and labels. -/
inductive ScopeKind where
  | variable
  | label
  deriving DecidableEq, Repr

/-- An identifier at a site, to be looked up in scopes of its kind. -/
structure Name where
  site : Site
  identifier : String
  kind : ScopeKind
  deriving DecidableEq, Repr

mutual

/-- Expressions. -/
inductive Expr where
  /-- A value that is written down. -/
  | literal (site : Site) (value : Literal)
  /-- A reference to a variable. -/
  | name (name : Name)
  /-- A list in brackets. -/
  | array (site : Site) (items : List Expr)
  /-- A list in parentheses. -/
  | tuple (site : Site) (items : List Expr)
  /-- Keys with their values, in the order written. -/
  | object (site : Site) (properties : List (String × Expr))
  /-- A function with its parameters and body. -/
  | function (site : Site) (params : List Name) (body : List Stmt)
  | unary (site : Site) (op : UnaryOp) (operand : Expr)
  | binary (site : Site) (op : BinaryOp) (left right : Expr)
  | logical (site : Site) (op : LogicalOp) (left right : Expr)
  | assign (site : Site) (target : Name) (value : Expr)
  | call (site : Site) (callee : Expr) (args : List Expr)
  /-- A property with a fixed name. -/
  | member (site : Site) (object : Expr) (property : String)
  /-- An element or property with a computed index. -/
  | index (site : Site) (object : Expr) (index : Expr)

/-- Statements. -/
inductive Stmt where
  /-- A variable declaration. -/
  | declare (site : Site) (name : Name) (init : Option Expr)
  /-- An expression whose value is dropped. -/
  | evaluate (site : Site) (expr : Expr)
  | block (site : Site) (body : List Stmt)
  | labeled (site : Site) (label : Name) (body : Stmt)
  | branch (site : Site) (condition : Expr) (thenBranch : Stmt) (elseBranch : Option Stmt)
  | loop (site : Site) (condition : Expr) (body : Stmt)
  | breakTo (site : Site) (label : Option Name)
  | continueTo (site : Site) (label : Option Name)
  | returnWith (site : Site) (value : Option Expr)

end

/-- The site of an expression. -/
def Expr.site : Expr → Site
  | literal site _ => site
  | name n => n.site
  | array site _ => site
  | tuple site _ => site
  | object site _ => site
  | function site _ _ => site
  | unary site _ _ => site
  | binary site _ _ _ => site
  | logical site _ _ _ => site
  | assign site _ _ => site
  | call site _ _ => site
  | member site _ _ => site
  | index site _ _ => site

/-- The site of a statement. -/
def Stmt.site : Stmt → Site
  | declare site _ _ => site
  | evaluate site _ => site
  | block site _ => site
  | labeled site _ _ => site
  | branch site _ _ _ => site
  | loop site _ _ => site
  | breakTo site _ => site
  | continueTo site _ => site
  | returnWith site _ => site

/-- The number of a name. -/
abbrev Name.id (n : Name) : NodeId := n.site.id

/-- The number of an expression. -/
abbrev Expr.id (e : Expr) : NodeId := e.site.id

/-- The number of a statement. -/
abbrev Stmt.id (s : Stmt) : NodeId := s.site.id

/-- Whether the statement is a loop, possibly behind labels. -/
def Stmt.isLoop : Stmt → Bool
  | loop .. => true
  | labeled _ _ body => body.isLoop
  | _ => false

end LWorkbench
