import LWorkbench.Tree

/-!
# Nodes

Walking a tree does not care about the difference between expressions and statements. A node is
either, and the children of a node are the nodes directly inside it, in the order of the text.

## Main definitions

* `Node` — an expression or a statement
* `Node.children` — the nodes directly inside a node
* `Node.preorder`, `Node.postorder` — nodes and all nodes inside them, parents first or last
* `Node.pathInside` — the nodes around an offset, from a node on inwards

## Main results

* `Node.sizeOf_lt_of_mem_children` — children are smaller, so that walks end
-/

namespace LWorkbench

/-- An expression or a statement. -/
inductive Node where
  | expr (e : Expr)
  | stmt (s : Stmt)

namespace Node

/-- The node of a name. -/
def ofName (n : Name) : Node := .expr (.name n)

/-- The site of a node. -/
def site : Node → Site
  | expr e => e.site
  | stmt s => s.site

/-- The number of a node. -/
abbrev id (n : Node) : NodeId := n.site.id

/-- The bytes a node was read from. -/
abbrev span (n : Node) : Span := n.site.span

/-- The name that a node is, if it is one. -/
def name? : Node → Option Name
  | expr (.name n) => some n
  | _ => none

/-- The statement that a node is, if it is one. -/
def stmt? : Node → Option Stmt
  | stmt s => some s
  | _ => none

/-- The nodes directly inside a node, in the order of the text. -/
def children : Node → List Node
  | expr (.literal ..) => []
  | expr (.name _) => []
  | expr (.array _ items) => items.map expr
  | expr (.tuple _ items) => items.map expr
  | expr (.object _ properties) => properties.map fun p => expr p.2
  | expr (.function _ params body) => params.map ofName ++ body.map stmt
  | expr (.unary _ _ operand) => [expr operand]
  | expr (.binary _ _ left right) => [expr left, expr right]
  | expr (.logical _ _ left right) => [expr left, expr right]
  | expr (.assign _ target value) => [ofName target, expr value]
  | expr (.call _ callee args) => expr callee :: args.map expr
  | expr (.member _ object _) => [expr object]
  | expr (.index _ object index) => [expr object, expr index]
  | stmt (.declare _ name init) => ofName name :: (init.map expr).toList
  | stmt (.evaluate _ e) => [expr e]
  | stmt (.block _ body) => body.map stmt
  | stmt (.labeled _ label body) => [ofName label, stmt body]
  | stmt (.branch _ condition thenBranch elseBranch) =>
    expr condition :: stmt thenBranch :: (elseBranch.map stmt).toList
  | stmt (.loop _ condition body) => [expr condition, stmt body]
  | stmt (.breakTo _ label) => (label.map ofName).toList
  | stmt (.continueTo _ label) => (label.map ofName).toList
  | stmt (.returnWith _ value) => (value.map expr).toList

private theorem sizeOf_site_pos (site : Site) : 0 < sizeOf site := by
  cases site; simp only [Site.mk.sizeOf_spec]; omega

private theorem sizeOf_ofName (n : Name) : sizeOf (ofName n) = 2 + sizeOf n := by
  simp [ofName]; omega

private theorem sizeOf_expr_lt_of_mem {e : Expr} {items : List Expr} (h : e ∈ items) :
    sizeOf (expr e) < 1 + sizeOf items := by
  have := List.sizeOf_lt_of_mem h
  simp
  omega

private theorem sizeOf_stmt_lt_of_mem {s : Stmt} {items : List Stmt} (h : s ∈ items) :
    sizeOf (stmt s) < 1 + sizeOf items := by
  have := List.sizeOf_lt_of_mem h
  simp
  omega

private theorem sizeOf_lt_of_mem_children_expr {e : Expr} {c : Node}
    (h : c ∈ (expr e).children) : sizeOf c < sizeOf (expr e) := by
  cases e with
  | literal | name => simp [children] at h
  | array _ items | tuple _ items =>
    obtain ⟨e, he, rfl⟩ := List.mem_map.1 h
    have := sizeOf_expr_lt_of_mem he
    simp only [expr.sizeOf_spec, Expr.array.sizeOf_spec, Expr.tuple.sizeOf_spec] at this ⊢
    omega
  | object _ properties =>
    obtain ⟨⟨key, e⟩, he, rfl⟩ := List.mem_map.1 h
    have := List.sizeOf_lt_of_mem he
    simp at this ⊢
    omega
  | function site params body =>
    rcases List.mem_append.1 h with h | h
    · obtain ⟨n, hn, rfl⟩ := List.mem_map.1 h
      have := List.sizeOf_lt_of_mem hn
      have := sizeOf_site_pos site
      simp only [sizeOf_ofName, expr.sizeOf_spec, Expr.function.sizeOf_spec]
      omega
    · obtain ⟨s, hs, rfl⟩ := List.mem_map.1 h
      have := sizeOf_stmt_lt_of_mem hs
      simp only [expr.sizeOf_spec, Expr.function.sizeOf_spec]
      omega
  | unary | member =>
    simp only [children, List.mem_singleton] at h
    subst h
    simp only [expr.sizeOf_spec, Expr.unary.sizeOf_spec, Expr.member.sizeOf_spec]
    omega
  | binary | logical | index =>
    simp only [children, List.mem_cons, List.not_mem_nil, or_false] at h
    rcases h with rfl | rfl
    all_goals
      simp only [expr.sizeOf_spec, Expr.binary.sizeOf_spec, Expr.logical.sizeOf_spec,
        Expr.index.sizeOf_spec]
      omega
  | assign site target value =>
    simp only [children, List.mem_cons, List.not_mem_nil, or_false] at h
    have := sizeOf_site_pos site
    rcases h with rfl | rfl
    · simp only [sizeOf_ofName, expr.sizeOf_spec, Expr.assign.sizeOf_spec]
      omega
    · simp only [expr.sizeOf_spec, Expr.assign.sizeOf_spec]
      omega
  | call _ callee args =>
    rcases List.mem_cons.1 h with rfl | h
    · simp only [expr.sizeOf_spec, Expr.call.sizeOf_spec]
      omega
    · obtain ⟨e, he, rfl⟩ := List.mem_map.1 h
      have := sizeOf_expr_lt_of_mem he
      simp only [expr.sizeOf_spec, Expr.call.sizeOf_spec] at this ⊢
      omega

private theorem sizeOf_lt_of_mem_children_stmt {s : Stmt} {c : Node}
    (h : c ∈ (stmt s).children) : sizeOf c < sizeOf (stmt s) := by
  cases s with
  | declare site name init =>
    have := sizeOf_site_pos site
    rcases List.mem_cons.1 h with rfl | h
    · simp only [sizeOf_ofName, stmt.sizeOf_spec, Stmt.declare.sizeOf_spec]
      omega
    · cases init <;> simp at h
      subst h
      simp only [expr.sizeOf_spec, stmt.sizeOf_spec, Stmt.declare.sizeOf_spec,
        Option.some.sizeOf_spec]
      omega
  | evaluate =>
    simp only [children, List.mem_singleton] at h
    subst h
    simp only [expr.sizeOf_spec, stmt.sizeOf_spec, Stmt.evaluate.sizeOf_spec]
    omega
  | block _ body =>
    obtain ⟨s, hs, rfl⟩ := List.mem_map.1 h
    have := sizeOf_stmt_lt_of_mem hs
    simp only [stmt.sizeOf_spec, Stmt.block.sizeOf_spec] at this ⊢
    omega
  | labeled site label body =>
    have := sizeOf_site_pos site
    simp only [children, List.mem_cons, List.not_mem_nil, or_false] at h
    rcases h with rfl | rfl
    · simp only [sizeOf_ofName, stmt.sizeOf_spec, Stmt.labeled.sizeOf_spec]
      omega
    · simp only [stmt.sizeOf_spec, Stmt.labeled.sizeOf_spec]
      omega
  | branch _ condition thenBranch elseBranch =>
    simp only [children, List.mem_cons] at h
    rcases h with rfl | rfl | h
    · simp only [expr.sizeOf_spec, stmt.sizeOf_spec, Stmt.branch.sizeOf_spec]
      omega
    · simp only [stmt.sizeOf_spec, Stmt.branch.sizeOf_spec]
      omega
    · cases elseBranch <;> simp at h
      subst h
      simp only [stmt.sizeOf_spec, Stmt.branch.sizeOf_spec, Option.some.sizeOf_spec]
      omega
  | loop =>
    simp only [children, List.mem_cons, List.not_mem_nil, or_false] at h
    rcases h with rfl | rfl
    all_goals
      simp only [expr.sizeOf_spec, stmt.sizeOf_spec, Stmt.loop.sizeOf_spec]
      omega
  | breakTo site label | continueTo site label =>
    have := sizeOf_site_pos site
    cases label <;> simp [children] at h
    subst h
    simp [sizeOf_ofName]
    omega
  | returnWith _ value =>
    cases value <;> simp [children] at h
    subst h
    simp only [expr.sizeOf_spec, stmt.sizeOf_spec, Stmt.returnWith.sizeOf_spec,
      Option.some.sizeOf_spec]
    omega

/-- Every node directly inside a node is smaller than it. -/
theorem sizeOf_lt_of_mem_children {n c : Node} (h : c ∈ n.children) : sizeOf c < sizeOf n := by
  cases n with
  | expr e => exact sizeOf_lt_of_mem_children_expr h
  | stmt s => exact sizeOf_lt_of_mem_children_stmt h

/-- The node and all nodes inside it in front of `rest`, every node before the nodes inside it. -/
def preorderOnto (n : Node) (rest : List Node) : List Node :=
  n :: n.children.attach.foldr (fun c rest => c.1.preorderOnto rest) rest
termination_by sizeOf n
decreasing_by exact sizeOf_lt_of_mem_children c.2

/-- The node and all nodes inside it in front of `rest`, every node after the nodes inside it. -/
def postorderOnto (n : Node) (rest : List Node) : List Node :=
  n.children.attach.foldr (fun c rest => c.1.postorderOnto rest) (n :: rest)
termination_by sizeOf n
decreasing_by exact sizeOf_lt_of_mem_children c.2

theorem preorderOnto_eq (n : Node) (rest : List Node) :
    n.preorderOnto rest = n :: n.children.foldr preorderOnto rest := by
  rw [preorderOnto, List.foldr_attach]

theorem postorderOnto_eq (n : Node) (rest : List Node) :
    n.postorderOnto rest = n.children.foldr postorderOnto (n :: rest) := by
  rw [postorderOnto, List.foldr_attach]

/-- The nodes in the order of the text, every node before the nodes inside it. -/
def preorder (roots : List Node) : List Node :=
  roots.foldr preorderOnto []

/-- The nodes in the order in which they end, every node after the nodes inside it. -/
def postorder (roots : List Node) : List Node :=
  roots.foldr postorderOnto []

/-- The node and the nodes inside it around an offset, outermost first. Of the nodes directly inside
a node the first one around the offset is taken. -/
def pathInside (offset : Nat) (n : Node) : List Node :=
  n :: match n.children.attach.find? (·.1.span.contains offset) with
    | some c => c.1.pathInside offset
    | none => []
termination_by sizeOf n
decreasing_by exact sizeOf_lt_of_mem_children c.2

end Node

end LWorkbench
