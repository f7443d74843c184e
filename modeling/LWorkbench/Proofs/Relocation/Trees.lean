import LWorkbench.Proofs.Numbering

/-!
# Moving trees

The same words can stand at other places of another text. Then the tree that is read from them has
other spans, and nothing else changes: every node keeps its number, its kind and the nodes inside
it. A relocation says where words that begin at an offset begin in the other text, and where words
that end at an offset end. A span may run over many words, so its two ends move apart from each
other.

## Main definitions

* `Relocation` — where words begin and end in another text
* `Expr.relocate`, `Stmt.relocate`, `Node.relocate` — trees with their spans moved
* `Program.relocate` — a program with the spans of its nodes moved

## Main results

* `Node.children_relocate` — the nodes inside a node move with it
* `Program.ofBody_relocate` — the index of moved statements lists the moved nodes
* `Program.nodes_inside_relocate`, `Program.labelsLoop_relocate` — what the index says stays the same
-/

namespace LWorkbench

/-- Where words begin and end in another text. -/
structure Relocation where
  start : (offset : Nat) → Nat
  stop : (offset : Nat) → Nat

variable {r : Relocation}

/-! ### Trees -/

/-- Moves the ends of a span. -/
def Span.relocate (r : Relocation) (span : Span) : Span :=
  ⟨r.start span.start, r.stop span.stop⟩

/-- Moves a word. -/
def Lexeme.relocate (r : Relocation) (l : Lexeme) : Lexeme :=
  { l with span := l.span.relocate r }

/-- Moves the span of a node, which keeps its number. -/
def Site.relocate (r : Relocation) (site : Site) : Site :=
  { site with span := site.span.relocate r }

/-- Moves a name. -/
def Name.relocate (r : Relocation) (n : Name) : Name :=
  { n with site := n.site.relocate r }

mutual

/-- Moves an expression and all nodes inside it. -/
@[simp] def Expr.relocate (r : Relocation) : Expr → Expr
  | .literal site value => .literal (site.relocate r) value
  | .name n => .name (n.relocate r)
  | .array site items => .array (site.relocate r) (Expr.relocateAll r items)
  | .tuple site items => .tuple (site.relocate r) (Expr.relocateAll r items)
  | .object site properties => .object (site.relocate r) (Expr.relocateValues r properties)
  | .function site params body =>
    .function (site.relocate r) (params.map (·.relocate r)) (Stmt.relocateAll r body)
  | .unary site op operand => .unary (site.relocate r) op (operand.relocate r)
  | .binary site op left right => .binary (site.relocate r) op (left.relocate r) (right.relocate r)
  | .logical site op left right =>
    .logical (site.relocate r) op (left.relocate r) (right.relocate r)
  | .assign site target value => .assign (site.relocate r) (target.relocate r) (value.relocate r)
  | .call site callee args => .call (site.relocate r) (callee.relocate r) (Expr.relocateAll r args)
  | .member site object property => .member (site.relocate r) (object.relocate r) property
  | .index site object index => .index (site.relocate r) (object.relocate r) (index.relocate r)

/-- Moves several expressions. -/
@[simp] def Expr.relocateAll (r : Relocation) : List Expr → List Expr
  | [] => []
  | e :: es => e.relocate r :: Expr.relocateAll r es

/-- Moves the values of an object. -/
@[simp] def Expr.relocateValues (r : Relocation) : List (String × Expr) → List (String × Expr)
  | [] => []
  | (key, e) :: properties => (key, e.relocate r) :: Expr.relocateValues r properties

/-- Moves a statement and all nodes inside it. -/
@[simp] def Stmt.relocate (r : Relocation) : Stmt → Stmt
  | .declare site name none => .declare (site.relocate r) (name.relocate r) none
  | .declare site name (some init) =>
    .declare (site.relocate r) (name.relocate r) (some (init.relocate r))
  | .evaluate site e => .evaluate (site.relocate r) (e.relocate r)
  | .block site body => .block (site.relocate r) (Stmt.relocateAll r body)
  | .labeled site label body => .labeled (site.relocate r) (label.relocate r) (body.relocate r)
  | .branch site condition thenBranch none =>
    .branch (site.relocate r) (condition.relocate r) (thenBranch.relocate r) none
  | .branch site condition thenBranch (some elseBranch) =>
    .branch (site.relocate r) (condition.relocate r) (thenBranch.relocate r)
      (some (elseBranch.relocate r))
  | .loop site condition body => .loop (site.relocate r) (condition.relocate r) (body.relocate r)
  | .breakTo site label => .breakTo (site.relocate r) (label.map (·.relocate r))
  | .continueTo site label => .continueTo (site.relocate r) (label.map (·.relocate r))
  | .returnWith site none => .returnWith (site.relocate r) none
  | .returnWith site (some value) => .returnWith (site.relocate r) (some (value.relocate r))

/-- Moves several statements. -/
@[simp] def Stmt.relocateAll (r : Relocation) : List Stmt → List Stmt
  | [] => []
  | s :: ss => s.relocate r :: Stmt.relocateAll r ss

end

/-- Moves a node and all nodes inside it. -/
def Node.relocate (r : Relocation) : Node → Node
  | .expr e => .expr (e.relocate r)
  | .stmt s => .stmt (s.relocate r)

/-- Moves the nodes of a program, which keep their places in the index. -/
def Program.relocate (r : Relocation) (p : Program) : Program where
  body := p.body.map (·.relocate r)
  nodes := p.nodes.map (·.relocate r)
  parents := p.parents

@[simp] theorem Name.identifier_relocate (n : Name) : (n.relocate r).identifier = n.identifier :=
  rfl

@[simp] theorem Expr.relocateAll_eq (es : List Expr) :
    Expr.relocateAll r es = es.map (·.relocate r) := by
  induction es with
  | nil => rfl
  | cons e es ih => rw [relocateAll, ih, List.map_cons]

@[simp] theorem Expr.relocateValues_eq (properties : List (String × Expr)) :
    Expr.relocateValues r properties = properties.map fun p => (p.1, p.2.relocate r) := by
  induction properties with
  | nil => rfl
  | cons p properties ih => rw [relocateValues, ih, List.map_cons]

@[simp] theorem Stmt.relocateAll_eq (ss : List Stmt) :
    Stmt.relocateAll r ss = ss.map (·.relocate r) := by
  induction ss with
  | nil => rfl
  | cons s ss ih => rw [relocateAll, ih, List.map_cons]

@[simp] theorem Expr.site_relocate (e : Expr) : (e.relocate r).site = e.site.relocate r := by
  cases e <;> rfl

namespace Stmt

@[simp] theorem relocate_declare (site : Site) (name : Name) (init : Option Expr) :
    (declare site name init).relocate r =
      declare (site.relocate r) (name.relocate r) (init.map (·.relocate r)) := by
  cases init <;> rfl

@[simp] theorem relocate_branch (site : Site) (condition : Expr) (thenBranch : Stmt)
    (elseBranch : Option Stmt) :
    (branch site condition thenBranch elseBranch).relocate r =
      branch (site.relocate r) (condition.relocate r) (thenBranch.relocate r)
        (elseBranch.map (·.relocate r)) := by
  cases elseBranch <;> rfl

@[simp] theorem relocate_returnWith (site : Site) (value : Option Expr) :
    (returnWith site value).relocate r =
      returnWith (site.relocate r) (value.map (·.relocate r)) := by
  cases value <;> rfl

@[simp] theorem site_relocate (s : Stmt) : (s.relocate r).site = s.site.relocate r := by
  cases s <;> simp [relocate, site]

/-- A statement keeps its number. -/
theorem id_relocate (s : Stmt) : (s.relocate r).id = s.id := by
  rw [id, site_relocate]
  rfl

@[simp] theorem isLoop_relocate (s : Stmt) : (s.relocate r).isLoop = s.isLoop := by
  fun_induction isLoop s with
  | case1 => rfl
  | case2 site label body ih => exact ih
  | case3 s hloop hlabeled =>
    cases s with
    | loop => exact absurd rfl (hloop _ _ _)
    | labeled => exact absurd rfl (hlabeled _ _ _)
    | _ => simp [relocate, isLoop]

theorem isOpen_relocate (s : Stmt) : (s.relocate r).isOpen = s.isOpen := by
  fun_induction isOpen s with
  | case1 => rfl
  | case2 site condition thenBranch s ih => exact ih
  | case3 site condition s ih => exact ih
  | case4 site label s ih => exact ih
  | case5 s hbranch helse hloop hlabeled =>
    cases s with
    | branch _ _ _ elseBranch =>
      cases elseBranch with
      | none => exact absurd rfl (hbranch _ _ _)
      | some => exact absurd rfl (helse _ _ _ _)
    | loop => exact absurd rfl (hloop _ _ _)
    | labeled => exact absurd rfl (hlabeled _ _ _)
    | _ => simp [relocate, isOpen]

end Stmt

namespace Node

@[simp] theorem relocate_expr (e : Expr) : (expr e).relocate r = expr (e.relocate r) := rfl

@[simp] theorem relocate_stmt (s : Stmt) : (stmt s).relocate r = stmt (s.relocate r) := rfl

theorem relocate_ofName (n : Name) : (ofName n).relocate r = ofName (n.relocate r) := rfl

@[simp] theorem site_relocate (n : Node) : (n.relocate r).site = n.site.relocate r := by
  cases n with
  | expr e => exact e.site_relocate
  | stmt s => exact s.site_relocate

/-- A node keeps its number. -/
theorem id_relocate (n : Node) : (n.relocate r).id = n.id := by
  rw [id, site_relocate]
  rfl

theorem span_relocate (n : Node) : (n.relocate r).span = n.span.relocate r := by
  rw [span, site_relocate]
  rfl

/-- The nodes inside a node move with it. -/
theorem children_relocate (n : Node) :
    (n.relocate r).children = n.children.map (·.relocate r) := by
  cases n with
  | expr e => cases e <;> simp [Expr.relocate, children, relocate_ofName, Function.comp_def]
  | stmt s =>
    cases s <;>
      simp [Stmt.relocate, children, relocate_ofName, Function.comp_def, Option.toList_map]

/-- Moved trees end in the same order. -/
theorem postorder_relocate (ns : List Node) :
    postorder (ns.map (·.relocate r)) = (postorder ns).map (·.relocate r) := by
  induction ns using forest_induction with
  | nil => rfl
  | cons n ns ihchildren ih =>
    rw [List.map_cons, postorder_cons, postorder_cons, children_relocate, ihchildren, ih,
      List.map_append, List.map_cons]

end Node

/-! ### Programs -/

namespace Program

theorem roots_relocate (body : List Stmt) :
    roots (body.map (·.relocate r)) = (roots body).map (·.relocate r) := by
  rw [roots, roots, List.map_map, List.map_map]
  rfl

theorem enterParent_relocate (parents : Array (Option NodeId)) (n : Node) :
    enterParent parents (n.relocate r) = enterParent parents n := by
  rw [enterParent, enterParent, Node.children_relocate, List.foldl_map]
  simp only [Node.id_relocate]

/-- The index of moved statements lists the moved nodes. -/
theorem ofBody_relocate (body : List Stmt) :
    ofBody (body.map (·.relocate r)) = (ofBody body).relocate r := by
  have hnodes : Node.postorder (roots (body.map (·.relocate r))) =
      (Node.postorder (roots body)).map (·.relocate r) := by
    rw [roots_relocate, Node.postorder_relocate]
  simp only [ofBody, relocate, hnodes, List.length_map, List.foldl_map, enterParent_relocate,
    List.map_toArray]

theorem node?_relocate (p : Program) (id : NodeId) :
    (p.relocate r).node? id = (p.node? id).map (·.relocate r) :=
  Array.getElem?_map

/-- The top statements keep their numbers. -/
theorem ids_body_relocate (p : Program) :
    (p.relocate r).body.map Stmt.id = p.body.map Stmt.id := by
  simp [relocate, Function.comp_def, Stmt.id_relocate]

/-- The nodes around a node stay the same. -/
theorem parent?_relocate (p : Program) (id : NodeId) : (p.relocate r).parent? id = p.parent? id :=
  rfl

/-- The nodes inside a node stay the same. -/
theorem nodes_inside_relocate (p : Program) (id : NodeId) :
    (p.relocate r).children id = p.children id := by
  rw [children, children, node?_relocate]
  cases p.node? id with
  | none => rfl
  | some n => simp [Node.children_relocate, Function.comp_def, Node.id_relocate]

theorem labelsLoop_relocate (p : Program) (label : NodeId) :
    (p.relocate r).labelsLoop label = p.labelsLoop label := by
  have hparent : (p.relocate r).parentNode? label =
      (p.parentNode? label).map (·.relocate r) := by
    rw [parentNode?, parentNode?, parent?_relocate, Option.map_bind]
    congr
    funext id
    exact node?_relocate p id
  rw [labelsLoop, labelsLoop, hparent]
  cases p.parentNode? label with
  | none => rfl
  | some n =>
    cases n with
    | expr => rfl
    | stmt s => exact s.isLoop_relocate

end Program

end LWorkbench
