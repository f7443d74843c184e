import LWorkbench.Tree.Node

/-!
# Programs

A program is the list of its top statements together with an index of its nodes. The number of a
node is its place in the index, because the parser numbers the nodes in the order in which they end.
The index answers which node has a number and inside which node another one stands; both are tables,
because the interpreter and the editor ask often.

## Main definitions

* `Program` — statements with their index
* `Program.ofBody` — the program of a list of statements
* `Program.node?`, `Program.parent?`, `Program.children` — nodes by number
* `Program.preorder` — all nodes in the order of the text
* `Program.path`, `Program.locate?` — the nodes around an offset, and the innermost of them
-/

namespace LWorkbench

/-- A list of statements with the index of its nodes by number. -/
structure Program where
  body : List Stmt
  nodes : Array Node
  parents : Array (Option NodeId)

namespace Program

/-- The top statements as nodes. -/
def roots (body : List Stmt) : List Node :=
  body.map .stmt

/-- Enters a node as the one around each of its children. -/
def enterParent (parents : Array (Option NodeId)) (n : Node) : Array (Option NodeId) :=
  n.children.foldl (fun parents c => parents.setIfInBounds c.id (some n.id)) parents

/-- The program of a list of statements. -/
def ofBody (body : List Stmt) : Program :=
  let nodes := Node.postorder (roots body)
  { body
    nodes := nodes.toArray
    parents := nodes.foldl enterParent (Array.replicate nodes.length none) }

/-- The program without statements. -/
def empty : Program := ofBody []

/-- The number of nodes. -/
def size (p : Program) : Nat := p.nodes.size

/-- The node with a number. -/
def node? (p : Program) (id : NodeId) : Option Node := p.nodes[id]?

/-- The number of the node directly around a node. -/
def parent? (p : Program) (id : NodeId) : Option NodeId := p.parents[id]?.join

/-- The node directly around a node. -/
def parentNode? (p : Program) (id : NodeId) : Option Node := (p.parent? id).bind p.node?

/-- The numbers of the nodes directly inside a node, in the order of the text. -/
def children (p : Program) (id : NodeId) : List NodeId :=
  ((p.node? id).map fun n => n.children.map Node.id).getD []

/-- The bytes a node was read from. -/
def span? (p : Program) (id : NodeId) : Option Span := (p.node? id).map Node.span

/-- The name with a number. -/
def name? (p : Program) (id : NodeId) : Option Name := (p.node? id).bind Node.name?

/-- All nodes in the order of the text, every node before the nodes inside it. -/
def preorder (p : Program) : List Node := Node.preorder (roots p.body)

/-- Whether the label bound at a node labels a loop, possibly through further labels. -/
def labelsLoop (p : Program) (label : NodeId) : Bool :=
  match p.parentNode? label with
  | some (.stmt s) => s.isLoop
  | _ => false

/-- The nodes around an offset, outermost first. -/
def path (p : Program) (offset : Nat) : List Node :=
  match (roots p.body).find? (·.span.contains offset) with
  | some n => n.pathInside offset
  | none => []

/-- The innermost node around an offset. -/
def locate? (p : Program) (offset : Nat) : Option Node := (p.path offset).getLast?

end Program

end LWorkbench
