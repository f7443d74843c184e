import LWorkbench.Program
import LWorkbench.Scope.Environment

/-!
# Analysis

Analysis goes through a program once, in the order in which names come into force, and writes a
note for every node: the chain of scopes in force at a name, the binding that a reference already
has, and the rule of the language that a node breaks. It never stops early, and of several
violations at one node the first counts.

The walk keeps a stack of pending work. A variable is declared after its initial value has been
walked, and the target of an assignment is looked up after the value. Leaving a loop or a function
is an item of its own, which puts the counts back that entering changed.

## Main definitions

* `Violation` — the rules that a program can break, with their wording
* `Note` — what analysis says about one node
* `Work` — one pending item; `Work.weight` bounds how much work it stands for
* `Analysis` — notes, scopes and the counts of enclosing loops and functions
* `Analysis.perform` — doing one item, which may call for further items
* `Analysis.drain` — doing all items
* `Program.annotate` — the notes of a program on its own

## Main results

* `Analysis.weight_perform_lt` — the items that an item calls for weigh less than it, so the walk
  ends
-/

namespace LWorkbench

/-- A rule of the language that a program breaks. -/
inductive Violation where
  | duplicateDeclaration (name : String)
  | duplicateParameter (name : String)
  | duplicateLabel (name : String)
  | illegalBreak
  | illegalContinue
  | illegalReturn
  | undefinedLabel (name : String)
  | notALoop (name : String)
  deriving DecidableEq, Repr

/-- The wording of a violation. -/
def Violation.message : Violation → String
  | duplicateDeclaration name => s!"Duplicate declaration '{name}'"
  | duplicateParameter name => s!"Duplicate parameter '{name}'"
  | duplicateLabel name => s!"Duplicate label '{name}'"
  | illegalBreak => "Illegal break statement"
  | illegalContinue => "Illegal continue statement"
  | illegalReturn => "Illegal return statement"
  | undefinedLabel name => s!"Undefined label '{name}'"
  | notALoop name =>
    s!"Illegal continue statement: '{name}' does not denote an iteration statement"

/-- What analysis says about one node. Only names have a chain and a definition. Notes are kept in a
table, at the numbers of their nodes, and not in the tree. -/
structure Note where
  violation : Option Violation := none
  environment : Option Environment := none
  definition : Option NodeId := none
  deriving DecidableEq, Repr, Inhabited

/-- One item of pending work. -/
inductive Work where
  /-- Walk a statement. -/
  | stmt (s : Stmt) (env : Environment)
  /-- Walk an expression. -/
  | expr (e : Expr) (env : Environment)
  /-- Declare a variable whose initial value has been walked. -/
  | declare (n : Name) (env : Environment)
  /-- Look up the target of an assignment whose value has been walked. -/
  | reference (n : Name) (env : Environment)
  /-- Leave a loop. -/
  | leaveLoop
  /-- Leave a function, back to the counts around it. -/
  | leaveFunction (loopDepth functionBase : Nat)

/-- Bounds the work that an item stands for. -/
noncomputable def Work.weight : Work → Nat
  | stmt s _ => sizeOf s
  | expr e _ => sizeOf e
  | _ => 1

/-- Bounds the work that several items stand for. -/
noncomputable def Work.weights : List Work → Nat
  | [] => 0
  | item :: items => item.weight + weights items

/-- Notes, scopes, and what encloses the item at hand: how many loops inside the innermost function,
how many functions, and how long the chain is at the innermost function. -/
structure Analysis where
  notes : Array Note
  store : Store NodeId
  loopDepth : Nat
  functionDepth : Nat
  functionBase : Nat

namespace Analysis

/-- Marks a node as breaking a rule, unless it is marked already. -/
def report (a : Analysis) (id : NodeId) (v : Violation) : Analysis :=
  { a with notes := a.notes.modify id fun note =>
      { note with violation := note.violation.or (some v) } }

/-- Writes the chain and the definition of a name. -/
def note (a : Analysis) (n : Name) (env : Environment) (definition : Option NodeId) : Analysis :=
  { a with notes := a.notes.modify n.id fun note =>
      { note with environment := some env, definition } }

/-- Binds a name in the nearest scope of its kind, where it must not be bound yet. -/
def bind (a : Analysis) (n : Name) (env : Environment) (duplicate : String → Violation) :
    Analysis :=
  let a := a.note n env none
  match a.store.nearest? env n.kind with
  | none => a
  | some scope =>
    if (a.store.scope scope).contains n.identifier then a.report n.id (duplicate n.identifier)
    else { a with store := a.store.declareIn scope n.identifier n.id }

/-- The binding that a reference has now. -/
def definition? (a : Analysis) (n : Name) (env : Environment) : Option NodeId :=
  a.store.lookupKind? env n.identifier n.kind

/-- Writes the note of a reference. -/
def refer (a : Analysis) (n : Name) (env : Environment) : Analysis :=
  a.note n env (a.definition? n env)

/-- The binding of a label that a jump may name: one that lies inside the innermost function. -/
def reachableLabel? (a : Analysis) (n : Name) (env : Environment) : Option NodeId :=
  match a.store.resolveKind? env n.identifier .label with
  | some found =>
    if found.depth < env.size - a.functionBase + 1 then a.definition? n env else none
  | none => none

/-- Writes the note of the label of a jump. -/
def referLabel (a : Analysis) (n : Name) (env : Environment) : Analysis :=
  match a.reachableLabel? n env with
  | some definition => a.note n env (some definition)
  | none => (a.note n env none).report n.id (.undefinedLabel n.identifier)

/-- Walks the label of a `continue`, which has to label a loop. -/
def continueLabel (p : Program) (a : Analysis) (n : Name) (env : Environment) : Analysis :=
  let checked := a.referLabel n env
  match a.reachableLabel? n env with
  | some definition =>
    if p.labelsLoop definition then checked else checked.report n.id (.notALoop n.identifier)
  | none => checked

/-- Items that walk expressions from left to right. -/
def exprs (items : List Expr) (env : Environment) : List Work := items.map (Work.expr · env)

/-- Items that walk statements from first to last. -/
def stmts (items : List Stmt) (env : Environment) : List Work := items.map (Work.stmt · env)

/-- Walks a statement: the change at once, and the items it calls for. -/
def performStmt (p : Program) (a : Analysis) (env : Environment) : Stmt → Analysis × List Work
  | .declare _ name init => (a, exprs init.toList env ++ [.declare name env])
  | .evaluate _ e => (a, [.expr e env])
  | .block _ body =>
    let (inner, store) := a.store.extend env .variable
    ({ a with store }, stmts body inner)
  | .labeled _ label body =>
    let (inner, store) := a.store.extend env .label
    ({ a with store }.bind label inner .duplicateLabel, [.stmt body inner])
  | .branch _ condition thenBranch elseBranch =>
    (a, .expr condition env :: .stmt thenBranch env :: stmts elseBranch.toList env)
  | .loop _ condition body =>
    ({ a with loopDepth := a.loopDepth + 1 },
      [.expr condition env, .stmt body env, .leaveLoop])
  | .breakTo site none => (if a.loopDepth = 0 then a.report site.id .illegalBreak else a, [])
  | .breakTo _ (some label) => (a.referLabel label env, [])
  | .continueTo site none => (if a.loopDepth = 0 then a.report site.id .illegalContinue else a, [])
  | .continueTo _ (some label) => (a.continueLabel p label env, [])
  | .returnWith site value =>
    (if a.functionDepth = 0 then a.report site.id .illegalReturn else a, exprs value.toList env)

/-- Walks an expression: the change at once, and the items it calls for. -/
def performExpr (a : Analysis) (env : Environment) : Expr → Analysis × List Work
  | .literal .. => (a, [])
  | .name n => (a.refer n env, [])
  | .array _ items => (a, exprs items env)
  | .tuple _ items => (a, exprs items env)
  | .object _ properties => (a, exprs (properties.map (·.2)) env)
  | .function _ params body =>
    let (inner, store) := a.store.extend env .variable
    let a' := params.foldl (fun a param => a.bind param inner .duplicateParameter) { a with store }
    ({ a' with
        loopDepth := 0
        functionDepth := a.functionDepth + 1
        functionBase := inner.size },
      stmts body inner ++ [.leaveFunction a.loopDepth a.functionBase])
  | .unary _ _ operand => (a, [.expr operand env])
  | .binary _ _ left right => (a, [.expr left env, .expr right env])
  | .logical _ _ left right => (a, [.expr left env, .expr right env])
  | .assign _ target value => (a, [.expr value env, .reference target env])
  | .call _ callee args => (a, .expr callee env :: exprs args env)
  | .member _ object _ => (a, [.expr object env])
  | .index _ object index => (a, [.expr object env, .expr index env])

/-- Does one item: the change at once, and the items it calls for. -/
def perform (p : Program) (a : Analysis) : Work → Analysis × List Work
  | .stmt s env => a.performStmt p env s
  | .expr e env => a.performExpr env e
  | .declare n env => (a.bind n env .duplicateDeclaration, [])
  | .reference n env => (a.refer n env, [])
  | .leaveLoop => ({ a with loopDepth := a.loopDepth - 1 }, [])
  | .leaveFunction loopDepth functionBase =>
    ({ a with loopDepth, functionBase, functionDepth := a.functionDepth - 1 }, [])

@[simp] theorem weights_nil : Work.weights [] = 0 := rfl

theorem weights_append (xs ys : List Work) :
    Work.weights (xs ++ ys) = Work.weights xs + Work.weights ys := by
  induction xs with
  | nil => simp
  | cons x xs ih =>
    simp only [List.cons_append, Work.weights, ih]
    omega

theorem weights_cons (x : Work) (xs : List Work) :
    Work.weights (x :: xs) = x.weight + Work.weights xs := rfl

theorem weights_exprs_lt (items : List Expr) (env : Environment) :
    Work.weights (exprs items env) < sizeOf items := by
  induction items with
  | nil => simp [exprs]
  | cons e items ih =>
    simp only [exprs, Work.weights, List.map_cons, Work.weight] at ih ⊢
    simp only [List.cons.sizeOf_spec]
    omega

theorem weights_stmts_lt (items : List Stmt) (env : Environment) :
    Work.weights (stmts items env) < sizeOf items := by
  induction items with
  | nil => simp [stmts]
  | cons s items ih =>
    simp only [stmts, Work.weights, List.map_cons, Work.weight] at ih ⊢
    simp only [List.cons.sizeOf_spec]
    omega

theorem weights_exprs_toList_lt (item : Option Expr) (env : Environment) :
    Work.weights (exprs item.toList env) < sizeOf item := by
  cases item <;> simp [exprs, Work.weights, Work.weight]

theorem weights_stmts_toList_lt (item : Option Stmt) (env : Environment) :
    Work.weights (stmts item.toList env) < sizeOf item := by
  cases item <;> simp [stmts, Work.weights, Work.weight]

theorem weights_values_lt (properties : List (String × Expr)) (env : Environment) :
    Work.weights (exprs (properties.map (·.2)) env) < sizeOf properties := by
  induction properties with
  | nil => simp [exprs]
  | cons e properties ih =>
    obtain ⟨key, e⟩ := e
    simp only [exprs, Work.weights, List.map_cons, Work.weight] at ih ⊢
    simp only [List.cons.sizeOf_spec, Prod.mk.sizeOf_spec]
    omega

theorem weight_performStmt_lt (p : Program) (a : Analysis) (env : Environment) (s : Stmt) :
    Work.weights (a.performStmt p env s).2 < sizeOf s := by
  cases s with
  | declare site name init =>
    have := weights_exprs_toList_lt init env
    cases site
    simp only [performStmt, weights_append, weights_cons, weights_nil, Work.weight,
      Stmt.declare.sizeOf_spec, Site.mk.sizeOf_spec]
    omega
  | evaluate =>
    simp only [performStmt, weights_cons, weights_nil, Work.weight, Stmt.evaluate.sizeOf_spec]
    omega
  | block _ body =>
    have := weights_stmts_lt body (a.store.extend env .variable).1
    simp only [performStmt, Stmt.block.sizeOf_spec]
    omega
  | labeled =>
    simp only [performStmt, weights_cons, weights_nil, Work.weight, Stmt.labeled.sizeOf_spec]
    omega
  | branch _ condition thenBranch elseBranch =>
    have := weights_stmts_toList_lt elseBranch env
    simp only [performStmt, weights_cons, Work.weight, Stmt.branch.sizeOf_spec]
    omega
  | loop site =>
    cases site
    simp only [performStmt, weights_cons, weights_nil, Work.weight, Stmt.loop.sizeOf_spec,
      Site.mk.sizeOf_spec]
    omega
  | breakTo _ label =>
    cases label <;> simp only [performStmt, weights_nil, Stmt.breakTo.sizeOf_spec] <;> omega
  | continueTo _ label =>
    cases label <;> simp only [performStmt, weights_nil, Stmt.continueTo.sizeOf_spec] <;> omega
  | returnWith _ value =>
    have := weights_exprs_toList_lt value env
    simp only [performStmt, Stmt.returnWith.sizeOf_spec]
    omega

theorem weight_performExpr_lt (a : Analysis) (env : Environment) (e : Expr) :
    Work.weights (a.performExpr env e).2 < sizeOf e := by
  cases e with
  | literal | name =>
    simp only [performExpr, weights_nil, Expr.literal.sizeOf_spec, Expr.name.sizeOf_spec]
    omega
  | array _ items | tuple _ items =>
    have := weights_exprs_lt items env
    simp only [performExpr, Expr.array.sizeOf_spec, Expr.tuple.sizeOf_spec]
    omega
  | object _ properties =>
    have := weights_values_lt properties env
    simp only [performExpr, Expr.object.sizeOf_spec]
    omega
  | function site params body =>
    have := weights_stmts_lt body (a.store.extend env .variable).1
    cases site
    simp only [performExpr, weights_append, weights_cons, weights_nil, Work.weight,
      Expr.function.sizeOf_spec, Site.mk.sizeOf_spec]
    omega
  | unary | binary | logical | member | index =>
    simp only [performExpr, weights_cons, weights_nil, Work.weight, Expr.unary.sizeOf_spec,
      Expr.binary.sizeOf_spec, Expr.logical.sizeOf_spec, Expr.member.sizeOf_spec,
      Expr.index.sizeOf_spec]
    omega
  | assign site =>
    cases site
    simp only [performExpr, weights_cons, weights_nil, Work.weight, Expr.assign.sizeOf_spec,
      Site.mk.sizeOf_spec]
    omega
  | call _ callee args =>
    have := weights_exprs_lt args env
    simp only [performExpr, weights_cons, Work.weight, Expr.call.sizeOf_spec]
    omega

/-- The items that an item calls for weigh less than the item. -/
theorem weight_perform_lt (p : Program) (a : Analysis) (item : Work) :
    Work.weights (a.perform p item).2 < item.weight := by
  cases item with
  | stmt s env => exact weight_performStmt_lt p a env s
  | expr e env => exact weight_performExpr_lt a env e
  | declare | reference | leaveLoop | leaveFunction => simp [perform, Work.weight]

/-- Does all items, the first one first, each with everything it calls for before the next. -/
def drain (p : Program) (a : Analysis) : List Work → Analysis
  | [] => a
  | item :: items => drain p (a.perform p item).1 ((a.perform p item).2 ++ items)
termination_by items => Work.weights items
decreasing_by
  have := weight_perform_lt p a item
  simp only [weights_append, weights_cons]
  omega

end Analysis

/-- A program with the notes of its nodes and the scopes that the notes speak of. -/
structure Annotated where
  program : Program
  notes : Array Note
  store : Store NodeId

namespace Program

/-- The notes of a program before analysis. -/
def blankNotes (p : Program) : Array Note := Array.replicate p.size {}

/-- Analyzes a program that already has notes, inside the given chain of scopes. -/
def annotateFrom (p : Program) (notes : Array Note) (store : Store NodeId) (env : Environment) :
    Annotated :=
  let a : Analysis :=
    { notes, store, loopDepth := 0, functionDepth := 0, functionBase := env.size }
  let a := a.drain p (Analysis.stmts p.body env)
  ⟨p, a.notes, a.store⟩

/-- Analyzes a program on its own. -/
def annotate (p : Program) : Annotated :=
  let (env, store) := Store.empty.root
  p.annotateFrom p.blankNotes store env

end Program

end LWorkbench
