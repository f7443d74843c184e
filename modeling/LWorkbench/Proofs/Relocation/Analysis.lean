import LWorkbench.Analysis
import LWorkbench.Proofs.Relocation.Trees

/-!
# Analysis of moved programs

Analysis writes notes for numbers of nodes, and what it writes depends on identifiers, on numbers
and on the shape of trees. It never asks where a node stands in the text. So a moved program gets
the same notes and the same scopes, item by item.

## Main definitions

* `Work.relocate` — an item of pending work with its trees moved

## Main results

* `Analysis.perform_relocate` — a moved item changes the same and calls for the same items, moved
* `Analysis.drain_relocate` — so do all items
* `Program.annotateFrom_relocate` — moved programs get the same notes and scopes
-/

namespace LWorkbench

variable {r : Relocation}

/-- Moves the trees that an item of work is about. -/
def Work.relocate (r : Relocation) : Work → Work
  | stmt s env => stmt (s.relocate r) env
  | expr e env => expr (e.relocate r) env
  | declare n env => declare (n.relocate r) env
  | reference n env => reference (n.relocate r) env
  | leaveLoop => leaveLoop
  | leaveFunction loopDepth functionBase => leaveFunction loopDepth functionBase

namespace Analysis

theorem exprs_relocate (es : List Expr) (env : Environment) :
    exprs (es.map (·.relocate r)) env = (exprs es env).map (·.relocate r) := by
  simp only [exprs, List.map_map]
  rfl

theorem stmts_relocate (ss : List Stmt) (env : Environment) :
    stmts (ss.map (·.relocate r)) env = (stmts ss env).map (·.relocate r) := by
  simp only [stmts, List.map_map]
  rfl

theorem continueLabel_relocate (p : Program) (a : Analysis) (n : Name) (env : Environment) :
    a.continueLabel (p.relocate r) (n.relocate r) env = a.continueLabel p n env := by
  simp only [continueLabel, Program.labelsLoop_relocate]
  rfl

/-- A moved statement changes the same and calls for the same items, moved. -/
theorem performStmt_relocate (p : Program) (a : Analysis) (env : Environment) (s : Stmt) :
    a.performStmt (p.relocate r) env (s.relocate r) =
      ((a.performStmt p env s).1, (a.performStmt p env s).2.map (·.relocate r)) := by
  cases s with
  | declare _ name init =>
    rw [Stmt.relocate_declare, performStmt, performStmt, Option.toList_map, exprs_relocate,
      List.map_append]
    rfl
  | evaluate => rfl
  | block _ body => simp only [Stmt.relocate, performStmt, Stmt.relocateAll_eq, stmts_relocate]
  | labeled => rfl
  | branch _ condition thenBranch elseBranch =>
    rw [Stmt.relocate_branch, performStmt, performStmt, Option.toList_map, stmts_relocate]
    rfl
  | loop => rfl
  | breakTo _ label => cases label <;> rfl
  | continueTo _ label =>
    cases label with
    | none => rfl
    | some label => exact congrArg (·, []) (continueLabel_relocate p a label env)
  | returnWith _ value =>
    rw [Stmt.relocate_returnWith, performStmt, performStmt, Option.toList_map, exprs_relocate]
    rfl

/-- A moved expression changes the same and calls for the same items, moved. -/
theorem performExpr_relocate (a : Analysis) (env : Environment) (e : Expr) :
    a.performExpr env (e.relocate r) =
      ((a.performExpr env e).1, (a.performExpr env e).2.map (·.relocate r)) := by
  cases e with
  | array _ items | tuple _ items =>
    simp only [Expr.relocate, performExpr, Expr.relocateAll_eq, exprs_relocate]
  | object _ properties =>
    have hvalues : (Expr.relocateValues r properties).map (·.2) =
        (properties.map (·.2)).map (·.relocate r) := by
      rw [Expr.relocateValues_eq, List.map_map, List.map_map]
      rfl
    rw [Expr.relocate, performExpr, performExpr, hvalues, exprs_relocate]
  | function _ params body =>
    simp only [Expr.relocate, performExpr, Stmt.relocateAll_eq, stmts_relocate, List.foldl_map,
      List.map_append]
    rfl
  | call _ callee args =>
    rw [Expr.relocate, performExpr, performExpr, Expr.relocateAll_eq, exprs_relocate]
    rfl
  | _ => rfl

/-- A moved item changes the same and calls for the same items, moved. -/
theorem perform_relocate (p : Program) (a : Analysis) (item : Work) :
    a.perform (p.relocate r) (item.relocate r) =
      ((a.perform p item).1, (a.perform p item).2.map (·.relocate r)) := by
  cases item with
  | stmt s env => exact performStmt_relocate p a env s
  | expr e env => exact performExpr_relocate a env e
  | _ => rfl

/-- Moved items come to the same. -/
theorem drain_relocate (p : Program) (a : Analysis) (items : List Work) :
    a.drain (p.relocate r) (items.map (·.relocate r)) = a.drain p items := by
  fun_induction drain p a items with
  | case1 a => rw [List.map_nil, drain]
  | case2 a item items ih => rw [List.map_cons, drain, perform_relocate, ← List.map_append, ih]

end Analysis

/-- Moved programs get the same notes and scopes. -/
theorem Program.annotateFrom_relocate (p : Program) (notes : Array Note) (store : Store NodeId)
    (env : Environment) :
    (p.relocate r).annotateFrom notes store env =
      { p.annotateFrom notes store env with program := p.relocate r } := by
  have hbody : Analysis.stmts (p.relocate r).body env =
      (Analysis.stmts p.body env).map (·.relocate r) := Analysis.stmts_relocate p.body env
  simp only [annotateFrom, hbody, Analysis.drain_relocate]

theorem Program.annotate_relocate (p : Program) :
    (p.relocate r).annotate = { p.annotate with program := p.relocate r } := by
  have hblank : (p.relocate r).blankNotes = p.blankNotes := by
    rw [blankNotes, blankNotes, size, size, relocate, Array.size_map]
  rw [annotate, hblank]
  exact p.annotateFrom_relocate ..

end LWorkbench
