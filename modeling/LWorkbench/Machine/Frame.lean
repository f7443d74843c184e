import LWorkbench.Value

/-!
# Frames and tasks

A frame is one activation: of the program as a whole or of a function that was called. What is
left to do in a frame is a list of tasks, the next one first, so that a run can pause before any
statement, also inside a called function. Values that tasks leave for later tasks lie on a stack,
the latest first.

Markers among the tasks bound loops and labeled statements. They do nothing by themselves; a jump
drops tasks up to the marker it looks for, and on the way puts back the scopes of the blocks it
leaves.

## Main definitions

* `Loop` — a loop as tasks refer to it, with the labels directly in front of it
* `Task` — one unit of work
* `Frame` — an activation
* `Frame.unwind` — dropping tasks up to a marker
* `pending` — bounds the work in front of the next statement
-/

namespace LWorkbench

/-- A loop with the labels that stand directly in front of it. -/
structure Loop where
  condition : Expr
  body : Stmt
  labels : List String

/-- One unit of work inside a frame. -/
inductive Task where
  /-- Run a statement, with the labels that stand directly in front of it. -/
  | exec (s : Stmt) (labels : List String)
  /-- Evaluate an expression onto the stack. -/
  | eval (e : Expr)
  /-- Drop a value. -/
  | discard
  /-- Declare a variable with the value on the stack. -/
  | declare (name : String)
  /-- Change a variable to the value on the stack, which stays there. -/
  | assign (name : String)
  /-- Leave a block: put the enclosing chain of scopes back. -/
  | restore (env : Environment)
  /-- Choose a branch by the value on the stack. -/
  | branch (thenBranch : Stmt) (elseBranch : Option Stmt)
  /-- Marks the extent of a loop. -/
  | loop (l : Loop)
  /-- Go round a loop once more, or not, by the value on the stack. -/
  | loopTest (l : Loop)
  /-- Marks the extent of a labeled statement. -/
  | label (name : String)
  | unary (op : UnaryOp)
  | binary (op : BinaryOp)
  /-- Keep the value on the stack, or evaluate the second operand instead. -/
  | logical (op : LogicalOp) (right : Expr)
  | array (count : Nat)
  | tuple (count : Nat)
  | object (keys : List String)
  | member (name : String)
  | index
  | call (count : Nat)
  /-- Leave the function with the value on the stack. -/
  | returnValue

/-- One activation of the program or of a function. -/
structure Frame where
  /-- The statement that runs next in this frame, or that is running a call. -/
  current : NodeId
  environment : Environment
  /-- The function expression; `none` for the program. -/
  function : Option NodeId
  tasks : List Task
  values : List Value

namespace Frame

/-- The frame that runs the statements of a body. -/
def ofBody (current : NodeId) (environment : Environment) (function : Option NodeId)
    (body : List Stmt) : Frame :=
  { current, environment, function, tasks := body.map (Task.exec · []), values := [] }

/-- Puts tasks in front of the others. -/
def schedule (frame : Frame) (tasks : List Task) : Frame :=
  { frame with tasks := tasks ++ frame.tasks }

/-- Puts a value on the stack. -/
def pushValue (frame : Frame) (value : Value) : Frame :=
  { frame with values := value :: frame.values }

/-- Drops tasks up to and including the first one that is looked for, and puts back the chain of
scopes of every block that is left. Gives that task with the tasks behind it, and the chain. -/
def unwindTasks (wanted : Task → Bool) :
    List Task → Environment → Option (Task × List Task) × Environment
  | [], env => (none, env)
  | task :: tasks, env =>
    if wanted task then (some (task, tasks), env)
    else
      match task with
      | .restore outer => unwindTasks wanted tasks outer
      | _ => unwindTasks wanted tasks env

/-- Drops tasks up to and including the first one that is looked for. Gives that task, if there is
one, and the frame with what is left. -/
def unwind (frame : Frame) (wanted : Task → Bool) : Option Task × Frame :=
  match unwindTasks wanted frame.tasks frame.environment with
  | (some (task, tasks), environment) => (some task, { frame with tasks, environment })
  | (none, environment) => (none, { frame with tasks := [], environment })

end Frame

/-- Bounds the work that a task stands for before the next statement. -/
noncomputable def Task.weight : Task → Nat
  | exec .. => 0
  | eval e => sizeOf e
  | logical _ right => 1 + sizeOf right
  | call _ => 2
  | _ => 1

/-- Bounds the work in front of the next statement among the tasks. -/
noncomputable def pending : List Task → Nat
  | [] => 0
  | .exec .. :: _ => 0
  | task :: tasks => task.weight + pending tasks

/-- The statement that a task runs, with the labels directly in front of it, if it runs one. -/
def Task.statement? : Task → Option (Stmt × List String)
  | exec s labels => some (s, labels)
  | _ => none

@[simp] theorem pending_exec (s : Stmt) (labels : List String) (tasks : List Task) :
    pending (.exec s labels :: tasks) = 0 := rfl

theorem pending_cons (task : Task) (tasks : List Task) (h : task.statement? = none) :
    pending (task :: tasks) = task.weight + pending tasks := by
  cases task <;> first | rfl | simp [Task.statement?] at h

theorem weight_pos {task : Task} (h : task.statement? = none) : 0 < task.weight := by
  cases task with
  | exec => simp [Task.statement?] at h
  | eval e => cases e <;> simp +arith [Task.weight]
  | logical =>
    simp only [Task.weight]
    omega
  | _ => simp [Task.weight]

/-- A body of statements has nothing in front of its first statement. -/
@[simp] theorem pending_ofBody (current : NodeId) (env : Environment) (function : Option NodeId)
    (body : List Stmt) : pending (Frame.ofBody current env function body).tasks = 0 := by
  cases body <;> rfl

end LWorkbench
