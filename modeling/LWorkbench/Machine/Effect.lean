import LWorkbench.Machine.Frame
import LWorkbench.Program
import LWorkbench.Value.Operators

/-!
# Performing tasks

Performing a task changes the frame it belongs to, calls a function, leaves the frame, or fails. A
statement that is run mostly calls for further tasks, and so does an expression that is evaluated:
the callee of a call before its arguments, and everything else from left to right.

A jump that finds no target leaves the frame without tasks and outside of all its blocks.

## Main definitions

* `Memory` — the scopes and the number of functions made so far
* `Effect` — what performing a task comes to
* `Memory.exec`, `Memory.eval`, `Memory.perform` — running a statement, evaluating an expression,
  performing a task
* `frameLimit` — calls nest at most this deep

## Main results

* `Memory.weight_perform_lt` — apart from statements, performing a task leaves less work to do
  before the next statement
-/

namespace LWorkbench

/-- Calls nest at most this deep, the program as a whole included. -/
def frameLimit : Nat := 10000

/-- The scopes made so far, and the number of functions made so far. -/
structure Memory where
  store : Store Value
  closureCount : Nat

/-- What performing a task comes to. -/
inductive Effect where
  /-- The frame goes on. -/
  | stay (frame : Frame)
  /-- The frame waits for a frame of its own making. -/
  | enter (caller callee : Frame)
  /-- The frame ends with a value for its caller. -/
  | leave (value : Value)
  /-- The run cannot go on; the frame is left as it is for inspection. -/
  | fail (fault : Fault) (frame : Frame)

/-- Bounds the work in front of the next statement that an effect leaves. -/
noncomputable def Effect.weight : Effect → Nat
  | stay frame => pending frame.tasks
  | enter caller callee => 1 + pending callee.tasks + pending caller.tasks
  | leave _ => 0
  | fail .. => 0

namespace Effect

/-- Puts a result on the stack, or fails. -/
def result (frame : Frame) : Except Fault Value → Effect
  | .ok value => stay (frame.pushValue value)
  | .error fault => fail fault frame

/-- Takes a value from the stack. -/
def withValue (frame : Frame) (next : Value → Frame → Effect) : Effect :=
  match frame.values with
  | value :: values => next value { frame with values }
  | [] => fail .missingValue frame

/-- Takes several values from the stack, in the order in which they were put there. -/
def withValues (frame : Frame) (count : Nat) (next : List Value → Frame → Effect) : Effect :=
  if count ≤ frame.values.length then
    next (frame.values.take count).reverse { frame with values := frame.values.drop count }
  else fail .missingValue frame

end Effect

namespace Memory

/-! ### Statements -/

/-- Whether a task is the marker that a `break` looks for. -/
def breaksAt (label : Option Name) : Task → Bool
  | .loop _ => label.isNone
  | .label name => label.any (·.identifier == name)
  | _ => false

/-- Whether a task is the marker that a `continue` looks for. -/
def continuesAt (label : Option Name) : Task → Bool
  | .loop l => label.all fun n => l.labels.contains n.identifier
  | _ => false

/-- The tasks that test the condition of a loop and go round it. -/
def roundTasks (l : Loop) : List Task :=
  [.eval l.condition, .loopTest l, .loop l]

/-- The failure of a jump that finds no target. -/
def lostJump (label : Option Name) (unlabeled : Fault) : Fault :=
  match label with
  | some n => .undefinedLabel n.identifier
  | none => unlabeled

/-- Leaves the nearest loop, or the nearest statement with the label. -/
def breakOut (frame : Frame) (label : Option Name) : Effect :=
  match frame.unwind (breaksAt label) with
  | (some _, frame) => .stay frame
  | (none, frame) => .fail (lostJump label .illegalBreak) frame

/-- Goes on with the nearest loop, or the nearest loop with the label. -/
def continueLoop (frame : Frame) (label : Option Name) : Effect :=
  match frame.unwind (continuesAt label) with
  | (some (.loop l), frame) => .stay (frame.schedule (roundTasks l))
  | (_, frame) => .fail (lostJump label .illegalContinue) frame

/-- Runs a statement that the given labels stand directly in front of. -/
def exec (mem : Memory) (frame : Frame) (labels : List String) : Stmt → Memory × Effect
  | .declare _ name (some init) =>
    (mem, .stay (frame.schedule [.eval init, .declare name.identifier]))
  | .declare _ name none =>
    (mem, .stay ((frame.pushValue .undefined).schedule [.declare name.identifier]))
  | .evaluate _ e => (mem, .stay (frame.schedule [.eval e, .discard]))
  | .block _ body =>
    let (inner, store) := mem.store.extend frame.environment .variable
    let tasks := body.map (Task.exec · []) ++ [.restore frame.environment]
    ({ mem with store }, .stay ({ frame with environment := inner }.schedule tasks))
  | .labeled _ label body =>
    (mem, .stay (frame.schedule
      [.exec body (label.identifier :: labels), .label label.identifier]))
  | .branch _ condition thenBranch elseBranch =>
    (mem, .stay (frame.schedule [.eval condition, .branch thenBranch elseBranch]))
  | .loop _ condition body => (mem, .stay (frame.schedule (roundTasks ⟨condition, body, labels⟩)))
  | .breakTo _ label => (mem, breakOut frame label)
  | .continueTo _ label => (mem, continueLoop frame label)
  | .returnWith _ (some value) => (mem, .stay (frame.schedule [.eval value, .returnValue]))
  | .returnWith _ none => (mem, .stay ((frame.pushValue .undefined).schedule [.returnValue]))

/-! ### Expressions -/

/-- Evaluates an expression, or schedules the tasks that do. -/
def eval (mem : Memory) (frame : Frame) : Expr → Memory × Effect
  | .literal _ value => (mem, .stay (frame.pushValue (.ofLiteral value)))
  | .name n =>
    match mem.store.lookup? frame.environment n.identifier with
    | some value => (mem, .stay (frame.pushValue value))
    | none => (mem, .fail (.notDefined n.identifier) frame)
  | .array _ items => (mem, .stay (frame.schedule (items.map .eval ++ [.array items.length])))
  | .tuple _ items => (mem, .stay (frame.schedule (items.map .eval ++ [.tuple items.length])))
  | .object _ properties =>
    (mem, .stay (frame.schedule
      (properties.map (fun p => .eval p.2) ++ [.object (properties.map (·.1))])))
  | .function site _ _ =>
    ({ mem with closureCount := mem.closureCount + 1 },
      .stay (frame.pushValue (.function ⟨mem.closureCount, site.id, frame.environment⟩)))
  | .unary _ op operand => (mem, .stay (frame.schedule [.eval operand, .unary op]))
  | .binary _ op left right => (mem, .stay (frame.schedule [.eval left, .eval right, .binary op]))
  | .logical _ op left right => (mem, .stay (frame.schedule [.eval left, .logical op right]))
  | .assign _ target value =>
    (mem, .stay (frame.schedule [.eval value, .assign target.identifier]))
  | .call _ callee args =>
    (mem, .stay (frame.schedule (.eval callee :: args.map .eval ++ [.call args.length])))
  | .member _ object property => (mem, .stay (frame.schedule [.eval object, .member property]))
  | .index _ object index => (mem, .stay (frame.schedule [.eval object, .eval index, .index]))

/-! ### Tasks -/

/-- Declares parameters in a chain; a parameter without an argument is `undefined`. -/
def bindParams (store : Store Value) (env : Environment) : List Name → List Value → Store Value
  | [], _ => store
  | param :: params, args =>
    bindParams (store.declare env param.identifier (args.headD .undefined)) env params args.tail

/-- Calls a function of the program. -/
def callClosure (p : Program) (mem : Memory) (callers : List Frame) (frame : Frame)
    (closure : Closure) (args : List Value) : Memory × Effect :=
  match p.node? closure.node with
  | some (.expr (.function _ params body)) =>
    if frameLimit ≤ callers.length + 1 then (mem, .fail .tooManyFrames frame)
    else
      let (inner, store) := mem.store.extend closure.environment .variable
      let current := (body.head?.map (·.id)).getD closure.node
      ({ mem with store := bindParams store inner params args },
        .enter frame (.ofBody current inner (some closure.node) body))
  | _ => (mem, .fail (.notAFunction closure.node) frame)

/-- Calls the value below the arguments on the stack. -/
def call (p : Program) (mem : Memory) (callers : List Frame) (frame : Frame) (count : Nat) :
    Memory × Effect :=
  if count ≤ frame.values.length then
    let args := (frame.values.take count).reverse
    match frame.values.drop count with
    | .function closure :: values =>
      callClosure p mem callers { frame with values } closure args
    | callee :: values => (mem, .fail (.notCallable callee.type) { frame with values })
    | [] => (mem, .fail .missingValue { frame with values := [] })
  else (mem, .fail .missingValue frame)

/-- Whether the first operand of a logical operator is already the result. -/
def settles (op : LogicalOp) (left : Value) : Bool :=
  match op with
  | .and => !left.isTruthy
  | .or => left.isTruthy

/-- Performs a task of a frame that other frames wait for. The task has been taken off. -/
def perform (p : Program) (mem : Memory) (callers : List Frame) (frame : Frame) :
    Task → Memory × Effect
  | .exec s labels => mem.exec frame labels s
  | .eval e => mem.eval frame e
  | .discard => (mem, .withValue frame fun _ frame => .stay frame)
  | .declare name =>
    match frame.values with
    | value :: values =>
      ({ mem with store := mem.store.declare frame.environment name value },
        .stay { frame with values })
    | [] => (mem, .fail .missingValue frame)
  | .assign name =>
    match frame.values with
    | value :: _ =>
      match mem.store.variableScope? frame.environment name with
      | some id => ({ mem with store := mem.store.declareIn id name value }, .stay frame)
      | none => (mem, .fail (.notDefined name) frame)
    | [] => (mem, .fail .missingValue frame)
  | .restore env => (mem, .stay { frame with environment := env })
  | .branch thenBranch elseBranch =>
    (mem, .withValue frame fun value frame =>
      if value.isTruthy then .stay (frame.schedule [.exec thenBranch []])
      else .stay (frame.schedule (elseBranch.toList.map (Task.exec · []))))
  | .loop _ => (mem, .stay frame)
  | .loopTest l =>
    (mem, .withValue frame fun value frame =>
      if value.isTruthy then
        .stay (frame.schedule [.exec l.body [], .eval l.condition, .loopTest l])
      else .stay frame)
  | .label _ => (mem, .stay frame)
  | .unary op => (mem, .withValue frame fun operand frame => .result frame (operand.unary op))
  | .binary op =>
    (mem, .withValue frame fun right frame =>
      .withValue frame fun left frame => .result frame (left.binary op right))
  | .logical op right =>
    (mem, .withValue frame fun left frame =>
      if settles op left then .stay (frame.pushValue left)
      else .stay (frame.schedule [.eval right]))
  | .array count =>
    (mem, .withValues frame count fun items frame => .stay (frame.pushValue (.array items)))
  | .tuple count =>
    (mem, .withValues frame count fun items frame => .stay (frame.pushValue (.tuple items)))
  | .object keys =>
    (mem, .withValues frame keys.length fun values frame =>
      .stay (frame.pushValue (.object (keys.zip values))))
  | .member name => (mem, .withValue frame fun object frame => .result frame (object.member name))
  | .index =>
    (mem, .withValue frame fun index frame =>
      .withValue frame fun object frame => .result frame (object.index index))
  | .call count => mem.call p callers frame count
  | .returnValue => (mem, .withValue frame fun value _ => .leave value)

/-! ### The work that is left -/

theorem pending_evals (items : List Expr) (tasks : List Task) :
    pending (items.map .eval ++ tasks) + 1 ≤ sizeOf items + pending tasks := by
  induction items with
  | nil =>
    simp only [List.map_nil, List.nil_append, List.nil.sizeOf_spec]
    omega
  | cons e items ih =>
    rw [List.map_cons, List.cons_append, pending_cons _ _ rfl]
    simp only [Task.weight, List.cons.sizeOf_spec]
    omega

theorem pending_values (properties : List (String × Expr)) (tasks : List Task) :
    pending (properties.map (fun p => .eval p.2) ++ tasks) + 1 ≤
      sizeOf properties + pending tasks := by
  induction properties with
  | nil =>
    simp only [List.map_nil, List.nil_append, List.nil.sizeOf_spec]
    omega
  | cons e properties ih =>
    obtain ⟨key, e⟩ := e
    rw [List.map_cons, List.cons_append, pending_cons _ _ rfl]
    simp only [Task.weight, List.cons.sizeOf_spec, Prod.mk.sizeOf_spec]
    omega

theorem weight_withValue_lt {frame : Frame} {next : Value → Frame → Effect} {n : Nat} (hn : 0 < n)
    (h : ∀ value values, (next value { frame with values }).weight < n) :
    (Effect.withValue frame next).weight < n := by
  unfold Effect.withValue
  split
  · exact h _ _
  · exact hn

theorem weight_withValues_lt {frame : Frame} {count : Nat} {next : List Value → Frame → Effect}
    {n : Nat} (hn : 0 < n) (h : ∀ items values, (next items { frame with values }).weight < n) :
    (Effect.withValues frame count next).weight < n := by
  unfold Effect.withValues
  split
  · exact h _ _
  · exact hn

theorem weight_result_le (frame : Frame) (r : Except Fault Value) :
    (Effect.result frame r).weight ≤ pending frame.tasks := by
  cases r <;> simp [Effect.result, Effect.weight, Frame.pushValue]

/-- Evaluating an expression leaves less work than the expression stands for. -/
theorem weight_eval_lt (mem : Memory) (frame : Frame) (e : Expr) :
    (mem.eval frame e).2.weight < sizeOf e + pending frame.tasks := by
  cases e with
  | literal =>
    simp only [eval, Effect.weight, Frame.pushValue, Expr.literal.sizeOf_spec]
    omega
  | name n =>
    simp only [eval]
    split <;> simp only [Effect.weight, Frame.pushValue, Expr.name.sizeOf_spec] <;> omega
  | array site items =>
    have := pending_evals items (.array items.length :: frame.tasks)
    rw [pending_cons _ _ rfl] at this
    cases site
    simp only [eval, Effect.weight, Frame.schedule, List.append_assoc, List.cons_append,
      List.nil_append, Task.weight, Expr.array.sizeOf_spec, Site.mk.sizeOf_spec] at this ⊢
    omega
  | tuple site items =>
    have := pending_evals items (.tuple items.length :: frame.tasks)
    rw [pending_cons _ _ rfl] at this
    cases site
    simp only [eval, Effect.weight, Frame.schedule, List.append_assoc, List.cons_append,
      List.nil_append, Task.weight, Expr.tuple.sizeOf_spec, Site.mk.sizeOf_spec] at this ⊢
    omega
  | object site properties =>
    have := pending_values properties (.object (properties.map (·.1)) :: frame.tasks)
    rw [pending_cons _ _ rfl] at this
    cases site
    simp only [eval, Effect.weight, Frame.schedule, List.append_assoc, List.cons_append,
      List.nil_append, Task.weight, Expr.object.sizeOf_spec, Site.mk.sizeOf_spec] at this ⊢
    omega
  | function =>
    simp only [eval, Effect.weight, Frame.pushValue, Expr.function.sizeOf_spec]
    omega
  | unary site | binary site | logical site | assign site | member site | index site =>
    cases site
    simp [eval, Effect.weight, Frame.schedule, pending, Task.weight]
    omega
  | call site callee args =>
    have := pending_evals args (.call args.length :: frame.tasks)
    rw [pending_cons _ _ rfl] at this
    cases site
    simp only [eval, Effect.weight, Frame.schedule, List.append_assoc, List.cons_append,
      List.nil_append, pending_cons (.eval callee) _ rfl, Task.weight,
      Expr.call.sizeOf_spec, Site.mk.sizeOf_spec] at this ⊢
    omega

theorem weight_call_lt (p : Program) (mem : Memory) (callers : List Frame) (frame : Frame)
    (count : Nat) : (mem.call p callers frame count).2.weight < 2 + pending frame.tasks := by
  have hpos : 0 < 2 + pending frame.tasks := by omega
  unfold call
  split
  · split
    · unfold callClosure
      split
      · split
        · exact hpos
        · simp [Effect.weight]
      · exact hpos
    · exact hpos
    · exact hpos
  · exact hpos

/-- Apart from statements, performing a task leaves less work to do before the next statement. -/
theorem weight_perform_lt (p : Program) (mem : Memory) (callers : List Frame) (frame : Frame)
    {task : Task} (h : task.statement? = none) :
    (mem.perform p callers frame task).2.weight < task.weight + pending frame.tasks := by
  have hpos : 0 < task.weight + pending frame.tasks := Nat.add_pos_left (weight_pos h) _
  cases task with
  | exec => simp [Task.statement?] at h
  | eval e => exact weight_eval_lt mem frame e
  | discard => exact weight_withValue_lt hpos fun _ _ => by simp [Effect.weight, Task.weight]
  | declare | assign =>
    simp only [perform]
    repeat' split
    all_goals first | exact hpos | simp [Effect.weight, Task.weight]
  | restore | loop | label => simp [perform, Effect.weight, Task.weight]
  | branch thenBranch elseBranch =>
    simp only [perform]
    refine weight_withValue_lt hpos fun value values => ?_
    split
    · exact hpos
    · cases elseBranch with
      | none => simp [Effect.weight, Frame.schedule, Task.weight]
      | some => exact hpos
  | loopTest l =>
    simp only [perform]
    refine weight_withValue_lt hpos fun value values => ?_
    split
    · exact hpos
    · simp [Effect.weight, Task.weight]
  | unary | member =>
    simp only [perform]
    refine weight_withValue_lt hpos fun value values => ?_
    exact Nat.lt_of_le_of_lt (weight_result_le _ _) (by simp [Task.weight])
  | binary | index =>
    simp only [perform]
    refine weight_withValue_lt hpos fun value values => ?_
    refine weight_withValue_lt hpos fun value values => ?_
    exact Nat.lt_of_le_of_lt (weight_result_le _ _) (by simp [Task.weight])
  | logical op right =>
    simp only [perform]
    refine weight_withValue_lt hpos fun value values => ?_
    split
    · simp only [Effect.weight, Frame.pushValue, Task.weight]
      omega
    · simp [Effect.weight, Frame.schedule, Task.weight, pending]
  | array | tuple | object =>
    simp only [perform]
    refine weight_withValues_lt hpos fun items values => ?_
    simp [Effect.weight, Frame.pushValue, Task.weight]
  | call count => exact weight_call_lt p mem callers frame count
  | returnValue =>
    simp only [perform]
    exact weight_withValue_lt hpos fun _ _ => hpos

end Memory

end LWorkbench
