import LWorkbench.Proofs.Machine.Steps
import LWorkbench.Proofs.Relocation.Trees

/-!
# Runs of moved programs

The tasks of a machine hold statements and expressions of its program, and the machine looks nodes
up by their numbers. It never asks where a node stands in the text. So a machine whose program has
been moved makes the same steps: after each of them memory, values, chains of scopes and the
statements that run are the same, and the tasks are the same ones, moved.

## Main definitions

* `Task.relocate`, `Frame.relocate`, `Machine.relocate` — tasks, frames and machines with the trees
  they hold moved

## Main results

* `Memory.perform_relocate` — performing a moved task has the same effect, moved
* `Machine.settle_relocate`, `Machine.step_relocate` — so has everything up to the next statement,
  and a step
* `Machine.after_load_relocate` — runs of moved programs go side by side
-/

namespace LWorkbench

variable {r : Relocation} {frame : Frame} {label : Option Name}

/-! ### Tasks and frames -/

/-- Moves the condition and the body of a loop. -/
def Loop.relocate (r : Relocation) (l : Loop) : Loop :=
  { l with condition := l.condition.relocate r, body := l.body.relocate r }

/-- Moves the trees that a task holds. -/
def Task.relocate (r : Relocation) : Task → Task
  | exec s labels => exec (s.relocate r) labels
  | eval e => eval (e.relocate r)
  | branch thenBranch elseBranch =>
    branch (thenBranch.relocate r) (elseBranch.map (·.relocate r))
  | loop l => loop (l.relocate r)
  | loopTest l => loopTest (l.relocate r)
  | logical op right => logical op (right.relocate r)
  | task => task

/-- Moves the trees that the tasks of a frame hold. -/
def Frame.relocate (r : Relocation) (frame : Frame) : Frame :=
  { frame with tasks := frame.tasks.map (·.relocate r) }

/-- Moves the frames of an effect. -/
def Effect.relocate (r : Relocation) : Effect → Effect
  | stay frame => stay (frame.relocate r)
  | enter caller callee => enter (caller.relocate r) (callee.relocate r)
  | leave value => leave value
  | fail fault frame => fail fault (frame.relocate r)

namespace Frame

@[simp] theorem environment_relocate (frame : Frame) :
    (frame.relocate r).environment = frame.environment := rfl

@[simp] theorem values_relocate (frame : Frame) : (frame.relocate r).values = frame.values := rfl

theorem tasks_relocate {tasks : List Task} (h : frame.tasks = tasks) :
    (frame.relocate r).tasks = tasks.map (·.relocate r) := by
  rw [← h]
  rfl

theorem schedule_relocate (frame : Frame) (tasks : List Task) :
    (frame.relocate r).schedule (tasks.map (·.relocate r)) =
      (frame.schedule tasks).relocate r := by
  simp only [schedule, relocate, List.map_append]

theorem ofBody_relocate (current : NodeId) (env : Environment) (function : Option NodeId)
    (body : List Stmt) :
    ofBody current env function (body.map (·.relocate r)) =
      (ofBody current env function body).relocate r := by
  simp only [ofBody, relocate, List.map_map]
  rfl

/-- What is looked for among moved tasks is found at the same place, moved. -/
theorem unwindTasks_relocate {wanted wanted' : Task → Bool}
    (h : ∀ task, wanted' (task.relocate r) = wanted task) (tasks : List Task) (env : Environment) :
    unwindTasks wanted' (tasks.map (·.relocate r)) env =
      ((unwindTasks wanted tasks env).1.map
        fun found => (found.1.relocate r, found.2.map (·.relocate r)),
        (unwindTasks wanted tasks env).2) := by
  induction tasks generalizing env with
  | nil => rfl
  | cons task tasks ih =>
    rw [List.map_cons]
    unfold unwindTasks
    rw [h]
    split
    · rfl
    · cases task <;> exact ih _

theorem unwind_relocate {wanted wanted' : Task → Bool}
    (h : ∀ task, wanted' (task.relocate r) = wanted task) (frame : Frame) :
    (frame.relocate r).unwind wanted' =
      ((frame.unwind wanted).1.map (·.relocate r), (frame.unwind wanted).2.relocate r) := by
  unfold unwind
  rw [tasks_relocate rfl, environment_relocate, unwindTasks_relocate h]
  rcases unwindTasks wanted frame.tasks frame.environment with ⟨_ | ⟨task, tasks⟩, env⟩ <;> rfl

end Frame

namespace Effect

/-- Scheduling moved tasks has the same effect, moved. -/
theorem stay_schedule_relocate {tasks tasks' : List Task}
    (h : tasks' = tasks.map (·.relocate r)) (frame : Frame) :
    stay ((frame.relocate r).schedule tasks') = (stay (frame.schedule tasks)).relocate r := by
  rw [h, Frame.schedule_relocate]
  rfl

theorem result_relocate (frame : Frame) (result : Except Fault Value) :
    Effect.result (frame.relocate r) result = (Effect.result frame result).relocate r := by
  cases result <;> rfl

theorem withValue_relocate {next next' : Value → Frame → Effect}
    (h : ∀ value frame, next' value (frame.relocate r) = (next value frame).relocate r)
    (frame : Frame) :
    withValue (frame.relocate r) next' = (withValue frame next).relocate r := by
  unfold withValue
  rw [Frame.values_relocate]
  cases frame.values with
  | nil => rfl
  | cons value values => exact h value { frame with values }

theorem withValues_relocate {next next' : List Value → Frame → Effect}
    (h : ∀ items frame, next' items (frame.relocate r) = (next items frame).relocate r)
    (frame : Frame) (count : Nat) :
    withValues (frame.relocate r) count next' = (withValues frame count next).relocate r := by
  unfold withValues
  rw [Frame.values_relocate]
  split
  · exact h _ { frame with values := frame.values.drop count }
  · rfl

end Effect

namespace Memory

/-! ### Statements and expressions -/

theorem breaksAt_relocate (label : Option Name) (task : Task) :
    breaksAt (label.map (·.relocate r)) (task.relocate r) = breaksAt label task := by
  cases task <;> cases label <;> rfl

theorem continuesAt_relocate (label : Option Name) (task : Task) :
    continuesAt (label.map (·.relocate r)) (task.relocate r) = continuesAt label task := by
  cases task <;> cases label <;> rfl

theorem lostJump_relocate (label : Option Name) (unlabeled : Fault) :
    lostJump (label.map (·.relocate r)) unlabeled = lostJump label unlabeled := by
  cases label <;> rfl

theorem breakOut_relocate (frame : Frame) (label : Option Name) :
    breakOut (frame.relocate r) (label.map (·.relocate r)) = (breakOut frame label).relocate r := by
  rw [breakOut, breakOut, Frame.unwind_relocate (breaksAt_relocate label), lostJump_relocate]
  rcases frame.unwind (breaksAt label) with ⟨_ | task, frame'⟩ <;> rfl

theorem continueLoop_relocate (frame : Frame) (label : Option Name) :
    continueLoop (frame.relocate r) (label.map (·.relocate r)) =
      (continueLoop frame label).relocate r := by
  rw [continueLoop, continueLoop, Frame.unwind_relocate (continuesAt_relocate label),
    lostJump_relocate]
  rcases frame.unwind (continuesAt label) with ⟨_ | task, frame'⟩
  · rfl
  · cases task with
    | loop l => exact congrArg Effect.stay (frame'.schedule_relocate (roundTasks l))
    | _ => rfl

/-- Running a moved statement has the same effect, moved. -/
theorem exec_relocate (mem : Memory) (frame : Frame) (labels : List String) (s : Stmt) :
    mem.exec (frame.relocate r) labels (s.relocate r) =
      (mem.exec frame labels s).map id (Effect.relocate r) := by
  cases s with
  | declare _ name init => cases init <;> rfl
  | block _ body =>
    refine congrArg (_, ·) (Effect.stay_schedule_relocate ?_ { frame with environment := _ })
    simp [Function.comp_def, Task.relocate, Frame.relocate]
  | breakTo _ label => exact congrArg (mem, ·) (breakOut_relocate frame label)
  | continueTo _ label => exact congrArg (mem, ·) (continueLoop_relocate frame label)
  | branch _ _ _ elseBranch => cases elseBranch <;> rfl
  | returnWith _ value => cases value <;> rfl
  | _ => rfl

/-- Evaluating a moved expression has the same effect, moved. -/
theorem eval_relocate (mem : Memory) (frame : Frame) (e : Expr) :
    mem.eval (frame.relocate r) (e.relocate r) =
      (mem.eval frame e).map id (Effect.relocate r) := by
  cases e with
  | name n =>
    rw [Expr.relocate, eval, eval, Frame.environment_relocate, Name.identifier_relocate]
    cases mem.store.lookup? frame.environment n.identifier <;> rfl
  | array | tuple | object | call =>
    refine congrArg (mem, ·) (Effect.stay_schedule_relocate ?_ frame)
    simp [Function.comp_def, Task.relocate]
  | _ => rfl

/-! ### Tasks -/

theorem bindParams_relocate (store : Store Value) (env : Environment) (params : List Name)
    (args : List Value) :
    bindParams store env (params.map (·.relocate r)) args = bindParams store env params args := by
  induction params generalizing store args with
  | nil => rfl
  | cons param params ih => exact ih _ _

theorem callClosure_relocate (p : Program) (mem : Memory) (callers : List Frame) (frame : Frame)
    (closure : Closure) (args : List Value) :
    mem.callClosure (p.relocate r) (callers.map (·.relocate r)) (frame.relocate r) closure args =
      (mem.callClosure p callers frame closure args).map id (Effect.relocate r) := by
  unfold callClosure
  rw [Program.node?_relocate]
  cases p.node? closure.node with
  | none => rfl
  | some n =>
    cases n with
    | stmt => rfl
    | expr e =>
      cases e with
      | function _ params body =>
        simp only [Option.map_some, Node.relocate_expr, Expr.relocate, Stmt.relocateAll_eq,
          List.length_map, bindParams_relocate, Frame.ofBody_relocate, List.head?_map,
          Option.map_map, Function.comp_def, Stmt.id_relocate]
        split <;> rfl
      | _ => rfl

theorem call_relocate (p : Program) (mem : Memory) (callers : List Frame) (frame : Frame)
    (count : Nat) :
    mem.call (p.relocate r) (callers.map (·.relocate r)) (frame.relocate r) count =
      (mem.call p callers frame count).map id (Effect.relocate r) := by
  unfold call
  rw [Frame.values_relocate]
  split
  · dsimp only
    split
    · rename_i closure values _
      exact callClosure_relocate (r := r) p mem callers { frame with values } closure _
    · rfl
    · rfl
  · rfl

/-- Performing a moved task has the same effect, moved. -/
theorem perform_relocate (p : Program) (mem : Memory) (callers : List Frame) (frame : Frame)
    (task : Task) :
    mem.perform (p.relocate r) (callers.map (·.relocate r)) (frame.relocate r) (task.relocate r) =
      (mem.perform p callers frame task).map id (Effect.relocate r) := by
  cases task with
  | exec s labels => exact exec_relocate mem frame labels s
  | eval e => exact eval_relocate mem frame e
  | discard => exact congrArg (mem, ·) (Effect.withValue_relocate (fun _ _ => rfl) frame)
  | declare name =>
    simp only [Task.relocate, perform, Frame.values_relocate]
    cases frame.values <;> rfl
  | assign name =>
    simp only [Task.relocate, perform, Frame.values_relocate, Frame.environment_relocate]
    cases frame.values with
    | nil => rfl
    | cons value values => cases mem.store.variableScope? frame.environment name <;> rfl
  | branch thenBranch elseBranch =>
    refine congrArg (mem, ·) (Effect.withValue_relocate (fun value frame => ?_) frame)
    split
    · rfl
    · refine Effect.stay_schedule_relocate ?_ frame
      cases elseBranch <;> rfl
  | loopTest l =>
    refine congrArg (mem, ·) (Effect.withValue_relocate (fun value frame => ?_) frame)
    split <;> rfl
  | unary op =>
    exact congrArg (mem, ·) (Effect.withValue_relocate
      (fun operand frame => Effect.result_relocate frame _) frame)
  | binary op =>
    exact congrArg (mem, ·) (Effect.withValue_relocate (fun right frame =>
      Effect.withValue_relocate (fun left frame => Effect.result_relocate frame _) frame) frame)
  | logical op right =>
    refine congrArg (mem, ·) (Effect.withValue_relocate (fun value frame => ?_) frame)
    split <;> rfl
  | array count | tuple count | object keys =>
    exact congrArg (mem, ·) (Effect.withValues_relocate (fun _ _ => rfl) frame _)
  | member name =>
    exact congrArg (mem, ·) (Effect.withValue_relocate
      (fun object frame => Effect.result_relocate frame _) frame)
  | index =>
    exact congrArg (mem, ·) (Effect.withValue_relocate (fun index frame =>
      Effect.withValue_relocate (fun object frame => Effect.result_relocate frame _) frame) frame)
  | call count => exact call_relocate p mem callers frame count
  | returnValue => exact congrArg (mem, ·) (Effect.withValue_relocate (fun _ _ => rfl) frame)
  | _ => rfl

end Memory

/-! ### Steps -/

namespace Machine

/-- Moves the statement that comes next and the frames. -/
def Settled.relocate (r : Relocation) : Settled → Settled
  | ready s labels frame callers =>
    ready (s.relocate r) labels (frame.relocate r) (callers.map (·.relocate r))
  | done => done
  | failed fault frames => failed fault (frames.map (·.relocate r))

/-- Moves the program and the frames of a machine. -/
def relocate (r : Relocation) (m : Machine) : Machine :=
  { m with program := m.program.map (·.relocate r), frames := m.frames.map (·.relocate r) }

theorem resume_relocate (value : Value) (frames : List Frame) :
    resume value (frames.map (·.relocate r)) = (resume value frames).map (·.relocate r) := by
  cases frames <;> rfl

theorem statement?_relocate (task : Task) :
    (task.relocate r).statement? = task.statement?.map fun found =>
      (found.1.relocate r, found.2) := by
  cases task <;> rfl

/-- What the effect of a task, in front of the frames that wait, comes to. -/
def goOn (p : Program) (callers : List Frame) : Memory × Effect → Memory × Settled
  | (mem, .stay frame) => settle p mem (frame :: callers)
  | (mem, .enter caller callee) => settle p mem (callee :: caller :: callers)
  | (mem, .leave value) => settle p mem (resume value callers)
  | (mem, .fail fault frame) => (mem, .failed fault (frame :: callers))

theorem settle_of_no_tasks (htasks : frame.tasks = []) (p : Program) (mem : Memory)
    (callers : List Frame) :
    settle p mem (frame :: callers) = settle p mem (resume .undefined callers) := by
  rw [settle]
  split
  · rfl
  · simp_all

theorem settle_of_other {task : Task} {tasks : List Task} (htasks : frame.tasks = task :: tasks)
    (hstmt : task.statement? = none) (p : Program) (mem : Memory) (callers : List Frame) :
    settle p mem (frame :: callers) =
      goOn p callers (mem.perform p callers { frame with tasks } task) := by
  rw [settle]
  split
  · simp_all
  · rename_i task' tasks' htasks'
    obtain ⟨rfl, rfl⟩ := List.cons.inj (htasks.symm.trans htasks')
    split
    · simp_all
    · split <;> rename_i heffect <;> rw [heffect] <;> rfl

theorem runStatement_eq_goOn (p : Program) (mem : Memory) (s : Stmt) (labels : List String)
    (frame : Frame) (callers : List Frame) :
    runStatement p mem s labels frame callers = goOn p callers (mem.exec frame labels s) := by
  unfold runStatement
  split <;> rename_i heffect <;> rw [heffect] <;> rfl

/-- A moved task that is no statement has the same effect, moved, and the run goes on from there. -/
theorem settle_of_other_relocate {task : Task} {tasks : List Task} {p : Program} {mem : Memory}
    {callers : List Frame} {result : Memory × Effect} (htasks : frame.tasks = task :: tasks)
    (hstmt : task.statement? = none)
    (heffect : mem.perform p callers { frame with tasks } task = result) :
    settle (p.relocate r) mem ((frame :: callers).map (·.relocate r)) =
      goOn (p.relocate r) (callers.map (·.relocate r)) (result.map id (Effect.relocate r)) := by
  have hother : (task.relocate r).statement? = none := by
    rw [statement?_relocate, hstmt]
    rfl
  rw [List.map_cons, settle_of_other (Frame.tasks_relocate htasks) hother, ← heffect,
    ← Memory.perform_relocate]
  rfl

/-- Settling moved frames comes to the same, moved. -/
theorem settle_relocate (p : Program) (mem : Memory) (frames : List Frame) :
    settle (p.relocate r) mem (frames.map (·.relocate r)) =
      (settle p mem frames).map id (Settled.relocate r) := by
  -- The induction follows settling itself: both sides do the same tasks one after another.
  fun_induction settle p mem frames with
  | case1 mem =>
    rw [List.map_nil, settle]
    rfl
  | case2 mem frame callers htasks ih =>
    rw [List.map_cons, settle_of_no_tasks (Frame.tasks_relocate htasks), resume_relocate, ih]
  | case3 mem frame callers task tasks htasks s labels hstmt =>
    obtain rfl := statement?_eq_some hstmt
    rw [List.map_cons, settle_of_statement (Frame.tasks_relocate htasks)]
    rfl
  | case4 mem frame callers task tasks htasks hstmt mem' frame' heffect ih =>
    exact (settle_of_other_relocate htasks hstmt heffect).trans ih
  | case5 mem frame callers task tasks htasks hstmt mem' caller callee heffect ih =>
    exact (settle_of_other_relocate htasks hstmt heffect).trans ih
  | case6 mem frame callers task tasks htasks hstmt mem' value heffect ih =>
    rw [← resume_relocate] at ih
    exact (settle_of_other_relocate htasks hstmt heffect).trans ih
  | case7 mem frame callers task tasks htasks hstmt mem' fault frame' heffect =>
    exact settle_of_other_relocate htasks hstmt heffect

theorem goOn_relocate (p : Program) (callers : List Frame) (result : Memory × Effect) :
    goOn (p.relocate r) (callers.map (·.relocate r)) (result.map id (Effect.relocate r)) =
      (goOn p callers result).map id (Settled.relocate r) := by
  rcases result with ⟨mem, frame | ⟨caller, callee⟩ | value | ⟨fault, frame⟩⟩
  · exact settle_relocate p mem (frame :: callers)
  · exact settle_relocate p mem (callee :: caller :: callers)
  · have hsettle := settle_relocate (r := r) p mem (resume value callers)
    rw [← resume_relocate] at hsettle
    exact hsettle
  · rfl

theorem runStatement_relocate (p : Program) (mem : Memory) (s : Stmt) (labels : List String)
    (frame : Frame) (callers : List Frame) :
    runStatement (p.relocate r) mem (s.relocate r) labels (frame.relocate r)
        (callers.map (·.relocate r)) =
      (runStatement p mem s labels frame callers).map id (Settled.relocate r) := by
  rw [runStatement_eq_goOn, runStatement_eq_goOn, Memory.exec_relocate, goOn_relocate]

theorem advance_relocate (p : Program) (mem : Memory) (frames : List Frame) :
    advance (p.relocate r) mem (frames.map (·.relocate r)) =
      (advance p mem frames).map id (Settled.relocate r) := by
  rw [advance, advance, settle_relocate]
  rcases settle p mem frames with ⟨mem', ⟨s, labels, frame, callers⟩ | _ | ⟨fault, frames'⟩⟩
  · exact runStatement_relocate p mem' s labels frame callers
  · rfl
  · rfl

theorem conclude_relocate (globals : Environment) (p : Program) (result : Memory × Settled) :
    conclude globals (p.relocate r) (result.map id (Settled.relocate r)) =
      (conclude globals p result).map (relocate r) id := by
  rcases result with ⟨mem, ⟨s, labels, frame, callers⟩ | _ | ⟨fault, frames⟩⟩
  · simp only [Prod.map, id, Settled.relocate, conclude, relocate, Stmt.id_relocate]
    rfl
  · rfl
  · rfl

/-- A machine that has been moved makes the same step. -/
theorem step_relocate (m : Machine) : (m.relocate r).step = m.step.map (relocate r) id := by
  unfold step
  rw [show (m.relocate r).terminated = m.terminated from rfl,
    show (m.relocate r).fault = m.fault from rfl,
    show (m.relocate r).program = m.program.map (·.relocate r) from rfl]
  split
  · rfl
  split
  · rfl
  cases m.program with
  | none => rfl
  | some p =>
    show conclude m.globals (p.relocate r)
      (advance (p.relocate r) m.memory (m.frames.map (·.relocate r))) = _
    rw [advance_relocate, conclude_relocate]

theorem load_relocate (m : Machine) (p : Program) :
    m.load (p.relocate r) = (m.load p).relocate r := by
  unfold load
  rw [show (p.relocate r).body = p.body.map (·.relocate r) from rfl]
  cases p.body with
  | nil => rfl
  | cons first others =>
    have hframe := Frame.ofBody_relocate (r := r) first.id m.globals none (first :: others)
    simp only [List.map_cons, Stmt.id_relocate] at hframe ⊢
    rw [hframe]
    rfl

/-- Runs of a program and of the moved program go side by side. -/
theorem after_load_relocate (m : Machine) (p : Program) (n : Nat) :
    (m.load (p.relocate r)).after n = ((m.load p).after n).relocate r := by
  induction n with
  | zero => exact load_relocate m p
  | succ n ih =>
    rw [after_succ, after_succ, ih, step_relocate]
    rfl

end Machine

end LWorkbench
