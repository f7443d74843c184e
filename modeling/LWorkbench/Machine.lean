import LWorkbench.Machine.Effect

/-!
# The machine

The machine runs a program one statement at a time. A step runs one statement and everything that
has to be done before the next statement, which may be the first one of a function that was
called. After a step the machine stands in front of a statement, or has finished, or has failed.

A failed machine keeps its frames until the next step, which only finishes the run. Loading another
program keeps the variables of the outermost scope.

## Main definitions

* `Machine` — memory, the loaded program and the frames, innermost first
* `Machine.start`, `Machine.load` — a machine without a program, and loading one
* `Machine.settle` — doing everything that comes before the next statement
* `Machine.step` — one step
* `Machine.runFor` — steps until the run ends, up to a number of steps
-/

namespace LWorkbench

/-- What a step comes to. -/
inductive StepOutcome where
  /-- The machine stands in front of a statement. -/
  | paused
  /-- The run is over. -/
  | finished
  | failed (fault : Fault)
  deriving DecidableEq, Repr

/-- A machine with its frames, innermost first. -/
structure Machine where
  memory : Memory
  globals : Environment
  program : Option Program
  frames : List Frame
  fault : Option Fault
  terminated : Bool

namespace Machine

/-- A machine without a program, whose outermost scope is new. -/
def start (memory : Memory) : Machine :=
  let (globals, store) := memory.store.root
  { memory := { memory with store }
    globals, program := none, frames := [], fault := none, terminated := false }

/-- A machine without a program and without anything else. -/
def fresh : Machine := start ⟨.empty, 0⟩

/-- Loads a program and stands in front of its first statement. -/
def load (m : Machine) (p : Program) : Machine :=
  match p.body with
  | first :: _ =>
    { m with
      program := some p, fault := none, terminated := false
      frames := [.ofBody first.id m.globals none p.body] }
  | [] => { m with program := some p, fault := none, terminated := true, frames := [] }

/-- Ends the run. -/
def terminate (m : Machine) : Machine :=
  { m with frames := [], terminated := true }

/-- Hands a value to the innermost of the frames. -/
def resume (value : Value) : List Frame → List Frame
  | [] => []
  | frame :: frames => frame.pushValue value :: frames

/-- What the frames come to when everything in front of the next statement has been done. -/
inductive Settled where
  /-- The innermost frame stands in front of a statement. -/
  | ready (s : Stmt) (labels : List String) (frame : Frame) (callers : List Frame)
  /-- No frame is left. -/
  | done
  | failed (fault : Fault) (frames : List Frame)

/-- Bounds the work of all frames, each up to its next statement. -/
noncomputable def work : List Frame → Nat
  | [] => 0
  | frame :: frames => 1 + pending frame.tasks + work frames

theorem work_cons (frame : Frame) (frames : List Frame) :
    work (frame :: frames) = 1 + pending frame.tasks + work frames := rfl

theorem work_resume (value : Value) (frames : List Frame) :
    work (resume value frames) = work frames := by
  cases frames <;> simp [resume, work, Frame.pushValue]

/-- Does everything that comes before the next statement, and takes that statement off its frame. -/
def settle (p : Program) (mem : Memory) (frames : List Frame) : Memory × Settled :=
  match frames with
  | [] => (mem, .done)
  | frame :: callers =>
    match _htasks : frame.tasks with
    | [] => settle p mem (resume .undefined callers)
    | task :: tasks =>
      match _hstmt : task.statement? with
      | some (s, labels) => (mem, .ready s labels { frame with tasks } callers)
      | none =>
        match _heffect : mem.perform p callers { frame with tasks } task with
        | (mem', .stay frame') => settle p mem' (frame' :: callers)
        | (mem', .enter caller callee) => settle p mem' (callee :: caller :: callers)
        | (mem', .leave value) => settle p mem' (resume value callers)
        | (mem', .fail fault frame') => (mem', .failed fault (frame' :: callers))
termination_by work frames
decreasing_by
  · simp only [work_cons, work_resume]
    omega
  all_goals
    have hlt := Memory.weight_perform_lt p mem callers { frame with tasks } ‹_›
    have htasks : pending frame.tasks = task.weight + pending tasks := by
      rw [_htasks, pending_cons _ _ ‹_›]
    simp only [_heffect, Effect.weight, work_cons, work_resume] at hlt ⊢
    omega

/-- The machine that a program leaves: it stands in front of the next statement, has finished or
has failed, as the frames say. -/
def conclude (globals : Environment) (p : Program) : Memory × Settled → Machine × StepOutcome
  | (memory, .ready s labels frame callers) =>
    let frame := { frame with current := s.id }.schedule [.exec s labels]
    ({ memory, globals, program := some p, frames := frame :: callers, fault := none
       terminated := false }, .paused)
  | (memory, .done) =>
    ({ memory, globals, program := some p, frames := [], fault := none, terminated := true },
      .finished)
  | (memory, .failed fault frames) =>
    ({ memory, globals, program := some p, frames, fault := some fault, terminated := false },
      .failed fault)

/-- Runs a statement and everything that comes before the next one. -/
def runStatement (p : Program) (mem : Memory) (s : Stmt) (labels : List String) (frame : Frame)
    (callers : List Frame) : Memory × Settled :=
  match mem.exec frame labels s with
  | (mem, .stay frame) => settle p mem (frame :: callers)
  | (mem, .enter caller callee) => settle p mem (callee :: caller :: callers)
  | (mem, .leave value) => settle p mem (resume value callers)
  | (mem, .fail fault frame) => (mem, .failed fault (frame :: callers))

/-- Runs the next statement of the frames, if there is one, and everything that comes before the
one after it. -/
def advance (p : Program) (mem : Memory) (frames : List Frame) : Memory × Settled :=
  match settle p mem frames with
  | (mem, .ready s labels frame callers) => runStatement p mem s labels frame callers
  | settled => settled

/-- Runs one statement. A machine that has failed only finishes, and one that has finished stays as
it is. -/
def step (m : Machine) : Machine × StepOutcome :=
  if m.terminated then (m, .finished)
  else if m.fault.isSome then (m.terminate, .finished)
  else
    match m.program with
    | none => (m, .failed .noProgram)
    | some p => conclude m.globals p (advance p m.memory m.frames)

/-- Steps until the run has finished or failed; none if `fuel` steps are not enough. -/
def runFor (m : Machine) : (fuel : Nat) → Option (Machine × StepOutcome)
  | 0 => none
  | fuel + 1 =>
    match m.step with
    | (m, .paused) => m.runFor fuel
    | ended => some ended

end Machine

end LWorkbench
