import LWorkbench.Debugger.Inspection
import LWorkbench.FileTree
import LWorkbench.Machine
import LWorkbench.Text.Position

/-!
# The program under debugging

A debuggee is a machine together with the text its program was read from and the handles that a
client has been given. Loading a program starts a new machine, but scopes and values of earlier runs
stay, because handles may stand for them.

## Main definitions

* `Convention` — whether a client counts lines and columns from one or from zero
* `StackFrame`, `ScopeGroup` — frames and scopes as a client sees them
* `Debuggee` — machine, text and handles
* `Debuggee.load`, `Debuggee.step`, `Debuggee.runFor` — starting a program and running it
* `Debuggee.stackTrace`, `Debuggee.scopes`, `Debuggee.expand` — looking into it
-/

namespace LWorkbench

/-- Whether a client counts lines and columns from one; otherwise it counts from zero. -/
structure Convention where
  linesFromOne : Bool := true
  columnsFromOne : Bool := true
  deriving DecidableEq, Repr

/-- A line or column in the way in which the client counts. -/
def Convention.number (fromOne : Bool) (n : Nat) : Nat :=
  if fromOne then n else n - 1

/-- The text of the program that is loaded, and the path it was read from. -/
structure SourceFile where
  path : String
  text : String
  deriving DecidableEq, Repr

/-- A frame as a client sees it. -/
structure StackFrame where
  id : Nat
  name : String
  path : String
  line : Nat
  column : Nat
  deriving DecidableEq, Repr

/-- A scope of a frame as a client sees it, with the handle to look into it. -/
structure ScopeGroup where
  name : String
  reference : Nat
  deriving DecidableEq, Repr

/-- A machine with the text of its program and the handles of its client. -/
structure Debuggee where
  machine : Machine
  handles : Handles Inspectable
  loaded : Option SourceFile
  convention : Convention

namespace Debuggee

/-- A debuggee without a program. -/
def fresh : Debuggee :=
  { machine := .fresh, handles := .empty, loaded := none, convention := {} }

/-- Loads a program on a new machine and stands in front of its first statement. -/
def load (d : Debuggee) (source : SourceFile) (p : Program) : Debuggee :=
  { d with machine := (Machine.start d.machine.memory).load p, loaded := some source }

/-- Runs one statement. -/
def step (d : Debuggee) : Debuggee × StepOutcome :=
  let (machine, outcome) := d.machine.step
  ({ d with machine }, outcome)

/-- Runs to the end or to a fault; none if `fuel` steps are not enough. -/
def runFor (d : Debuggee) (fuel : Nat) : Option (Debuggee × StepOutcome) :=
  (d.machine.runFor fuel).map fun (machine, outcome) => ({ d with machine }, outcome)

/-- A frame as a client sees it. -/
def stackFrame (d : Debuggee) (p : Program) (source : SourceFile) (id : Nat) (frame : Frame) :
    StackFrame :=
  let offset := ((p.span? frame.current).map Span.start).getD 0
  let position := Position.ofOffset source.text offset
  { id
    name := if frame.function.isSome then "(function)" else "(program)"
    path := source.path
    line := Convention.number d.convention.linesFromOne position.line
    column := Convention.number d.convention.columnsFromOne position.column }

/-- A page of the frames, innermost first, and the number of all frames. The page begins at frame
`start` and has `levels` frames, where none and zero stand for all. A frame is told by its place. -/
def stackTrace (d : Debuggee) (start : Nat) (levels : Option Nat) : List StackFrame × Nat :=
  match d.machine.program, d.loaded with
  | some p, some source =>
    let frames := d.machine.frames
    let total := frames.length
    let levels := (levels.filter (0 < ·)).getD total
    let page := (frames.zipIdx.drop start).take levels
    (page.map fun (frame, id) => d.stackFrame p source id frame, total)
  | _, _ => ([], 0)

/-- Groups for the scopes, each with a new handle. -/
def groups (handles : Handles Inspectable) :
    List ScopeId → List ScopeGroup × Handles Inspectable
  | [] => ([], handles)
  | id :: ids =>
    let (reference, handles) := handles.create (.scope id)
    let (others, handles) := groups handles ids
    (⟨"Locals", reference⟩ :: others, handles)

/-- The scopes of a frame from the innermost on, each with a new handle; none for an unknown
frame. -/
def scopes (d : Debuggee) (frame : Nat) : Debuggee × List ScopeGroup :=
  match d.machine.frames[frame]? with
  | none => (d, [])
  | some frame =>
    let (list, handles) := groups d.handles frame.environment.scopeIds
    ({ d with handles }, list)

/-- The parts of what a handle stands for; none for an unknown handle. -/
def expand (d : Debuggee) (handle : Int) : Debuggee × List Variable :=
  match d.handles.get? handle with
  | none => (d, [])
  | some entity =>
    let (list, handles) :=
      Variable.list d.handles (entity.children d.machine.memory.store)
    ({ d with handles }, list)

end Debuggee

end LWorkbench
