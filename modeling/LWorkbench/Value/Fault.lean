import LWorkbench.Value

/-!
# Faults

A run that cannot go on stops with a fault. The wording of every fault is fixed here.

## Main definitions

* `Fault` — why a run stopped
* `Fault.message` — its wording
-/

namespace LWorkbench

/-- The sign of an operator. -/
def BinaryOp.sign : BinaryOp → String
  | add => "+"
  | subtract => "-"
  | multiply => "*"
  | divide => "/"
  | modulo => "%"
  | equal => "=="
  | notEqual => "!="
  | less => "<"
  | lessEqual => "<="
  | greater => ">"
  | greaterEqual => ">="

/-- Why a run stopped. -/
inductive Fault where
  /-- An operator does not apply to operands of these types. -/
  | notApplicable (op : BinaryOp) (left right : ValueType)
  | notNegatable (type : ValueType)
  | notIndexable (indexed index : ValueType)
  /-- A property was asked of `undefined` or `null`. -/
  | noProperty (name : String) (type : ValueType)
  | notDefined (name : String)
  | notCallable (type : ValueType)
  /-- A function value names a node that is no function of the program. -/
  | notAFunction (node : NodeId)
  | tooManyFrames
  | undefinedLabel (name : String)
  | illegalBreak
  | illegalContinue
  /-- A task found fewer values than it takes. -/
  | missingValue
  | noProgram
  deriving DecidableEq, Repr

/-- The wording of a fault. -/
def Fault.message : Fault → String
  | notApplicable op left right =>
    s!"Cannot apply '{op.sign}' to {left.word} and {right.word}"
  | notNegatable type => s!"Cannot negate {type.word}"
  | notIndexable indexed index => s!"Cannot index {indexed.word} with {index.word}"
  | noProperty name type => s!"Cannot read property '{name}' of {type.word}"
  | notDefined name => s!"'{name}' is not defined"
  | notCallable type => s!"{type.word} is not a function"
  | notAFunction node => s!"Node NodeId({node}) is not a function"
  | tooManyFrames => "Maximum call stack size exceeded"
  | undefinedLabel name => s!"Undefined label '{name}'"
  | illegalBreak => "Illegal break statement"
  | illegalContinue => "Illegal continue statement"
  | missingValue => "Value stack underflow"
  | noProgram => "No program loaded"

end LWorkbench
