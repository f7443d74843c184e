import LWorkbench.Machine

/-!
# The structural semantics

What a program means, by recursion on its syntax tree. An expression comes to a value or a fault; a
statement completes normally or by a jump, a return or a fault, which the enclosing statements
either catch or hand on. The chain of scopes is an argument, so whoever opens a scope for a part of
the program has the outer chain back as soon as that part is done, however it completes.

Loops and calls need not end. Both are bounded: a loop by a number of rounds, and a call by a
number of calls inside each other. Beyond the bound there is no outcome, and a program has a
meaning when some bound is large enough.

## Main definitions

* `Completion` — how a statement completes; `Completion.result` at the end of an activation
* `Evaluation`, `Execution` — expressions and statements as functions on memory
* `Expr.value` — the value of an expression
* `Stmt.run` — running a statement
* `Program.call` — calling a function
* `Program.value` — a whole program
-/

namespace LWorkbench

/-- How a statement completes. -/
inductive Completion where
  | normal
  /-- On the way out of the nearest loop, or of the nearest statement with the label. -/
  | breakTo (label : Option Name)
  /-- On the way to the next round of the nearest loop, or of the nearest loop with the label. -/
  | continueTo (label : Option Name)
  | returnWith (value : Value)
  | fault (f : Fault)

namespace Completion

/-- What an activation comes to. Jumps do not leave it, and without a return it is `undefined`. -/
def result : Completion → Except Fault Value
  | normal => .ok .undefined
  | returnWith value => .ok value
  | breakTo (some label) => .error (.undefinedLabel label.identifier)
  | breakTo none => .error .illegalBreak
  | continueTo (some label) => .error (.undefinedLabel label.identifier)
  | continueTo none => .error .illegalContinue
  | fault f => .error f

/-- The completion of a labeled statement: it catches every `break` with its label. -/
def pastLabel (label : String) : Completion → Completion
  | breakTo (some target) =>
    if target.identifier = label then normal else breakTo (some target)
  | completion => completion

end Completion

/-- Computations on memory that have no outcome beyond some bound. -/
abbrev Bounded := StateT Memory Option

/-- Computations of values that may end in a fault. -/
abbrev Evaluation := ExceptT Fault Bounded

/-- Computations that complete as statements do. -/
abbrev Execution := Bounded Completion

/-- What calling a function with arguments comes to. -/
abbrev Caller := Closure → List Value → Evaluation Value

namespace Evaluation

/-- The value of the nearest variable with a name. -/
def lookup (env : Environment) (name : String) : Evaluation Value := do
  match (← getThe Memory).store.lookup? env name with
  | some value => return value
  | none => throw (.notDefined name)

/-- Changes the nearest variable with a name. -/
def assign (env : Environment) (name : String) (value : Value) : Evaluation Unit := do
  match (← getThe Memory).store.assign? env name value with
  | some store => modifyThe Memory ({ · with store })
  | none => throw (.notDefined name)

/-- A new function over a chain of scopes. -/
def closure (node : NodeId) (env : Environment) : Evaluation Value :=
  modifyGetThe Memory fun mem =>
    (.function ⟨mem.closureCount, node, env⟩, { mem with closureCount := mem.closureCount + 1 })

/-- Calls a value, which has to be a function. -/
def apply (call : Caller) (callee : Value) (args : List Value) : Evaluation Value :=
  match callee with
  | .function closure => call closure args
  | _ => throw (.notCallable callee.type)

/-- Goes on with a value as a statement does: a fault completes the statement. -/
def complete {α : Type} (x : Evaluation α) (next : α → Execution) : Execution := do
  match ← x.run with
  | .ok a => next a
  | .error f => return .fault f

theorem bind_apply {α β : Type} (x : Evaluation α) (f : α → Evaluation β) (mem : Memory) :
    (x >>= f) mem = match x mem with
      | none => none
      | some (.ok a, mem) => f a mem
      | some (.error e, mem) => some (.error e, mem) := by
  show (x mem).bind _ = _
  cases x mem with
  | none => rfl
  | some r =>
    obtain ⟨r, mem⟩ := r
    cases r <;> rfl

theorem lookup_apply (env : Environment) (name : String) (mem : Memory) :
    lookup env name mem = match mem.store.lookup? env name with
      | some value => some (.ok value, mem)
      | none => some (.error (.notDefined name), mem) := by
  show (match mem.store.lookup? env name with
    | some value => (pure value : Evaluation Value)
    | none => throw (Fault.notDefined name)) mem = _
  cases mem.store.lookup? env name <;> rfl

theorem assign_apply (env : Environment) (name : String) (value : Value) (mem : Memory) :
    assign env name value mem = match mem.store.assign? env name value with
      | some store => some (.ok (), { mem with store })
      | none => some (.error (.notDefined name), mem) := by
  show (match mem.store.assign? env name value with
    | some store => (modifyThe Memory ({ · with store }) : Evaluation Unit)
    | none => throw (Fault.notDefined name)) mem = _
  cases mem.store.assign? env name value <;> rfl

theorem complete_apply {α : Type} (x : Evaluation α) (next : α → Execution) (mem : Memory) :
    x.complete next mem = match x mem with
      | none => none
      | some (.ok a, mem) => next a mem
      | some (.error f, mem) => some (.fault f, mem) := by
  show (x mem).bind _ = _
  cases x mem with
  | none => rfl
  | some r =>
    obtain ⟨r, mem⟩ := r
    cases r <;> rfl

end Evaluation

/-! ### Expressions -/

mutual

/-- The value of an expression in a chain of scopes. -/
def Expr.value (call : Caller) (env : Environment) : Expr → Evaluation Value
  | .literal _ value => return .ofLiteral value
  | .name n => Evaluation.lookup env n.identifier
  | .array _ items => return .array (← Expr.values call env items)
  | .tuple _ items => return .tuple (← Expr.values call env items)
  | .object _ properties => do
    let values ← Expr.propertyValues call env properties
    return .object ((properties.map (·.1)).zip values)
  | .function site _ _ => Evaluation.closure site.id env
  | .unary _ op e => do
    let operand ← e.value call env
    liftExcept (operand.unary op)
  | .binary _ op e₁ e₂ => do
    let left ← e₁.value call env
    let right ← e₂.value call env
    liftExcept (left.binary op right)
  | .logical _ op e₁ e₂ => do
    let left ← e₁.value call env
    if Memory.settles op left then return left else e₂.value call env
  | .assign _ target e => do
    let value ← e.value call env
    Evaluation.assign env target.identifier value
    return value
  | .call _ e es => do
    let callee ← e.value call env
    let args ← Expr.values call env es
    Evaluation.apply call callee args
  | .member _ e property => do
    let holder ← e.value call env
    liftExcept (holder.member property)
  | .index _ e₁ e₂ => do
    let holder ← e₁.value call env
    let place ← e₂.value call env
    liftExcept (holder.index place)

/-- The values of expressions, from left to right. -/
def Expr.values (call : Caller) (env : Environment) : List Expr → Evaluation (List Value)
  | [] => return []
  | e :: es => do
    let value ← e.value call env
    return value :: (← Expr.values call env es)

/-- The values of properties, from left to right. -/
def Expr.propertyValues (call : Caller) (env : Environment) :
    List (String × Expr) → Evaluation (List Value)
  | [] => return []
  | (_, e) :: es => do
    let value ← e.value call env
    return value :: (← Expr.propertyValues call env es)

end

/-- Every expression of a list gives one value. -/
theorem Expr.length_values {call : Caller} {env : Environment} {es : List Expr} {mem mem' : Memory}
    {vs : List Value} (h : Expr.values call env es mem = some (.ok vs, mem')) :
    vs.length = es.length := by
  induction es generalizing mem vs with
  | nil =>
    cases h
    rfl
  | cons e es ih =>
    rw [Expr.values, Evaluation.bind_apply] at h
    split at h
    · cases h
    · rw [Evaluation.bind_apply] at h
      split at h
      · cases h
      · rename_i hvs
        cases h
        simp [ih hvs]
      · cases h
    · cases h

/-- Every property gives one value. -/
theorem Expr.length_propertyValues {call : Caller} {env : Environment}
    {es : List (String × Expr)} {mem mem' : Memory} {vs : List Value}
    (h : Expr.propertyValues call env es mem = some (.ok vs, mem')) : vs.length = es.length := by
  induction es generalizing mem vs with
  | nil =>
    cases h
    rfl
  | cons e es ih =>
    rw [Expr.propertyValues, Evaluation.bind_apply] at h
    split at h
    · cases h
    · rw [Evaluation.bind_apply] at h
      split at h
      · cases h
      · rename_i hvs
        cases h
        simp [ih hvs]
      · cases h
    · cases h

/-! ### Statements -/

namespace Execution

/-- Opens a scope for variables in front of a chain. -/
def openScope (env : Environment) : Bounded Environment := do
  let (inner, store) := (← get).store.extend env .variable
  modify ({ · with store })
  return inner

/-- Declares a variable in the innermost scope of a chain. -/
def declare (env : Environment) (name : String) (value : Value) : Execution := do
  modify fun mem => { mem with store := mem.store.declare env name value }
  return .normal

/-- Goes round a loop, at most `rounds` times. The loop catches a `break` without a label, and a
`continue` without a label or with one of the labels directly in front of the loop. -/
def loop (condition : Evaluation Value) (body : Execution) (labels : List String) :
    (rounds : Nat) → Execution
  | 0 => failure
  | rounds + 1 => condition.complete fun value =>
    if value.isTruthy then do
      match ← body with
      | .normal => loop condition body labels rounds
      | .breakTo none => return .normal
      | .continueTo label =>
        if label.all fun n => labels.contains n.identifier then
          loop condition body labels rounds
        else return .continueTo label
      | completion => return completion
    else return .normal

end Execution

mutual

/-- Runs a statement in a chain of scopes, with the labels that stand directly in front of it. -/
def Stmt.run (call : Caller) (rounds : Nat) (env : Environment) (labels : List String) :
    Stmt → Execution
  | .declare _ name none => Execution.declare env name.identifier .undefined
  | .declare _ name (some init) =>
    (init.value call env).complete (Execution.declare env name.identifier)
  | .evaluate _ e => (e.value call env).complete fun _ => return .normal
  | .block _ body => do
    let inner ← Execution.openScope env
    Stmt.runAll call rounds inner body
  | .labeled _ label s => do
    let completion ← s.run call rounds env (label.identifier :: labels)
    return completion.pastLabel label.identifier
  | .branch _ condition s₁ none => (condition.value call env).complete fun value =>
    if value.isTruthy then s₁.run call rounds env [] else return .normal
  | .branch _ condition s₁ (some s₂) => (condition.value call env).complete fun value =>
    if value.isTruthy then s₁.run call rounds env [] else s₂.run call rounds env []
  | .loop _ condition body =>
    Execution.loop (condition.value call env) (body.run call rounds env []) labels rounds
  | .breakTo _ label => return .breakTo label
  | .continueTo _ label => return .continueTo label
  | .returnWith _ none => return .returnWith .undefined
  | .returnWith _ (some e) => (e.value call env).complete fun value => return .returnWith value

/-- Runs statements one after another, until one does not complete normally. -/
def Stmt.runAll (call : Caller) (rounds : Nat) (env : Environment) : List Stmt → Execution
  | [] => return .normal
  | s :: ss => do
    match ← s.run call rounds env [] with
    | .normal => Stmt.runAll call rounds env ss
    | completion => return completion

end

/-! ### Functions and programs -/

/-- The value of an activation: its statements are run, and its completion gives the value. -/
def Stmt.activation (call : Caller) (rounds : Nat) (env : Environment) (body : List Stmt) :
    Evaluation Value := do
  let completion ← Stmt.runAll call rounds env body
  liftExcept completion.result

theorem Stmt.activation_apply (call : Caller) (rounds : Nat) (env : Environment)
    (body : List Stmt) (mem : Memory) :
    Stmt.activation call rounds env body mem =
      match Stmt.runAll call rounds env body mem with
      | none => none
      | some (completion, mem) => some (completion.result, mem) := by
  have hlift (completion : Completion) (mem : Memory) :
      (liftExcept completion.result : Evaluation Value) mem = some (completion.result, mem) := by
    cases completion.result <;> rfl
  unfold Stmt.activation
  rw [Evaluation.bind_apply]
  have hrun : (liftM (Stmt.runAll call rounds env body) : Evaluation Completion) mem =
      match Stmt.runAll call rounds env body mem with
      | none => none
      | some (completion, mem) => some (.ok completion, mem) := by
    show (Stmt.runAll call rounds env body mem).bind _ = _
    cases Stmt.runAll call rounds env body mem <;> rfl
  rw [hrun]
  cases Stmt.runAll call rounds env body mem with
  | none => rfl
  | some r => exact hlift r.1 r.2

namespace Program

/-- The parameters and the body of the function with a number. -/
def function? (p : Program) (id : NodeId) : Option (List Name × List Stmt) :=
  match p.node? id with
  | some (.expr (.function _ params body)) => some (params, body)
  | _ => none

/-- Calls a function of the program while `depth` activations are under way. The activation has a
scope of its own in front of the chain of the function. -/
def call (p : Program) : (bound depth : Nat) → Caller
  | 0, _, _, _ => ExceptT.lift failure
  | bound + 1, depth, closure, args =>
    match p.function? closure.node with
    | some (params, body) =>
      if frameLimit ≤ depth then throw .tooManyFrames
      else do
        let inner ← Execution.openScope closure.environment
        modifyThe Memory fun mem =>
          { mem with store := Memory.bindParams mem.store inner params args }
        Stmt.activation (p.call bound (depth + 1)) bound inner body
    | none => throw (.notAFunction closure.node)

/-- The value of a whole program in a chain of scopes. -/
def value (p : Program) (bound : Nat) (env : Environment) : Evaluation Value :=
  Stmt.activation (p.call bound 1) bound env p.body

end Program

end LWorkbench
