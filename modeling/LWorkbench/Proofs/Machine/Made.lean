import LWorkbench.Machine
import LWorkbench.Proofs.Machine.Operations
import LWorkbench.Proofs.Store

/-!
# Scopes that have been made

A machine never gives up a scope, and it holds no number of a scope that is still to be made: not in
its frames, not in the tasks that put chains back, and not in the functions inside of values. So a
number that is found in a machine once stands for the same scope from then on, also when another
program has been loaded.

## Main definitions

* `Environment.Below`, `Closure.Below`, `Frame.Below` — only scopes with lower numbers are held
* `Memory.size` — the number of scopes made so far
* `Memory.Whole`, `Machine.Whole` — only scopes that have been made are held

## Main results

* `Memory.keeps_perform` — what performing a task keeps
* `Machine.Whole.step`, `Machine.Whole.runFor` — what running keeps
* `Machine.whole_start`, `Machine.Whole.load` — what loading another program keeps
-/

namespace LWorkbench

/-- The chain runs only through scopes with lower numbers. -/
def Environment.Below (n : Nat) (env : Environment) : Prop :=
  ∀ id ∈ env.scopeIds, id < n

/-- The function sees only scopes with lower numbers. -/
def Closure.Below (n : Nat) (c : Closure) : Prop := c.environment.Below n

/-- A chain that the task puts back runs only through scopes with lower numbers. -/
def Task.Below (n : Nat) : Task → Prop
  | .restore env => env.Below n
  | _ => True

/-- The frame holds only scopes with lower numbers. -/
structure Frame.Below (n : Nat) (frame : Frame) : Prop where
  environment : frame.environment.Below n
  values : ∀ v ∈ frame.values, v.Every (Closure.Below n)
  tasks : ∀ task ∈ frame.tasks, task.Below n

/-- What performing a task comes to holds only scopes with lower numbers. -/
def Effect.Below (n : Nat) : Effect → Prop
  | .stay frame => frame.Below n
  | .enter caller callee => caller.Below n ∧ callee.Below n
  | .leave value => value.Every (Closure.Below n)
  | .fail _ frame => frame.Below n

/-- The number of scopes made so far. -/
def Memory.size (mem : Memory) : Nat := mem.store.scopes.size

/-- The values in scopes hold only scopes that have been made. -/
def Memory.Whole (mem : Memory) : Prop :=
  ∀ id, ∀ e ∈ (mem.store.scope id).entries, e.2.Every (Closure.Below mem.size)

section

variable {n m : Nat} {env : Environment} {c : Closure} {v : Value} {task : Task} {frame : Frame}
  {mem : Memory}

/-! ### Higher bounds -/

theorem Environment.Below.mono (h : env.Below n) (hle : n ≤ m) : env.Below m :=
  fun id hid => Nat.lt_of_lt_of_le (h id hid) hle

theorem Value.Every.below_mono (h : v.Every (Closure.Below n)) (hle : n ≤ m) :
    v.Every (Closure.Below m) :=
  h.mono fun _ hc => Environment.Below.mono hc hle

theorem Task.Below.mono (h : task.Below n) (hle : n ≤ m) : task.Below m := by
  cases task with
  | restore env => exact Environment.Below.mono h hle
  | _ => trivial

theorem Frame.Below.mono (h : frame.Below n) (hle : n ≤ m) : frame.Below m :=
  ⟨h.environment.mono hle, fun v hv => (h.values v hv).below_mono hle,
    fun task htask => (h.tasks task htask).mono hle⟩

/-! ### Frames -/

namespace Frame.Below

theorem pushValue (h : frame.Below n) (hv : v.Every (Closure.Below n)) :
    (frame.pushValue v).Below n :=
  ⟨h.environment, List.forall_mem_cons.2 ⟨hv, h.values⟩, h.tasks⟩

theorem dropValues (h : frame.Below n) {values : List Value} (hvalues : values ⊆ frame.values) :
    ({ frame with values } : Frame).Below n :=
  ⟨h.environment, fun v hv => h.values v (hvalues hv), h.tasks⟩

theorem schedule (h : frame.Below n) {tasks : List Task} (htasks : ∀ task ∈ tasks, task.Below n) :
    (frame.schedule tasks).Below n :=
  ⟨h.environment, h.values, List.forall_mem_append.2 ⟨htasks, h.tasks⟩⟩

theorem take (h : frame.Below n) {tasks : List Task} (htasks : frame.tasks = task :: tasks) :
    task.Below n ∧ ({ frame with tasks } : Frame).Below n := by
  have hall := h.tasks
  rw [htasks] at hall
  obtain ⟨hfirst, hrest⟩ := List.forall_mem_cons.1 hall
  exact ⟨hfirst, h.environment, h.values, hrest⟩

end Frame.Below

theorem Task.below_execs (body : List Stmt) :
    ∀ task ∈ body.map (Task.exec · []), task.Below n := by
  intro task htask
  obtain ⟨s, -, rfl⟩ := List.mem_map.1 htask
  trivial

theorem Task.below_evals {α : Type} (node : α → Expr) (items : List α) :
    ∀ task ∈ items.map (fun x => Task.eval (node x)), task.Below n := by
  intro task htask
  obtain ⟨x, -, rfl⟩ := List.mem_map.1 htask
  trivial

/-! ### Jumps -/

theorem Frame.below_unwindTasks (wanted : Task → Bool) {tasks : List Task} {env : Environment}
    (htasks : ∀ task ∈ tasks, task.Below n) (henv : env.Below n) :
    (Frame.unwindTasks wanted tasks env).2.Below n ∧
      ∀ found rest, (Frame.unwindTasks wanted tasks env).1 = some (found, rest) →
        ∀ task ∈ rest, task.Below n := by
  induction tasks generalizing env with
  | nil => exact ⟨henv, nofun⟩
  | cons first tasks ih =>
    obtain ⟨hfirst, hrest⟩ := List.forall_mem_cons.1 htasks
    unfold Frame.unwindTasks
    split
    · refine ⟨henv, fun found rest heq => ?_⟩
      cases heq
      exact hrest
    · split
      · exact ih hrest hfirst
      · exact ih hrest henv

theorem Frame.Below.unwind (h : frame.Below n) (wanted : Task → Bool) :
    (frame.unwind wanted).2.Below n := by
  obtain ⟨henv, hrest⟩ := Frame.below_unwindTasks wanted h.tasks h.environment
  unfold Frame.unwind
  split
  · rename_i heq
    rw [heq] at henv hrest
    exact ⟨henv, h.values, hrest _ _ rfl⟩
  · rename_i heq
    rw [heq] at henv
    exact ⟨henv, h.values, List.forall_mem_nil _⟩

theorem Frame.Below.breakOut (h : frame.Below n) (label : Option Name) :
    (Memory.breakOut frame label).Below n := by
  have hunwind := h.unwind (Memory.breaksAt label)
  unfold Memory.breakOut
  split <;>
  · rename_i heq
    rw [heq] at hunwind
    exact hunwind

theorem Frame.Below.continueLoop (h : frame.Below n) (label : Option Name) :
    (Memory.continueLoop frame label).Below n := by
  have hunwind := h.unwind (Memory.continuesAt label)
  unfold Memory.continueLoop
  split
  · rename_i l frame' heq
    rw [heq] at hunwind
    refine hunwind.schedule fun task htask => ?_
    simp only [Memory.roundTasks, List.mem_cons, List.not_mem_nil, or_false] at htask
    obtain rfl | rfl | rfl := htask <;> trivial
  · rename_i heq
    rw [heq] at hunwind
    exact hunwind

/-! ### Scopes -/

namespace Memory.Whole

theorem lookup (h : mem.Whole) {name : String} (hlookup : mem.store.lookup? env name = some v) :
    v.Every (Closure.Below mem.size) := by
  obtain ⟨id, -, e, he, rfl⟩ := Store.exists_entry_of_lookup? hlookup
  exact h id e he

theorem declareIn (h : mem.Whole) (hv : v.Every (Closure.Below mem.size)) (id : ScopeId)
    (name : String) :
    ({ mem with store := mem.store.declareIn id name v } : Memory).Whole := by
  intro other e he
  have hsize : ({ mem with store := mem.store.declareIn id name v } : Memory).size = mem.size :=
    Store.size_declareIn
  rw [hsize]
  obtain hput | ⟨rfl, hput⟩ := Store.scope_put mem.store id other
    ((mem.store.scope id).declare name v)
  · rw [Store.declareIn, hput] at he
    exact h other e he
  · rw [Store.declareIn, hput] at he
    obtain he | he := Scope.mem_entries_declare he
    · exact h id e he
    · rw [he]
      exact hv

theorem push (h : mem.Whole) {store : Store Value} (kind : ScopeKind)
    (hscopes : store.scopes = mem.store.scopes.push (.empty kind)) (closureCount : Nat) :
    (⟨store, closureCount⟩ : Memory).size = mem.size + 1 ∧
      (⟨store, closureCount⟩ : Memory).Whole := by
  have hsize : (⟨store, closureCount⟩ : Memory).size = mem.size + 1 := by
    rw [size, hscopes, Array.size_push]
    rfl
  refine ⟨hsize, fun id e he => ?_⟩
  rw [hsize]
  refine Value.Every.below_mono (h id e ?_) (Nat.le_succ _)
  simp only [Store.scope, hscopes, Array.getElem?_push] at he ⊢
  split at he
  · cases he
  · exact he

/-- A new scope in front of a chain. -/
theorem extend (h : mem.Whole) (henv : env.Below mem.size) (kind : ScopeKind) :
    ({ mem with store := (mem.store.extend env kind).2 } : Memory).size = mem.size + 1 ∧
      ({ mem with store := (mem.store.extend env kind).2 } : Memory).Whole ∧
      (mem.store.extend env kind).1.Below (mem.size + 1) := by
  obtain ⟨hsize, hwhole⟩ := h.push kind Store.scopes_extend mem.closureCount
  refine ⟨hsize, hwhole, ?_⟩
  intro id hid
  rw [Store.scopeIds_extend, List.mem_cons] at hid
  obtain rfl | hid := hid
  · exact Nat.lt_succ_self _
  · exact Nat.lt_succ_of_lt (henv id hid)

theorem bindParams {store : Store Value} {closureCount : Nat}
    (h : (⟨store, closureCount⟩ : Memory).Whole) (env : Environment) (params : List Name)
    {args : List Value} (hargs : ∀ v ∈ args, v.Every (Closure.Below store.scopes.size)) :
    (⟨Memory.bindParams store env params args, closureCount⟩ : Memory).size = store.scopes.size ∧
      (⟨Memory.bindParams store env params args, closureCount⟩ : Memory).Whole := by
  induction params generalizing store args with
  | nil => exact ⟨rfl, h⟩
  | cons param params ih =>
    have hvalue : (args.headD .undefined).Every (Closure.Below store.scopes.size) := by
      cases args with
      | nil => exact .undefined
      | cons v args => exact hargs v List.mem_cons_self
    have hsize : (store.declare env param.identifier (args.headD .undefined)).scopes.size =
        store.scopes.size := Store.size_declareIn
    have hothers : ∀ v ∈ args.tail, v.Every (Closure.Below
        (store.declare env param.identifier (args.headD .undefined)).scopes.size) := by
      intro v hv
      rw [hsize]
      exact hargs v (List.mem_of_mem_tail hv)
    have hrest := ih (h.declareIn hvalue env.scopeId param.identifier) hothers
    exact ⟨hrest.1.trans hsize, hrest.2⟩

end Memory.Whole

/-! ### Performing tasks -/

/-- What performing something comes to: no scope is given up, and only scopes that have been made
are held. -/
structure Memory.Keeps (mem : Memory) (r : Memory × Effect) : Prop where
  size : mem.size ≤ r.1.size
  whole : r.1.Whole
  below : r.2.Below r.1.size

theorem Memory.keeps_of_size {mem' : Memory} {effect : Effect} (hsize : mem'.size = n)
    (hle : mem.size ≤ n) (hwhole : mem'.Whole) (heffect : effect.Below n) :
    mem.Keeps (mem', effect) := by
  subst hsize
  exact ⟨hle, hwhole, heffect⟩

theorem Memory.Whole.keeps (h : mem.Whole) {effect : Effect} (heffect : effect.Below mem.size) :
    mem.Keeps (mem, effect) :=
  ⟨Nat.le_refl _, h, heffect⟩

namespace Effect

theorem below_withValue (h : frame.Below n) {next : Value → Frame → Effect}
    (hnext : ∀ v values, v.Every (Closure.Below n) → ({ frame with values } : Frame).Below n →
      (next v { frame with values }).Below n) : (withValue frame next).Below n := by
  unfold withValue
  split
  · rename_i v values heq
    exact hnext v values (h.values v (by rw [heq]; exact List.mem_cons_self))
      (h.dropValues (by rw [heq]; exact List.subset_cons_self _ _))
  · exact h

theorem below_result (h : frame.Below n) {r : Except Fault Value}
    (hr : Except.Every (Closure.Below n) r) : (result frame r).Below n := by
  cases r with
  | ok v => exact h.pushValue hr
  | error fault => exact h

end Effect

namespace Memory

/-- Running a statement. -/
theorem keeps_exec (hmem : mem.Whole) (hframe : frame.Below mem.size) (labels : List String)
    (s : Stmt) : mem.Keeps (mem.exec frame labels s) := by
  have htwo : ∀ {first second : Task}, first.Below mem.size → second.Below mem.size →
      (frame.schedule [first, second]).Below mem.size := fun hfirst hsecond =>
    hframe.schedule (List.forall_mem_cons.2 ⟨hfirst, List.forall_mem_singleton.2 hsecond⟩)
  have hundefined : ∀ {task : Task}, task.Below mem.size →
      ((frame.pushValue .undefined).schedule [task]).Below mem.size := fun htask =>
    (hframe.pushValue .undefined).schedule (List.forall_mem_singleton.2 htask)
  cases s with
  | declare site name init =>
    cases init with
    | some init => exact hmem.keeps (htwo trivial trivial)
    | none => exact hmem.keeps (hundefined trivial)
  | evaluate site e => exact hmem.keeps (htwo trivial trivial)
  | block site body =>
    -- The frame goes over to the new scope, and the task behind the body puts the old chain back.
    obtain ⟨hsize, hwhole, hinner⟩ := hmem.extend hframe.environment .variable
    have hle : mem.size ≤ mem.size + 1 := Nat.le_succ _
    have hbelow := hframe.mono hle
    have hinside : ({ frame with
        environment := (mem.store.extend frame.environment .variable).1 } : Frame).Below
          (mem.size + 1) := ⟨hinner, hbelow.values, hbelow.tasks⟩
    exact keeps_of_size hsize hle hwhole (hinside.schedule (List.forall_mem_append.2
      ⟨Task.below_execs body, List.forall_mem_singleton.2 (hframe.environment.mono hle)⟩))
  | labeled site label body => exact hmem.keeps (htwo trivial trivial)
  | branch site condition thenBranch elseBranch => exact hmem.keeps (htwo trivial trivial)
  | loop site condition body =>
    exact hmem.keeps (hframe.schedule (List.forall_mem_cons.2 ⟨trivial,
      List.forall_mem_cons.2 ⟨trivial, List.forall_mem_singleton.2 trivial⟩⟩))
  | breakTo site label => exact hmem.keeps (hframe.breakOut label)
  | continueTo site label => exact hmem.keeps (hframe.continueLoop label)
  | returnWith site value =>
    cases value with
    | some value => exact hmem.keeps (htwo trivial trivial)
    | none => exact hmem.keeps (hundefined trivial)

/-- Evaluating an expression. -/
theorem keeps_eval (hmem : mem.Whole) (hframe : frame.Below mem.size) (e : Expr) :
    mem.Keeps (mem.eval frame e) := by
  -- Most expressions only schedule the evaluation of their parts and one more task.
  have hlist : ∀ {α : Type} (node : α → Expr) (items : List α) {task : Task},
      task.Below mem.size →
      (frame.schedule (items.map (fun x => Task.eval (node x)) ++ [task])).Below mem.size :=
    fun node items _ htask => hframe.schedule (List.forall_mem_append.2
      ⟨Task.below_evals node items, List.forall_mem_singleton.2 htask⟩)
  cases e with
  | literal site value => exact hmem.keeps (hframe.pushValue (Value.every_ofLiteral value))
  | name x =>
    simp only [eval]
    split
    · rename_i value hlookup
      exact hmem.keeps (hframe.pushValue (hmem.lookup hlookup))
    · exact hmem.keeps hframe
  | array site items => exact hmem.keeps (hlist id items trivial)
  | tuple site items => exact hmem.keeps (hlist id items trivial)
  | object site properties =>
    have htask : Task.Below mem.size (.object (properties.map (·.1))) := trivial
    exact hmem.keeps (hlist (fun q : String × Expr => q.2) properties htask)
  | function site params body =>
    exact ⟨Nat.le_refl _, hmem, hframe.pushValue (.function hframe.environment)⟩
  | unary site op operand => exact hmem.keeps (hlist id [operand] trivial)
  | binary site op left right => exact hmem.keeps (hlist id [left, right] trivial)
  | logical site op left right => exact hmem.keeps (hlist id [left] trivial)
  | assign site target value => exact hmem.keeps (hlist id [value] trivial)
  | call site callee args => exact hmem.keeps (hlist id (callee :: args) trivial)
  | member site object property => exact hmem.keeps (hlist id [object] trivial)
  | index site object index => exact hmem.keeps (hlist id [object, index] trivial)

/-- Calling the value below the arguments. -/
theorem keeps_call (p : Program) (callers : List Frame) (hmem : mem.Whole)
    (hframe : frame.Below mem.size) (count : Nat) :
    mem.Keeps (mem.call p callers frame count) := by
  rcases call_cases p mem callers frame count with ⟨fault, values, hrest, hcall⟩ |
    ⟨closure, values, site, params, body, current, hdrop, -, hcall⟩
  · rw [hcall]
    exact hmem.keeps (hframe.dropValues hrest)
  · have hvalues : Value.function closure :: values ⊆ frame.values := by
      rw [← hdrop]
      exact List.drop_subset _ _
    obtain ⟨hcallee, hrest⟩ := List.cons_subset.1 hvalues
    have hclosure : closure.Below mem.size := by
      cases hframe.values _ hcallee with
      | function h => exact h
    have hargs : ∀ v ∈ (frame.values.take count).reverse, v.Every (Closure.Below mem.size) :=
      fun v hv => hframe.values v (List.mem_of_mem_take (List.mem_reverse.1 hv))
    -- The scope of the activation is made before the parameters are declared in it.
    obtain ⟨hsize, hwhole, hinner⟩ := hmem.extend hclosure .variable
    have hle : mem.size ≤ mem.size + 1 := Nat.le_succ _
    have hbind := hwhole.bindParams (mem.store.extend closure.environment .variable).1 params
      fun v hv => (hargs v hv).below_mono (Nat.le_of_lt Store.size_lt_extend)
    rw [hcall]
    exact keeps_of_size (hbind.1.trans hsize) hle hbind.2 ⟨(hframe.dropValues hrest).mono hle,
      hinner, List.forall_mem_nil _, Task.below_execs body⟩

/-- Performing a task. -/
theorem keeps_perform (p : Program) (callers : List Frame) (hmem : mem.Whole)
    (hframe : frame.Below mem.size) {task : Task} (htask : task.Below mem.size) :
    mem.Keeps (mem.perform p callers frame task) := by
  cases hoperator : task.operands? with
  | some count =>
    rcases operator_cases p mem callers frame hoperator with
      ⟨values, hrest, hmissing⟩ | ⟨values, result, hrest, hresult, hperform⟩
    · rw [hmissing]
      exact hmem.keeps (hframe.dropValues hrest)
    · rw [hperform]
      exact hmem.keeps (Effect.below_result (hframe.dropValues hrest) (hresult _ hframe.values))
  | none =>
    cases task with
    | unary | binary | array | tuple | object | member | index => cases hoperator
    | exec s labels => exact keeps_exec hmem hframe labels s
    | eval e => exact keeps_eval hmem hframe e
    | call count => exact keeps_call p callers hmem hframe count
    | restore env => exact hmem.keeps ⟨htask, hframe.values, hframe.tasks⟩
    | loop | label => exact hmem.keeps hframe
    | declare name =>
      rcases declare_cases p mem callers frame name with hmissing | ⟨v, values, hvalues, hdeclare⟩
      · rw [hmissing]
        exact hmem.keeps hframe
      · rw [hdeclare]
        have hv := hframe.values v (hvalues ▸ List.mem_cons_self)
        exact keeps_of_size Store.size_declareIn (Nat.le_refl _) (hmem.declareIn hv _ name)
          (hframe.dropValues (hvalues ▸ List.subset_cons_self v values))
    | assign name =>
      rcases assign_cases p mem callers frame name with ⟨fault, hfail⟩ | ⟨v, id, hv, -, hassign⟩
      · rw [hfail]
        exact hmem.keeps hframe
      · rw [hassign]
        exact keeps_of_size Store.size_declareIn (Nat.le_refl _)
          (hmem.declareIn (hframe.values v hv) id name) hframe
    | discard => exact hmem.keeps (Effect.below_withValue hframe fun _ _ _ hrest => hrest)
    | returnValue => exact hmem.keeps (Effect.below_withValue hframe fun _ _ hv _ => hv)
    | branch thenBranch elseBranch =>
      refine hmem.keeps (Effect.below_withValue hframe fun v values _ hrest => ?_)
      split
      · exact hrest.schedule (List.forall_mem_singleton.2 trivial)
      · exact hrest.schedule (Task.below_execs _)
    | loopTest l =>
      refine hmem.keeps (Effect.below_withValue hframe fun v values _ hrest => ?_)
      split
      · exact hrest.schedule (List.forall_mem_cons.2 ⟨trivial,
          List.forall_mem_cons.2 ⟨trivial, List.forall_mem_singleton.2 trivial⟩⟩)
      · exact hrest
    | logical op right =>
      refine hmem.keeps (Effect.below_withValue hframe fun v values hv hrest => ?_)
      split
      · exact hrest.pushValue hv
      · exact hrest.schedule (List.forall_mem_singleton.2 trivial)

end Memory

end

/-! ### Running -/

namespace Machine

/-- What the frames come to holds only scopes with lower numbers. -/
def Settled.Below (n : Nat) : Settled → Prop
  | .ready _ _ frame callers => frame.Below n ∧ ∀ caller ∈ callers, caller.Below n
  | .done => True
  | .failed _ frames => ∀ frame ∈ frames, frame.Below n

/-- The frames that an effect leaves. -/
def framesAfter (callers : List Frame) : Effect → List Frame
  | .stay frame => frame :: callers
  | .enter caller callee => callee :: caller :: callers
  | .leave value => resume value callers
  | .fail _ frame => frame :: callers

/-- What frames have come to: no scope is given up, and only scopes that have been made are held. -/
structure Settles (mem : Memory) (r : Memory × Settled) : Prop where
  size : mem.size ≤ r.1.size
  whole : r.1.Whole
  below : r.2.Below r.1.size

/-- The machine holds only scopes that have been made. -/
structure Whole (m : Machine) : Prop where
  memory : m.memory.Whole
  globals : m.globals.Below m.memory.size
  frames : ∀ frame ∈ m.frames, frame.Below m.memory.size

variable {m m' : Machine} {p : Program} {mem mem' : Memory} {frames : List Frame}

theorem Settles.of_le {r : Memory × Settled} (h : Settles mem' r) (hle : mem.size ≤ mem'.size) :
    Settles mem r :=
  ⟨Nat.le_trans hle h.size, h.whole, h.below⟩

theorem below_resume {n : Nat} {v : Value} (hframes : ∀ frame ∈ frames, frame.Below n)
    (hv : v.Every (Closure.Below n)) : ∀ frame ∈ resume v frames, frame.Below n := by
  cases frames with
  | nil => exact List.forall_mem_nil _
  | cons frame frames =>
    obtain ⟨hframe, hrest⟩ := List.forall_mem_cons.1 hframes
    exact List.forall_mem_cons.2 ⟨hframe.pushValue hv, hrest⟩

theorem below_frames {callers : List Frame} {r : Memory × Effect} (h : mem.Keeps r)
    (hcallers : ∀ caller ∈ callers, caller.Below mem.size) :
    ∀ frame ∈ framesAfter callers r.2, frame.Below r.1.size := by
  have hkept : ∀ caller ∈ callers, caller.Below r.1.size :=
    fun caller hcaller => (hcallers caller hcaller).mono h.size
  have hbelow := h.below
  obtain ⟨mem', effect⟩ := r
  cases effect with
  | stay | fail => exact List.forall_mem_cons.2 ⟨hbelow, hkept⟩
  | enter => exact List.forall_mem_cons.2 ⟨hbelow.2, List.forall_mem_cons.2 ⟨hbelow.1, hkept⟩⟩
  | leave => exact below_resume hkept hbelow

/-- Performing the first task of the innermost frame. -/
theorem keeps_front {frame : Frame} {callers : List Frame} {task : Task} {tasks : List Task}
    {r : Memory × Effect} (hmem : mem.Whole) (hframes : ∀ f ∈ frame :: callers, f.Below mem.size)
    (htasks : frame.tasks = task :: tasks)
    (heffect : mem.perform p callers { frame with tasks } task = r) :
    mem.Keeps r ∧ ∀ f ∈ framesAfter callers r.2, f.Below r.1.size := by
  obtain ⟨hframe, hcallers⟩ := List.forall_mem_cons.1 hframes
  obtain ⟨htask, hrest⟩ := hframe.take htasks
  have hkeeps := Memory.keeps_perform p callers hmem hrest htask
  rw [heffect] at hkeeps
  exact ⟨hkeeps, below_frames hkeeps hcallers⟩

/-- Doing everything in front of the next statement. -/
theorem settles_settle (hmem : mem.Whole) (hframes : ∀ frame ∈ frames, frame.Below mem.size) :
    Settles mem (settle p mem frames) := by
  fun_induction settle p mem frames with
  | case1 => exact ⟨Nat.le_refl _, hmem, trivial⟩
  | case2 _ _ _ _ ih =>
    exact ih hmem (below_resume (List.forall_mem_cons.1 hframes).2 .undefined)
  | case3 _ _ _ _ _ htasks =>
    obtain ⟨hframe, hcallers⟩ := List.forall_mem_cons.1 hframes
    exact ⟨Nat.le_refl _, hmem, (hframe.take htasks).2, hcallers⟩
  -- What the first task of the innermost frame comes to: it stays, enters or leaves.
  | case4 _ _ _ _ _ htasks _ _ _ heffect ih =>
    obtain ⟨hkeeps, hleft⟩ := keeps_front hmem hframes htasks heffect
    exact (ih hkeeps.whole hleft).of_le hkeeps.size
  | case5 _ _ _ _ _ htasks _ _ _ _ heffect ih =>
    obtain ⟨hkeeps, hleft⟩ := keeps_front hmem hframes htasks heffect
    exact (ih hkeeps.whole hleft).of_le hkeeps.size
  | case6 _ _ _ _ _ htasks _ _ _ heffect ih =>
    obtain ⟨hkeeps, hleft⟩ := keeps_front hmem hframes htasks heffect
    exact (ih hkeeps.whole hleft).of_le hkeeps.size
  | case7 _ _ _ _ _ htasks _ _ _ _ heffect =>
    obtain ⟨hkeeps, hleft⟩ := keeps_front hmem hframes htasks heffect
    exact ⟨hkeeps.size, hkeeps.whole, hleft⟩

/-- Running a statement and everything in front of the next one. -/
theorem settles_advance (hmem : mem.Whole) (hframes : ∀ frame ∈ frames, frame.Below mem.size) :
    Settles mem (advance p mem frames) := by
  have hsettles := settles_settle (p := p) hmem hframes
  unfold advance
  split
  · rename_i mem₁ s labels frame callers hready
    rw [hready] at hsettles
    obtain ⟨hframe, hcallers⟩ := hsettles.below
    have hkeeps := Memory.keeps_exec hsettles.whole hframe labels s
    have hleft := below_frames hkeeps hcallers
    refine Settles.of_le ?_ hsettles.size
    unfold runStatement
    split <;> rename_i heffect <;> rw [heffect] at hkeeps hleft
    · exact (settles_settle hkeeps.whole hleft).of_le hkeeps.size
    · exact (settles_settle hkeeps.whole hleft).of_le hkeeps.size
    · exact (settles_settle hkeeps.whole hleft).of_le hkeeps.size
    · exact ⟨hkeeps.size, hkeeps.whole, hleft⟩
  · exact hsettles

theorem whole_conclude {globals : Environment} (hglobals : globals.Below mem.size)
    {r : Memory × Settled} (h : Settles mem r) :
    (conclude globals p r).1.Whole ∧ mem.size ≤ (conclude globals p r).1.memory.size := by
  have hbelow := h.below
  have hhigher := hglobals.mono h.size
  obtain ⟨mem', settled⟩ := r
  cases settled with
  | ready s labels frame callers =>
    refine ⟨⟨h.whole, hhigher, List.forall_mem_cons.2 ⟨?_, hbelow.2⟩⟩, h.size⟩
    have hframe : ({ frame with current := s.id } : Frame).Below mem'.size :=
      ⟨hbelow.1.environment, hbelow.1.values, hbelow.1.tasks⟩
    exact hframe.schedule (List.forall_mem_singleton.2 trivial)
  | done => exact ⟨⟨h.whole, hhigher, List.forall_mem_nil _⟩, h.size⟩
  | failed fault frames => exact ⟨⟨h.whole, hhigher, hbelow⟩, h.size⟩

/-- One step gives up no scope, and holds only scopes that have been made. -/
theorem Whole.step (h : m.Whole) :
    m.step.1.Whole ∧ m.memory.size ≤ m.step.1.memory.size := by
  unfold Machine.step
  split
  · exact ⟨h, Nat.le_refl _⟩
  · split
    · exact ⟨⟨h.memory, h.globals, List.forall_mem_nil _⟩, Nat.le_refl _⟩
    · split
      · exact ⟨h, Nat.le_refl _⟩
      · exact whole_conclude h.globals (settles_advance h.memory h.frames)

theorem Whole.runFor {outcome : StepOutcome} {fuel : Nat} (h : m.Whole)
    (hrun : m.runFor fuel = some (m', outcome)) :
    m'.Whole ∧ m.memory.size ≤ m'.memory.size := by
  induction fuel generalizing m with
  | zero => cases hrun
  | succ fuel ih =>
    obtain ⟨hwhole, hsize⟩ := h.step
    rw [Machine.runFor] at hrun
    split at hrun
    · rename_i m₁ hpaused
      rw [hpaused] at hwhole hsize
      obtain ⟨hlast, hrest⟩ := ih hwhole hrun
      exact ⟨hlast, Nat.le_trans hsize hrest⟩
    · have heq : m.step = (m', outcome) := Option.some.inj hrun
      rw [heq] at hwhole hsize
      exact ⟨hwhole, hsize⟩

/-! ### Loading -/

/-- A new machine has one scope more than the memory that it is given. -/
theorem whole_start (h : mem.Whole) :
    (start mem).Whole ∧ (start mem).memory.size = mem.size + 1 := by
  have hscopes : mem.store.root.2.scopes = mem.store.scopes.push (.empty .variable) := rfl
  obtain ⟨hsize, hwhole⟩ := h.push .variable hscopes mem.closureCount
  refine ⟨⟨hwhole, fun id hid => ?_, List.forall_mem_nil _⟩, hsize⟩
  have hroot : id = mem.size := List.mem_singleton.1 hid
  rw [hroot]
  exact hsize ▸ Nat.lt_succ_self _

theorem Whole.load (h : m.Whole) (p : Program) :
    (m.load p).Whole ∧ (m.load p).memory.size = m.memory.size := by
  unfold Machine.load
  split
  · refine ⟨⟨h.memory, h.globals, List.forall_mem_singleton.2 ⟨h.globals, ?_, ?_⟩⟩, rfl⟩
    · exact List.forall_mem_nil _
    · exact Task.below_execs _
  · exact ⟨⟨h.memory, h.globals, List.forall_mem_nil _⟩, rfl⟩

end Machine

end LWorkbench
