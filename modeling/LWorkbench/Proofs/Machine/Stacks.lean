import LWorkbench.Proofs.Machine.Known
import LWorkbench.Proofs.Machine.Operations
import LWorkbench.Proofs.Machine.Ticks

/-!
# Tasks find their values

Every task takes a fixed number of values from the stack and leaves a fixed number, so the tasks of
a frame can be performed in order exactly when the heights of the stack fit together. Statements and
the markers of loops, labels and blocks stand where the stack is empty. That is why a jump may drop
the tasks in front of a marker without looking at the values, and why the machine pauses with an
empty stack.

## Main definitions

* `Task.height?` — the height of the stack after a task
* `Task.All`, `Task.Known` — the nodes of a task are nodes of the program
* `Frame.Fits` — the tasks of a frame fit its values
* `Progress.Sound` — all frames fit, and there are not too many of them

## Main results

* `Memory.fits_exec`, `Memory.fits_eval`, `Memory.fits_perform` — what performing a task keeps
* `Progress.Sound.next`, `Progress.Sound.ticks` — ticks keep a run sound
-/

namespace LWorkbench

/-- The height of the stack after a task that begins at the given height, if it can. -/
def Task.height? (height : Nat) : Task → Option Nat
  | .exec .. | .restore _ | .loop _ | .label _ => if height = 0 then some 0 else none
  | .eval _ => some (height + 1)
  | .discard | .declare _ | .branch .. | .loopTest _ | .returnValue =>
    if height = 1 then some 0 else none
  | .assign _ | .unary _ | .logical .. | .member _ => if 1 ≤ height then some height else none
  | .binary _ | .index => if 2 ≤ height then some (height - 1) else none
  | .array count | .tuple count => if count ≤ height then some (height - count + 1) else none
  | .object keys => if keys.length ≤ height then some (height - keys.length + 1) else none
  | .call count => if count + 1 ≤ height then some (height - count) else none

/-- An operator leaves one value in the place of its operands. -/
theorem Task.height?_of_operands {task : Task} {count : Nat} (h : task.operands? = some count)
    (height : Nat) :
    task.height? height = if count ≤ height then some (height - count + 1) else none := by
  cases task with
  | unary | member =>
    cases h
    simp only [Task.height?]
    split
    · rw [Nat.sub_add_cancel ‹1 ≤ height›]
    · rfl
  | binary | index =>
    cases h
    simp only [Task.height?]
    split
    · congr 1
      omega
    · rfl
  | array | tuple | object =>
    cases h
    rfl
  | _ => cases h

/-- The nodes that a task holds and the chain that it puts back satisfy two conditions. -/
def Task.All (P : Node → Prop) (Q : Environment → Prop) : Task → Prop
  | .exec s _ => P (.stmt s)
  | .eval e => P (.expr e)
  | .restore env => Q env
  | .branch thenBranch elseBranch => P (.stmt thenBranch) ∧ ∀ s ∈ elseBranch, P (.stmt s)
  | .loop l | .loopTest l => ∃ site, P (.stmt (.loop site l.condition l.body))
  | .logical _ right => P (.expr right)
  | _ => True

theorem Task.All.mono {P P' : Node → Prop} {Q Q' : Environment → Prop} (hP : ∀ n, P n → P' n)
    (hQ : ∀ env, Q env → Q' env) {task : Task} (h : task.All P Q) : task.All P' Q' := by
  cases task with
  | exec | eval | logical => exact hP _ h
  | restore => exact hQ _ h
  | branch => exact ⟨hP _ h.1, fun s hs => hP _ (h.2 s hs)⟩
  | loop | loopTest =>
    obtain ⟨site, h⟩ := h
    exact ⟨site, hP _ h⟩
  | _ => trivial

/-- The nodes that a task holds are nodes of the program, and a chain that it puts back is one of
the run. -/
abbrev Task.Known (p : Program) (base : ScopeId) : Task → Prop :=
  Task.All p.Contains (Environment.Above base)

/-- The heights of the stack fit together from the given one on, and the last task leaves an empty
stack. -/
def Balanced (tasks : List Task) (height : Nat) : Prop :=
  tasks.foldlM Task.height? height = some 0

section

variable {task : Task} {tasks : List Task} {height n : Nat}

theorem balanced_cons :
    Balanced (task :: tasks) height ↔ ∃ n, task.height? height = some n ∧ Balanced tasks n := by
  rw [Balanced, List.foldlM_cons]
  exact Option.bind_eq_some_iff

theorem balanced_append {tasks' : List Task} :
    Balanced (tasks ++ tasks') height ↔
      ∃ n, tasks.foldlM Task.height? height = some n ∧ Balanced tasks' n := by
  rw [Balanced, List.foldlM_append]
  exact Option.bind_eq_some_iff

theorem height_evals {α : Type} (node : α → Expr) (items : List α) :
    (items.map fun x => Task.eval (node x)).foldlM Task.height? height =
      some (height + items.length) := by
  induction items generalizing height with
  | nil => rfl
  | cons x items ih =>
    rw [List.map_cons, List.foldlM_cons]
    simp only [Task.height?, Option.bind_eq_bind, Option.bind_some, ih, List.length_cons]
    congr 1
    omega

/-- Statements one after another begin and end with an empty stack. -/
theorem height_execs (body : List Stmt) :
    (body.map fun s => Task.exec s []).foldlM Task.height? 0 = some 0 := by
  induction body with
  | nil => rfl
  | cons s body ih => simpa [Task.height?] using ih

end

/-- The tasks of a frame fit its values, when it waits for so many more values. -/
structure Frame.Fits (p : Program) (base : ScopeId) (waiting : Nat) (frame : Frame) : Prop where
  environment : frame.environment.Above base
  values : ∀ v ∈ frame.values, v.Known p base
  tasks : ∀ task ∈ frame.tasks, task.Known p base
  balanced : Balanced frame.tasks (frame.values.length + waiting)

/-- An effect leaves frames that fit, within the limit, or is a fault of the program. -/
def Effect.Fits (p : Program) (base : ScopeId) (callers : List Frame) : Memory × Effect → Prop
  | (mem, .stay frame) => mem.Known p base ∧ frame.Fits p base 0
  | (mem, .enter caller callee) =>
    mem.Known p base ∧ caller.Fits p base 1 ∧ callee.Fits p base 0 ∧
      callers.length + 2 ≤ frameLimit
  | (mem, .leave value) => mem.Known p base ∧ value.Known p base
  | (_, .fail fault _) => fault.isInternal = false

namespace Memory

variable {p : Program} {base : ScopeId} {mem : Memory} {frame : Frame} {callers : List Frame}

/-- Scheduling known tasks whose heights fit to what is left. -/
theorem fits_schedule {tasks : List Task} (henv : frame.environment.Above base)
    (hvalues : ∀ v ∈ frame.values, v.Known p base)
    (hframe : ∀ task ∈ frame.tasks, task.Known p base) (htasks : ∀ task ∈ tasks, task.Known p base)
    (hbalanced : Balanced (tasks ++ frame.tasks) frame.values.length) :
    (frame.schedule tasks).Fits p base 0 := by
  refine ⟨henv, hvalues, fun task htask => ?_, hbalanced⟩
  obtain htask | htask := List.mem_append.1 htask
  · exact htasks task htask
  · exact hframe task htask

/-! ### Statements -/

/-- Behind a marker the stack is empty, and the chain that a jump puts back is one of the run. -/
theorem fits_unwindTasks {wanted : Task → Bool} {tasks rest : List Task} {task : Task}
    {env env' : Environment} {height : Nat}
    (hwanted : ∀ task height n, wanted task = true → task.height? height = some n → n = 0)
    (htasks : ∀ task ∈ tasks, task.Known p base) (henv : env.Above base)
    (hbalanced : Balanced tasks height)
    (h : Frame.unwindTasks wanted tasks env = (some (task, rest), env')) :
    task ∈ tasks ∧ (∀ t ∈ rest, t ∈ tasks) ∧ Balanced rest 0 ∧ env'.Above base := by
  -- Every task that is passed moves the height as if it had been performed, up to the one that is
  -- wanted, behind which the stack is empty.
  induction tasks generalizing env height with
  | nil => cases h
  | cons first tasks ih =>
    obtain ⟨n, hn, hafter⟩ := balanced_cons.1 hbalanced
    have htail : ∀ task ∈ tasks, task.Known p base :=
      fun t ht => htasks t (List.mem_cons_of_mem _ ht)
    unfold Frame.unwindTasks at h
    split at h
    · rename_i hfirst
      cases h
      obtain rfl := hwanted _ _ _ hfirst hn
      exact ⟨List.mem_cons_self, fun t ht => List.mem_cons_of_mem _ ht, hafter, henv⟩
    · split at h
      · rename_i outer _
        have houter : outer.Above base := htasks _ List.mem_cons_self
        obtain ⟨hmem, hrest, hempty, henv'⟩ := ih htail houter hafter h
        exact ⟨List.mem_cons_of_mem _ hmem, fun t ht => List.mem_cons_of_mem _ (hrest t ht), hempty,
          henv'⟩
      · obtain ⟨hmem, hrest, hempty, henv'⟩ := ih htail henv hafter h
        exact ⟨List.mem_cons_of_mem _ hmem, fun t ht => List.mem_cons_of_mem _ (hrest t ht), hempty,
          henv'⟩

theorem isInternal_lostJump (label : Option Name) {fault : Fault} (h : fault.isInternal = false) :
    (lostJump label fault).isInternal = false := by
  cases label with
  | none => exact h
  | some n => rfl

theorem fits_breakOut (hmem : mem.Known p base) (hframe : frame.Fits p base 0)
    (hempty : frame.values = []) (label : Option Name) :
    Effect.Fits p base callers (mem, breakOut frame label) := by
  unfold breakOut Frame.unwind
  split
  · rename_i task frame' h
    split at h
    · rename_i task' tasks env hunwind
      cases h
      have hwanted : ∀ task height n, breaksAt label task = true → task.height? height = some n →
          n = 0 := by
        intro task height n hbreaks hn
        cases task <;> simp_all [breaksAt, Task.height?]
      obtain ⟨-, hrest, hbalanced, henv⟩ :=
        fits_unwindTasks hwanted hframe.tasks hframe.environment hframe.balanced hunwind
      refine ⟨hmem, henv, hframe.values, fun t ht => hframe.tasks t (hrest t ht), ?_⟩
      simpa [hempty] using hbalanced
    · cases h
  · exact isInternal_lostJump label rfl

theorem balanced_roundTasks {tasks : List Task} (l : Loop) (h : Balanced tasks 0) :
    Balanced (roundTasks l ++ tasks) 0 :=
  balanced_cons.2 ⟨1, rfl, balanced_cons.2 ⟨0, rfl, balanced_cons.2 ⟨0, rfl, h⟩⟩⟩

theorem known_roundTasks {l : Loop} (h : Task.Known p base (.loop l)) :
    ∀ task ∈ roundTasks l, task.Known p base := by
  obtain ⟨site, hloop⟩ := h
  have hcondition : p.Contains (.expr l.condition) := .child hloop (by simp [Node.children])
  intro task htask
  simp only [roundTasks, List.mem_cons, List.not_mem_nil, or_false] at htask
  obtain rfl | rfl | rfl := htask
  · exact hcondition
  · exact ⟨site, hloop⟩
  · exact ⟨site, hloop⟩

theorem fits_continueLoop (hmem : mem.Known p base) (hframe : frame.Fits p base 0)
    (hempty : frame.values = []) (label : Option Name) :
    Effect.Fits p base callers (mem, continueLoop frame label) := by
  unfold continueLoop Frame.unwind
  split
  · rename_i l frame' h
    split at h
    · rename_i task' tasks env hunwind
      cases h
      have hwanted : ∀ task height n, continuesAt label task = true →
          task.height? height = some n → n = 0 := by
        intro task height n hcontinues hn
        cases task <;> simp_all [continuesAt, Task.height?]
      obtain ⟨hloop, hrest, hbalanced, henv⟩ :=
        fits_unwindTasks hwanted hframe.tasks hframe.environment hframe.balanced hunwind
      refine ⟨hmem, fits_schedule henv hframe.values (fun t ht => hframe.tasks t (hrest t ht))
        (known_roundTasks (hframe.tasks _ hloop)) ?_⟩
      rw [hempty]
      exact balanced_roundTasks l hbalanced
    · cases h
  · exact isInternal_lostJump label rfl

/-- Running a statement on an empty stack. -/
theorem fits_exec (hmem : mem.Known p base) (hframe : frame.Fits p base 0)
    (hempty : frame.values = []) (labels : List String) {s : Stmt} (hs : p.Contains (.stmt s)) :
    Effect.Fits p base callers (mem.exec frame labels s) := by
  have hbalanced : Balanced frame.tasks 0 := by simpa [hempty] using hframe.balanced
  have hchild : ∀ c ∈ (Node.stmt s).children, p.Contains c := fun c hc => .child hs hc
  have hschedule : ∀ {tasks : List Task}, (∀ task ∈ tasks, task.Known p base) →
      Balanced (tasks ++ frame.tasks) 0 → (frame.schedule tasks).Fits p base 0 :=
    fun htasks h => fits_schedule hframe.environment hframe.values hframe.tasks htasks
      (by rw [hempty]; exact h)
  -- Most statements evaluate an expression for a task that takes its value off the stack.
  have htake : ∀ {e : Expr} {task : Task}, p.Contains (.expr e) → task.Known p base →
      task.height? 1 = some 0 → (frame.schedule [.eval e, task]).Fits p base 0 := by
    intro e task he htask hheight
    refine hschedule ?_ (balanced_cons.2 ⟨1, rfl, balanced_cons.2 ⟨0, hheight, hbalanced⟩⟩)
    exact List.forall_mem_cons.2 ⟨he, List.forall_mem_singleton.2 htask⟩
  -- Where the expression is left out, the value is `undefined`.
  have hundefined : ∀ {task : Task}, task.Known p base → task.height? 1 = some 0 →
      ((frame.pushValue .undefined).schedule [task]).Fits p base 0 := by
    intro task htask hheight
    refine fits_schedule hframe.environment ?_ hframe.tasks (List.forall_mem_singleton.2 htask) ?_
    · rw [Frame.pushValue, hempty]
      exact List.forall_mem_singleton.2 .undefined
    · rw [Frame.pushValue, hempty]
      exact balanced_cons.2 ⟨0, hheight, hbalanced⟩
  cases s with
  | declare site name init =>
    cases init with
    | some init => exact ⟨hmem, htake (hchild _ (by simp [Node.children])) trivial rfl⟩
    | none => exact ⟨hmem, hundefined trivial rfl⟩
  | evaluate site e => exact ⟨hmem, htake (hchild _ (by simp [Node.children])) trivial rfl⟩
  | block site body =>
    obtain ⟨henv, hmem⟩ := hmem.extend hframe.environment
    refine ⟨hmem, fits_schedule henv hframe.values hframe.tasks ?_ ?_⟩
    · intro task htask
      obtain htask | htask := List.mem_append.1 htask
      · obtain ⟨s, hs, rfl⟩ := List.mem_map.1 htask
        exact hchild (.stmt s) (List.mem_map_of_mem hs)
      · rw [List.mem_singleton.1 htask]
        exact hframe.environment
    · rw [hempty, List.append_assoc]
      exact balanced_append.2 ⟨0, height_execs body, balanced_cons.2 ⟨0, rfl, hbalanced⟩⟩
  | labeled site label body =>
    refine ⟨hmem, hschedule ?_ (balanced_cons.2 ⟨0, rfl, balanced_cons.2 ⟨0, rfl, hbalanced⟩⟩)⟩
    have hbody : p.Contains (.stmt body) := hchild _ (by simp [Node.children])
    exact List.forall_mem_cons.2 ⟨hbody, List.forall_mem_singleton.2 trivial⟩
  | branch site condition thenBranch elseBranch =>
    refine ⟨hmem, htake (hchild _ (by simp [Node.children])) ⟨?_, ?_⟩ rfl⟩
    · exact hchild _ (by simp [Node.children])
    · intro s hs
      exact hchild _ (by simp [Node.children, Option.mem_def.1 hs])
  | loop site condition body =>
    exact ⟨hmem, hschedule (known_roundTasks ⟨site, hs⟩) (balanced_roundTasks _ hbalanced)⟩
  | breakTo site label => exact fits_breakOut hmem hframe hempty label
  | continueTo site label => exact fits_continueLoop hmem hframe hempty label
  | returnWith site value =>
    cases value with
    | some value => exact ⟨hmem, htake (hchild _ (by simp [Node.children])) trivial rfl⟩
    | none => exact ⟨hmem, hundefined trivial rfl⟩

/-! ### Expressions -/

/-- Evaluating an expression leaves one value more on the stack, or the tasks that do. -/
theorem fits_eval (hmem : mem.Known p base) (hframe : frame.Fits p base 1) {e : Expr}
    (he : p.Contains (.expr e)) : Effect.Fits p base callers (mem.eval frame e) := by
  have hbalanced : Balanced frame.tasks (frame.values.length + 1) := hframe.balanced
  have hchild : ∀ c ∈ (Node.expr e).children, p.Contains c := fun c hc => .child he hc
  have hschedule : ∀ {tasks : List Task}, (∀ task ∈ tasks, task.Known p base) →
      tasks.foldlM Task.height? frame.values.length = some (frame.values.length + 1) →
      (frame.schedule tasks).Fits p base 0 :=
    fun htasks h => fits_schedule hframe.environment hframe.values hframe.tasks htasks
      (balanced_append.2 ⟨_, h, hbalanced⟩)
  have hpush : ∀ {value : Value}, value.Known p base → (frame.pushValue value).Fits p base 0 :=
    fun hvalue => ⟨hframe.environment, List.forall_mem_cons.2 ⟨hvalue, hframe.values⟩,
      hframe.tasks, hbalanced⟩
  -- A list evaluates its items and puts itself in the place of their values.
  have hlist : ∀ {α : Type} (node : α → Expr) (items : List α) {task : Task},
      (∀ x ∈ items, p.Contains (.expr (node x))) → task.Known p base →
      task.height? (frame.values.length + items.length) = some (frame.values.length + 1) →
      (frame.schedule (items.map (fun x => Task.eval (node x)) ++ [task])).Fits p base 0 := by
    intro α node items task hitems htask hheight
    refine hschedule (List.forall_mem_append.2 ⟨?_, List.forall_mem_singleton.2 htask⟩) ?_
    · intro task' htask'
      obtain ⟨x, hx, rfl⟩ := List.mem_map.1 htask'
      exact hitems x hx
    · rw [List.foldlM_append, height_evals node items]
      simp [hheight]
  -- An operator puts its result in the place of its operands, of which there are one or two.
  have hone : ∀ {e : Expr} {task : Task}, p.Contains (.expr e) → task.Known p base →
      task.height? (frame.values.length + 1) = some (frame.values.length + 1) →
      (frame.schedule [.eval e, task]).Fits p base 0 :=
    fun {e _} he htask hheight => hlist id [e] (List.forall_mem_singleton.2 he) htask hheight
  have htwo : ∀ {e₁ e₂ : Expr} {task : Task}, p.Contains (.expr e₁) → p.Contains (.expr e₂) →
      task.Known p base →
      task.height? (frame.values.length + 2) = some (frame.values.length + 1) →
      (frame.schedule [.eval e₁, .eval e₂, task]).Fits p base 0 :=
    fun {e₁ e₂ _} he₁ he₂ htask hheight => hlist id [e₁, e₂]
      (List.forall_mem_cons.2 ⟨he₁, List.forall_mem_singleton.2 he₂⟩) htask hheight
  cases e with
  | literal site value => exact ⟨hmem, hpush (Value.known_ofLiteral value)⟩
  | name n =>
    simp only [eval]
    split
    · rename_i value hlookup
      exact ⟨hmem, hpush (hmem.lookup hframe.environment hlookup)⟩
    · rfl
  | array site items =>
    refine ⟨hmem, hlist id items (fun x hx => hchild _ (List.mem_map_of_mem hx)) trivial ?_⟩
    simp [Task.height?]
  | tuple site items =>
    refine ⟨hmem, hlist id items (fun x hx => hchild _ (List.mem_map_of_mem hx)) trivial ?_⟩
    simp [Task.height?]
  | object site properties =>
    have hknown : Task.Known p base (.object (properties.map (·.1))) := trivial
    refine ⟨hmem, hlist (·.2) properties (fun x hx => hchild _ (List.mem_map_of_mem hx)) hknown ?_⟩
    simp [Task.height?]
  | function site params body =>
    exact ⟨⟨hmem.size, hmem.values⟩, hpush (.function he hframe.environment)⟩
  | unary site op operand =>
    exact ⟨hmem, hone (hchild _ (by simp [Node.children])) trivial (by simp [Task.height?])⟩
  | binary site op left right =>
    exact ⟨hmem, htwo (hchild _ (by simp [Node.children])) (hchild _ (by simp [Node.children]))
      trivial (by simp [Task.height?])⟩
  | logical site op left right =>
    have hright : Task.Known p base (.logical op right) := hchild _ (by simp [Node.children])
    exact ⟨hmem, hone (hchild _ (by simp [Node.children])) hright (by simp [Task.height?])⟩
  | assign site target value =>
    exact ⟨hmem, hone (hchild _ (by simp [Node.children])) trivial (by simp [Task.height?])⟩
  | call site callee args =>
    -- The callee lies below its arguments, and they are taken together.
    have hheight : Task.height? (frame.values.length + (callee :: args).length)
        (.call args.length) = some (frame.values.length + 1) := by
      have hcount : args.length + 1 ≤ frame.values.length + (args.length + 1) := by omega
      have hleft : frame.values.length + (args.length + 1) - args.length =
          frame.values.length + 1 := by omega
      rw [Task.height?, List.length_cons, if_pos hcount, hleft]
    exact ⟨hmem, hlist id (callee :: args) (fun x hx => hchild _ (List.mem_map_of_mem hx)) trivial
      hheight⟩
  | member site object property =>
    exact ⟨hmem, hone (hchild _ (by simp [Node.children])) trivial (by simp [Task.height?])⟩
  | index site object index =>
    exact ⟨hmem, htwo (hchild _ (by simp [Node.children])) (hchild _ (by simp [Node.children]))
      trivial (by simp [Task.height?])⟩

/-! ### Tasks -/

/-- A call finds the function that it calls, and a place for its frame or the fault of having
none. -/
theorem fits_callClosure (hp : p.Indexed) (hmem : mem.Known p base) (hframe : frame.Fits p base 1)
    {closure : Closure} (hclosure : Value.Known p base (.function closure)) {args : List Value}
    (hargs : ∀ v ∈ args, v.Known p base) :
    Effect.Fits p base callers (callClosure p mem callers frame closure args) := by
  cases hclosure with
  | @function serial site params body env hnode henv =>
    have hfunction : p.node? site.id = some (.expr (.function site params body)) := hp _ hnode
    unfold callClosure
    simp only [hfunction]
    split
    · rfl
    · rename_i hlimit
      obtain ⟨hinner, hmem⟩ := hmem.extend henv
      refine ⟨hmem.bindParams _ params hargs, hframe, ⟨hinner, List.forall_mem_nil _, ?_, ?_⟩,
        by omega⟩
      · intro task htask
        obtain ⟨s, hs, rfl⟩ := List.mem_map.1 htask
        exact .child hnode (List.mem_append_right _ (List.mem_map_of_mem hs))
      · exact height_execs body

theorem fits_call (hp : p.Indexed) (hmem : mem.Known p base)
    (henv : frame.environment.Above base) (hvalues : ∀ v ∈ frame.values, v.Known p base)
    (htasks : ∀ task ∈ frame.tasks, task.Known p base) {count : Nat}
    (hcount : count + 1 ≤ frame.values.length)
    (hbalanced : Balanced frame.tasks (frame.values.length - count)) :
    Effect.Fits p base callers (mem.call p callers frame count) := by
  have hdrop : (frame.values.drop count).length = frame.values.length - count := List.length_drop
  obtain ⟨callee, values, hsplit⟩ : ∃ callee values, frame.values.drop count = callee :: values :=
    List.exists_cons_of_length_pos (by omega)
  have hknown : ∀ v ∈ callee :: values, v.Known p base :=
    fun v hv => hvalues v (List.mem_of_mem_drop (hsplit ▸ hv))
  rw [hsplit, List.length_cons] at hdrop
  unfold call
  rw [if_pos (by omega)]
  simp only [hsplit]
  split
  · rename_i closure values' hcallee
    cases hcallee
    have hcaller : ({ frame with values } : Frame).Fits p base 1 := by
      refine ⟨henv, fun v hv => hknown v (List.mem_cons_of_mem _ hv), htasks, ?_⟩
      rw [hdrop]
      exact hbalanced
    refine fits_callClosure hp hmem hcaller (hknown _ List.mem_cons_self) fun v hv => ?_
    exact hvalues v (List.mem_of_mem_take (List.mem_reverse.1 hv))
  · rfl
  · rename_i hcallee
    cases hcallee

theorem fits_result (hmem : mem.Known p base) (hframe : frame.Fits p base 1)
    {result : Except Fault Value} (h : Except.Known p base result) :
    Effect.Fits p base callers (mem, .result frame result) := by
  cases result with
  | ok value =>
    exact ⟨hmem, hframe.environment, List.forall_mem_cons.2 ⟨h, hframe.values⟩, hframe.tasks,
      hframe.balanced⟩
  | error fault => exact h

/-- An operator finds its operands. -/
theorem fits_operator (hmem : mem.Known p base) (henv : frame.environment.Above base)
    (hvalues : ∀ v ∈ frame.values, v.Known p base)
    (htasks : ∀ task ∈ frame.tasks, task.Known p base) {task : Task} {count : Nat}
    (hoperator : task.operands? = some count) (hcount : count ≤ frame.values.length)
    (hbalanced : Balanced frame.tasks (frame.values.length - count + 1)) :
    Effect.Fits p base callers (mem.perform p callers frame task) := by
  have hframe : ({ frame with values := frame.values.drop count } : Frame).Fits p base 1 := by
    refine ⟨henv, fun v hv => hvalues v (List.mem_of_mem_drop hv), htasks, ?_⟩
    rwa [List.length_drop]
  have hlength : (frame.values.take count).reverse.length = count := by
    rw [List.length_reverse, List.length_take_of_le hcount]
  rw [perform_operator p mem callers frame hoperator hcount]
  refine fits_result hmem hframe (Task.every_operate hoperator hlength fun v hv => ?_).known
  have hv : v ∈ frame.values := List.mem_of_mem_take (List.mem_reverse.1 hv)
  exact Value.known_iff_every.1 (hvalues v hv)

/-- Performing a task whose values are there. -/
theorem fits_perform (hp : p.Indexed) (hmem : mem.Known p base) {task : Task} {height : Nat}
    (henv : frame.environment.Above base) (hvalues : ∀ v ∈ frame.values, v.Known p base)
    (htasks : ∀ task ∈ frame.tasks, task.Known p base) (htask : task.Known p base)
    (hheight : task.height? frame.values.length = some height)
    (hbalanced : Balanced frame.tasks height) :
    Effect.Fits p base callers (mem.perform p callers frame task) := by
  -- Some tasks need an empty stack, and some take the only value that is on it.
  have hnone : (if frame.values.length = 0 then some 0 else none) = some height →
      frame.values = [] ∧ frame.Fits p base 0 := by
    intro h
    simp only [Option.ite_none_right_eq_some, Option.some.injEq] at h
    obtain ⟨hempty, rfl⟩ := h
    refine ⟨List.length_eq_zero_iff.1 hempty, henv, hvalues, htasks, ?_⟩
    rwa [hempty]
  have hone : (if frame.values.length = 1 then some 0 else none) = some height →
      ∃ v, frame.values = [v] ∧ v.Known p base ∧
        ({ frame with values := [] } : Frame).Fits p base 0 := by
    intro h
    simp only [Option.ite_none_right_eq_some, Option.some.injEq] at h
    obtain ⟨hlength, rfl⟩ := h
    obtain ⟨v, hv⟩ := List.length_eq_one_iff.1 hlength
    exact ⟨v, hv, hvalues v (by simp [hv]), henv, List.forall_mem_nil _, htasks, hbalanced⟩
  cases hoperator : task.operands? with
  | some count =>
    rw [Task.height?_of_operands hoperator, Option.ite_none_right_eq_some,
      Option.some.injEq] at hheight
    obtain ⟨hcount, rfl⟩ := hheight
    exact fits_operator hmem henv hvalues htasks hoperator hcount hbalanced
  | none =>
    cases task with
    | unary | binary | array | tuple | object | member | index => cases hoperator
    | exec s labels =>
      obtain ⟨hempty, hframe⟩ := hnone hheight
      exact fits_exec hmem hframe hempty labels htask
    | eval e =>
      cases hheight
      exact fits_eval hmem ⟨henv, hvalues, htasks, hbalanced⟩ htask
    | restore env =>
      obtain ⟨-, hframe⟩ := hnone hheight
      exact ⟨hmem, htask, hframe.values, hframe.tasks, hframe.balanced⟩
    | loop l | label name => exact ⟨hmem, (hnone hheight).2⟩
    | discard =>
      obtain ⟨v, h, -, hframe⟩ := hone hheight
      simp only [perform, Effect.withValue, h]
      exact ⟨hmem, hframe⟩
    | declare name =>
      obtain ⟨v, h, hv, hframe⟩ := hone hheight
      simp only [perform, h]
      exact ⟨hmem.declareIn hv _ name, hframe⟩
    | branch thenBranch elseBranch =>
      obtain ⟨v, h, -, hframe⟩ := hone hheight
      obtain ⟨hthen, helse⟩ := htask
      simp only [perform, Effect.withValue, h]
      split
      · exact ⟨hmem, fits_schedule henv hframe.values htasks (List.forall_mem_singleton.2 hthen)
          (balanced_cons.2 ⟨0, rfl, hframe.balanced⟩)⟩
      · refine ⟨hmem, fits_schedule henv hframe.values htasks (fun task ht => ?_)
          (balanced_append.2 ⟨0, height_execs _, hframe.balanced⟩)⟩
        obtain ⟨s, hs, rfl⟩ := List.mem_map.1 ht
        exact helse s (Option.mem_toList.1 hs)
    | loopTest l =>
      obtain ⟨v, h, -, hframe⟩ := hone hheight
      obtain ⟨site, hloop⟩ := htask
      simp only [perform, Effect.withValue, h]
      split
      · have hbody : p.Contains (.stmt l.body) := .child hloop (by simp [Node.children])
        have hcondition : p.Contains (.expr l.condition) := .child hloop (by simp [Node.children])
        have htest : Task.Known p base (.loopTest l) := ⟨site, hloop⟩
        refine ⟨hmem, fits_schedule henv hframe.values htasks ?_ ?_⟩
        · exact List.forall_mem_cons.2
            ⟨hbody, List.forall_mem_cons.2 ⟨hcondition, List.forall_mem_singleton.2 htest⟩⟩
        · exact balanced_cons.2 ⟨0, rfl,
            balanced_cons.2 ⟨1, rfl, balanced_cons.2 ⟨0, rfl, hframe.balanced⟩⟩⟩
      · exact ⟨hmem, hframe⟩
    | returnValue =>
      obtain ⟨v, h, hv, -⟩ := hone hheight
      simp only [perform, Effect.withValue, h]
      exact ⟨hmem, hv⟩
    | assign name =>
      simp only [Task.height?, Option.ite_none_right_eq_some, Option.some.injEq] at hheight
      obtain ⟨hpos, rfl⟩ := hheight
      obtain ⟨v, values, h⟩ := List.exists_cons_of_length_pos hpos
      simp only [perform, h]
      split
      · exact ⟨hmem.declareIn (hvalues v (by simp [h])) _ name, henv, hvalues, htasks, hbalanced⟩
      · rfl
    | logical op right =>
      simp only [Task.height?, Option.ite_none_right_eq_some, Option.some.injEq] at hheight
      obtain ⟨hpos, rfl⟩ := hheight
      obtain ⟨v, values, h⟩ := List.exists_cons_of_length_pos hpos
      rw [h, List.forall_mem_cons] at hvalues
      rw [h, List.length_cons] at hbalanced
      simp only [perform, Effect.withValue, h]
      split
      · exact ⟨hmem, henv, List.forall_mem_cons.2 hvalues, htasks, hbalanced⟩
      · exact ⟨hmem, fits_schedule henv hvalues.2 htasks (List.forall_mem_singleton.2 htask)
          (balanced_cons.2 ⟨_, rfl, hbalanced⟩)⟩
    | call count =>
      simp only [Task.height?, Option.ite_none_right_eq_some, Option.some.injEq] at hheight
      obtain ⟨hcount, rfl⟩ := hheight
      exact fits_call hp hmem henv hvalues htasks hcount hbalanced

end Memory

/-! ### Runs -/

/-- The innermost frame fits, and every other one when it has got the value it waits for. -/
def FramesFit (p : Program) (base : ScopeId) : List Frame → Prop
  | [] => True
  | frame :: callers => frame.Fits p base 0 ∧ ∀ caller ∈ callers, caller.Fits p base 1

/-- All frames fit, there are not too many of them, and a fault is one of the program. -/
def Progress.Sound (p : Program) (base : ScopeId) : Progress → Prop
  | .going mem frames => mem.Known p base ∧ FramesFit p base frames ∧ frames.length ≤ frameLimit
  | .done _ => True
  | .failed fault _ frames => fault.isInternal = false ∧ frames.length ≤ frameLimit

section

variable {p : Program} {base : ScopeId} {mem : Memory} {frame : Frame} {frames callers : List Frame}

theorem framesFit_arrive (h : FramesFit p base frames) :
    FramesFit p base (Machine.arrive frames) := by
  unfold Machine.arrive
  split
  · trivial
  · split
    · obtain ⟨hframe, hcallers⟩ := h
      exact ⟨⟨hframe.environment, hframe.values, hframe.tasks, hframe.balanced⟩, hcallers⟩
    · exact h

theorem length_arrive : (Machine.arrive frames).length = frames.length := by
  unfold Machine.arrive
  split
  · rfl
  · split <;> rfl

/-- A frame that has waited for a value fits when it gets it. -/
theorem framesFit_resume {value : Value} (hvalue : value.Known p base)
    (h : ∀ caller ∈ callers, caller.Fits p base 1) :
    FramesFit p base (Machine.resume value callers) := by
  cases callers with
  | nil => trivial
  | cons caller callers =>
    obtain ⟨hcaller, hcallers⟩ := List.forall_mem_cons.1 h
    exact ⟨⟨hcaller.environment, List.forall_mem_cons.2 ⟨hvalue, hcaller.values⟩, hcaller.tasks,
      hcaller.balanced⟩, hcallers⟩

theorem length_resume (value : Value) : (Machine.resume value callers).length = callers.length := by
  cases callers <;> rfl

/-- What an effect leaves is sound when the effect fits. -/
theorem sound_follow {effect : Memory × Effect} (heffect : Effect.Fits p base callers effect)
    (hcallers : ∀ caller ∈ callers, caller.Fits p base 1)
    (hlimit : callers.length + 1 ≤ frameLimit) :
    (Machine.follow callers effect).Sound p base := by
  obtain ⟨mem, effect⟩ := effect
  cases effect with
  | stay frame =>
    obtain ⟨hmem, hframe⟩ := heffect
    exact ⟨hmem, framesFit_arrive ⟨hframe, hcallers⟩, by rw [length_arrive]; exact hlimit⟩
  | enter caller callee =>
    obtain ⟨hmem, hcaller, hcallee, hroom⟩ := heffect
    refine ⟨hmem, framesFit_arrive ⟨hcallee, List.forall_mem_cons.2 ⟨hcaller, hcallers⟩⟩, ?_⟩
    rw [length_arrive]
    exact hroom
  | leave value =>
    obtain ⟨hmem, hvalue⟩ := heffect
    refine ⟨hmem, framesFit_arrive (framesFit_resume hvalue hcallers), ?_⟩
    rw [length_arrive, length_resume]
    omega
  | fail fault frame => exact ⟨heffect, hlimit⟩

/-- A tick keeps a run sound. -/
theorem Progress.Sound.next (hp : p.Indexed) {c : Progress} (h : c.Sound p base) :
    (c.next p).Sound p base := by
  cases c with
  | done | failed => exact h
  | going mem frames =>
    obtain ⟨hmem, hframes, hlimit⟩ := h
    cases frames with
    | nil => trivial
    | cons frame callers =>
      obtain ⟨hframe, hcallers⟩ := hframes
      cases htasks : frame.tasks with
      | nil =>
        simp only [Progress.next, Machine.tick, htasks]
        refine ⟨hmem, framesFit_arrive (framesFit_resume .undefined hcallers), ?_⟩
        rw [length_arrive, length_resume]
        exact Nat.le_of_succ_le hlimit
      | cons task tasks =>
        simp only [Progress.next, Machine.tick_of_tasks htasks]
        obtain ⟨htask, hrest⟩ := List.forall_mem_cons.1 (htasks ▸ hframe.tasks)
        obtain ⟨height, hheight, hbalanced⟩ := balanced_cons.1 (htasks ▸ hframe.balanced)
        exact sound_follow (Memory.fits_perform hp hmem hframe.environment hframe.values hrest htask
          hheight hbalanced) hcallers hlimit

theorem Progress.Sound.ticks (hp : p.Indexed) {c : Progress} (h : c.Sound p base) (n : Nat) :
    ((Progress.next p)^[n] c).Sound p base := by
  induction n with
  | zero => exact h
  | succ n ih =>
    rw [Function.iterate_succ_apply']
    exact ih.next hp

end

end LWorkbench
