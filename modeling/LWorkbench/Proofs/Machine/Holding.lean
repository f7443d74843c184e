import LWorkbench.Proofs.Machine.Stacks

/-!
# Functions that a run holds

A run gets at functions in two ways only: it evaluates a function expression, or it finds a function
that it holds already, in a frame or in a scope of its own. So a property of functions that is true
of those it makes, and of those it begins with, is true of all functions that it ever holds. The
nodes among its tasks are nodes of the program that is loaded, also when a function is called that
was made before the program was loaded.

## Main definitions

* `Frame.Holds`, `Progress.Holds` — all functions have a property, and tasks are about nodes of the
  program
* `Progress.Makes` — a function expression is evaluated, and to which function

## Main results

* `Memory.holds_perform` — what performing a task keeps
* `Progress.Holds.next` — what a tick keeps
* `Machine.holds_load` — what loading a program keeps
-/

namespace LWorkbench

/-- All functions on the stack of the frame have a property. The chain is one of the run, and the
tasks are about nodes of the program. -/
structure Frame.Holds (p : Program) (base : ScopeId) (C : Closure → Prop) (frame : Frame) :
    Prop where
  environment : frame.environment.Above base
  values : ∀ v ∈ frame.values, v.Every C
  tasks : ∀ task ∈ frame.tasks, task.Known p base

/-- What performing a task comes to holds only functions with a property. -/
def Effect.Holds (p : Program) (base : ScopeId) (C : Closure → Prop) : Memory × Effect → Prop
  | (mem, .stay frame) => mem.Holds base C ∧ frame.Holds p base C
  | (mem, .enter caller callee) =>
    mem.Holds base C ∧ caller.Holds p base C ∧ callee.Holds p base C
  | (mem, .leave value) => mem.Holds base C ∧ value.Every C
  | (mem, .fail _ _) => mem.Holds base C

/-- The memory that a run has come to. -/
def Progress.memory : Progress → Memory
  | .going mem _ => mem
  | .done mem => mem
  | .failed _ mem _ => mem

/-- All functions that the run holds have a property. -/
structure Progress.Holds (p : Program) (base : ScopeId) (C : Closure → Prop) (now : Progress) :
    Prop where
  memory : now.memory.Holds base C
  frames : ∀ mem frames, now = .going mem frames → ∀ frame ∈ frames, frame.Holds p base C

/-- The next task evaluates a function expression to a function. -/
def Progress.Makes (now : Progress) (site : Site) (params : List Name) (body : List Stmt)
    (c : Closure) : Prop :=
  ∃ mem frame callers rest, now = .going mem (frame :: callers) ∧
    frame.tasks = .eval (.function site params body) :: rest ∧
    c = ⟨mem.closureCount, site.id, frame.environment⟩

section

variable {p : Program} {base : ScopeId} {C D : Closure → Prop} {mem : Memory} {frame : Frame}
  {callers frames : List Frame} {task : Task} {tasks rest : List Task} {v : Value}
  {values : List Value} {env : Environment}

/-! ### Frames -/

namespace Frame.Holds

theorem mono (h : frame.Holds p base C) (himp : ∀ c, C c → D c) : frame.Holds p base D :=
  ⟨h.environment, fun v hv => (h.values v hv).mono himp, h.tasks⟩

theorem pushValue (h : frame.Holds p base C) (hv : v.Every C) :
    (frame.pushValue v).Holds p base C :=
  ⟨h.environment, List.forall_mem_cons.2 ⟨hv, h.values⟩, h.tasks⟩

theorem dropValues (h : frame.Holds p base C) (hvalues : values ⊆ frame.values) :
    ({ frame with values } : Frame).Holds p base C :=
  ⟨h.environment, fun v hv => h.values v (hvalues hv), h.tasks⟩

theorem schedule (h : frame.Holds p base C) (htasks : ∀ task ∈ tasks, task.Known p base) :
    (frame.schedule tasks).Holds p base C :=
  ⟨h.environment, h.values, List.forall_mem_append.2 ⟨htasks, h.tasks⟩⟩

theorem inside (h : frame.Holds p base C) (henv : env.Above base) :
    ({ frame with environment := env } : Frame).Holds p base C :=
  ⟨henv, h.values, h.tasks⟩

end Frame.Holds

theorem Task.known_execs {body : List Stmt} (hbody : ∀ s ∈ body, p.Contains (.stmt s)) :
    ∀ task ∈ body.map (Task.exec · []), task.Known p base := by
  intro task htask
  obtain ⟨s, hs, rfl⟩ := List.mem_map.1 htask
  exact hbody s hs

theorem Task.known_evals {α : Type} {node : α → Expr} {items : List α}
    (hitems : ∀ x ∈ items, p.Contains (.expr (node x))) :
    ∀ task ∈ items.map (fun x => Task.eval (node x)), task.Known p base := by
  intro task htask
  obtain ⟨x, hx, rfl⟩ := List.mem_map.1 htask
  exact hitems x hx

theorem Task.known_cons {first : Task} (hfirst : first.Known p base)
    (htasks : ∀ task ∈ tasks, task.Known p base) : ∀ task ∈ first :: tasks, task.Known p base :=
  List.forall_mem_cons.2 ⟨hfirst, htasks⟩

theorem Task.known_nil : ∀ task ∈ ([] : List Task), task.Known p base :=
  List.forall_mem_nil _

/-! ### Jumps -/

/-- A jump drops tasks, and puts a chain back that is among them. -/
theorem Frame.known_unwindTasks (wanted : Task → Bool) (htasks : ∀ task ∈ tasks, task.Known p base)
    (henv : env.Above base) :
    (Frame.unwindTasks wanted tasks env).2.Above base ∧
      ∀ found rest, (Frame.unwindTasks wanted tasks env).1 = some (found, rest) →
        found.Known p base ∧ ∀ task ∈ rest, task.Known p base := by
  induction tasks generalizing env with
  | nil => exact ⟨henv, nofun⟩
  | cons first tasks ih =>
    obtain ⟨hfirst, hrest⟩ := List.forall_mem_cons.1 htasks
    -- The end of a block is the only task that changes the chain when it is dropped.
    unfold Frame.unwindTasks
    split
    · refine ⟨henv, fun found rest heq => ?_⟩
      cases heq
      exact ⟨hfirst, hrest⟩
    · split
      · exact ih hrest hfirst
      · exact ih hrest henv

theorem Frame.Holds.unwind (h : frame.Holds p base C) (wanted : Task → Bool) :
    (frame.unwind wanted).2.Holds p base C ∧
      ∀ task, (frame.unwind wanted).1 = some task → task.Known p base := by
  obtain ⟨henv, hrest⟩ := Frame.known_unwindTasks wanted h.tasks h.environment
  unfold Frame.unwind
  split
  · rename_i found rest env heq
    rw [heq] at henv hrest
    obtain ⟨hfound, hrest⟩ := hrest found rest rfl
    refine ⟨⟨henv, h.values, hrest⟩, ?_⟩
    intro task htask
    cases htask
    exact hfound
  · rename_i heq
    rw [heq] at henv
    exact ⟨⟨henv, h.values, List.forall_mem_nil _⟩, nofun⟩

theorem Memory.holds_breakOut (hmem : mem.Holds base C) (h : frame.Holds p base C)
    (label : Option Name) : Effect.Holds p base C (mem, breakOut frame label) := by
  obtain ⟨hframe, -⟩ := h.unwind (breaksAt label)
  unfold breakOut
  split
  · rename_i heq
    rw [heq] at hframe
    exact ⟨hmem, hframe⟩
  · exact hmem

theorem Memory.holds_continueLoop (hmem : mem.Holds base C) (h : frame.Holds p base C)
    (label : Option Name) : Effect.Holds p base C (mem, continueLoop frame label) := by
  obtain ⟨hframe, hfound⟩ := h.unwind (continuesAt label)
  unfold continueLoop
  split
  · rename_i l frame' heq
    rw [heq] at hframe hfound
    exact ⟨hmem, hframe.schedule (known_roundTasks (hfound _ rfl))⟩
  · exact hmem

/-! ### Values -/

namespace Effect

theorem holds_result (hmem : mem.Holds base C) (h : frame.Holds p base C)
    {result : Except Fault Value} (hresult : Except.Every C result) :
    Effect.Holds p base C (mem, .result frame result) := by
  cases result with
  | ok value => exact ⟨hmem, h.pushValue hresult⟩
  | error fault => exact hmem

theorem holds_withValue (hmem : mem.Holds base C) (h : frame.Holds p base C)
    {next : Value → Frame → Effect}
    (hnext : ∀ v values, v.Every C → ({ frame with values } : Frame).Holds p base C →
      Effect.Holds p base C (mem, next v { frame with values })) :
    Effect.Holds p base C (mem, .withValue frame next) := by
  unfold withValue
  split
  · rename_i v values heq
    have hv := h.values
    rw [heq] at hv
    refine hnext v values (hv v List.mem_cons_self) (h.dropValues ?_)
    rw [heq]
    exact List.subset_cons_self v values
  · exact hmem

end Effect

/-! ### Tasks -/

namespace Memory

theorem holds_exec (hmem : mem.Holds base C) (h : frame.Holds p base C) (labels : List String)
    {s : Stmt} (hs : p.Contains (.stmt s)) :
    Effect.Holds p base C (mem.exec frame labels s) := by
  have hchild : ∀ c ∈ (Node.stmt s).children, p.Contains c := fun c hc => .child hs hc
  -- Most statements evaluate an expression for a task that takes its value off the stack.
  have htake : ∀ {e : Expr} {task : Task}, .expr e ∈ (Node.stmt s).children →
      task.Known p base → (frame.schedule [.eval e, task]).Holds p base C := by
    intro e task he htask
    exact h.schedule (Task.known_cons (hchild _ he) (Task.known_cons htask Task.known_nil))
  have hundefined : ∀ {task : Task}, task.Known p base →
      ((frame.pushValue .undefined).schedule [task]).Holds p base C := by
    intro task htask
    exact (h.pushValue .undefined).schedule (Task.known_cons htask Task.known_nil)
  cases s with
  | declare site name init =>
    cases init with
    | some init => exact ⟨hmem, htake (by simp [Node.children]) trivial⟩
    | none => exact ⟨hmem, hundefined trivial⟩
  | evaluate site e => exact ⟨hmem, htake (by simp [Node.children]) trivial⟩
  | block site body =>
    obtain ⟨hinner, hmem⟩ := hmem.extend h.environment
    refine ⟨hmem, (h.inside hinner).schedule (List.forall_mem_append.2 ⟨?_, ?_⟩)⟩
    · exact Task.known_execs fun s hs => hchild _ (List.mem_map_of_mem hs)
    · exact Task.known_cons h.environment Task.known_nil
  | labeled site label body =>
    have hbody : p.Contains (.stmt body) := hchild _ (by simp [Node.children])
    exact ⟨hmem, h.schedule (Task.known_cons hbody (Task.known_cons trivial Task.known_nil))⟩
  | branch site condition thenBranch elseBranch =>
    refine ⟨hmem, htake (by simp [Node.children]) ⟨hchild _ (by simp [Node.children]), ?_⟩⟩
    intro s hs
    exact hchild _ (by simp [Node.children, Option.mem_def.1 hs])
  | loop site condition body => exact ⟨hmem, h.schedule (known_roundTasks ⟨site, hs⟩)⟩
  | breakTo site label => exact holds_breakOut hmem h label
  | continueTo site label => exact holds_continueLoop hmem h label
  | returnWith site value =>
    cases value with
    | some value => exact ⟨hmem, htake (by simp [Node.children]) trivial⟩
    | none => exact ⟨hmem, hundefined trivial⟩

/-- Evaluating an expression makes a function only if it is a function expression. -/
theorem holds_eval (hmem : mem.Holds base C) (h : frame.Holds p base C) {e : Expr}
    (he : p.Contains (.expr e)) (hmade : ∀ site params body, e = .function site params body →
      C ⟨mem.closureCount, site.id, frame.environment⟩) :
    Effect.Holds p base C (mem.eval frame e) := by
  have hchild : ∀ c ∈ (Node.expr e).children, p.Contains c := fun c hc => .child he hc
  -- The parts are evaluated from left to right, for a task that puts them together.
  have hparts : ∀ {α : Type} (node : α → Expr) (items : List α) {task : Task},
      (∀ x ∈ items, .expr (node x) ∈ (Node.expr e).children) → task.Known p base →
      (frame.schedule (items.map (fun x => Task.eval (node x)) ++ [task])).Holds p base C := by
    intro α node items task hitems htask
    refine h.schedule (List.forall_mem_append.2 ⟨?_, Task.known_cons htask Task.known_nil⟩)
    exact Task.known_evals fun x hx => hchild _ (hitems x hx)
  cases e with
  | literal site value => exact ⟨hmem, h.pushValue (Value.every_ofLiteral value)⟩
  | name n =>
    simp only [eval]
    split
    · rename_i value hlookup
      exact ⟨hmem, h.pushValue (hmem.lookup h.environment hlookup)⟩
    · exact hmem
  | array site items => exact ⟨hmem, hparts id items (fun x hx => List.mem_map_of_mem hx) trivial⟩
  | tuple site items => exact ⟨hmem, hparts id items (fun x hx => List.mem_map_of_mem hx) trivial⟩
  | object site properties =>
    have hknown : Task.Known p base (.object (properties.map (·.1))) := trivial
    exact ⟨hmem, hparts (·.2) properties (fun x hx => List.mem_map_of_mem hx) hknown⟩
  | function site params body =>
    exact ⟨⟨hmem.size, hmem.values⟩, h.pushValue (.function (hmade site params body rfl))⟩
  | unary site op operand =>
    exact ⟨hmem, hparts id [operand] (by simp [Node.children]) trivial⟩
  | binary site op left right =>
    exact ⟨hmem, hparts id [left, right] (by simp [Node.children]) trivial⟩
  | logical site op left right =>
    have hright : Task.Known p base (.logical op right) := hchild _ (by simp [Node.children])
    exact ⟨hmem, hparts id [left] (by simp [Node.children]) hright⟩
  | assign site target value =>
    exact ⟨hmem, hparts id [value] (by simp [Node.children]) trivial⟩
  | call site callee args =>
    exact ⟨hmem, hparts id (callee :: args) (fun x hx => List.mem_map_of_mem hx) trivial⟩
  | member site object property =>
    exact ⟨hmem, hparts id [object] (by simp [Node.children]) trivial⟩
  | index site object index =>
    exact ⟨hmem, hparts id [object, index] (by simp [Node.children]) trivial⟩

/-- A call runs a function of the program, whatever function was made at the called number. -/
theorem holds_call (hp : p.Formed) (hseen : ∀ c, C c → c.environment.Above base)
    (hmem : mem.Holds base C) (h : frame.Holds p base C) (count : Nat) :
    Effect.Holds p base C (mem.call p callers frame count) := by
  rcases call_cases p mem callers frame count with ⟨fault, values, -, hcall⟩ |
    ⟨closure, values, site, params, body, current, hdrop, hnode, hcall⟩
  · rw [hcall]
    exact hmem
  · have hvalues : Value.function closure :: values ⊆ frame.values := by
      rw [← hdrop]
      exact List.drop_subset _ _
    obtain ⟨hcallee, hrest⟩ := List.cons_subset.1 hvalues
    have hclosure : C closure := by
      cases h.values _ hcallee with
      | function hclosure => exact hclosure
    -- The number may be from a program before: what is run is the node it has in this one.
    have hcontains : p.Contains (.expr (.function site params body)) :=
      hp.mem_nodes_iff.1 (Array.mem_of_getElem? hnode)
    obtain ⟨hinner, hmem⟩ := hmem.extend (hseen closure hclosure)
    rw [hcall]
    refine ⟨hmem.bindParams _ params fun v hv => ?_, h.dropValues hrest, hinner,
      List.forall_mem_nil _, Task.known_execs fun s hs => ?_⟩
    · exact h.values v (List.mem_of_mem_take (List.mem_reverse.1 hv))
    · exact .child hcontains (List.mem_append_right _ (List.mem_map_of_mem hs))

/-- Performing a task makes a function only if it evaluates a function expression. -/
theorem holds_perform (hp : p.Formed) (hseen : ∀ c, C c → c.environment.Above base)
    (hmem : mem.Holds base C) (h : frame.Holds p base C) (htask : task.Known p base)
    (hmade : ∀ site params body, task = .eval (.function site params body) →
      C ⟨mem.closureCount, site.id, frame.environment⟩) :
    Effect.Holds p base C (mem.perform p callers frame task) := by
  cases hoperator : task.operands? with
  | some count =>
    rcases operator_cases p mem callers frame hoperator with
      ⟨values, -, hmissing⟩ | ⟨values, result, hrest, hresult, hperform⟩
    · rw [hmissing]
      exact hmem
    · rw [hperform]
      exact Effect.holds_result hmem (h.dropValues hrest) (hresult C h.values)
  | none =>
    cases task with
    | unary | binary | array | tuple | object | member | index => cases hoperator
    | exec s labels => exact holds_exec hmem h labels htask
    | eval e =>
      refine holds_eval hmem h htask fun site params body heq => ?_
      exact hmade site params body (congrArg Task.eval heq)
    | call count => exact holds_call hp hseen hmem h count
    | declare name =>
      rcases declare_cases p mem callers frame name with hmissing | ⟨v, values, hvalues, hdeclare⟩
      · rw [hmissing]
        exact hmem
      · rw [hdeclare]
        have hv : v.Every C := h.values v (hvalues ▸ List.mem_cons_self)
        exact ⟨hmem.declareIn hv _ name, h.dropValues (hvalues ▸ List.subset_cons_self v values)⟩
    | assign name =>
      rcases assign_cases p mem callers frame name with ⟨fault, hfail⟩ | ⟨v, id, hv, -, hassign⟩
      · rw [hfail]
        exact hmem
      · rw [hassign]
        exact ⟨hmem.declareIn (h.values v hv) id name, h⟩
    | restore env => exact ⟨hmem, h.inside htask⟩
    | loop | label => exact ⟨hmem, h⟩
    | discard => exact Effect.holds_withValue hmem h fun _ _ _ hrest => ⟨hmem, hrest⟩
    | returnValue => exact Effect.holds_withValue hmem h fun _ _ hv _ => ⟨hmem, hv⟩
    | branch thenBranch elseBranch =>
      obtain ⟨hthen, helse⟩ := htask
      refine Effect.holds_withValue hmem h fun v values _ hrest => ?_
      split
      · exact ⟨hmem, hrest.schedule (Task.known_cons hthen Task.known_nil)⟩
      · refine ⟨hmem, hrest.schedule (Task.known_execs fun s hs => ?_)⟩
        exact helse s (Option.mem_toList.1 hs)
    | loopTest l =>
      obtain ⟨site, hloop⟩ := htask
      refine Effect.holds_withValue hmem h fun v values _ hrest => ?_
      split
      · have hbody : p.Contains (.stmt l.body) := .child hloop (by simp [Node.children])
        have hcondition : p.Contains (.expr l.condition) := .child hloop (by simp [Node.children])
        have htest : Task.Known p base (.loopTest l) := ⟨site, hloop⟩
        exact ⟨hmem, hrest.schedule (Task.known_cons hbody
          (Task.known_cons hcondition (Task.known_cons htest Task.known_nil)))⟩
      · exact ⟨hmem, hrest⟩
    | logical op right =>
      refine Effect.holds_withValue hmem h fun v values hv hrest => ?_
      split
      · exact ⟨hmem, hrest.pushValue hv⟩
      · exact ⟨hmem, hrest.schedule (Task.known_cons htask Task.known_nil)⟩

end Memory

/-! ### Ticks -/

theorem Progress.holds_going (hmem : mem.Holds base C)
    (hframes : ∀ frame ∈ frames, frame.Holds p base C) :
    (Progress.going mem frames).Holds p base C := by
  refine ⟨hmem, ?_⟩
  intro mem' frames' heq
  cases heq
  exact hframes

theorem Progress.Holds.mono {now : Progress} (h : now.Holds p base C) (himp : ∀ c, C c → D c) :
    now.Holds p base D :=
  ⟨h.memory.mono himp, fun mem frames heq frame hframe =>
    (h.frames mem frames heq frame hframe).mono himp⟩

namespace Machine

theorem holds_arrive (hframes : ∀ frame ∈ frames, frame.Holds p base C) :
    ∀ frame ∈ arrive frames, frame.Holds p base C := by
  unfold arrive
  split
  · exact hframes
  · obtain ⟨hframe, hcallers⟩ := List.forall_mem_cons.1 hframes
    split
    · exact List.forall_mem_cons.2
        ⟨⟨hframe.environment, hframe.values, hframe.tasks⟩, hcallers⟩
    · exact hframes

theorem holds_resume (hframes : ∀ frame ∈ frames, frame.Holds p base C) (hv : v.Every C) :
    ∀ frame ∈ resume v frames, frame.Holds p base C := by
  cases frames with
  | nil => exact List.forall_mem_nil _
  | cons frame frames =>
    obtain ⟨hframe, hrest⟩ := List.forall_mem_cons.1 hframes
    exact List.forall_mem_cons.2 ⟨hframe.pushValue hv, hrest⟩

theorem holds_follow {effect : Memory × Effect} (h : Effect.Holds p base C effect)
    (hcallers : ∀ frame ∈ callers, frame.Holds p base C) :
    (follow callers effect).Holds p base C := by
  obtain ⟨mem, effect⟩ := effect
  cases effect with
  | stay frame =>
    obtain ⟨hmem, hframe⟩ := h
    exact Progress.holds_going hmem (holds_arrive (List.forall_mem_cons.2 ⟨hframe, hcallers⟩))
  | enter caller callee =>
    obtain ⟨hmem, hcaller, hcallee⟩ := h
    exact Progress.holds_going hmem (holds_arrive
      (List.forall_mem_cons.2 ⟨hcallee, List.forall_mem_cons.2 ⟨hcaller, hcallers⟩⟩))
  | leave value =>
    obtain ⟨hmem, hvalue⟩ := h
    exact Progress.holds_going hmem (holds_arrive (holds_resume hcallers hvalue))
  | fail fault frame => exact ⟨h, nofun⟩

end Machine

/-- A tick makes no function but the one that its task evaluates an expression to. -/
theorem Progress.Holds.next (hp : p.Formed) (hseen : ∀ c, C c → c.environment.Above base)
    {now : Progress} (h : now.Holds p base C)
    (hmade : ∀ site params body c, now.Makes site params body c → C c) :
    (now.next p).Holds p base C := by
  cases now with
  | done | failed => exact h
  | going mem frames =>
    have hframes := h.frames mem frames rfl
    cases frames with
    | nil => exact ⟨h.memory, nofun⟩
    | cons frame callers =>
      obtain ⟨hframe, hcallers⟩ := List.forall_mem_cons.1 hframes
      cases htasks : frame.tasks with
      | nil =>
        rw [Progress.next, Machine.tick, htasks]
        exact Progress.holds_going h.memory
          (Machine.holds_arrive (Machine.holds_resume hcallers .undefined))
      | cons task rest =>
        rw [Progress.next, Machine.tick_of_tasks htasks]
        obtain ⟨htask, hrest⟩ := List.forall_mem_cons.1 (htasks ▸ hframe.tasks)
        refine Machine.holds_follow (Memory.holds_perform hp hseen h.memory
          ⟨hframe.environment, hframe.values, hrest⟩ htask ?_) hcallers
        rintro site params body rfl
        exact hmade site params body _ ⟨mem, frame, callers, rest, rfl, htasks, rfl⟩

/-- A program that is loaded runs its own statements, and finds in its memory what was there. -/
theorem Machine.holds_load {m : Machine} (hmem : m.memory.Holds base C)
    (hglobals : m.globals.Above base) (p : Program) :
    (Progress.going (m.load p).memory (m.load p).frames).Holds p base C := by
  unfold load
  split
  · refine Progress.holds_going hmem (List.forall_mem_singleton.2 ?_)
    exact ⟨hglobals, List.forall_mem_nil _, Task.known_execs fun s hs => .top hs⟩
  · exact Progress.holds_going hmem (List.forall_mem_nil _)

end

end LWorkbench
