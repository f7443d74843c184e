import LWorkbench.Debugger.Debuggee
import LWorkbench.Proofs.Machine.Jumps

/-!
# Call sites and current statements

A stack trace shows where each frame is by its current statement. A frame takes a statement as its
current one when it comes to stand in front of it, and keeps it while it evaluates the expressions
of the statement, calls included. The condition of a loop is evaluated again without the loop being
taken up again: then the current statement is still the last one of the body. So a frame that waits
for a call points at the statement around the call, or, if that statement is a loop, at a statement
inside its body.

## Main definitions

* `Node.statementAround`, `Node.Outward` — the innermost statement around a place, and going
  outwards inside one function
* `Rest`, `Evaluating` — what a frame has left to do behind a statement, and while it evaluates the
  expressions of one
* `Program.Points` — a current statement for a statement that is at work
* `Frame.AtWork`, `Sites` — frames at work, one at a time and all of them

## Main results

* `Frame.atWork_perform` — performing a task
* `Machine.exists_sites` — the frames of a run stay at work
* `Machine.frames_point_at_calls` — what the frames of a paused machine point at
-/

namespace LWorkbench

/-- The nodes around a place from the innermost statement on. -/
def Node.statementAround (around : List Node) : List Node :=
  around.dropWhile (·.stmt?.isNone)

/-- Going outwards from a node to one around it without leaving a function. A node is given with the
nodes around it. -/
def Node.Outward (inner outer : List Node) : Prop :=
  ∃ between, inner = between ++ outer ∧ ∀ n ∈ between, n.isFunction = false

open Node (Outward statementAround)

/-- Tasks that are left when a statement is done: further statements, and the ends of the nodes
around. They lead outwards from a node. -/
inductive Rest (p : Program) : List Task → List Node → Prop
  | done {here : List Node} : Rest p [] here
  | exec {s : Stmt} {labels : List String} {rest : List Task} {around outer here : List Node}
      (hs : p.Located around (.stmt s)) (hin : Outward (.stmt s :: around) outer)
      (hout : Outward here outer) (hrest : Rest p rest outer) : Rest p (.exec s labels :: rest) here
  | restore {env : Environment} {rest : List Task} {here : List Node} (hrest : Rest p rest here) :
    Rest p (.restore env :: rest) here
  | label {name : String} {rest : List Task} {here : List Node} (hrest : Rest p rest here) :
    Rest p (.label name :: rest) here
  /-- The marker of a loop. -/
  | loop {site : Site} {l : Loop} {rest : List Task} {around here : List Node}
      (hs : p.Located around (.stmt (.loop site l.condition l.body)))
      (hout : Outward here (.stmt (.loop site l.condition l.body) :: around))
      (hrest : Rest p rest (.stmt (.loop site l.condition l.body) :: around)) :
    Rest p (.loop l :: rest) here
  /-- Testing the condition of a loop once more. -/
  | again {site : Site} {l : Loop} {rest : List Task} {around here : List Node}
      (hs : p.Located around (.stmt (.loop site l.condition l.body)))
      (hout : Outward here (.stmt (.loop site l.condition l.body) :: around))
      (hrest : Rest p rest (.stmt (.loop site l.condition l.body) :: around)) :
    Rest p (.eval l.condition :: .loopTest l :: rest) here

/-- Tasks that are left while the expressions of a statement are evaluated. -/
inductive Evaluating (p : Program) (H : Beginnings) (env : Environment) (s : Stmt)
    (around : List Node) : List Task → Prop
  | done {rest : List Task} (hrest : Rest p rest (.stmt s :: around)) :
    Evaluating p H env s around rest
  | eval {e : Expr} {rest : List Task} {place : List Node} (he : p.Located place (.expr e))
      (hplace : statementAround place = .stmt s :: around)
      (hrest : Evaluating p H env s around rest) : Evaluating p H env s around (.eval e :: rest)
  | logical {op : LogicalOp} {right : Expr} {rest : List Task} {place : List Node}
      (he : p.Located place (.expr right)) (hplace : statementAround place = .stmt s :: around)
      (hrest : Evaluating p H env s around rest) :
    Evaluating p H env s around (.logical op right :: rest)
  | call {site : Site} {callee : Expr} {args : List Expr} {rest : List Task} {place : List Node}
      (he : p.Located place (.expr (.call site callee args)))
      (hplace : statementAround place = .stmt s :: around)
      (hbegun : H (.eval (.call site callee args)) env rest (.call args.length :: rest))
      (hrest : Evaluating p H env s around rest) :
    Evaluating p H env s around (.call args.length :: rest)
  | branch {site : Site} {condition : Expr} {thenBranch : Stmt} {elseBranch : Option Stmt}
      {rest : List Task} (hs : s = .branch site condition thenBranch elseBranch)
      (hrest : Rest p rest (.stmt s :: around)) :
    Evaluating p H env s around (.branch thenBranch elseBranch :: rest)
  | loopTest {site : Site} {l : Loop} {rest : List Task} (hs : s = .loop site l.condition l.body)
      (hrest : Rest p rest (.stmt s :: around)) : Evaluating p H env s around (.loopTest l :: rest)
  | plain {task : Task} {rest : List Task} (htask : task.isPlain = true)
      (hrest : Evaluating p H env s around rest) : Evaluating p H env s around (task :: rest)
  | declare {x : String} {rest : List Task} (hrest : Evaluating p H env s around rest) :
    Evaluating p H env s around (.declare x :: rest)
  | assign {x : String} {rest : List Task} (hrest : Evaluating p H env s around rest) :
    Evaluating p H env s around (.assign x :: rest)

/-- A frame that is at work on a statement may have this current statement: the statement itself,
or a statement inside it if it is a loop. -/
def Program.Points (p : Program) (current : NodeId) (s : Stmt) (around : List Node) : Prop :=
  ∃ c path, p.Located path (.stmt c) ∧ c.id = current ∧
    (c = s ∧ path = around ∨
      (Node.stmt s).isLoop = true ∧ Outward (.stmt c :: path) (.stmt s :: around))

/-- The frame is at work on a statement that its current statement points at, or has nothing left
to do. -/
inductive Frame.AtWork (p : Program) (H : Beginnings) (frame : Frame) : Prop
  | ended (htasks : frame.tasks = [])
  | working {s : Stmt} {around : List Node} (hs : p.Located around (.stmt s))
      (hpoints : p.Points frame.current s around)
      (hwork : Evaluating p H frame.environment s around frame.tasks)

/-- A frame in front of a statement has it as its current one. -/
def Frame.Arrived (frame : Frame) : Prop :=
  ∀ s labels rest, frame.tasks = .exec s labels :: rest → frame.current = s.id

/-- The frame goes on at work. -/
def Effect.AtWork (p : Program) (H : Beginnings) : Effect → Prop
  | .stay frame => frame.AtWork p H
  | .enter .. => False
  | .leave _ => True
  | .fail .. => True

variable {p : Program} {run : Nat → Progress} {n : Nat} {H H' : Beginnings} {mem mem' : Memory}
  {frame caller callee : Frame} {callers frames : List Frame} {task : Task} {tasks rest : List Task}
  {env env' : Environment} {s c : Stmt} {e : Expr} {labels : List String}
  {around outer here inner place path : List Node} {node m : Node} {current : NodeId}

/-! ### Going outwards -/

namespace Node

theorem Outward.refl (here : List Node) : Outward here here :=
  ⟨[], rfl, List.forall_mem_nil _⟩

theorem Outward.trans {mid : List Node} (h : Outward inner mid) (h' : Outward mid outer) :
    Outward inner outer := by
  obtain ⟨between, rfl, hbetween⟩ := h
  obtain ⟨further, rfl, hfurther⟩ := h'
  refine ⟨between ++ further, (List.append_assoc ..).symm, fun n hn => ?_⟩
  exact (List.mem_append.1 hn).elim (hbetween n) (hfurther n)

theorem Outward.cons (h : Outward here outer) (s : Stmt) : Outward (.stmt s :: here) outer := by
  obtain ⟨between, rfl, hbetween⟩ := h
  exact ⟨.stmt s :: between, rfl, List.forall_mem_cons.2 ⟨rfl, hbetween⟩⟩

theorem statementAround_stmt (s : Stmt) (around : List Node) :
    statementAround (.stmt s :: around) = .stmt s :: around :=
  List.dropWhile_cons_of_neg nofun

theorem statementAround_expr (e : Expr) (around : List Node) :
    statementAround (.expr e :: around) = statementAround around :=
  List.dropWhile_cons_of_pos rfl

/-- A statement stands directly inside a statement or a function. -/
theorem stmt_of_child (hc : .stmt c ∈ node.children) (hfunction : node.isFunction = false) :
    ∃ s, node = .stmt s := by
  cases node with
  | stmt s => exact ⟨s, rfl⟩
  | expr e =>
    cases e with
    | function => cases hfunction
    | _ => simp [children, ofName] at hc

end Node

/-- What is around a node is the node directly around it, with what is around that one. -/
theorem Program.Located.directly (h : p.Located (node :: around) m) :
    p.Located around node ∧ m ∈ node.children := by
  obtain ⟨s, hs, h⟩ := h
  cases h with
  | child hn hc => exact ⟨⟨s, hs, hn⟩, hc⟩

/-- A statement that a loop is around, in the same function, is the loop or inside its body. -/
theorem Program.Located.in_loop_body {site : Site} {condition : Expr} {body : Stmt}
    (h : p.Located path (.stmt c))
    (hout : Outward (.stmt c :: path) (.stmt (.loop site condition body) :: around)) :
    c = .loop site condition body ∧ path = around ∨
      Outward (.stmt c :: path) (.stmt body :: .stmt (.loop site condition body) :: around) := by
  obtain ⟨between, hpath, hbetween⟩ := hout
  cases between with
  | nil =>
    cases hpath
    exact .inl ⟨rfl, rfl⟩
  | cons n between =>
    right
    obtain ⟨rfl, rfl⟩ := List.cons.inj hpath
    replace hbetween := (List.forall_mem_cons.1 hbetween).2
    clear hpath
    -- The induction goes outwards: what is around a statement in a function is a statement again.
    induction between generalizing c with
    | nil =>
      obtain ⟨-, hc⟩ := h.directly
      simp only [Node.children, List.mem_cons, reduceCtorEq, Node.stmt.injEq, List.not_mem_nil,
        or_false, false_or] at hc
      rw [hc]
      exact .refl _
    | cons m between ih =>
      obtain ⟨hfunction, hothers⟩ := List.forall_mem_cons.1 hbetween
      obtain ⟨hm, hc⟩ := h.directly
      obtain ⟨t, rfl⟩ := Node.stmt_of_child hc hfunction
      exact (ih hm hothers).cons c

/-! ### Tasks behind a statement -/

namespace Rest

/-- The tasks lead outwards from further inside as well. -/
theorem outward (h : Rest p tasks outer) (hout : Outward here outer) : Rest p tasks here := by
  induction h with
  | done => exact .done
  | exec hs hin hout' hrest => exact .exec hs hin (hout.trans hout') hrest
  | restore _ ih => exact .restore (ih hout)
  | label _ ih => exact .label (ih hout)
  | loop hs hout' hrest => exact .loop hs (hout.trans hout') hrest
  | again hs hout' hrest => exact .again hs (hout.trans hout') hrest

/-- Statements of a body one after another. -/
theorem execs {body : List Stmt} (hbody : ∀ s ∈ body, p.Located outer (.stmt s))
    (h : Rest p tasks outer) : Rest p (body.map (Task.exec · []) ++ tasks) outer := by
  induction body with
  | nil => exact h
  | cons s body ih =>
    obtain ⟨hs, hbody⟩ := List.forall_mem_cons.1 hbody
    exact .exec hs ((Outward.refl _).cons s) (.refl _) (ih hbody)

/-- Behind the marker that a jump stops at. -/
theorem unwind {wanted : Task → Bool} (h : Rest p tasks here)
    (hwanted : ∀ task, (∀ l, task ≠ .loop l) → (∀ x, task ≠ .label x) → wanted task = false)
    (hunwind : Frame.unwindTasks wanted tasks env = (some (task, rest), env')) :
    Rest p (task :: rest) here := by
  -- What stands in front of the marker is dropped task by task.
  have hskip : ∀ (first : Task) {tasks : List Task} {env : Environment},
      (∀ l, first ≠ .loop l) → (∀ x, first ≠ .label x) →
      Frame.unwindTasks wanted (first :: tasks) env =
        Frame.unwindTasks wanted tasks (first.behind env) := by
    intro first tasks env hloop hlabel
    rw [unwindTasks_cons, hwanted first hloop hlabel]
    rfl
  induction h generalizing env with
  | done => cases hunwind
  | exec hs hin hout _ ih =>
    rw [hskip (.exec _ _) nofun nofun] at hunwind
    exact (ih hunwind).outward hout
  | restore _ ih =>
    rw [hskip (.restore _) nofun nofun] at hunwind
    exact ih hunwind
  | label hrest ih =>
    rw [unwindTasks_cons] at hunwind
    split at hunwind
    · cases hunwind
      exact .label hrest
    · exact ih hunwind
  | loop hs hout hrest ih =>
    rw [unwindTasks_cons] at hunwind
    split at hunwind
    · cases hunwind
      exact .loop hs hout hrest
    · exact (ih hunwind).outward hout
  | again hs hout _ ih =>
    rw [hskip (.eval _) nofun nofun, hskip (.loopTest _) nofun nofun] at hunwind
    exact (ih hunwind).outward hout

end Rest

/-! ### Evaluating expressions -/

namespace Evaluating

/-- Only beginnings whose tasks are kept matter. -/
theorem mono (h : Evaluating p H env s around tasks)
    (hH : ∀ {first env rest kept}, kept <:+ tasks → H first env rest kept →
      H' first env rest kept) : Evaluating p H' env s around tasks := by
  have htail : ∀ {task : Task} {rest : List Task},
      (∀ {first env rest' kept}, kept <:+ task :: rest → H first env rest' kept →
        H' first env rest' kept) →
      ∀ {first env rest' kept}, kept <:+ rest → H first env rest' kept →
        H' first env rest' kept :=
    fun hH _ _ _ _ hkept => hH (hkept.trans (List.suffix_cons _ _))
  induction h with
  | done hrest => exact .done hrest
  | eval he hplace _ ih => exact .eval he hplace (ih (htail hH))
  | logical he hplace _ ih => exact .logical he hplace (ih (htail hH))
  | call he hplace hbegun _ ih =>
    exact .call he hplace (hH List.suffix_rfl hbegun) (ih (htail hH))
  | branch hs hrest => exact .branch hs hrest
  | loopTest hs hrest => exact .loopTest hs hrest
  | plain htask _ ih => exact .plain htask (ih (htail hH))
  | declare _ ih => exact .declare (ih (htail hH))
  | assign _ ih => exact .assign (ih (htail hH))

/-- Expressions inside an expression one after another. -/
theorem evals {α : Type} {node : α → Expr} {items : List α}
    (hitems : ∀ x ∈ items, p.Located place (.expr (node x)))
    (hplace : statementAround place = .stmt s :: around) (h : Evaluating p H env s around tasks) :
    Evaluating p H env s around (items.map (fun x => Task.eval (node x)) ++ tasks) := by
  induction items with
  | nil => exact h
  | cons x items ih =>
    obtain ⟨hx, hitems⟩ := List.forall_mem_cons.1 hitems
    exact .eval hx hplace (ih hitems)

/-- A statement is run only when no expression is left to evaluate. -/
theorem rest_of_exec (h : Evaluating p H env s around (.exec c labels :: rest)) :
    Rest p (.exec c labels :: rest) (.stmt s :: around) := by
  cases h with
  | done hrest => exact hrest
  | plain htask => cases htask

end Evaluating

/-! ### Current statements -/

theorem Program.Points.refl (hs : p.Located around (.stmt s)) : p.Points s.id s around :=
  ⟨s, around, hs, rfl, .inl ⟨rfl, rfl⟩⟩

/-- Going on with the condition of a loop, the frame points at a statement inside it. -/
theorem Program.Points.of_outward {site : Site} {l : Loop} {outer : List Node}
    (h : p.Points current s around)
    (hout : Outward (.stmt s :: around) (.stmt (.loop site l.condition l.body) :: outer)) :
    p.Points current (.loop site l.condition l.body) outer := by
  obtain ⟨c, path, hc, hid, ⟨rfl, rfl⟩ | ⟨-, hpath⟩⟩ := h
  · exact ⟨c, path, hc, hid, .inr ⟨rfl, hout⟩⟩
  · exact ⟨c, path, hc, hid, .inr ⟨rfl, hpath.trans hout⟩⟩

namespace Frame.AtWork

/-- Only beginnings whose tasks are kept matter. -/
theorem mono (h : frame.AtWork p H)
    (hH : ∀ {first env rest kept}, kept <:+ frame.tasks → H first env rest kept →
      H' first env rest kept) : frame.AtWork p H' := by
  cases h with
  | ended htasks => exact .ended htasks
  | working hs hpoints hwork => exact .working hs hpoints (hwork.mono hH)

theorem pushValue (h : frame.AtWork p H) (v : Value) : (frame.pushValue v).AtWork p H := by
  cases h with
  | ended htasks => exact .ended htasks
  | working hs hpoints hwork => exact .working hs hpoints hwork

/-- A frame that comes to stand in front of a statement is at work on that statement. -/
theorem arrive (h : frame.AtWork p H) : ∃ current,
    Machine.arrive (frame :: callers) = { frame with current } :: callers ∧
      ({ frame with current } : Frame).AtWork p H ∧ ({ frame with current } : Frame).Arrived := by
  -- Only in front of a statement does the frame come to point at another node.
  by_cases hstmt : ∃ s labels rest, frame.tasks = .exec s labels :: rest
  · obtain ⟨s, labels, rest, htasks⟩ := hstmt
    refine ⟨s.id, Machine.arrive_of_statement htasks callers, ?_, fun s' labels' rest' h' => ?_⟩
    · cases h with
      | ended hended =>
        rw [htasks] at hended
        cases hended
      | working _ _ hwork =>
        rw [htasks] at hwork
        cases hwork.rest_of_exec with
        | exec hs hin _ hrest =>
          refine .working hs (.refl hs) (.done ?_)
          rw [htasks]
          exact .exec hs hin hin hrest
    · have heq := htasks.symm.trans h'
      cases heq
      rfl
  · have hsame : Machine.arrive (frame :: callers) = frame :: callers := by
      cases htasks : frame.tasks with
      | nil => simp [Machine.arrive, htasks]
      | cons task rest =>
        refine Machine.arrive_of_other htasks ?_ callers
        cases task with
        | exec s labels => exact absurd ⟨s, labels, rest, htasks⟩ hstmt
        | _ => rfl
    refine ⟨frame.current, hsame, h, fun s labels rest htasks => ?_⟩
    exact absurd ⟨s, labels, rest, htasks⟩ hstmt

/-- A frame in front of a statement. -/
theorem exec_cases (h : frame.AtWork p H) (harrived : frame.Arrived)
    (htasks : frame.tasks = .exec s labels :: rest) :
    ∃ around, p.Located around (.stmt s) ∧ p.Points frame.current s around ∧
      Rest p rest (.stmt s :: around) := by
  cases h with
  | ended hended =>
    rw [htasks] at hended
    cases hended
  | working _ _ hwork =>
    rw [htasks] at hwork
    cases hwork.rest_of_exec with
    | exec hs hin _ hrest =>
      refine ⟨_, hs, ?_, hrest.outward hin⟩
      rw [harrived s labels rest htasks]
      exact .refl hs

/-- A frame in front of an expression evaluates it for the statement around it. -/
theorem eval_cases (h : frame.AtWork p H) (htasks : frame.tasks = .eval e :: rest) :
    ∃ s around place, p.Located around (.stmt s) ∧ p.Points frame.current s around ∧
      p.Located place (.expr e) ∧ statementAround place = .stmt s :: around ∧
      Evaluating p H frame.environment s around rest := by
  cases h with
  | ended hended =>
    rw [htasks] at hended
    cases hended
  | working hs hpoints hwork =>
    rw [htasks] at hwork
    cases hwork with
    | eval he hplace hrest => exact ⟨_, _, _, hs, hpoints, he, hplace, hrest⟩
    | plain htask => cases htask
    | done hrest =>
      -- The condition of a loop is evaluated once more.
      cases hrest with
      | again hloop hout hrest =>
        exact ⟨_, _, _, hloop, hpoints.of_outward hout, hloop.child List.mem_cons_self,
          Node.statementAround_stmt _ _, .loopTest rfl hrest⟩

end Frame.AtWork

/-! ### Performing a task -/

namespace Effect

theorem atWork_withValue {next : Value → Frame → Effect}
    (h : ∀ v values, (next v { frame with values }).AtWork p H) :
    (withValue frame next).AtWork p H := by
  unfold withValue
  split
  · exact h _ _
  · trivial

theorem AtWork.mono {effect : Effect} (h : effect.AtWork p H)
    (hH : ∀ {first env rest kept}, H first env rest kept → H' first env rest kept) :
    effect.AtWork p H' := by
  cases effect with
  | stay frame => exact Frame.AtWork.mono h fun _ hbegun => hH hbegun
  | enter => exact h
  | leave | fail => trivial

theorem atWork_result (h : frame.AtWork p H) (r : Except Fault Value) :
    (result frame r).AtWork p H := by
  cases r with
  | ok value => exact h.pushValue value
  | error => trivial

end Effect

namespace Frame

section

variable (hpoints : p.Points frame.current s around)
  (hrest : Rest p frame.tasks (.stmt s :: around))

include hpoints hrest

/-- Leaving a loop or a labeled statement by a jump. -/
theorem atWork_breakOut (hs : p.Located around (.stmt s)) (label : Option Name) :
    (Memory.breakOut frame label).AtWork p H := by
  cases hunwind : unwindTasks (Memory.breaksAt label) frame.tasks frame.environment with
  | mk found env =>
    cases found with
    | none =>
      rw [Memory.breakOut, unwind, hunwind]
      trivial
    | some marker =>
      rw [Memory.breakOut_eq hunwind]
      have hmarker := hrest.unwind (fun task hloop hlabel => by
        cases task with
        | loop l => exact absurd rfl (hloop l)
        | label x => exact absurd rfl (hlabel x)
        | _ => rfl) hunwind
      have hwanted := wanted_of_unwindTasks hunwind
      obtain ⟨marker, rest⟩ := marker
      -- The frame still points at the jump, and what is left leads outwards from there.
      refine .working hs hpoints (.done ?_)
      cases hmarker with
      | label hrest => exact hrest
      | loop _ hout hrest => exact hrest.outward hout
      | _ => cases hwanted

/-- Going on with a loop by a jump: the frame points at the jump. -/
theorem atWork_continueLoop (label : Option Name) :
    (Memory.continueLoop frame label).AtWork p H := by
  cases hunwind : unwindTasks (Memory.continuesAt label) frame.tasks frame.environment with
  | mk found env =>
    cases found with
    | none =>
      rw [Memory.continueLoop, unwind, hunwind]
      trivial
    | some marker =>
      have hmarker := hrest.unwind (fun task hloop _ => by
        cases task with
        | loop l => exact absurd rfl (hloop l)
        | _ => rfl) hunwind
      have hwanted := wanted_of_unwindTasks hunwind
      obtain ⟨marker, rest⟩ := marker
      cases hmarker with
      | loop hloop hout hrest =>
        rw [Memory.continueLoop_eq hunwind]
        exact .working hloop (hpoints.of_outward hout) (.eval (hloop.child List.mem_cons_self)
          (Node.statementAround_stmt _ _) (.loopTest rfl (.loop hloop (.refl _) hrest)))
      | _ => cases hwanted

/-- Running a statement. -/
theorem atWork_exec (hs : p.Located around (.stmt s)) :
    (mem.exec frame labels s).2.AtWork p H := by
  have hhere := Node.statementAround_stmt s around
  cases s with
  | declare site name init =>
    cases init with
    | none => exact .working hs hpoints (.declare (.done hrest))
    | some init =>
      exact .working hs hpoints (.eval (hs.child (by simp [Node.children])) hhere
        (.declare (.done hrest)))
  | evaluate site e =>
    exact .working hs hpoints (.eval (hs.child (by simp [Node.children])) hhere
      (.plain rfl (.done hrest)))
  | block site body =>
    have hbody : ∀ s ∈ body, p.Located (.stmt (.block site body) :: around) (.stmt s) :=
      fun s h => hs.child (List.mem_map_of_mem h)
    refine .working hs hpoints (.done ?_)
    simp only [schedule, List.append_assoc]
    exact .execs hbody (.restore hrest)
  | labeled site label body =>
    have hbody : p.Located (.stmt (.labeled site label body) :: around) (.stmt body) :=
      hs.child (by simp [Node.children])
    exact .working hs hpoints
      (.done (.exec hbody ((Node.Outward.refl _).cons body) (.refl _) (.label hrest)))
  | branch site condition thenBranch elseBranch =>
    exact .working hs hpoints (.eval (hs.child List.mem_cons_self) hhere (.branch rfl hrest))
  | loop site condition body =>
    exact .working hs hpoints (.eval (hs.child List.mem_cons_self) hhere
      (.loopTest rfl (.loop (l := ⟨condition, body, labels⟩) hs (.refl _) hrest)))
  | breakTo site label => exact atWork_breakOut hpoints hrest hs label
  | continueTo site label => exact atWork_continueLoop hpoints hrest label
  | returnWith site value =>
    cases value with
    | none => exact .working hs hpoints (.plain rfl (.done hrest))
    | some value =>
      exact .working hs hpoints (.eval (hs.child (by simp [Node.children])) hhere
        (.plain rfl (.done hrest)))

end

/-- Evaluating an expression. -/
theorem atWork_eval (hs : p.Located around (.stmt s)) (hpoints : p.Points frame.current s around)
    (he : p.Located place (.expr e)) (hplace : statementAround place = .stmt s :: around)
    (hrest : Evaluating p H frame.environment s around frame.tasks) :
    (mem.eval frame e).2.AtWork p (H.add (.eval e) frame.environment frame.tasks) := by
  -- The beginnings so far still hold. Only a call looks for the one that is new.
  have hkept : Evaluating p (H.add (.eval e) frame.environment frame.tasks) frame.environment s
      around frame.tasks := hrest.mono fun _ hbegun => .inl hbegun
  have hinside : statementAround (.expr e :: place) = .stmt s :: around :=
    (Node.statementAround_expr e place).trans hplace
  cases e with
  | literal => exact .working hs hpoints hkept
  | name r =>
    simp only [Memory.eval]
    split
    · exact .working hs hpoints hkept
    · trivial
  | array site items | tuple site items =>
    refine .working hs hpoints ?_
    simp only [schedule, List.append_assoc]
    exact .evals (fun x hx => he.child (List.mem_map_of_mem hx)) hinside (.plain rfl hkept)
  | object site properties =>
    refine .working hs hpoints ?_
    simp only [schedule, List.append_assoc]
    exact .evals (fun x hx => he.child (List.mem_map.2 ⟨x, hx, rfl⟩)) hinside (.plain rfl hkept)
  | function => exact .working hs hpoints hkept
  | unary site op operand =>
    exact .working hs hpoints
      (.eval (he.child List.mem_cons_self) hinside (.plain rfl hkept))
  | member site object property =>
    exact .working hs hpoints
      (.eval (he.child List.mem_cons_self) hinside (.plain rfl hkept))
  | binary site op left right =>
    exact .working hs hpoints (.eval (he.child List.mem_cons_self) hinside
      (.eval (he.child (by simp [Node.children])) hinside (.plain rfl hkept)))
  | index site object index =>
    exact .working hs hpoints (.eval (he.child List.mem_cons_self) hinside
      (.eval (he.child (by simp [Node.children])) hinside (.plain rfl hkept)))
  | logical site op left right =>
    exact .working hs hpoints (.eval (he.child List.mem_cons_self) hinside
      (.logical (he.child (by simp [Node.children])) hinside hkept))
  | assign site target value =>
    exact .working hs hpoints (.eval (he.child (by simp [Node.children])) hinside (.assign hkept))
  | call site callee args =>
    refine .working hs hpoints ?_
    simp only [schedule, List.cons_append, List.append_assoc]
    refine .eval (he.child List.mem_cons_self) hinside
      (.evals (fun x hx => he.child ?_) hinside (.call he hplace (.inr ⟨rfl, rfl, rfl⟩) hkept))
    exact List.mem_cons_of_mem _ (List.mem_map_of_mem hx)

/-- Performing a task that is no statement, no expression and no call. -/
theorem atWork_other (hs : p.Located around (.stmt s)) (hpoints : p.Points frame.current s around)
    (hwork : Evaluating p H frame.environment s around (task :: rest))
    (hexec : ∀ s labels, task ≠ .exec s labels) (heval : ∀ e, task ≠ .eval e)
    (hcall : ∀ count, task ≠ .call count) :
    (mem.perform p callers { frame with tasks := rest } task).2.AtWork p H := by
  cases hwork with
  | done hrest =>
    cases hrest with
    | exec => exact absurd rfl (hexec _ _)
    | again => exact absurd rfl (heval _)
    | restore hrest | label hrest => exact .working hs hpoints (.done hrest)
    | loop _ hout hrest => exact .working hs hpoints (.done (hrest.outward hout))
  | eval => exact absurd rfl (heval _)
  | call => exact absurd rfl (hcall _)
  | logical he hplace hrest =>
    simp only [Memory.perform]
    refine Effect.atWork_withValue fun v values => ?_
    split
    · exact .working hs hpoints hrest
    · exact .working hs hpoints (.eval he hplace hrest)
  | @branch site condition thenBranch elseBranch _ heq hrest =>
    subst heq
    simp only [Memory.perform]
    refine Effect.atWork_withValue fun v values => ?_
    split
    · refine .working hs hpoints (.done ?_)
      exact .exec (hs.child (by simp [Node.children])) ((Node.Outward.refl _).cons _) (.refl _)
        hrest
    · cases elseBranch with
      | none => exact .working hs hpoints (.done hrest)
      | some elseBranch =>
        refine .working hs hpoints (.done ?_)
        exact .exec (hs.child (by simp [Node.children])) ((Node.Outward.refl _).cons _) (.refl _)
          hrest
  | loopTest heq hrest =>
    subst heq
    simp only [Memory.perform]
    refine Effect.atWork_withValue fun v values => ?_
    split
    · -- Behind the body the condition is tested again, without the loop being arrived at.
      refine .working hs hpoints (.done ?_)
      exact .exec (hs.child (by simp [Node.children])) ((Node.Outward.refl _).cons _) (.refl _)
        (.again hs (.refl _) hrest)
    · exact .working hs hpoints (.done hrest)
  | plain htask hrest =>
    have hframe : ∀ values, ({ frame with tasks := rest, values } : Frame).AtWork p H :=
      fun values => .working hs hpoints hrest
    cases hoperator : task.operands? with
    | some count =>
      rcases Memory.operator_cases p mem callers { frame with tasks := rest } hoperator with
        ⟨values, -, hmissing⟩ | ⟨values, result, -, -, hperform⟩
      · rw [hmissing]
        trivial
      · rw [hperform]
        exact Effect.atWork_result (hframe values) result
    | none =>
      cases task with
      | unary | binary | array | tuple | object | member | index => cases hoperator
      | discard | returnValue =>
        simp only [Memory.perform]
        exact Effect.atWork_withValue fun _ values => by first | exact hframe values | trivial
      | _ => cases htask
  | declare hrest =>
    simp only [Memory.perform]
    split
    · exact .working hs hpoints hrest
    · trivial
  | assign hrest =>
    simp only [Memory.perform]
    split
    · split
      · exact .working hs hpoints hrest
      · trivial
    · trivial

/-- Performing a task that is no call. -/
theorem atWork_perform (h : frame.AtWork p H) (harrived : frame.Arrived)
    (htasks : frame.tasks = task :: rest) (hcall : ∀ count, task ≠ .call count) :
    (mem.perform p callers { frame with tasks := rest } task).2.AtWork p
      (H.add task frame.environment rest) := by
  by_cases hexec : ∃ s labels, task = .exec s labels
  · obtain ⟨s, labels, rfl⟩ := hexec
    obtain ⟨around, hs, hpoints, hrest⟩ := h.exec_cases harrived htasks
    change (mem.exec { frame with tasks := rest } labels s).2.AtWork p _
    exact atWork_exec hpoints hrest hs
  by_cases heval : ∃ e, task = .eval e
  · obtain ⟨e, rfl⟩ := heval
    obtain ⟨s, around, place, hs, hpoints, he, hplace, hrest⟩ := h.eval_cases htasks
    change (mem.eval { frame with tasks := rest } e).2.AtWork p _
    exact atWork_eval hs hpoints he hplace hrest
  cases h with
  | ended hended =>
    rw [htasks] at hended
    cases hended
  | working hs hpoints hwork =>
    rw [htasks] at hwork
    refine Effect.AtWork.mono ?_ fun hbegun => .inl hbegun
    exact atWork_other hs hpoints hwork
      (fun s labels heq => hexec ⟨s, labels, heq⟩) (fun e heq => heval ⟨e, heq⟩) hcall

end Frame

/-- A frame that runs the statements of a body comes to stand in front of the first one. -/
theorem Frame.arrive_ofBody {env : Environment} {function : Option NodeId} {body : List Stmt}
    (hbody : ∀ s ∈ body, p.Located around (.stmt s)) : ∃ first,
      Machine.arrive (ofBody current env function body :: callers) =
        { ofBody current env function body with current := first } :: callers ∧
      ({ ofBody current env function body with current := first } : Frame).AtWork p H ∧
      ({ ofBody current env function body with current := first } : Frame).Arrived := by
  cases body with
  | nil => exact ⟨current, rfl, .ended rfl, nofun⟩
  | cons s body =>
    have hs := hbody s List.mem_cons_self
    have hrest : Rest p ((s :: body).map (Task.exec · []) ++ []) (.stmt s :: around) :=
      (Rest.execs hbody .done).outward ((Node.Outward.refl _).cons s)
    rw [List.append_nil] at hrest
    refine ⟨s.id, rfl, .working hs (.refl hs) (.done hrest), fun s' labels rest htasks => ?_⟩
    cases htasks
    rfl

/-! ### Frames of a run -/

/-- The frames wait for calls, and each points at the statement around its call. -/
def Calling (p : Program) (run : Nat → Progress) (n : Nat) : List Frame → Prop
  | [] => True
  | frame :: callers =>
    frame.AtWork p (Begun run n callers) ∧
      (∃ e place s around, p.Located place (.expr e) ∧
        statementAround place = .stmt s :: around ∧ Waits run n callers frame e ∧
        p.Points frame.current s around) ∧
      Calling p run n callers

/-- At a tick the run goes on with frames at work: the innermost one stands in front of its current
statement if it stands in front of a statement, and the others wait. -/
structure Sites (p : Program) (run : Nat → Progress) (n : Nat) (mem : Memory)
    (frames : List Frame) : Prop where
  going : run n = .going mem frames
  front : ∀ frame ∈ frames.head?, frame.AtWork p (Begun run n frames.tail) ∧ frame.Arrived
  calling : Calling p run n frames.tail

/-- Each of the frames waits for a call, and points at the statement around it. -/
theorem Calling.of_suffix (h : Calling p run n callers) {below : List Frame}
    (hsuffix : caller :: below <:+ callers) :
    ∃ e place s around, p.Located place (.expr e) ∧ statementAround place = .stmt s :: around ∧
      Waits run n below caller e ∧ p.Points caller.current s around := by
  induction callers with
  | nil => cases List.eq_nil_of_suffix_nil hsuffix
  | cons frame callers ih =>
    obtain ⟨-, hcall, hbelow⟩ := h
    rcases List.suffix_cons_iff.1 hsuffix with heq | hsuffix
    · cases heq
      exact hcall
    · exact ih hbelow hsuffix

/-- Frames that wait go on waiting while other frames are at work in front of them. -/
theorem Calling.succ (h : Calling p run n callers) (hrun : run (n + 1) = .going mem frames)
    (hsuffix : callers <:+ frames) : Calling p run (n + 1) callers := by
  induction callers with
  | nil => trivial
  | cons frame callers ih =>
    obtain ⟨inner, hinner⟩ := hsuffix
    obtain ⟨hframe, ⟨e, place, s, around, he, hplace, ⟨hcall, hbegun⟩, hpoints⟩, hbelow⟩ := h
    -- The frame keeps all its tasks, so that all that it has begun still stands.
    have hstands : ∀ {kept}, kept <:+ frame.tasks → Stands run (n + 1) callers kept :=
      fun hkept => ⟨mem, inner, frame, hinner ▸ hrun, hkept⟩
    refine ⟨hframe.mono fun hkept hbegun => hbegun.succ (hstands hkept), ?_, ?_⟩
    · exact ⟨e, place, s, around, he, hplace, ⟨hcall, hbegun.succ (hstands List.suffix_rfl)⟩,
        hpoints⟩
    · exact ih hbelow ((List.suffix_cons _ _).trans ⟨inner, hinner⟩)

namespace Sites

theorem of_going (h : Sites p run n mem frames) {frames' : List Frame}
    (hgoing : run n = .going mem' frames') : Sites p run n mem' frames' := by
  have hsame := h.going.symm.trans hgoing
  cases hsame
  exact h

/-- The frame that comes to stand somewhere has its tasks left to do. -/
theorem stands_arrive {kept : List Task}
    (hrun : run n = .going mem (Machine.arrive (frame :: callers))) (hkept : kept <:+ frame.tasks) :
    Stands run n callers kept := by
  obtain ⟨current, harrive⟩ := Machine.arrive_cons frame callers
  exact ⟨mem, [], _, hrun.trans (congrArg _ harrive), hkept⟩

/-- The innermost frame comes to stand where it goes on. -/
theorem of_arrive (hcalling : Calling p run n callers) (hsuffix : callers <:+ frames)
    (hfront : ∃ current, frames = { frame with current } :: callers ∧
      ({ frame with current } : Frame).AtWork p (Begun run (n + 1) callers) ∧
      ({ frame with current } : Frame).Arrived)
    (hrun : run (n + 1) = .going mem frames) : Sites p run (n + 1) mem frames := by
  obtain ⟨current, rfl, hwork, harrived⟩ := hfront
  refine ⟨hrun, fun frame hframe => ?_, hcalling.succ hrun hsuffix⟩
  cases hframe
  exact ⟨hwork, harrived⟩

/-- The innermost frame goes on after its task. -/
theorem stay (hbegins : Begins run n callers task env rest)
    (hframe : frame.AtWork p (Beginnings.add (Begun run n callers) task env rest))
    (hcalling : Calling p run n callers)
    (hrun : run (n + 1) = .going mem (Machine.arrive (frame :: callers))) :
    Sites p run (n + 1) mem (Machine.arrive (frame :: callers)) := by
  obtain ⟨current, harrive⟩ := Machine.arrive_cons frame callers
  have hkept : frame.AtWork p (Begun run (n + 1) callers) := by
    refine hframe.mono fun {first env' rest' kept} hkept hbegun => ?_
    have hstands := stands_arrive hrun hkept
    rcases hbegun with hbegun | ⟨rfl, rfl, rfl⟩
    · exact hbegun.succ hstands
    · exact hbegins.begun hstands
  exact of_arrive hcalling (harrive ▸ List.suffix_cons _ _) hkept.arrive hrun

/-- The innermost frame is left with a value for its caller. -/
theorem leave {v : Value} (hcalling : Calling p run n callers)
    (hrun : run (n + 1) = .going mem (Machine.arrive (Machine.resume v callers))) :
    Sites p run (n + 1) mem (Machine.arrive (Machine.resume v callers)) := by
  cases callers with
  | nil => exact ⟨hrun, nofun, trivial⟩
  | cons caller callers =>
    obtain ⟨hcaller, -, hbelow⟩ := hcalling
    obtain ⟨current, harrive⟩ := Machine.arrive_cons (caller.pushValue v) callers
    rw [Machine.resume] at hrun ⊢
    have hkept : (caller.pushValue v).AtWork p (Begun run (n + 1) callers) := by
      refine (hcaller.pushValue v).mono fun hkept hbegun => ?_
      exact hbegun.succ (stands_arrive hrun hkept)
    exact of_arrive hbelow (harrive ▸ List.suffix_cons _ _) hkept.arrive hrun

/-- The innermost frame calls a function and waits for it. -/
theorem enter (hcaller : caller.AtWork p (Begun run n callers))
    (he : p.Located place (.expr e)) (hplace : statementAround place = .stmt s :: around)
    (hcall : ∃ site callee args, e = .call site callee args)
    (hbegun : Begun run n callers (.eval e) caller.environment caller.tasks caller.tasks)
    (hpoints : p.Points caller.current s around) (hcalling : Calling p run n callers)
    (hcallee : ∃ current, Machine.arrive (callee :: caller :: callers) =
        { callee with current } :: caller :: callers ∧
      ({ callee with current } : Frame).AtWork p (Begun run (n + 1) (caller :: callers)) ∧
      ({ callee with current } : Frame).Arrived)
    (hrun : run (n + 1) = .going mem (Machine.arrive (callee :: caller :: callers))) :
    Sites p run (n + 1) mem (Machine.arrive (callee :: caller :: callers)) := by
  obtain ⟨current, harrive⟩ := Machine.arrive_cons callee (caller :: callers)
  have hbelow : Calling p run n (caller :: callers) :=
    ⟨hcaller, ⟨e, place, s, around, he, hplace, ⟨hcall, hbegun⟩, hpoints⟩, hcalling⟩
  exact of_arrive hbelow (harrive ▸ List.suffix_cons _ _) hcallee hrun

/-- After a call. -/
theorem next_call (hp : p.Formed) (h : Sites p run n mem (frame :: callers)) {count : Nat}
    (htasks : frame.tasks = .call count :: rest)
    (hnext : run (n + 1) =
      Machine.follow callers (mem.perform p callers { frame with tasks := rest } (.call count)))
    (hgoing : run (n + 1) = .going mem' frames) : Sites p run (n + 1) mem' frames := by
  simp only [Memory.perform] at hnext
  rcases Memory.call_cases p mem callers { frame with tasks := rest } count with
    ⟨fault, values, -, hfail⟩ |
    ⟨closure, values, site, params, body, current, hvalues, hnode, hcall⟩
  · -- A call that fails ends the run.
    rw [hgoing, hfail] at hnext
    cases hnext
  · rw [hcall, Machine.follow] at hnext
    obtain ⟨fplace, hfunction⟩ :=
      (hp.mem_nodes_iff.1 (Array.mem_of_getElem? hnode)).located
    have hbody : ∀ s ∈ body, p.Located (.expr (.function site params body) :: fplace) (.stmt s) :=
      fun s hs => hfunction.child (List.mem_append_right _ (List.mem_map_of_mem hs))
    obtain ⟨hwork, -⟩ := h.front frame rfl
    cases hwork with
    | ended hended =>
      rw [htasks] at hended
      cases hended
    | working hs hpoints hwork =>
      rw [htasks] at hwork
      cases hwork with
      | call he hplace hbegun hrest =>
        have hcaller : ({ frame with tasks := rest, values } : Frame).AtWork p
            (Begun run n callers) := .working hs hpoints hrest
        have henter := enter hcaller he hplace ⟨_, _, _, rfl⟩
          (hbegun.suffix (List.suffix_cons _ _)) hpoints h.calling (Frame.arrive_ofBody hbody) hnext
        exact henter.of_going hgoing
      | plain htask => cases htask
      | done hrest => cases hrest

/-- A tick keeps frames at work. -/
theorem next (hp : p.Formed) {frames' : List Frame} (h : Sites p run n mem frames)
    (hnext : run (n + 1) = (run n).next p) (hgoing : run (n + 1) = .going mem' frames') :
    Sites p run (n + 1) mem' frames' := by
  rw [h.going, Progress.next] at hnext
  cases frames with
  | nil =>
    rw [hgoing] at hnext
    cases hnext
  | cons frame callers =>
    cases htasks : frame.tasks with
    | nil =>
      rw [Machine.tick, htasks] at hnext
      exact (leave h.calling hnext).of_going hgoing
    | cons task rest =>
      rw [Machine.tick_of_tasks htasks] at hnext
      -- A call is apart: its frame waits from now on for the call that it began.
      by_cases hcall : ∃ count, task = .call count
      · obtain ⟨count, rfl⟩ := hcall
        exact h.next_call hp htasks hnext hgoing
      · obtain ⟨hwork, harrived⟩ := h.front frame rfl
        have heffect : (mem.perform p callers { frame with tasks := rest } task).2.AtWork p
            (Beginnings.add (Begun run n callers) task frame.environment rest) :=
          Frame.atWork_perform hwork harrived htasks fun count heq => hcall ⟨count, heq⟩
        have hbegins : Begins run n callers task frame.environment rest :=
          ⟨mem, frame, h.going, htasks, rfl⟩
        generalize mem.perform p callers { frame with tasks := rest } task = result at *
        obtain ⟨mem'', effect⟩ := result
        cases effect with
        | stay frame' => exact (stay hbegins heffect h.calling hnext).of_going hgoing
        | enter => cases heffect
        | leave v => exact (leave h.calling hnext).of_going hgoing
        | fail =>
          rw [hgoing] at hnext
          cases hnext

end Sites

/-! ### Whole runs -/

theorem Debuggee.getElem?_stackTrace {d : Debuggee} {source : SourceFile} {i : Nat}
    (hprogram : d.machine.program = some p) (hloaded : d.loaded = some source)
    (hframe : d.machine.frames[i]? = some frame) :
    (d.stackTrace 0 none).1[i]? = some (d.stackFrame p source i frame) := by
  obtain ⟨hlt, rfl⟩ := List.getElem?_eq_some_iff.1 hframe
  simp [stackTrace, hprogram, hloaded, hlt]

/-- A frame is shown at the beginning of its current statement. -/
theorem Debuggee.line_stackFrame (hp : p.Indexed) (d : Debuggee) (source : SourceFile) (i : Nat)
    (hc : p.Located path (.stmt c)) (hcurrent : c.id = frame.current) :
    (d.stackFrame p source i frame).line = Convention.number d.convention.linesFromOne
      (Position.ofOffset source.text c.site.span.start).line := by
  have hspan : p.span? frame.current = some c.site.span := by
    rw [← hcurrent, Program.span?]
    exact congrArg (Option.map Node.span) (hp _ hc.contains)
  rw [stackFrame, hspan]
  rfl

namespace Machine

/-- A program is loaded in front of its first statement. -/
theorem sites_load (memory : Memory) (p : Program) :
    Sites p (((start memory).load p).run p) 0 ((start memory).load p).memory
      ((start memory).load p).frames := by
  refine ⟨rfl, ?_, ?_⟩
  · unfold load
    split
    · rename_i first others hbody
      intro frame hframe
      cases hframe
      have hall : ∀ s ∈ p.body, p.Located [] (.stmt s) := fun s hs => ⟨s, hs, .root⟩
      have hrest : Rest p (p.body.map (Task.exec · []) ++ []) [.stmt first] :=
        (Rest.execs hall .done).outward ((Node.Outward.refl _).cons first)
      rw [List.append_nil] at hrest
      have hfirst := hall first (hbody ▸ List.mem_cons_self)
      refine ⟨.working hfirst (.refl hfirst) (.done hrest), fun s labels rest htasks => ?_⟩
      rw [Frame.ofBody, hbody] at htasks
      cases htasks
      rfl
    · intro frame hframe
      cases hframe
  · unfold load
    split <;> trivial

/-- The frames of a run stay at work. -/
theorem exists_sites (hp : p.Formed) (memory : Memory)
    (hgoing : ((start memory).load p).run p n = .going mem frames) :
    Sites p (((start memory).load p).run p) n mem frames := by
  induction n generalizing mem frames with
  | zero => exact (sites_load memory p).of_going hgoing
  | succ n ih =>
    have hnext := run_succ p ((start memory).load p) n
    cases hrun : ((start memory).load p).run p n with
    | going mem' frames' => exact (ih hrun).next hp hnext hgoing
    | done | failed =>
      -- A run that has ended does not go on.
      rw [hrun, hgoing] at hnext
      cases hnext

/-- What the frames of a paused machine point at, for a program that was parsed. The innermost frame
stands in front of its current statement, which the next step runs. Each other frame waits for a
call that began at a place of the program, and its current statement is the innermost one around
that place; or that one is a loop, and the current statement is inside its body, in the same
function. A stack trace shows the line on which the current statement starts. -/
theorem frames_point_at_calls {text : String} (hparse : Program.parse text = .ok p)
    (memory : Memory) {k : Nat} (hpaused : Paused p (((start memory).load p).after k)) :
    (∃ frame callers s labels tasks,
      (((start memory).load p).after k).frames = frame :: callers ∧ frame.current = s.id ∧
      p.node? s.id = some (.stmt s) ∧ frame.tasks = .exec s labels :: tasks ∧
      (((start memory).load p).after k).step =
        conclude (((start memory).load p).after k).globals p
          (runStatement p (((start memory).load p).after k).memory s labels { frame with tasks }
            callers)) ∧
    ∃ n, ((start memory).load p).run p n =
        .going (((start memory).load p).after k).memory (((start memory).load p).after k).frames ∧
      ∀ i caller, (((start memory).load p).after k).frames[i + 1]? = some caller →
        ∃ e place s around c path,
          Waits (((start memory).load p).run p) n
            ((((start memory).load p).after k).frames.drop (i + 2)) caller e ∧
          p.Located place (.expr e) ∧ statementAround place = .stmt s :: around ∧
          p.Located path (.stmt c) ∧ caller.current = c.id ∧
          (c = s ∧ path = around ∨ ∃ site condition body, s = .loop site condition body ∧
            Outward (.stmt c :: path) (.stmt body :: .stmt s :: around)) ∧
          ∀ (d : Debuggee) (source : SourceFile),
            d.machine = ((start memory).load p).after k → d.loaded = some source →
            ∃ shown, (d.stackTrace 0 none).1[i + 1]? = some shown ∧
              shown.line = Convention.number d.convention.linesFromOne
                (Position.ofOffset source.text c.site.span.start).line := by
  have hp := Program.formed_of_parse hparse
  obtain ⟨n, hn⟩ := (sound_load memory p).exists_run hp.indexed hpaused
  have hsites := exists_sites hp memory hn
  generalize ((start memory).load p).after k = m at *
  obtain ⟨frame, callers, s, labels, tasks, hframes, htasks, hcurrent⟩ := hpaused.front
  refine ⟨⟨frame, callers, s, labels, tasks, hframes, hcurrent, ?_, htasks, ?_⟩, n, hn, ?_⟩
  · rw [hframes] at hsites
    obtain ⟨hwork, harrived⟩ := hsites.front frame rfl
    obtain ⟨around, hs, -⟩ := hwork.exec_cases harrived htasks
    exact hp.indexed _ hs.contains
  · rw [hpaused.step_eq, advance, hframes, settle_of_statement htasks]
  · intro i caller hcaller
    -- The frames behind the innermost one wait for calls, each of them above those behind it.
    have hsuffix : caller :: m.frames.drop (i + 2) <:+ m.frames.tail := by
      obtain ⟨hlt, rfl⟩ := List.getElem?_eq_some_iff.1 hcaller
      rw [← List.drop_eq_getElem_cons hlt, Nat.add_comm, ← List.drop_drop, List.drop_one]
      exact List.drop_suffix _ _
    obtain ⟨e, place, s, around, he, hplace, hwaits, c, path, hc, hcurrent, hpoints⟩ :=
      hsites.calling.of_suffix hsuffix
    refine ⟨e, place, s, around, c, path, hwaits, he, hplace, hc, hcurrent.symm, ?_, ?_⟩
    · rcases hpoints with hpoints | ⟨hloop, hout⟩
      · exact .inl hpoints
      · cases s with
        | loop site condition body =>
          refine (hc.in_loop_body hout).imp_right fun hbody => ?_
          exact ⟨site, condition, body, rfl, hbody⟩
        | _ => cases hloop
    · intro d source hmachine hloaded
      refine ⟨_, Debuggee.getElem?_stackTrace (hmachine ▸ hpaused.program) hloaded
        (hmachine ▸ hcaller), ?_⟩
      exact Debuggee.line_stackFrame hp.indexed d source _ hc hcurrent

/-! ### A loop that is tested again -/

/-- A function that is called in the condition of a loop. -/
def testedFunction : Expr :=
  .function ⟨5, ⟨18, 39⟩⟩ []
    [.returnWith ⟨4, ⟨29, 38⟩⟩ (some (.name ⟨⟨3, ⟨36, 37⟩⟩, "b", .variable⟩))]

/-- The call in the condition of the loop. -/
def testingCall : Expr := .call ⟨6, ⟨18, 41⟩⟩ testedFunction []

/-- The body of the loop, which ends it. -/
def endingBody : Stmt :=
  .evaluate ⟨10, ⟨43, 51⟩⟩ (.assign ⟨9, ⟨43, 50⟩⟩ ⟨⟨7, ⟨43, 44⟩⟩, "b", .variable⟩
    (.literal ⟨8, ⟨45, 50⟩⟩ (.boolean false)))

/-- The loop, whose condition is tested once before its body and once behind it. -/
def testedLoop : Stmt := .loop ⟨11, ⟨12, 51⟩⟩ testingCall endingBody

/-- The declaration in front of the loop. -/
def testedFlag : Stmt :=
  .declare ⟨2, ⟨0, 11⟩⟩ ⟨⟨0, ⟨4, 5⟩⟩, "b", .variable⟩ (some (.literal ⟨1, ⟨6, 10⟩⟩ (.boolean true)))

theorem scan_testing :
    Lexeme.scan "var b=true;\nwhile(function()\x7breturn b;\x7d())\nb=false;" = .ok
      [⟨.keyword .varWord, ⟨0, 3⟩⟩, ⟨.identifier "b", ⟨4, 5⟩⟩, ⟨.symbol .assign, ⟨5, 6⟩⟩,
        ⟨.boolean true, ⟨6, 10⟩⟩, ⟨.symbol .semicolon, ⟨10, 11⟩⟩,
        ⟨.keyword .whileWord, ⟨12, 17⟩⟩, ⟨.symbol .leftParen, ⟨17, 18⟩⟩,
        ⟨.keyword .functionWord, ⟨18, 26⟩⟩, ⟨.symbol .leftParen, ⟨26, 27⟩⟩,
        ⟨.symbol .rightParen, ⟨27, 28⟩⟩, ⟨.symbol .leftBrace, ⟨28, 29⟩⟩,
        ⟨.keyword .returnWord, ⟨29, 35⟩⟩, ⟨.identifier "b", ⟨36, 37⟩⟩,
        ⟨.symbol .semicolon, ⟨37, 38⟩⟩, ⟨.symbol .rightBrace, ⟨38, 39⟩⟩,
        ⟨.symbol .leftParen, ⟨39, 40⟩⟩, ⟨.symbol .rightParen, ⟨40, 41⟩⟩,
        ⟨.symbol .rightParen, ⟨41, 42⟩⟩, ⟨.identifier "b", ⟨43, 44⟩⟩, ⟨.symbol .assign, ⟨44, 45⟩⟩,
        ⟨.boolean false, ⟨45, 50⟩⟩, ⟨.symbol .semicolon, ⟨50, 51⟩⟩] := by
  decide +kernel

set_option maxRecDepth 8000 in
theorem parse_testing :
    (Program.parse "var b=true;\nwhile(function()\x7breturn b;\x7d())\nb=false;").toOption.map
      (·.body) = some [testedFlag, testedLoop] := by
  rw [Program.parse, scan_testing]
  cbv

/-- The nodes of the program. -/
theorem postorder_testing : Node.postorder (Program.roots [testedFlag, testedLoop]) =
    [.expr (.name ⟨⟨0, ⟨4, 5⟩⟩, "b", .variable⟩), .expr (.literal ⟨1, ⟨6, 10⟩⟩ (.boolean true)),
      .stmt testedFlag, .expr (.name ⟨⟨3, ⟨36, 37⟩⟩, "b", .variable⟩),
      .stmt (.returnWith ⟨4, ⟨29, 38⟩⟩ (some (.name ⟨⟨3, ⟨36, 37⟩⟩, "b", .variable⟩))),
      .expr testedFunction, .expr testingCall, .expr (.name ⟨⟨7, ⟨43, 44⟩⟩, "b", .variable⟩),
      .expr (.literal ⟨8, ⟨45, 50⟩⟩ (.boolean false)),
      .expr (.assign ⟨9, ⟨43, 50⟩⟩ ⟨⟨7, ⟨43, 44⟩⟩, "b", .variable⟩
        (.literal ⟨8, ⟨45, 50⟩⟩ (.boolean false))),
      .stmt endingBody, .stmt testedLoop] := by
  cbv

/-- The run comes to the function for the second time, and the frame of the program still has the
body of the loop as its current statement. -/
theorem run_testing (hp : p.Formed) (hbody : p.body = [testedFlag, testedLoop]) :
    ∃ mem callee caller s labels rest,
      (fresh.load p).run p 19 = .going mem [callee, caller] ∧
      callee.tasks = .exec s labels :: rest ∧ caller.current = endingBody.id := by
  have hnodes := hp.nodes_eq
  obtain ⟨body, nodes, parents⟩ := p
  cases hbody
  rw [postorder_testing] at hnodes
  cases hnodes
  exact ⟨_, _, _, _, _, _, rfl, rfl, rfl⟩

theorem exists_testing :
    ∃ p, Program.parse "var b=true;\nwhile(function()\x7breturn b;\x7d())\nb=false;" = .ok p ∧
      p.body = [testedFlag, testedLoop] ∧ ∃ k callee caller, Paused p ((fresh.load p).after k) ∧
      (fresh.load p).run p 19 = .going ((fresh.load p).after k).memory [callee, caller] ∧
      ((fresh.load p).after k).frames = [callee, caller] ∧ caller.current = endingBody.id := by
  obtain ⟨p, hparse, hbody⟩ := Program.exists_of_parse_body parse_testing
  have hload : Paused p (fresh.load p) := paused_load fresh (by simp [hbody])
  obtain ⟨mem, callee, caller, s, labels, rest, hrun, htasks, hcurrent⟩ :=
    run_testing (Program.formed_of_parse hparse) hbody
  obtain ⟨k, hpaused, rfl, hframes⟩ := hload.exists_after hrun htasks
  exact ⟨p, hparse, hbody, k, callee, caller, hpaused, hrun, hframes, hcurrent⟩

/-- In the pause inside the function the frame of the program waits for a call, and a stack trace
shows it at a statement of the loop. -/
theorem frames_point_at_calls_testing :
    ∃ p, Program.parse "var b=true;\nwhile(function()\x7breturn b;\x7d())\nb=false;" = .ok p ∧
      ∃ k callee caller, Paused p ((fresh.load p).after k) ∧
      ((fresh.load p).after k).frames = [callee, caller] ∧
      ∃ n e place s around, Waits ((fresh.load p).run p) n [] caller e ∧
        p.Located place (.expr e) ∧ statementAround place = .stmt s :: around ∧
        ∃ c path, p.Located path (.stmt c) ∧ caller.current = c.id := by
  obtain ⟨p, hparse, -, k, callee, caller, hpaused, -, hframes, -⟩ := exists_testing
  obtain ⟨-, n, -, hcallers⟩ := frames_point_at_calls hparse ⟨.empty, 0⟩ hpaused
  obtain ⟨e, place, s, around, c, path, hwaits, he, hplace, hc, hcurrent, -⟩ :=
    hcallers 0 caller (congrArg (·[1]?) hframes)
  have hnone : ((fresh.load p).after k).frames.drop 2 = [] := congrArg (List.drop 2) hframes
  exact ⟨p, hparse, k, callee, caller, hpaused, hframes, n, e, place, s, around, hnone ▸ hwaits, he,
    hplace, c, path, hc, hcurrent⟩

/-- It is not true of every pause that a frame points at the statement around its call: the frame of
the program waits for the call in the condition of the loop, and points at the body. -/
theorem tested_loop_is_not_current :
    ∃ p, Program.parse "var b=true;\nwhile(function()\x7breturn b;\x7d())\nb=false;" = .ok p ∧
      ∃ k callee caller, Paused p ((fresh.load p).after k) ∧
      ((fresh.load p).after k).frames = [callee, caller] ∧
      ∃ n place, (fresh.load p).run p n =
          .going ((fresh.load p).after k).memory [callee, caller] ∧
        Waits ((fresh.load p).run p) n [] caller testingCall ∧
        p.Located place (.expr testingCall) ∧ statementAround place = [.stmt testedLoop] ∧
        caller.current ≠ testedLoop.id := by
  obtain ⟨p, hparse, hbody, k, callee, caller, hpaused, hrun, hframes, hcurrent⟩ := exists_testing
  have hp := Program.formed_of_parse hparse
  obtain ⟨e, place, -, -, he, -, hwaits, -⟩ := (exists_sites hp ⟨.empty, 0⟩ hrun).calling.2.1
  -- The program has one call, in the condition of the loop.
  obtain rfl : e = testingCall := by
    obtain ⟨⟨site, function, args, rfl⟩, -⟩ := hwaits
    have hmem := Program.contains_iff_mem.1 he.contains
    rw [hbody, postorder_testing] at hmem
    simpa [testedFunction, testingCall] using hmem
  have hloop : p.Located [] (.stmt testedLoop) := ⟨_, by simp [hbody], .root⟩
  obtain rfl := he.unique hp (hloop.child List.mem_cons_self)
  refine ⟨p, hparse, k, callee, caller, hpaused, hframes, 19, _, hrun, hwaits, he, rfl, ?_⟩
  rw [hcurrent]
  decide

end Machine

end LWorkbench
