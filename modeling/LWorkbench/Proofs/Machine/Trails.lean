import LWorkbench.Proofs.Analysis.Pending
import LWorkbench.Proofs.Machine.History

/-!
# Tasks and places

The tasks of a frame lead from the place where the frame is at work back to the end of the function
or the program. Each statement and expression among them stands at a place of the program, and on
the way outwards every loop, every labeled statement and every block is left by its own task. So the
markers among the tasks are the loops and labels around the place, in the same order, and a jump
stops at the marker of the node that it means.

## Main definitions

* `Node.Sheds` — going outwards past nodes that leave no task behind
* `Node.labelsInFront`, `Node.loopFor?`, `Stmt.loop?` — labels directly in front of a loop, and the
  loop behind a label
* `Chart`, `Environment.Mirrors` — for which node each scope of a run was opened, and a chain
  through the scopes around a place
* `Trail` — tasks lead outwards from a place

## Main results

* `Program.Located.loopFor?_eq` — the loop behind the label that a `continue` names
* `Trail.unwind` — behind a marker the tasks lead outwards from the place of the marker
* `Trail.unwind_label`, `Trail.unwind_loopFor`, `Trail.unwind_loop` — jumps find their markers
-/

namespace LWorkbench

namespace Node

/-- Whether a node leaves no task behind that ends it: it opens no scope and is no loop. -/
def passes (n : Node) : Bool := !n.opens && !n.isLoop

/-- Going outwards past nodes that leave no task behind. -/
inductive Sheds : List Node → List Node → Prop
  | refl {around : List Node} : Sheds around around
  | drop {n : Node} {around outer : List Node} (hn : n.passes = true) (h : Sheds around outer) :
    Sheds (n :: around) outer

/-- The labels that stand directly in front of a statement, the nearest one first. -/
def labelsInFront : List Node → List String
  | stmt (.labeled _ label _) :: around => label.identifier :: labelsInFront around
  | _ => []

/-- The innermost loop inside the function that a label stands directly in front of, possibly behind
further labels, with the nodes around it. -/
def loopFor? (x : String) : List Node → Option (Stmt × List Node)
  | [] => none
  | stmt (.loop site condition body) :: around =>
    if x ∈ labelsInFront around then some (.loop site condition body, around)
    else loopFor? x around
  | n :: around => if n.isFunction then none else loopFor? x around

end Node

/-- The loop that a statement is, possibly behind labels. -/
def Stmt.loop? : Stmt → Option Stmt
  | loop site condition body => some (.loop site condition body)
  | labeled _ _ body => body.loop?
  | _ => none

variable {p : Program} {around outer : List Node} {n : Node} {x : String} {s body : Stmt}
  {found : Name} {site : Site}

/-! ### Loops behind labels -/

namespace Node

theorem passes_iff : n.passes = true ↔ n.opens = false ∧ n.isLoop = false := by
  rw [passes, Bool.and_eq_true, Bool.not_eq_true', Bool.not_eq_true']

theorem bindings?_of_passes (h : n.passes = true) : n.bindings? = none := by
  have hopens := (passes_iff.1 h).1
  rw [opens, Bool.or_eq_false_iff, Option.isSome_eq_false_iff, Option.isNone_iff_eq_none] at hopens
  exact hopens.1

theorem isFunction_of_passes (h : n.passes = true) : n.isFunction = false := by
  rw [passes_iff] at h
  unfold isFunction
  split
  · cases h.1
  · rfl

theorem labeled?_of_passes (h : n.passes = true) (x : String) : n.labeled? x = none := by
  rw [passes_iff] at h
  unfold labeled?
  split
  · cases h.1
  · rfl

theorem loopFor?_cons_of_not_loop (hfunction : n.isFunction = false) (hloop : n.isLoop = false) :
    loopFor? x (n :: around) = loopFor? x around := by
  rw [loopFor?.eq_def]
  split
  · rename_i heq
    cases heq
  · rename_i heq
    cases heq
    cases hloop
  · rename_i heq
    cases heq
    rw [hfunction]
    rfl

theorem loopFor?_cons_loop (condition : Expr) :
    loopFor? x (stmt (.loop site condition body) :: around) =
      if x ∈ labelsInFront around then some (.loop site condition body, around)
      else loopFor? x around := by
  rw [loopFor?]

theorem loopFor?_of_sameFunction (h : sameFunction around = []) : loopFor? x around = none := by
  cases around with
  | nil => rfl
  | cons n around =>
    have hfunction : n.isFunction = true := by
      by_contra hn
      rw [Bool.not_eq_true] at hn
      rw [Analysis.sameFunction_cons hn] at h
      cases h
    unfold isFunction at hfunction
    split at hfunction
    · rfl
    · cases hfunction

theorem loopFor?_of_passes (h : n.passes = true) : loopFor? x (n :: around) = loopFor? x around :=
  loopFor?_cons_of_not_loop (isFunction_of_passes h) (passes_iff.1 h).2

namespace Sheds

theorem scopesAround_eq (h : Sheds around outer) :
    scopesAround around = scopesAround outer := by
  induction h with
  | refl => rfl
  | drop hn _ ih => rw [scopesAround_cons_of_none (bindings?_of_passes hn), ih]

theorem target?_eq (h : Sheds around outer) (x : String) : target? around x = target? outer x := by
  induction h with
  | refl => rfl
  | drop hn _ ih =>
    rw [Analysis.target?_cons (isFunction_of_passes hn), labeled?_of_passes hn, Option.none_or, ih]

theorem loopFor?_eq (h : Sheds around outer) : loopFor? x around = loopFor? x outer := by
  induction h with
  | refl => rfl
  | drop hn _ ih => rw [loopFor?_of_passes hn, ih]

/-- The loops of the function around a place stay around it. -/
theorem exists_loop (h : Sheds around outer) (hloop : ∃ n ∈ sameFunction around, n.isLoop = true) :
    ∃ n ∈ sameFunction outer, n.isLoop = true := by
  induction h with
  | refl => exact hloop
  | drop hn _ ih =>
    apply ih
    obtain ⟨m, hm, hloop⟩ := hloop
    rw [Analysis.sameFunction_cons (isFunction_of_passes hn), List.mem_cons] at hm
    rcases hm with rfl | hm
    · rw [(passes_iff.1 hn).2] at hloop
      cases hloop
    · exact ⟨m, hm, hloop⟩

end Sheds

end Node

/-- Where a node stands with respect to the loop behind a label: inside the loop, or in front of it
among the labels. -/
inductive Node.Facing (x : String) (body : Stmt) (around : List Node) : Node → Prop
  /-- The node is inside the loop, and no such label stands directly in front of it. -/
  | inside {n : Node} {l : Stmt} {outer : List Node} (hloop : loopFor? x around = some (l, outer))
      (hbody : body.loop? = some l) (hfront : x ∉ labelsInFront around) : Facing x body around n
  /-- The node is the loop, or a further label in front of it. -/
  | front {s : Stmt} (hloop : s.isLoop = true) (hbody : s.loop? = body.loop?)
      (hfront : x ∈ labelsInFront around) : Facing x body around (.stmt s)
  /-- The node is the name of a label. -/
  | name {y : Name} : Facing x body around (.ofName y)

theorem Node.Facing.child {c : Node} (h : Node.Facing x body around n) (hc : c ∈ n.children)
    (hfunction : n.isFunction = false) (hlabel : n.labeled? x = none) :
    Node.Facing x body (n :: around) c := by
  cases h with
  | inside hloop hbody hfront =>
    by_cases hn : n.isLoop = true
    · unfold Node.isLoop at hn
      split at hn
      · -- No such label stands in front of this loop, so the search goes past it.
        rename_i site condition inner
        have hpast : Node.loopFor? x (.stmt (.loop site condition inner) :: around) = _ :=
          Node.loopFor?_cons_loop condition
        rw [if_neg hfront, hloop] at hpast
        exact .inside hpast hbody List.not_mem_nil
      · cases hn
    · rw [Bool.not_eq_true] at hn
      refine .inside ((Node.loopFor?_cons_of_not_loop hfunction hn).trans hloop) hbody ?_
      unfold Node.labelsInFront
      split
      · rename_i label _ _ heq
        cases heq
        rw [List.mem_cons, not_or]
        refine ⟨fun hx => ?_, hfront⟩
        rw [Node.labeled?, if_pos hx.symm] at hlabel
        cases hlabel
      · exact List.not_mem_nil
  | @front s hloop hbody hfront =>
    -- Behind labels comes the loop or a further label.
    cases s with
    | loop site condition inner =>
      have hhere : Node.loopFor? x (.stmt (.loop site condition inner) :: around) = _ :=
        Node.loopFor?_cons_loop condition
      rw [if_pos hfront] at hhere
      exact .inside hhere hbody.symm List.not_mem_nil
    | labeled site label inner =>
      simp only [Node.children, List.mem_cons, List.not_mem_nil, or_false] at hc
      rcases hc with rfl | rfl
      · exact .name
      · exact .front hloop hbody (List.mem_cons_of_mem _ hfront)
    | _ => cases hloop
  | name => cases hc

/-- The loop behind the innermost label of an identifier is the innermost loop that the label stands
in front of. -/
theorem Program.Located.facing (h : p.Located around n)
    (htarget : Node.target? around x = some (found, body)) (hloop : body.isLoop = true) :
    Node.Facing x body around n := by
  obtain ⟨s, hs, h⟩ := h
  induction h with
  | root => cases htarget
  | @child outer m c hm hc ih =>
    by_cases hfunction : m.isFunction = true
    · rw [Node.target?, Node.sameFunction, List.takeWhile_cons, hfunction] at htarget
      cases htarget
    · rw [Bool.not_eq_true] at hfunction
      rw [Analysis.target?_cons hfunction] at htarget
      cases hlabel : m.labeled? x with
      | none =>
        rw [hlabel, Option.none_or] at htarget
        exact (ih htarget).child hc hfunction hlabel
      | some target =>
        rw [hlabel, Option.some_or, Option.some.injEq] at htarget
        subst htarget
        obtain ⟨site, rfl, rfl⟩ := Node.exists_of_labeled? hlabel
        simp only [Node.children, List.mem_cons, List.not_mem_nil, or_false] at hc
        rcases hc with rfl | rfl
        · exact .name
        · exact .front hloop rfl List.mem_cons_self

/-- The loop behind the label that a jump names, for a jump that is not itself a loop. -/
theorem Program.Located.loopFor?_eq (h : p.Located around (.stmt s)) (hs : s.isLoop = false)
    (htarget : Node.target? around x = some (found, body)) (hloop : body.isLoop = true) :
    ∃ l outer, Node.loopFor? x around = some (l, outer) ∧ body.loop? = some l := by
  have hfacing := h.facing htarget hloop
  generalize hn : Node.stmt s = n at hfacing
  cases hfacing with
  | inside hloop hbody _ => exact ⟨_, _, hloop, hbody⟩
  | front hloop =>
    cases hn
    rw [hs] at hloop
    cases hloop
  | name => cases hn

/-! ### Charts of scopes -/

/-- For which node each scope of a run was opened: the scopes from the outermost one on, up to a
number of scopes. `none` is the whole program. -/
structure Chart where
  owner : ScopeId → Option Node
  base : ScopeId
  size : Nat

/-- A chart goes on to a later one with further scopes. -/
structure Chart.Grows (c c' : Chart) : Prop where
  owner : ∀ id < c.size, c'.owner id = c.owner id
  base : c'.base = c.base
  size : c.size ≤ c'.size

/-- The chain runs through scopes that were opened for the scopes around a place, in the same
order. -/
structure Environment.Mirrors (chart : Chart) (env : Environment) (around : List Node) : Prop where
  owners : env.scopeIds.map chart.owner = Node.scopesAround around
  known : ∀ id ∈ env.scopeIds, chart.base ≤ id ∧ id < chart.size

variable {chart chart' : Chart} {env env' : Environment}

theorem Chart.Grows.refl (c : Chart) : c.Grows c :=
  ⟨fun _ _ => rfl, rfl, Nat.le_refl _⟩

namespace Environment.Mirrors

theorem shed (h : env.Mirrors chart around) (hshed : Node.Sheds around outer) :
    env.Mirrors chart outer :=
  ⟨hshed.scopesAround_eq ▸ h.owners, h.known⟩

/-- A node without a scope of its own for variables has the same scopes inside as around it. -/
theorem enter (h : env.Mirrors chart around) (hn : n.bindings? = none) :
    env.Mirrors chart (n :: around) :=
  ⟨(Node.scopesAround_cons_of_none hn).symm ▸ h.owners, h.known⟩

theorem leave (h : env.Mirrors chart (n :: around)) (hn : n.bindings? = none) :
    env.Mirrors chart around :=
  ⟨Node.scopesAround_cons_of_none hn ▸ h.owners, h.known⟩

theorem grow (h : env.Mirrors chart around) (hgrows : chart.Grows chart') :
    env.Mirrors chart' around := by
  refine ⟨?_, fun id hid => ?_⟩
  · rw [← h.owners]
    exact List.map_congr_left fun id hid => hgrows.owner id (h.known id hid).2
  · obtain ⟨hbase, hsize⟩ := h.known id hid
    rw [hgrows.base]
    exact ⟨hbase, Nat.lt_of_lt_of_le hsize hgrows.size⟩

end Environment.Mirrors

/-! ### Trails -/

/-- The expression stands where its value is wanted: directly inside a node, as one of the
expressions of that node. -/
def Program.Evaluated (p : Program) (around : List Node) (e : Expr) : Prop :=
  ∃ n outer, around = n :: outer ∧ p.Located outer n ∧ e ∈ n.exprs

theorem Node.expr_mem_children {e : Expr} (h : e ∈ n.exprs) : .expr e ∈ n.children := by
  cases n with
  | expr d => cases d <;> simp_all [exprs, children, ofName]
  | stmt s => cases s <;> simp_all [exprs, children, ofName]

theorem Program.Evaluated.located {e : Expr} (h : p.Evaluated around e) :
    p.Located around (.expr e) := by
  obtain ⟨n, outer, rfl, hn, he⟩ := h
  exact hn.child (Node.expr_mem_children he)

theorem Program.Located.evaluated {e : Expr} (h : p.Located around n) (he : e ∈ n.exprs) :
    p.Evaluated (n :: around) e :=
  ⟨n, around, rfl, h, he⟩

/-- Whether a task only computes with values. -/
def Task.isPlain : Task → Bool
  | .discard | .unary _ | .binary _ | .array _ | .tuple _ | .object _ | .member _ | .index
  | .returnValue => true
  | _ => false

/-- What is known about earlier beginnings: a task, the chain and the tasks behind it when it began,
and the tasks that have been kept since. -/
abbrev Beginnings := Task → Environment → List Task → List Task → Prop

/-- The tasks lead outwards from a place, where the chain is in force. -/
inductive Trail (p : Program) (chart : Chart) (H : Beginnings) :
    List Task → List Node → Environment → Prop
  /-- At the end of a function or of the program nothing is left around. -/
  | done {around : List Node} {env : Environment} (hend : Node.sameFunction around = []) :
    Trail p chart H [] around env
  | exec {s : Stmt} {labels : List String} {rest : List Task} {around outer : List Node}
      {env : Environment} (hs : p.Located around (.stmt s))
      (hlabels : labels = Node.labelsInFront around) (hshed : Node.Sheds around outer)
      (hrest : Trail p chart H rest outer env) : Trail p chart H (.exec s labels :: rest) around env
  | eval {e : Expr} {rest : List Task} {around outer : List Node} {env : Environment}
      (he : p.Evaluated around e) (hshed : Node.Sheds around outer)
      (hrest : Trail p chart H rest outer env) : Trail p chart H (.eval e :: rest) around env
  | plain {task : Task} {rest : List Task} {around : List Node} {env : Environment}
      (htask : task.isPlain = true) (hrest : Trail p chart H rest around env) :
    Trail p chart H (task :: rest) around env
  | declare {site : Site} {b : Name} {init : Option Expr} {labels : List String} {rest : List Task}
      {around outer : List Node} {env : Environment}
      (hs : p.Located around (.stmt (.declare site b init)))
      (hbegun : H (.exec (.declare site b init) labels) env rest (.declare b.identifier :: rest))
      (hshed : Node.Sheds around outer) (hrest : Trail p chart H rest outer env) :
    Trail p chart H (.declare b.identifier :: rest) around env
  | assign {site : Site} {r : Name} {value : Expr} {rest : List Task} {around outer : List Node}
      {env : Environment} (he : p.Located around (.expr (.assign site r value)))
      (hbegun : H (.eval (.assign site r value)) env rest (.assign r.identifier :: rest))
      (hshed : Node.Sheds around outer) (hrest : Trail p chart H rest outer env) :
    Trail p chart H (.assign r.identifier :: rest) around env
  | branch {site : Site} {condition : Expr} {thenBranch : Stmt} {elseBranch : Option Stmt}
      {rest : List Task} {around outer : List Node} {env : Environment}
      (hs : p.Located around (.stmt (.branch site condition thenBranch elseBranch)))
      (hshed : Node.Sheds around outer) (hrest : Trail p chart H rest outer env) :
    Trail p chart H (.branch thenBranch elseBranch :: rest) around env
  | logical {site : Site} {op : LogicalOp} {left right : Expr} {rest : List Task}
      {around outer : List Node} {env : Environment}
      (he : p.Located around (.expr (.logical site op left right)))
      (hshed : Node.Sheds around outer) (hrest : Trail p chart H rest outer env) :
    Trail p chart H (.logical op right :: rest) around env
  | call {site : Site} {callee : Expr} {args : List Expr} {rest : List Task}
      {around outer : List Node} {env : Environment}
      (he : p.Located around (.expr (.call site callee args)))
      (hbegun : H (.eval (.call site callee args)) env rest (.call args.length :: rest))
      (hshed : Node.Sheds around outer) (hrest : Trail p chart H rest outer env) :
    Trail p chart H (.call args.length :: rest) around env
  | loopTest {site : Site} {l : Loop} {rest : List Task} {around : List Node} {env : Environment}
      (hs : p.Located around (.stmt (.loop site l.condition l.body)))
      (hrest : Trail p chart H rest (.stmt (.loop site l.condition l.body) :: around) env) :
    Trail p chart H (.loopTest l :: rest) (.stmt (.loop site l.condition l.body) :: around) env
  /-- The marker of a loop leads out of the loop. -/
  | loop {site : Site} {l : Loop} {rest : List Task} {around outer : List Node}
      {env : Environment} (hs : p.Located around (.stmt (.loop site l.condition l.body)))
      (hlabels : l.labels = Node.labelsInFront around)
      (hbegun : H (.exec (.loop site l.condition l.body) l.labels) env rest (.loop l :: rest))
      (hshed : Node.Sheds around outer) (hrest : Trail p chart H rest outer env) :
    Trail p chart H (.loop l :: rest) (.stmt (.loop site l.condition l.body) :: around) env
  /-- The marker of a label leads out of the labeled statement. -/
  | label {site : Site} {label : Name} {body : Stmt} {labels : List String} {rest : List Task}
      {around outer : List Node} {env : Environment}
      (hs : p.Located around (.stmt (.labeled site label body)))
      (hbegun : H (.exec (.labeled site label body) labels) env rest
        (.label label.identifier :: rest))
      (hshed : Node.Sheds around outer) (hrest : Trail p chart H rest outer env) :
    Trail p chart H (.label label.identifier :: rest) (.stmt (.labeled site label body) :: around)
      env
  /-- Putting a chain back leads out of the block. -/
  | restore {site : Site} {body : List Stmt} {rest : List Task} {around outer : List Node}
      {env outerEnv : Environment} (hs : p.Located around (.stmt (.block site body)))
      (hmirrors : outerEnv.Mirrors chart around) (hshed : Node.Sheds around outer)
      (hrest : Trail p chart H rest outer outerEnv) :
    Trail p chart H (.restore outerEnv :: rest) (.stmt (.block site body) :: around) env

/-- The chain that is in force behind a task. -/
def Task.behind (env : Environment) : Task → Environment
  | .restore outer => outer
  | _ => env

theorem Task.behind_eq {task : Task} (h : ∀ outer, task ≠ .restore outer) :
    task.behind env = env := by
  cases task with
  | restore outer => exact absurd rfl (h outer)
  | _ => rfl

theorem unwindTasks_cons (wanted : Task → Bool) (task : Task) (tasks : List Task)
    (env : Environment) : Frame.unwindTasks wanted (task :: tasks) env =
      if wanted task = true then (some (task, tasks), env)
      else Frame.unwindTasks wanted tasks (task.behind env) := by
  cases task with
  | restore outer => rw [Frame.unwindTasks]; rfl
  | _ => rw [Frame.unwindTasks]; rfl; nofun

/-- A jump stops at what it looks for. -/
theorem Frame.wanted_of_unwindTasks {wanted : Task → Bool} {task : Task} {tasks rest : List Task}
    (h : Frame.unwindTasks wanted tasks env = (some (task, rest), env')) : wanted task = true := by
  induction tasks generalizing env with
  | nil => cases h
  | cons first tasks ih =>
    rw [unwindTasks_cons] at h
    split at h
    · rename_i hfirst
      cases h
      exact hfirst
    · exact ih h

/-- What a task leaves of the loops and labels around a place. -/
structure Task.Leaves (task : Task) (around outer : List Node) : Prop where
  target : ∀ x, task ≠ .label x → Node.target? around x = Node.target? outer x
  loopFor : ∀ x, (∀ l, task = .loop l → x ∉ l.labels) →
    Node.loopFor? x around = Node.loopFor? x outer
  loops : (∀ l, task ≠ .loop l) → (∃ n ∈ Node.sameFunction around, n.isLoop = true) →
    ∃ n ∈ Node.sameFunction outer, n.isLoop = true

theorem Node.Sheds.leaves (h : Node.Sheds around outer) (task : Task) :
    task.Leaves around outer :=
  ⟨fun x _ => h.target?_eq x, fun _ _ => h.loopFor?_eq, fun _ => h.exists_loop⟩

/-- A task that stands for the end of a node leaves what is around the node. -/
theorem Task.Leaves.of_node {task : Task} (hfunction : n.isFunction = false)
    (hlabel : ∀ x, task ≠ .label x → n.labeled? x = none)
    (hloopFor : ∀ x, (∀ l, task = .loop l → x ∉ l.labels) →
      Node.loopFor? x (n :: around) = Node.loopFor? x around)
    (hloop : (∀ l, task ≠ .loop l) → n.isLoop = false) (hshed : Node.Sheds around outer) :
    task.Leaves (n :: around) outer := by
  refine ⟨fun x hx => ?_, fun x hx => ?_, fun htask hloops => ?_⟩
  · rw [Analysis.target?_cons hfunction, hlabel x hx, Option.none_or, hshed.target?_eq]
  · rw [hloopFor x hx, hshed.loopFor?_eq]
  · apply hshed.exists_loop
    obtain ⟨m, hm, hisLoop⟩ := hloops
    rw [Analysis.sameFunction_cons hfunction, List.mem_cons] at hm
    rcases hm with rfl | hm
    · rw [hloop htask] at hisLoop
      cases hisLoop
    · exact ⟨m, hm, hisLoop⟩

namespace Trail

variable {H H' : Beginnings} {task : Task} {tasks rest : List Task}

/-- Only beginnings whose tasks are kept matter. -/
theorem mono (h : Trail p chart H tasks around env) (hgrows : chart.Grows chart')
    (hH : ∀ {first env rest kept}, kept <:+ tasks → H first env rest kept →
      H' first env rest kept) :
    Trail p chart' H' tasks around env := by
  -- What is kept behind the first task is kept behind it and all others.
  have htail : ∀ {task : Task} {rest : List Task},
      (∀ {first env rest' kept}, kept <:+ task :: rest → H first env rest' kept →
        H' first env rest' kept) →
      ∀ {first env rest' kept}, kept <:+ rest → H first env rest' kept →
        H' first env rest' kept :=
    fun hH _ _ _ _ hkept => hH (hkept.trans (List.suffix_cons _ _))
  induction h with
  | done hend => exact .done hend
  | exec hs hlabels hshed _ ih => exact .exec hs hlabels hshed (ih (htail hH))
  | eval he hshed _ ih => exact .eval he hshed (ih (htail hH))
  | plain htask _ ih => exact .plain htask (ih (htail hH))
  | declare hs hbegun hshed _ ih =>
    exact .declare hs (hH List.suffix_rfl hbegun) hshed (ih (htail hH))
  | assign he hbegun hshed _ ih =>
    exact .assign he (hH List.suffix_rfl hbegun) hshed (ih (htail hH))
  | branch hs hshed _ ih => exact .branch hs hshed (ih (htail hH))
  | logical he hshed _ ih => exact .logical he hshed (ih (htail hH))
  | call he hbegun hshed _ ih => exact .call he (hH List.suffix_rfl hbegun) hshed (ih (htail hH))
  | loopTest hs _ ih => exact .loopTest hs (ih (htail hH))
  | loop hs hlabels hbegun hshed _ ih =>
    exact .loop hs hlabels (hH List.suffix_rfl hbegun) hshed (ih (htail hH))
  | label hs hbegun hshed _ ih =>
    exact .label hs (hH List.suffix_rfl hbegun) hshed (ih (htail hH))
  | restore hs hmirrors hshed _ ih =>
    exact .restore hs (hmirrors.grow hgrows) hshed (ih (htail hH))

/-- Behind a task the other tasks lead outwards. -/
theorem tail (h : Trail p chart H (task :: rest) around env) (hmirrors : env.Mirrors chart around) :
    ∃ outer, (task.behind env).Mirrors chart outer ∧
      Trail p chart H rest outer (task.behind env) ∧ task.Leaves around outer := by
  cases h with
  | exec _ _ hshed hrest => exact ⟨_, hmirrors.shed hshed, hrest, hshed.leaves _⟩
  | eval _ hshed hrest => exact ⟨_, hmirrors.shed hshed, hrest, hshed.leaves _⟩
  | plain htask hrest =>
    have hbehind : task.behind env = env := by
      cases task <;> first | rfl | cases htask
    rw [hbehind]
    exact ⟨_, hmirrors, hrest, Node.Sheds.refl.leaves _⟩
  | declare _ _ hshed hrest => exact ⟨_, hmirrors.shed hshed, hrest, hshed.leaves _⟩
  | assign _ _ hshed hrest => exact ⟨_, hmirrors.shed hshed, hrest, hshed.leaves _⟩
  | branch _ hshed hrest => exact ⟨_, hmirrors.shed hshed, hrest, hshed.leaves _⟩
  | logical _ hshed hrest => exact ⟨_, hmirrors.shed hshed, hrest, hshed.leaves _⟩
  | call _ _ hshed hrest => exact ⟨_, hmirrors.shed hshed, hrest, hshed.leaves _⟩
  | loopTest _ hrest => exact ⟨_, hmirrors, hrest, Node.Sheds.refl.leaves _⟩
  | @loop site l _ around _ _ _ hlabels _ hshed hrest =>
    refine ⟨_, (hmirrors.leave rfl).shed hshed, hrest, .of_node rfl (fun _ _ => rfl) ?_ ?_ hshed⟩
    · intro x hx
      rw [Node.loopFor?_cons_loop, if_neg (hlabels ▸ hx l rfl)]
    · intro htask
      exact absurd rfl (htask l)
  | @label site label body _ _ _ _ _ _ _ hshed hrest =>
    refine ⟨_, (hmirrors.leave rfl).shed hshed, hrest, .of_node rfl ?_ ?_ (fun _ => rfl) hshed⟩
    · intro x hx
      rw [Node.labeled?, if_neg fun heq => hx (congrArg Task.label heq)]
    · intro x _
      exact Node.loopFor?_cons_of_not_loop rfl rfl
  | restore _ houter hshed hrest =>
    refine ⟨_, houter.shed hshed, hrest, .of_node rfl (fun _ _ => rfl) ?_ (fun _ => rfl) hshed⟩
    intro x _
    exact Node.loopFor?_cons_of_not_loop rfl rfl

/-! ### Jumps -/

/-- Behind a marker the tasks lead outwards from the place of the marker. -/
theorem unwind {wanted : Task → Bool} (h : Trail p chart H tasks around env)
    (hmirrors : env.Mirrors chart around)
    (hunwind : Frame.unwindTasks wanted tasks env = (some (task, rest), env')) :
    ∃ place, env'.Mirrors chart place ∧ Trail p chart H (task :: rest) place env' := by
  induction tasks generalizing around env with
  | nil => cases hunwind
  | cons first tasks ih =>
    rw [unwindTasks_cons] at hunwind
    split at hunwind
    · cases hunwind
      exact ⟨around, hmirrors, h⟩
    · obtain ⟨outer, houter, htail, -⟩ := h.tail hmirrors
      exact ih htail houter hunwind

/-- A jump to a label that stands around a place stops at the marker of the innermost statement with
that label. -/
theorem unwind_label (h : Trail p chart H tasks around env) (hmirrors : env.Mirrors chart around)
    {l : Name} (htarget : Node.target? around l.identifier = some (found, body)) :
    ∃ site labels rest env' place,
      Frame.unwindTasks (Memory.breaksAt (some l)) tasks env =
        (some (.label l.identifier, rest), env') ∧
      p.Located place (.stmt (.labeled site found body)) ∧
      H (.exec (.labeled site found body) labels) env' rest (.label l.identifier :: rest) := by
  induction tasks generalizing around env with
  | nil =>
    cases h with
    | done hend =>
      rw [Node.target?, hend] at htarget
      cases htarget
  | cons first tasks ih =>
    rw [unwindTasks_cons]
    by_cases hfirst : first = .label l.identifier
    · subst hfirst
      have hwanted : Memory.breaksAt (some l) (.label l.identifier) = true := beq_self_eq_true _
      rw [if_pos hwanted]
      generalize hx : l.identifier = x at h htarget
      cases h with
      | @label site label labelBody labels _ _ _ _ hs hbegun _ _ =>
        -- The innermost label of the identifier is this one.
        rw [Analysis.target?_cons rfl, Node.labeled?, if_pos rfl] at htarget
        cases htarget
        exact ⟨_, _, _, _, _, rfl, hs, hbegun⟩
      | plain htask => cases htask
    · have hwanted : Memory.breaksAt (some l) first = false := by
        cases first with
        | label name =>
          refine beq_eq_false_iff_ne.2 fun heq => hfirst ?_
          rw [heq]
        | _ => rfl
      rw [hwanted]
      obtain ⟨outer, houter, htail, hleaves⟩ := h.tail hmirrors
      exact ih htail houter ((hleaves.target _ hfirst).symm.trans htarget)

/-- Going on with a loop by its label stops at the marker of the loop. -/
theorem unwind_loopFor (h : Trail p chart H tasks around env) (hmirrors : env.Mirrors chart around)
    {l : Name} {place : List Node}
    (hloop : Node.loopFor? l.identifier around = some (s, place)) :
    ∃ site loop rest env',
      Frame.unwindTasks (Memory.continuesAt (some l)) tasks env = (some (.loop loop, rest), env') ∧
      s = .loop site loop.condition loop.body ∧ p.Located place (.stmt s) ∧
      H (.exec s loop.labels) env' rest (.loop loop :: rest) := by
  induction tasks generalizing around env with
  | nil =>
    cases h with
    | done hend => rw [Node.loopFor?_of_sameFunction hend] at hloop; cases hloop
  | cons first tasks ih =>
    rw [unwindTasks_cons]
    by_cases hfirst : ∃ loop, first = .loop loop ∧ l.identifier ∈ loop.labels
    · obtain ⟨loop, rfl, hlabel⟩ := hfirst
      have hwanted : Memory.continuesAt (some l) (.loop loop) = true := by
        simpa [Memory.continuesAt] using hlabel
      rw [if_pos hwanted]
      cases h with
      | @loop site _ _ _ _ _ hs hlabels hbegun _ _ =>
        -- The marker carries the labels that stand in front of its loop.
        rw [Node.loopFor?_cons_loop, if_pos (hlabels ▸ hlabel)] at hloop
        cases hloop
        exact ⟨_, _, _, _, rfl, rfl, hs, hbegun⟩
      | plain htask => cases htask
    · have hwanted : Memory.continuesAt (some l) first = false := by
        cases first with
        | loop loop =>
          have hnot : l.identifier ∉ loop.labels := fun hmem => hfirst ⟨loop, rfl, hmem⟩
          simpa [Memory.continuesAt] using hnot
        | _ => rfl
      rw [hwanted]
      obtain ⟨outer, houter, htail, hleaves⟩ := h.tail hmirrors
      refine ih htail houter ((hleaves.loopFor _ ?_).symm.trans hloop)
      intro loop heq hmem
      exact hfirst ⟨loop, heq, hmem⟩

/-- A jump without a label stops at the marker of a loop if there is a loop around the place. -/
theorem unwind_loop {wanted : Task → Bool} (h : Trail p chart H tasks around env)
    (hmirrors : env.Mirrors chart around)
    (hwanted : ∀ task, wanted task = true ↔ ∃ loop, task = .loop loop)
    (hloop : ∃ n ∈ Node.sameFunction around, n.isLoop = true) :
    ∃ loop rest env', Frame.unwindTasks wanted tasks env = (some (.loop loop, rest), env') := by
  induction tasks generalizing around env with
  | nil =>
    cases h with
    | done hend =>
      obtain ⟨n, hn, -⟩ := hloop
      rw [hend] at hn
      cases hn
  | cons first tasks ih =>
    rw [unwindTasks_cons]
    by_cases hfirst : wanted first = true
    · rw [if_pos hfirst]
      obtain ⟨loop, rfl⟩ := (hwanted first).1 hfirst
      exact ⟨loop, tasks, env, rfl⟩
    · rw [if_neg hfirst]
      obtain ⟨outer, houter, htail, hleaves⟩ := h.tail hmirrors
      refine ih htail houter (hleaves.loops (fun loop heq => hfirst ?_) hloop)
      exact (hwanted first).2 ⟨loop, heq⟩

end Trail

end LWorkbench
