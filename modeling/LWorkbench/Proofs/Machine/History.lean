import LWorkbench.Proofs.Machine.Ticks

/-!
# The history of a run

What a task is about cannot always be read off the task: the marker of a label tells the label and
not the statement, a declaration tells the identifier and not the name that declares it. It can be
read off the run. A statement or an expression begins with everything behind it still to do, and as
long as the frame keeps what the beginning has put in front of that, it is at work on it.

## Main definitions

* `Machine.run` — the states of a run, tick by tick
* `Begun` — a frame is at work on a statement or an expression that began earlier
* `Waits` — a frame waits for a call
* `Uses`, `Accesses` — a variable is read or changed through a name, and the scope it is found in
* `Executes`, `Declared` — a binding is carried out in a scope

## Main results

* `Begun.succ`, `Begins.begun` — going on with what has begun, and beginning
* `Begun.unique` — what a frame is at work on is told by the run
-/

namespace LWorkbench

/-- The states of a run, tick by tick. -/
def Machine.run (p : Program) (m : Machine) (n : Nat) : Progress :=
  (Progress.next p)^[n] (.going m.memory m.frames)

/-- The frame that runs above the callers has certain tasks left to do at the end. -/
def Stands (run : Nat → Progress) (n : Nat) (callers : List Frame) (tasks : List Task) : Prop :=
  ∃ mem inner frame, run n = .going mem (inner ++ frame :: callers) ∧ tasks <:+ frame.tasks

/-- The frame above the callers begins with a task in a chain, and has other tasks left to do behind
it. -/
def Begins (run : Nat → Progress) (n : Nat) (callers : List Frame) (task : Task)
    (env : Environment) (rest : List Task) : Prop :=
  ∃ mem frame, run n = .going mem (frame :: callers) ∧ frame.tasks = task :: rest ∧
    frame.environment = env

/-- The frame above the callers began with a task in a chain when it had certain tasks left to do
behind it, and since then it has kept some tasks. -/
def Begun (run : Nat → Progress) (n : Nat) (callers : List Frame) (task : Task)
    (env : Environment) (rest kept : List Task) : Prop :=
  ∃ i < n, Begins run i callers task env rest ∧ ∀ j, i < j → j ≤ n → Stands run j callers kept

/-- The frame above the callers waits for a call: the call began when it had its tasks left to
do. -/
def Waits (run : Nat → Progress) (n : Nat) (callers : List Frame) (frame : Frame) (e : Expr) :
    Prop :=
  (∃ site callee args, e = .call site callee args) ∧
    Begun run n callers (.eval e) frame.environment frame.tasks frame.tasks

/-- The next task reads a variable through a name, or changes one through the target of an
assignment. -/
inductive Uses (run : Nat → Progress) (n : Nat) (r : Name) (mem : Memory) (frame : Frame)
    (callers : List Frame) : Prop
  | read {rest : List Task} (hrun : run n = .going mem (frame :: callers))
      (htasks : frame.tasks = .eval (.name r) :: rest)
  | assign {rest : List Task} {site : Site} {value : Expr} {env : Environment}
      (hrun : run n = .going mem (frame :: callers))
      (htasks : frame.tasks = .assign r.identifier :: rest)
      (hbegun : Begun run n callers (.eval (.assign site r value)) env rest
        (.assign r.identifier :: rest))

/-- A variable is read or changed through a name, and is found in a scope. -/
def Accesses (run : Nat → Progress) (n : Nat) (r : Name) (id : ScopeId) : Prop :=
  ∃ mem frame callers, Uses run n r mem frame callers ∧
    mem.store.variableScope? frame.environment r.identifier = some id

/-- A tick carries out a binding in a scope: it declares a variable, or calls a function with a
parameter. -/
inductive Executes (p : Program) (run : Nat → Progress) (n : Nat) (id : ScopeId) (b : Name) : Prop
  | declaration {mem : Memory} {frame : Frame} {callers : List Frame} {rest : List Task}
      {site : Site} {init : Option Expr} {labels : List String} {env : Environment}
      (hrun : run n = .going mem (frame :: callers))
      (htasks : frame.tasks = .declare b.identifier :: rest)
      (hbegun : Begun run n callers (.exec (.declare site b init) labels) env rest
        (.declare b.identifier :: rest))
      (hvalues : frame.values ≠ []) (hid : frame.environment.scopeId = id)
  | parameter {mem mem' : Memory} {frame caller callee : Frame} {callers : List Frame}
      {rest : List Task} {count k : Nat} {site : Site} {params : List Name} {body : List Stmt}
      (hrun : run n = .going mem (frame :: callers)) (htasks : frame.tasks = .call count :: rest)
      (hnext : run (n + 1) = .going mem' (callee :: caller :: callers))
      (hfunction : callee.function = some k)
      (hnode : p.node? k = some (.expr (.function site params body))) (hb : b ∈ params)
      (hid : callee.environment.scopeId = id)

/-- A binding has been carried out in a scope. -/
def Declared (p : Program) (run : Nat → Progress) (n : Nat) (id : ScopeId) (b : Name) : Prop :=
  ∃ j < n, Executes p run j id b

variable {p : Program} {run : Nat → Progress} {n : Nat} {callers : List Frame} {task task' : Task}
  {env env' : Environment} {rest kept kept' : List Task} {id : ScopeId} {b : Name}

theorem Stands.suffix (h : Stands run n callers kept) (hsuffix : kept' <:+ kept) :
    Stands run n callers kept' := by
  obtain ⟨mem, inner, frame, hrun, hkept⟩ := h
  exact ⟨mem, inner, frame, hrun, hsuffix.trans hkept⟩

theorem Begun.suffix (h : Begun run n callers task env rest kept) (hsuffix : kept' <:+ kept) :
    Begun run n callers task env rest kept' := by
  obtain ⟨i, hi, hbegins, hstands⟩ := h
  exact ⟨i, hi, hbegins, fun j hij hj => (hstands j hij hj).suffix hsuffix⟩

/-- Going on with what has begun. -/
theorem Begun.succ (h : Begun run n callers task env rest kept)
    (hstands : Stands run (n + 1) callers kept) : Begun run (n + 1) callers task env rest kept := by
  obtain ⟨i, hi, hbegins, hall⟩ := h
  refine ⟨i, Nat.lt_succ_of_lt hi, hbegins, fun j hij hj => ?_⟩
  rcases Nat.lt_or_ge n j with hlt | hle
  · rw [Nat.le_antisymm hj hlt]
    exact hstands
  · exact hall j hij hle

/-- What begins has begun at the next tick. -/
theorem Begins.begun (h : Begins run n callers task env rest)
    (hstands : Stands run (n + 1) callers kept) : Begun run (n + 1) callers task env rest kept := by
  refine ⟨n, Nat.lt_succ_self n, h, fun j hij hj => ?_⟩
  rw [Nat.le_antisymm hj hij]
  exact hstands

theorem Begins.stands_unique (h : Begins run n callers task env rest)
    (hstands : Stands run n callers (task' :: rest)) : task' = task := by
  obtain ⟨mem, frame, hrun, htasks, -⟩ := h
  obtain ⟨mem', inner, frame', hrun', hsuffix⟩ := hstands
  rw [hrun, Progress.going.injEq] at hrun'
  -- The same callers are below, so it is the same frame.
  have hinner : inner = [] := by
    have hlength := congrArg List.length hrun'.2
    simp only [List.length_append, List.length_cons] at hlength
    exact List.eq_nil_of_length_eq_zero (by omega)
  rw [hinner, List.nil_append, List.cons.injEq] at hrun'
  rw [← hrun'.2.1, htasks] at hsuffix
  have heq := hsuffix.eq_of_length (by simp)
  exact (List.cons.inj heq).1

/-- What a frame is at work on is told by the run, as long as it does not repeat the task that it
keeps. -/
theorem Begun.unique {first second : Task} (h : Begun run n callers first env rest (task :: rest))
    (h' : Begun run n callers second env' rest (task :: rest)) (hfirst : task ≠ first)
    (hsecond : task ≠ second) : first = second ∧ env = env' := by
  obtain ⟨i, hi, hbegins, hstands⟩ := h
  obtain ⟨i', hi', hbegins', hstands'⟩ := h'
  rcases Nat.lt_trichotomy i i' with hlt | rfl | hlt
  · exact absurd (hbegins'.stands_unique (hstands i' hlt (Nat.le_of_lt hi'))) hsecond
  · obtain ⟨mem, frame, hrun, htasks, henv⟩ := hbegins
    obtain ⟨mem', frame', hrun', htasks', henv'⟩ := hbegins'
    rw [hrun, Progress.going.injEq, List.cons.injEq] at hrun'
    obtain ⟨-, rfl, -⟩ := hrun'
    rw [htasks, List.cons.injEq] at htasks'
    exact ⟨htasks'.1, henv.symm.trans henv'⟩
  · exact absurd (hbegins.stands_unique (hstands' i hlt (Nat.le_of_lt hi))) hfirst

theorem Declared.succ (h : Declared p run n id b) : Declared p run (n + 1) id b := by
  obtain ⟨j, hj, hexecutes⟩ := h
  exact ⟨j, Nat.lt_succ_of_lt hj, hexecutes⟩

theorem declared_succ_iff :
    Declared p run (n + 1) id b ↔ Declared p run n id b ∨ Executes p run n id b := by
  constructor
  · intro h
    obtain ⟨j, hj, hexecutes⟩ := h
    rcases Nat.lt_succ_iff_lt_or_eq.1 hj with hlt | rfl
    · exact .inl ⟨j, hlt, hexecutes⟩
    · exact .inr hexecutes
  · intro h
    rcases h with h | h
    · exact h.succ
    · exact ⟨n, Nat.lt_succ_self n, h⟩

theorem Machine.run_succ (p : Program) (m : Machine) (n : Nat) :
    m.run p (n + 1) = (m.run p n).next p :=
  Function.iterate_succ_apply' _ n _

end LWorkbench
