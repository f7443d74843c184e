import LWorkbench.Proofs.Evaluator
import LWorkbench.Proofs.Machine.Operations
import LWorkbench.Proofs.Machine.Ticks

/-!
# Expressions on the machine

The machine keeps the tasks and values of an expression on stacks, where the structural semantics
has the recursion of the expression. Whatever tasks and values lie below, evaluating an
expression leaves its value on top of them, fails with its fault, or goes on for longer than
the bound of the evaluation.

The last case makes one statement out of two directions: a run that ends within `n` ticks cannot
outlast the bound `n`, so the evaluation has an outcome at that bound.

## Main definitions

* `Progress.Reaches`, `Progress.Outlasts` — a run comes to a state, or does not end within a number
  of ticks
* `Frame.doing`, `Progress.standing` — frames by what they have to do
* `Follows` — a run does what an evaluation says
* `CallsFollow` — the machine calls functions as a semantics of calls says

## Main results

* `Follows.bind` — one evaluation after another
* `follows_value` — the machine evaluates expressions as the structural semantics says
* `Follows.ends_iff` — a run that follows an evaluation for every bound ends as it does
-/

namespace LWorkbench

namespace Progress

variable {p : Program} {c d e : Progress} {m n : Nat}

/-- Some number of ticks leads from one state of a run to another. -/
def Reaches (p : Program) (c d : Progress) : Prop := ∃ n, (next p)^[n] c = d

/-- The run does not end within a number of ticks. -/
def Outlasts (p : Program) (n : Nat) (c : Progress) : Prop := ¬ ((next p)^[n] c).isEnd

theorem Reaches.refl (p : Program) (c : Progress) : Reaches p c c := ⟨0, rfl⟩

theorem Reaches.trans (hcd : Reaches p c d) (hde : Reaches p d e) : Reaches p c e := by
  obtain ⟨m, rfl⟩ := hcd
  obtain ⟨n, rfl⟩ := hde
  exact ⟨n + m, Function.iterate_add_apply _ n m c⟩

theorem Reaches.head (h : Reaches p (c.next p) d) : Reaches p c d :=
  Reaches.trans ⟨1, rfl⟩ h

theorem Reaches.outlasts (h : Reaches p c d) (hd : Outlasts p n d) : Outlasts p n c := by
  obtain ⟨m, rfl⟩ := h
  intro hend
  apply hd
  rw [← Function.iterate_add_apply, iterate_next_of_le rfl hend (Nat.le_add_right n m)]
  exact hend

theorem Outlasts.mono (h : Outlasts p n c) (hle : m ≤ n) : Outlasts p m c := by
  intro hend
  apply h
  rw [iterate_next_of_le rfl hend hle]
  exact hend

theorem Outlasts.head (h : Outlasts p n (c.next p)) : Outlasts p (n + 1) c := h

theorem outlasts_zero (mem : Memory) (frames : List Frame) : Outlasts p 0 (.going mem frames) := by
  simp [Outlasts, isEnd]

end Progress

open Progress

/-- The frame with other tasks and values. -/
def Frame.doing (frame : Frame) (tasks : List Task) (values : List Value) : Frame :=
  { frame with tasks, values }

/-- A run that goes on with a frame that other frames wait for. -/
def Progress.standing (mem : Memory) (frame : Frame) (callers : List Frame) : Progress :=
  .going mem (Machine.arrive (frame :: callers))

/-- From `c` on, a run does what an evaluation says: it gets to `land` with the value, or fails with
the fault, or goes on beyond the bound. -/
def Follows {α : Type} (p : Program) (bound : Nat) (c : Progress) (land : α → Memory → Progress) :
    Option (Except Fault α × Memory) → Prop
  | none => Outlasts p bound c
  | some (.error f, mem) => ∃ frames, Reaches p c (.failed f mem frames)
  | some (.ok a, mem) => Reaches p c (land a mem)

namespace Follows

variable {α β : Type} {p : Program} {bound : Nat} {c d : Progress} {mem : Memory}
  {land : α → Memory → Progress} {land' : β → Memory → Progress}

theorem of_reaches (hcd : Reaches p c d) {r : Option (Except Fault α × Memory)}
    (h : Follows p bound d land r) : Follows p bound c land r := by
  match r, h with
  | none, h => exact hcd.outlasts h
  | some (.error f, mem), ⟨frames, h⟩ => exact ⟨frames, hcd.trans h⟩
  | some (.ok a, mem), h => exact hcd.trans h

/-- One tick first. -/
theorem head {r : Option (Except Fault α × Memory)} (h : Follows p bound (c.next p) land r) :
    Follows p bound c land r :=
  of_reaches ⟨1, rfl⟩ h

theorem mono {bound' : Nat} {r : Option (Except Fault α × Memory)} (h : Follows p bound c land r)
    (hle : bound' ≤ bound) : Follows p bound' c land r := by
  match r, h with
  | none, h => exact Outlasts.mono h hle
  | some (.error _, _), h => exact h
  | some (.ok _, _), h => exact h

/-- One tick first, which counts. -/
theorem succ {r : Option (Except Fault α × Memory)} (h : Follows p bound (c.next p) land r) :
    Follows p (bound + 1) c land r := by
  match r, h with
  | none, h => exact Outlasts.head h
  | some (.error _, _), ⟨frames, h⟩ => exact ⟨frames, h.head⟩
  | some (.ok _, _), h => exact Reaches.head h

/-- One evaluation after another. -/
theorem bind {x : Evaluation α} {f : α → Evaluation β} (hx : Follows p bound c land (x mem))
    (hf : ∀ a mem', x mem = some (.ok a, mem') →
      Follows p bound (land a mem') land' (f a mem')) :
    Follows p bound c land' ((x >>= f) mem) := by
  rw [Evaluation.bind_apply]
  match hr : x mem, hx with
  | none, hx => exact hx
  | some (.error e, mem'), hx => exact hx
  | some (.ok a, mem'), hx => exact of_reaches hx (hf a mem' hr)

theorem pure (h : Reaches p c (land a mem)) :
    Follows p bound c land ((Pure.pure a : Evaluation α) mem) := h

/-- The result of an operator is put on the stack, or the run fails. -/
theorem result (frame : Frame) (callers : List Frame) (r : Except Fault Value) :
    Follows p bound (Machine.follow callers (mem, .result frame r))
      (fun v mem => .standing mem (frame.pushValue v) callers)
      ((liftExcept r : Evaluation Value) mem) := by
  cases r with
  | ok v => exact .refl p _
  | error f => exact ⟨_, .refl p _⟩

end Follows

/-- A run that follows an evaluation for every bound ends exactly as the evaluation does. -/
theorem Follows.ends_iff {α : Type} {p : Program} {c : Progress}
    {x : Nat → Option (Except Fault α × Memory)}
    (h : ∀ bound, Follows p bound c (fun _ mem => .done mem) (x bound)) (mem : Memory) :
    (Reaches p c (.done mem) ↔ ∃ bound a, x bound = some (.ok a, mem)) ∧
      ∀ f, (∃ frames, Reaches p c (.failed f mem frames)) ↔
        ∃ bound, x bound = some (.error f, mem) := by
  -- a run of `n` ticks does not outlast the bound `n`, so the evaluation has an outcome there,
  -- and that is the only end the run can have
  have hend {n : Nat} {e : Progress} (hn : (next p)^[n] c = e) (hisEnd : e.isEnd) :
      (∃ a mem', x n = some (.ok a, mem') ∧ e = .done mem') ∨
        ∃ f mem' frames, x n = some (.error f, mem') ∧ e = .failed f mem' frames := by
    match x n, h n with
    | none, hout => exact absurd (hn ▸ hisEnd) hout
    | some (.ok a, mem'), ⟨k, hk⟩ => exact .inl ⟨a, mem', rfl, end_unique hn hk hisEnd rfl⟩
    | some (.error f, mem'), ⟨frames, k, hk⟩ =>
      exact .inr ⟨f, mem', frames, rfl, end_unique hn hk hisEnd rfl⟩
  refine ⟨⟨?_, ?_⟩, fun f => ⟨?_, ?_⟩⟩
  · rintro ⟨n, hn⟩
    obtain ⟨a, mem', hx, heq⟩ | ⟨f, mem', frames, hx, heq⟩ := hend hn rfl
    · cases heq
      exact ⟨n, a, hx⟩
    · cases heq
  · rintro ⟨bound, a, hx⟩
    have := h bound
    rwa [hx] at this
  · rintro ⟨frames, n, hn⟩
    obtain ⟨a, mem', hx, heq⟩ | ⟨f, mem', frames, hx, heq⟩ := hend hn rfl
    · cases heq
    · cases heq
      exact ⟨n, hx⟩
  · rintro ⟨bound, hx⟩
    have := h bound
    rwa [hx] at this

/-! ### Expressions -/

namespace Frame

variable (frame : Frame) (tasks more : List Task) (values : List Value)

@[simp] theorem schedule_doing :
    (frame.doing tasks values).schedule more = frame.doing (more ++ tasks) values := rfl

@[simp] theorem environment_doing : (frame.doing tasks values).environment = frame.environment :=
  rfl

@[simp] theorem values_doing : (frame.doing tasks values).values = values := rfl

@[simp] theorem tasks_doing : (frame.doing tasks values).tasks = tasks := rfl

/-- Taking values off the stack changes nothing else. -/
@[simp] theorem doing_with_values (values' : List Value) :
    { frame.doing tasks values with values := values' } = frame.doing tasks values' := rfl

end Frame

@[simp] theorem follow_stay (mem : Memory) (frame : Frame) (callers : List Frame) :
    Machine.follow callers (mem, .stay frame) = standing mem frame callers := rfl

@[simp] theorem withValue_cons (frame : Frame) (tasks : List Task) (value : Value)
    (values : List Value) (next : Value → Frame → Effect) :
    Effect.withValue (frame.doing tasks (value :: values)) next =
      next value (frame.doing tasks values) := rfl

section Expressions

variable {p : Program} {bound depth : Nat} {call : Caller}

/-- A task that runs no statement is performed by one tick. -/
theorem next_standing {task : Task} (hstmt : task.statement? = none) (mem : Memory) (frame : Frame)
    (tasks : List Task) (values : List Value) (callers : List Frame) :
    (standing mem (frame.doing (task :: tasks) values) callers).next p =
      Machine.follow callers (mem.perform p callers (frame.doing tasks values) task) := by
  have htasks : (frame.doing (task :: tasks) values).tasks = task :: tasks := rfl
  rw [standing, Machine.arrive_of_other htasks hstmt]
  exact Machine.tick_of_tasks htasks p mem callers

/-- The result of an operator takes the place of its operands on the stack. -/
theorem follows_operator (task : Task) (operands : List Value)
    (h : task.operands? = some operands.length) (mem : Memory) (frame : Frame)
    (callers : List Frame) (tasks : List Task) (values : List Value) :
    Follows p bound
      (standing mem (frame.doing (task :: tasks) (operands.reverse ++ values)) callers)
      (fun v mem => standing mem (frame.doing tasks (v :: values)) callers)
      ((liftExcept (task.operate operands) : Evaluation Value) mem) := by
  have hstmt : task.statement? = none := by cases task <;> first | rfl | cases h
  have hle : operands.length ≤ (operands.reverse ++ values).length := by simp
  have htake : ((operands.reverse ++ values).take operands.length).reverse = operands := by simp
  have hdrop : (operands.reverse ++ values).drop operands.length = values := by simp
  apply Follows.head
  rw [next_standing hstmt, Memory.perform_operator p mem callers _ h hle, Frame.values_doing, htake,
    hdrop, Frame.doing_with_values]
  exact Follows.result (frame.doing tasks values) callers (task.operate operands)

/-- The machine calls functions as `call` says, when `depth` frames are active. -/
def CallsFollow (p : Program) (bound depth : Nat) (call : Caller) : Prop :=
  ∀ (closure : Closure) (args : List Value) (mem : Memory) (frame : Frame) (callers : List Frame)
    (tasks : List Task) (values : List Value), callers.length + 1 = depth →
    Follows p bound
      (standing mem (frame.doing (.call args.length :: tasks)
        (args.reverse ++ .function closure :: values)) callers)
      (fun v mem => standing mem (frame.doing tasks (v :: values)) callers)
      (call closure args mem)

/-- A call takes the value below its arguments. -/
theorem call_doing (p : Program) (mem : Memory) (callers : List Frame) (frame : Frame)
    (tasks : List Task) (args : List Value) (callee : Value) (values : List Value) :
    mem.call p callers (frame.doing tasks (args.reverse ++ callee :: values)) args.length =
      match callee with
      | .function closure => mem.callClosure p callers (frame.doing tasks values) closure args
      | callee => (mem, .fail (.notCallable callee.type) (frame.doing tasks values)) := by
  have hle : args.length ≤ (args.reverse ++ callee :: values).length := by simp
  have htake : ((args.reverse ++ callee :: values).take args.length).reverse = args := by simp
  have hdrop : (args.reverse ++ callee :: values).drop args.length = callee :: values := by simp
  unfold Memory.call
  rw [Frame.values_doing, if_pos hle, htake, hdrop]
  cases callee <;> rfl

/-- The machine applies values as functions. -/
theorem follows_apply (hcall : CallsFollow p bound depth call) (callee : Value) (args : List Value)
    (mem : Memory) (frame : Frame) {callers : List Frame} (hdepth : callers.length + 1 = depth)
    (tasks : List Task) (values : List Value) :
    Follows p bound
      (standing mem (frame.doing (.call args.length :: tasks) (args.reverse ++ callee :: values))
        callers)
      (fun v mem => standing mem (frame.doing tasks (v :: values)) callers)
      (Evaluation.apply call callee args mem) := by
  cases callee with
  | function closure => exact hcall closure args mem frame callers tasks values hdepth
  | _ =>
    apply Follows.head
    rw [next_standing rfl, Memory.perform, call_doing]
    exact ⟨_, .refl p _⟩

mutual

/-- Evaluating an expression puts its value on the stack. -/
theorem follows_value (hcall : CallsFollow p bound depth call) (e : Expr) (mem : Memory)
    (frame : Frame) {callers : List Frame} (hdepth : callers.length + 1 = depth)
    (tasks : List Task) (values : List Value) :
    Follows p bound (standing mem (frame.doing (.eval e :: tasks) values) callers)
      (fun v mem => standing mem (frame.doing tasks (v :: values)) callers)
      (e.value call frame.environment mem) := by
  apply Follows.head
  rw [next_standing rfl]
  match e with
  | .literal site value => exact .refl p _
  | .name n =>
    simp only [Memory.perform, Memory.eval, Expr.value, Evaluation.lookup_apply,
      Frame.environment_doing]
    cases mem.store.lookup? frame.environment n.identifier with
    | some value => exact .refl p _
    | none => exact ⟨_, .refl p _⟩
  | .array site items =>
    simp only [Memory.perform, Memory.eval, Expr.value, follow_stay, Frame.schedule_doing,
      List.append_assoc, List.singleton_append]
    refine (follows_values hcall items mem frame hdepth _ values).bind fun vs mem' hvs => ?_
    have hcount : (Task.array items.length).operands? = some vs.length :=
      congrArg some (Expr.length_values hvs).symm
    exact follows_operator _ vs hcount mem' frame callers tasks values
  | .tuple site items =>
    simp only [Memory.perform, Memory.eval, Expr.value, follow_stay, Frame.schedule_doing,
      List.append_assoc, List.singleton_append]
    refine (follows_values hcall items mem frame hdepth _ values).bind fun vs mem' hvs => ?_
    have hcount : (Task.tuple items.length).operands? = some vs.length :=
      congrArg some (Expr.length_values hvs).symm
    exact follows_operator _ vs hcount mem' frame callers tasks values
  | .object site properties =>
    simp only [Memory.perform, Memory.eval, Expr.value, follow_stay, Frame.schedule_doing,
      List.append_assoc, List.singleton_append]
    refine (follows_propertyValues hcall properties mem frame hdepth _ values).bind
      fun vs mem' hvs => ?_
    have hcount : (Task.object (properties.map (·.1))).operands? = some vs.length := by
      rw [Task.operands?, List.length_map, Expr.length_propertyValues hvs]
    exact follows_operator _ vs hcount mem' frame callers tasks values
  | .function site params body => exact .refl p _
  | .unary site op e =>
    rw [Expr.value]
    refine (follows_value hcall e mem frame hdepth (.unary op :: tasks) values).bind
      fun v mem' _ => ?_
    exact follows_operator (.unary op) [v] rfl mem' frame callers tasks values
  | .binary site op e₁ e₂ =>
    rw [Expr.value]
    refine (follows_value hcall e₁ mem frame hdepth (.eval e₂ :: .binary op :: tasks) values).bind
      fun v₁ mem₁ _ => ?_
    refine (follows_value hcall e₂ mem₁ frame hdepth (.binary op :: tasks) (v₁ :: values)).bind
      fun v₂ mem₂ _ => ?_
    exact follows_operator (.binary op) [v₁, v₂] rfl mem₂ frame callers tasks values
  | .logical site op e₁ e₂ =>
    rw [Expr.value]
    refine (follows_value hcall e₁ mem frame hdepth (.logical op e₂ :: tasks) values).bind
      fun v₁ mem₁ _ => ?_
    apply Follows.head
    rw [next_standing rfl, Memory.perform, withValue_cons]
    split
    · exact .refl p _
    · exact follows_value hcall e₂ mem₁ frame hdepth tasks values
  | .assign site target e =>
    rw [Expr.value]
    refine (follows_value hcall e mem frame hdepth (.assign target.identifier :: tasks) values).bind
      fun v mem' _ => ?_
    apply Follows.head
    rw [next_standing rfl, Evaluation.bind_apply, Evaluation.assign_apply]
    simp only [Memory.perform, Frame.values_doing, Frame.environment_doing, Store.assign?]
    cases mem'.store.variableScope? frame.environment target.identifier with
    | none => exact ⟨_, .refl p _⟩
    | some id => exact .refl p _
  | .call site e es =>
    simp only [Memory.perform, Memory.eval, Expr.value, follow_stay, Frame.schedule_doing,
      List.append_assoc, List.cons_append]
    refine (follows_value hcall e mem frame hdepth _ values).bind fun callee mem₁ _ => ?_
    refine (follows_values hcall es mem₁ frame hdepth _ (callee :: values)).bind
      fun args mem₂ hargs => ?_
    rw [← Expr.length_values hargs]
    exact follows_apply hcall callee args mem₂ frame hdepth tasks values
  | .member site e property =>
    rw [Expr.value]
    refine (follows_value hcall e mem frame hdepth (.member property :: tasks) values).bind
      fun v mem' _ => ?_
    exact follows_operator (.member property) [v] rfl mem' frame callers tasks values
  | .index site e₁ e₂ =>
    rw [Expr.value]
    refine (follows_value hcall e₁ mem frame hdepth (.eval e₂ :: .index :: tasks) values).bind
      fun v₁ mem₁ _ => ?_
    refine (follows_value hcall e₂ mem₁ frame hdepth (.index :: tasks) (v₁ :: values)).bind
      fun v₂ mem₂ _ => ?_
    exact follows_operator .index [v₁, v₂] rfl mem₂ frame callers tasks values

/-- Evaluating expressions from left to right puts their values on the stack. -/
theorem follows_values (hcall : CallsFollow p bound depth call) (es : List Expr) (mem : Memory)
    (frame : Frame) {callers : List Frame} (hdepth : callers.length + 1 = depth)
    (tasks : List Task) (values : List Value) :
    Follows p bound (standing mem (frame.doing (es.map .eval ++ tasks) values) callers)
      (fun vs mem => standing mem (frame.doing tasks (vs.reverse ++ values)) callers)
      (Expr.values call frame.environment es mem) := by
  match es with
  | [] => exact .refl p _
  | e :: es =>
    rw [Expr.values]
    refine (follows_value hcall e mem frame hdepth (es.map Task.eval ++ tasks) values).bind
      fun v mem₁ _ => ?_
    refine (follows_values hcall es mem₁ frame hdepth tasks (v :: values)).bind
      fun vs mem₂ _ => ?_
    apply Follows.pure
    rw [List.reverse_cons, List.append_assoc, List.singleton_append]
    exact .refl p _

/-- Evaluating properties from left to right puts their values on the stack. -/
theorem follows_propertyValues (hcall : CallsFollow p bound depth call)
    (es : List (String × Expr)) (mem : Memory) (frame : Frame) {callers : List Frame}
    (hdepth : callers.length + 1 = depth) (tasks : List Task) (values : List Value) :
    Follows p bound
      (standing mem (frame.doing (es.map (fun e => .eval e.2) ++ tasks) values) callers)
      (fun vs mem => standing mem (frame.doing tasks (vs.reverse ++ values)) callers)
      (Expr.propertyValues call frame.environment es mem) := by
  match es with
  | [] => exact .refl p _
  | (key, e) :: es =>
    rw [Expr.propertyValues]
    refine (follows_value hcall e mem frame hdepth
      (es.map (fun e => Task.eval e.2) ++ tasks) values).bind fun v mem₁ _ => ?_
    refine (follows_propertyValues hcall es mem₁ frame hdepth tasks (v :: values)).bind
      fun vs mem₂ _ => ?_
    apply Follows.pure
    rw [List.reverse_cons, List.append_assoc, List.singleton_append]
    exact .refl p _

end

end Expressions

end LWorkbench
