import LWorkbench.Machine
import Mathlib.Logic.Function.Iterate

/-!
# Runs as sequences of ticks

A step of the machine performs many tasks. For what holds along a run it is easier to look at the
tasks one by one: a tick performs the next task of the innermost frame, or leaves a frame that has
no task. A run ends when no frame is left or a task fails, and then further ticks change nothing.

A frame that comes to stand in front of a statement takes it as its current statement at once,
so that the states between two steps are exactly the states between two ticks in which a
statement comes next.

## Main definitions

* `Progress` — a run that goes on, or its end
* `Machine.tick`, `Progress.next` — performing one task
* `Machine.Paused` — the states between two steps

## Main results

* `Machine.ticks_settle` — settling is a number of ticks
* `Machine.Paused.ticks_step`, `Machine.Paused.paused_step` — a step is a positive number of ticks,
  and leaves the machine between two steps unless the run has ended
* `Machine.Paused.ends_iff` — stepping ends a run exactly as ticks end it
-/

namespace LWorkbench

/-- A run that goes on with some frames, has finished, or has failed. -/
inductive Progress where
  | going (mem : Memory) (frames : List Frame)
  | done (mem : Memory)
  | failed (fault : Fault) (mem : Memory) (frames : List Frame)

namespace Machine

/-- A frame in front of a statement takes it as its current statement. -/
def arrive : List Frame → List Frame
  | [] => []
  | frame :: callers =>
    match frame.tasks with
    | .exec s _ :: _ => { frame with current := s.id } :: callers
    | _ => frame :: callers

/-- The run after an effect on the innermost frame. -/
def follow (callers : List Frame) : Memory × Effect → Progress
  | (mem, .stay frame) => .going mem (arrive (frame :: callers))
  | (mem, .enter caller callee) => .going mem (arrive (callee :: caller :: callers))
  | (mem, .leave value) => .going mem (arrive (resume value callers))
  | (mem, .fail fault frame) => .failed fault mem (frame :: callers)

/-- Performs the next task of the innermost frame, or leaves it when it has none. -/
def tick (p : Program) (mem : Memory) : List Frame → Progress
  | [] => .done mem
  | frame :: callers =>
    match frame.tasks with
    | [] => .going mem (arrive (resume .undefined callers))
    | task :: tasks => follow callers (mem.perform p callers { frame with tasks } task)

end Machine

namespace Progress

/-- Whether the run is over. -/
def isEnd : Progress → Bool
  | going .. => false
  | _ => true

/-- One tick, if the run is not over. -/
def next (p : Program) : Progress → Progress
  | going mem frames => Machine.tick p mem frames
  | ended => ended

variable {p : Program} {c d e : Progress} {m n : Nat}

theorem next_of_isEnd (h : e.isEnd) : e.next p = e := by
  cases e with
  | going => simp [isEnd] at h
  | done | failed => rfl

theorem iterate_next_of_isEnd (h : e.isEnd) (n : Nat) : (next p)^[n] e = e :=
  Function.iterate_fixed (next_of_isEnd h) n

/-- Ticks past an end change nothing. -/
theorem iterate_next_of_le (h : (next p)^[m] c = e) (hend : e.isEnd) (hle : m ≤ n) :
    (next p)^[n] c = e := by
  obtain ⟨k, rfl⟩ := Nat.exists_eq_add_of_le' hle
  rw [Function.iterate_add_apply, h, iterate_next_of_isEnd hend]

/-- A run has at most one end. -/
theorem end_unique (hd : (next p)^[m] c = d) (he : (next p)^[n] c = e) (hdend : d.isEnd)
    (heend : e.isEnd) : d = e := by
  rw [← iterate_next_of_le hd hdend (Nat.le_max_left m n),
    iterate_next_of_le he heend (Nat.le_max_right m n)]

/-- A run that is not over yet has fewer ticks behind it than one that is. -/
theorem lt_of_not_isEnd (hd : (next p)^[m] c = d) (he : (next p)^[n] c = e) (hdgoing : ¬ d.isEnd)
    (hend : e.isEnd) : m < n := by
  by_contra hle
  rw [iterate_next_of_le he hend (Nat.le_of_not_lt hle)] at hd
  exact hdgoing (hd ▸ hend)

end Progress

namespace Machine

open Progress (next)

/-- What settling comes to, as a state between two ticks. -/
def Settled.progress : Memory × Settled → Progress
  | (mem, .ready s labels frame callers) =>
    .going mem ({ frame with current := s.id }.schedule [.exec s labels] :: callers)
  | (mem, .done) => .done mem
  | (mem, .failed fault frames) => .failed fault mem frames

theorem arrive_of_statement {frame : Frame} {s : Stmt} {labels : List String} {tasks : List Task}
    (h : frame.tasks = .exec s labels :: tasks) (callers : List Frame) :
    arrive (frame :: callers) = { frame with current := s.id } :: callers := by
  simp [arrive, h]

theorem arrive_of_other {frame : Frame} {task : Task} {tasks : List Task}
    (h : frame.tasks = task :: tasks) (hstmt : task.statement? = none) (callers : List Frame) :
    arrive (frame :: callers) = frame :: callers := by
  cases task <;> simp_all [arrive, Task.statement?]

theorem tick_of_tasks {frame : Frame} {task : Task} {tasks : List Task}
    (h : frame.tasks = task :: tasks) (p : Program) (mem : Memory) (callers : List Frame) :
    tick p mem (frame :: callers) =
      follow callers (mem.perform p callers { frame with tasks } task) := by
  simp [tick, h]

theorem statement?_eq_some {task : Task} {s : Stmt} {labels : List String}
    (h : task.statement? = some (s, labels)) : task = .exec s labels := by
  cases task <;> simp_all [Task.statement?]

/-- Settling is a number of ticks. -/
theorem ticks_settle (p : Program) (mem : Memory) (frames : List Frame) :
    ∃ n, (next p)^[n] (.going mem (arrive frames)) = Settled.progress (settle p mem frames) := by
  fun_induction settle p mem frames with
  -- The induction follows settling itself: a frame without tasks is left by one tick, and a task
  -- that is no statement is performed by one tick.
  | case1 mem => exact ⟨1, rfl⟩
  | case2 mem frame callers htasks ih =>
    obtain ⟨n, hn⟩ := ih
    refine ⟨n + 1, ?_⟩
    rw [Function.iterate_succ_apply, ← hn]
    simp [arrive, htasks, next, tick]
  -- A statement comes next: settling stops here, so that no tick is needed.
  | case3 mem frame callers task tasks htasks s labels hstmt =>
    refine ⟨0, ?_⟩
    obtain rfl := statement?_eq_some hstmt
    simp [arrive_of_statement htasks, Settled.progress, Frame.schedule, ← htasks]
  | case4 mem frame callers task tasks htasks hstmt mem' frame' heffect ih
  | case5 mem frame callers task tasks htasks hstmt mem' caller callee heffect ih
  | case6 mem frame callers task tasks htasks hstmt mem' value heffect ih =>
    obtain ⟨n, hn⟩ := ih
    refine ⟨n + 1, ?_⟩
    rw [Function.iterate_succ_apply, ← hn, arrive_of_other htasks hstmt]
    simp [next, tick_of_tasks htasks, heffect, follow]
  | case7 mem frame callers task tasks htasks hstmt mem' fault frame' heffect =>
    refine ⟨1, ?_⟩
    rw [Function.iterate_one, arrive_of_other htasks hstmt]
    simp [next, tick_of_tasks htasks, heffect, follow, Settled.progress]

/-! ### Steps -/

/-- A machine between two steps: its innermost frame stands in front of its current statement. -/
structure Paused (p : Program) (m : Machine) : Prop where
  program : m.program = some p
  fault : m.fault = none
  terminated : m.terminated = false
  front : ∃ frame callers s labels tasks,
    m.frames = frame :: callers ∧ frame.tasks = .exec s labels :: tasks ∧ frame.current = s.id

/-- The state of the run that a step leaves. -/
def progress : Machine × StepOutcome → Progress
  | (m, .paused) => .going m.memory m.frames
  | (m, .finished) => .done m.memory
  | (m, .failed fault) => .failed fault m.memory m.frames

variable {p : Program} {m : Machine} {r : Machine × StepOutcome}

theorem progress_conclude (globals : Environment) (p : Program) (settled : Memory × Settled) :
    progress (conclude globals p settled) = Settled.progress settled := by
  obtain ⟨mem, settled⟩ := settled
  cases settled <;> rfl

theorem isEnd_progress (r : Machine × StepOutcome) :
    (progress r).isEnd = decide (r.2 ≠ .paused) := by
  obtain ⟨m, outcome⟩ := r
  cases outcome <;> simp [progress, Progress.isEnd]

theorem Paused.step_eq (h : Paused p m) :
    m.step = conclude m.globals p (advance p m.memory m.frames) := by
  simp [step, h.program, h.fault, h.terminated]

theorem globals_conclude (globals : Environment) (p : Program) (settled : Memory × Settled) :
    (conclude globals p settled).1.globals = globals := by
  obtain ⟨mem, settled⟩ := settled
  cases settled <;> rfl

/-- The chain of the outermost scope stays the same. -/
@[simp] theorem globals_step (m : Machine) : m.step.1.globals = m.globals := by
  unfold step
  split
  · rfl
  · split
    · rfl
    · split
      · rfl
      · exact globals_conclude _ _ _

theorem globals_runFor {m : Machine} {fuel : Nat} {r : Machine × StepOutcome}
    (h : m.runFor fuel = some r) : r.1.globals = m.globals := by
  induction fuel generalizing m with
  | zero => simp [runFor] at h
  | succ fuel ih =>
    rw [← globals_step m]
    rw [runFor] at h
    split at h
    · rename_i m' hstep
      rw [ih h, hstep]
    · obtain rfl : m.step = r := by simpa using h
      rfl

/-- Running a statement that comes next is a positive number of ticks. -/
theorem ticks_runStatement (p : Program) (mem : Memory) (s : Stmt) (labels : List String)
    (frame : Frame) (callers : List Frame) :
    ∃ n, (next p)^[n] (follow callers (mem.exec frame labels s)) =
      Settled.progress (runStatement p mem s labels frame callers) := by
  unfold runStatement
  split <;> rename_i heffect <;> rw [heffect]
  · exact ticks_settle p _ _
  · exact ticks_settle p _ _
  · exact ticks_settle p _ _
  · exact ⟨0, rfl⟩

/-- Frames in front of a statement are settled already. -/
theorem settle_of_statement {frame : Frame} {s : Stmt} {labels : List String} {tasks : List Task}
    (htasks : frame.tasks = .exec s labels :: tasks) (p : Program) (mem : Memory)
    (callers : List Frame) :
    settle p mem (frame :: callers) = (mem, .ready s labels { frame with tasks } callers) := by
  rw [settle]
  split
  · simp_all
  · split <;> simp_all [Task.statement?]

/-- A step is a positive number of ticks. -/
theorem Paused.ticks_step (h : Paused p m) :
    ∃ n, (next p)^[n + 1] (.going m.memory m.frames) = progress m.step := by
  obtain ⟨frame, callers, s, labels, tasks, hframes, htasks, -⟩ := h.front
  -- A paused machine is settled already, so a step begins by taking the statement off the frame.
  rw [h.step_eq, progress_conclude, advance, hframes, settle_of_statement htasks]
  obtain ⟨n, hn⟩ := ticks_runStatement p m.memory s labels { frame with tasks } callers
  refine ⟨n, ?_⟩
  rw [Function.iterate_succ_apply, ← hn]
  simp [next, tick_of_tasks htasks, Memory.perform]

/-- A step leaves the machine between two steps unless the run has ended. -/
theorem Paused.paused_step (h : Paused p m) (hpaused : m.step.2 = .paused) :
    Paused p m.step.1 := by
  rw [h.step_eq] at hpaused ⊢
  generalize advance p m.memory m.frames = settled at hpaused ⊢
  obtain ⟨mem, settled⟩ := settled
  cases settled with
  | ready s labels frame callers =>
    exact ⟨rfl, rfl, rfl, _, callers, s, labels, frame.tasks, rfl, rfl, rfl⟩
  | done | failed => simp [conclude] at hpaused

@[simp] theorem memory_load (m : Machine) (p : Program) : (m.load p).memory = m.memory := by
  unfold load
  split <;> rfl

@[simp] theorem globals_load (m : Machine) (p : Program) : (m.load p).globals = m.globals := by
  unfold load
  split <;> rfl

/-- A program with statements is loaded in front of the first one. -/
theorem paused_load (m : Machine) {p : Program} (h : p.body ≠ []) : Paused p (m.load p) := by
  obtain ⟨first, others, hbody⟩ := List.exists_cons_of_ne_nil h
  unfold load
  rw [hbody]
  exact ⟨rfl, rfl, rfl, _, [], first, [], others.map (Task.exec · []), rfl, rfl, rfl⟩

/-! ### Whole runs -/

/-- Stepping to the end is a number of ticks. -/
theorem Paused.ticks_runFor (h : Paused p m) {fuel : Nat} (hrun : m.runFor fuel = some r) :
    (progress r).isEnd ∧ ∃ n, (next p)^[n] (.going m.memory m.frames) = progress r := by
  induction fuel generalizing m with
  | zero => simp [runFor] at hrun
  | succ fuel ih =>
    obtain ⟨n, hn⟩ := h.ticks_step
    rw [runFor] at hrun
    split at hrun
    · rename_i m' hstep
      have hm' : Paused p m' := by
        have := h.paused_step
        rw [hstep] at this
        exact this rfl
      -- The ticks of this step come before the ticks of all further steps.
      obtain ⟨hend, k, hk⟩ := ih hm' hrun
      refine ⟨hend, k + (n + 1), ?_⟩
      rw [Function.iterate_add_apply, hn, hstep]
      exact hk
    · rename_i hstep
      obtain rfl : m.step = r := by simpa using hrun
      refine ⟨?_, n + 1, hn⟩
      rw [isEnd_progress, decide_eq_true_iff]
      exact fun hpaused => hstep m.step.1 (Prod.ext rfl hpaused)

/-- When ticks end a run, enough steps end it. -/
theorem Paused.runFor_of_ticks (h : Paused p m) {n : Nat} {e : Progress}
    (hn : (next p)^[n] (.going m.memory m.frames) = e) (hend : e.isEnd) :
    ∃ fuel r, m.runFor fuel = some r := by
  -- every step takes at least one tick, so the number of ticks that are left gets smaller
  induction n using Nat.strongRecOn generalizing m with
  | ind n ih =>
    obtain ⟨k, hk⟩ := h.ticks_step
    cases hstep : m.step with
    | mk m' outcome =>
      rw [hstep] at hk
      cases outcome with
      | paused =>
        have hm' : Paused p m' := by
          have := h.paused_step
          rw [hstep] at this
          exact this rfl
        have hlt : k + 1 < n :=
          Progress.lt_of_not_isEnd hk hn (by simp [progress, Progress.isEnd]) hend
        have hrest : (next p)^[n - (k + 1)] (.going m'.memory m'.frames) = e := by
          rw [← hn, ← Nat.sub_add_cancel (Nat.le_of_lt hlt), Function.iterate_add_apply, hk,
            Nat.add_sub_cancel]
          rfl
        obtain ⟨fuel, r, hr⟩ := ih (n - (k + 1)) (by omega) hm' hrest
        refine ⟨fuel + 1, r, ?_⟩
        simp [runFor, hstep, hr]
      | finished | failed => exact ⟨1, _, by rw [runFor, hstep]⟩

/-- Stepping ends a run exactly as ticks end it. -/
theorem Paused.ends_iff (h : Paused p m) {e : Progress} (hend : e.isEnd) :
    (∃ fuel r, m.runFor fuel = some r ∧ progress r = e) ↔
      ∃ n, (next p)^[n] (.going m.memory m.frames) = e := by
  constructor
  · rintro ⟨fuel, r, hrun, rfl⟩
    exact (h.ticks_runFor hrun).2
  · rintro ⟨n, hn⟩
    obtain ⟨fuel, r, hrun⟩ := h.runFor_of_ticks hn hend
    obtain ⟨hrend, k, hk⟩ := h.ticks_runFor hrun
    exact ⟨fuel, r, hrun, Progress.end_unique hk hn hrend hend⟩

end Machine

end LWorkbench
