import LWorkbench.Proofs.Machine.Steps

/-!
# The rounds of a step

A step goes round and round: each time it performs the next task of the innermost frame, or leaves
a frame that has no task, until a second statement comes next, no frame is left or a task fails.
Tasks put further tasks and frames in front, so that neither their number nor the number of frames
gets smaller from round to round.

What gets smaller is the work in front of the next statement, added up over all frames. Evaluating
an expression is more work than its parts are, a call is more work than coming back from a function
without statements, and a function with statements, like a loop that goes round once more, has a
statement in front. So only the statement that the step begins with can bring new work, and never
more than the statement itself or the markers of its frame stand for.

## Main definitions

* `Machine.Underway`, `Machine.round` — a step that is under way, and one round of it
* `Machine.stepWithin` — a step with a limit on the number of rounds
* `Machine.effort` — bounds the rounds of a step by the tasks of the frames

## Main results

* `Machine.work_round_lt` — a round that begins no statement leaves less work
* `Machine.exists_endsIn_settle` — once a statement has begun, rounds end as settling does
* `Memory.weight_exec_le` — the work that a statement can bring
* `Machine.step_ends` — every step of a run ends after a number of rounds
-/

namespace LWorkbench

/-! ### The work of a statement -/

/-- Bounds the work that a task can come to before the next statement when the step begins with it
or jumps to it. Jumping to a loop tests its condition again. -/
noncomputable def Task.burden : Task → Nat
  | .exec s _ => sizeOf s
  | .loop l => 3 + sizeOf l.condition
  | task => task.weight

/-- Bounds the work that some tasks can come to in one step. -/
noncomputable def burden : List Task → Nat
  | [] => 0
  | task :: tasks => task.burden + burden tasks

theorem Task.weight_le_burden (task : Task) : task.weight ≤ task.burden := by
  cases task <;> simp only [weight, burden] <;> omega

theorem pending_le_burden (tasks : List Task) : pending tasks ≤ burden tasks := by
  induction tasks with
  | nil => exact Nat.le_refl 0
  | cons task tasks ih =>
    have hweight := task.weight_le_burden
    simp only [burden]
    cases hstmt : task.statement? with
    | none =>
      rw [pending_cons _ _ hstmt]
      omega
    | some s =>
      obtain rfl := Machine.statement?_eq_some hstmt
      rw [pending_exec]
      omega

/-- A jump drops tasks, and what it finds was among them. -/
theorem burden_unwindTasks {wanted : Task → Bool} {tasks rest : List Task} {task : Task}
    {env env' : Environment} (h : Frame.unwindTasks wanted tasks env = (some (task, rest), env')) :
    task.burden + burden rest ≤ burden tasks := by
  induction tasks generalizing env with
  | nil => cases h
  | cons first tasks ih =>
    rw [burden]
    unfold Frame.unwindTasks at h
    split at h
    · cases h
      exact Nat.le_refl _
    · split at h <;> exact Nat.le_add_left_of_le (ih h)

namespace Memory

theorem burden_unwind {frame frame' : Frame} {wanted : Task → Bool} {task : Task}
    (h : frame.unwind wanted = (some task, frame')) :
    task.burden + burden frame'.tasks ≤ burden frame.tasks := by
  unfold Frame.unwind at h
  split at h
  · rename_i hunwind
    cases h
    exact burden_unwindTasks hunwind
  · cases h

theorem weight_breakOut_le (frame : Frame) (label : Option Name) :
    (breakOut frame label).weight ≤ burden frame.tasks := by
  unfold breakOut
  split
  · rename_i frame' hunwind
    have hburden := burden_unwind hunwind
    have hpending := pending_le_burden frame'.tasks
    simp only [Effect.weight]
    omega
  · exact Nat.zero_le _

theorem weight_continueLoop_le (frame : Frame) (label : Option Name) :
    (continueLoop frame label).weight ≤ burden frame.tasks := by
  unfold continueLoop
  split
  · rename_i l frame' hunwind
    have hburden := burden_unwind hunwind
    have hpending := pending_le_burden frame'.tasks
    simp only [Task.burden] at hburden
    simp only [Effect.weight, Frame.schedule, roundTasks, List.cons_append, List.nil_append,
      pending, Task.weight]
    omega
  · exact Nat.zero_le _

/-- A statement brings no more work than itself and the tasks behind it stand for. -/
theorem weight_exec_le (mem : Memory) (frame : Frame) (labels : List String) (s : Stmt) :
    (mem.exec frame labels s).2.weight ≤ sizeOf s + burden frame.tasks := by
  have hpending := pending_le_burden frame.tasks
  cases s with
  | declare site name init =>
    cases init <;>
      simp [exec, Effect.weight, Frame.schedule, Frame.pushValue, pending, Task.weight] <;> omega
  | evaluate site e =>
    cases site
    simp [exec, Effect.weight, Frame.schedule, pending, Task.weight]
    omega
  | block site body =>
    cases body with
    | nil =>
      simp [exec, Effect.weight, Frame.schedule, pending, Task.weight]
      omega
    | cons => simp [exec, Effect.weight, Frame.schedule, pending]
  | labeled => exact Nat.zero_le _
  | branch site condition thenBranch elseBranch =>
    cases site
    simp [exec, Effect.weight, Frame.schedule, pending, Task.weight]
    omega
  | loop site condition body =>
    cases site
    simp [exec, Effect.weight, Frame.schedule, roundTasks, pending, Task.weight]
    omega
  -- Jumps are the only statements whose work comes from the tasks behind them.
  | breakTo site label => exact Nat.le_add_left_of_le (weight_breakOut_le frame label)
  | continueTo site label => exact Nat.le_add_left_of_le (weight_continueLoop_le frame label)
  | returnWith site value =>
    cases value <;>
      simp [exec, Effect.weight, Frame.schedule, Frame.pushValue, pending, Task.weight] <;> omega

end Memory

namespace Machine

/-! ### Rounds -/

/-- A step that is under way: whether it has begun its statement, the memory and the frames. -/
structure Underway where
  begun : Bool
  memory : Memory
  frames : List Frame

/-- What is under way after an effect on the innermost frame; a failure ends the step. -/
def carryOn (begun : Bool) (callers : List Frame) :
    Memory × Effect → Underway ⊕ (Memory × Settled)
  | (memory, .stay frame) => .inl ⟨begun, memory, frame :: callers⟩
  | (memory, .enter caller callee) => .inl ⟨begun, memory, callee :: caller :: callers⟩
  | (memory, .leave value) => .inl ⟨begun, memory, resume value callers⟩
  | (memory, .fail fault frame) => .inr (memory, .failed fault (frame :: callers))

/-- One round of a step: it performs the next task of the innermost frame, or leaves the frame. The
step ends when no frame is left and when a second statement comes next. -/
def round (p : Program) (u : Underway) : Underway ⊕ (Memory × Settled) :=
  match u.frames with
  | [] => .inr (u.memory, .done)
  | frame :: callers =>
    match frame.tasks with
    | [] => .inl { u with frames := resume .undefined callers }
    | task :: tasks =>
      match task.statement?, u.begun with
      | some (s, labels), true => .inr (u.memory, .ready s labels { frame with tasks } callers)
      | statement?, begun =>
        carryOn (begun || statement?.isSome) callers
          (u.memory.perform p callers { frame with tasks } task)

/-- Goes round until the step ends; none if `fuel` rounds are not enough. -/
def rounds (p : Program) : (fuel : Nat) → Underway → Option (Memory × Settled)
  | 0, _ => none
  | fuel + 1, u =>
    match round p u with
    | .inl u => rounds p fuel u
    | .inr settled => some settled

/-- Runs one statement in at most `fuel` rounds; none if they are not enough. -/
def stepWithin (m : Machine) (fuel : Nat) : Option (Machine × StepOutcome) :=
  if m.terminated then some (m, .finished)
  else if m.fault.isSome then some (m.terminate, .finished)
  else
    match m.program with
    | none => some (m, .failed .noProgram)
    | some p => (rounds p fuel ⟨false, m.memory, m.frames⟩).map (conclude m.globals p)

/-- Bounds the rounds of a step that begins with the frames. -/
noncomputable def effort : List Frame → Nat
  | [] => 0
  | frame :: callers => 3 + burden frame.tasks + work callers

variable {p : Program} {m : Machine} {mem : Memory} {u u' : Underway} {settled : Memory × Settled}
  {frame : Frame} {callers : List Frame} {task : Task} {tasks : List Task} {begun : Bool}

theorem round_of_statement {s : Stmt} {labels : List String}
    (htasks : frame.tasks = .exec s labels :: tasks) :
    round p ⟨true, mem, frame :: callers⟩ =
      .inr (mem, .ready s labels { frame with tasks } callers) := by
  simp [round, htasks, Task.statement?]

theorem round_begin {s : Stmt} {labels : List String}
    (htasks : frame.tasks = .exec s labels :: tasks) :
    round p ⟨false, mem, frame :: callers⟩ =
      carryOn true callers (mem.exec { frame with tasks } labels s) := by
  simp [round, htasks, Task.statement?, Memory.perform]

theorem round_of_other (htasks : frame.tasks = task :: tasks) (hstmt : task.statement? = none) :
    round p ⟨begun, mem, frame :: callers⟩ =
      carryOn begun callers (mem.perform p callers { frame with tasks } task) := by
  simp [round, htasks, hstmt]

theorem round_of_effect {effect : Memory × Effect} (htasks : frame.tasks = task :: tasks)
    (hstmt : task.statement? = none)
    (heffect : mem.perform p callers { frame with tasks } task = effect) :
    round p ⟨begun, mem, frame :: callers⟩ = carryOn begun callers effect := by
  rw [round_of_other htasks hstmt, heffect]

theorem round_leave (htasks : frame.tasks = []) :
    round p ⟨begun, mem, frame :: callers⟩ = .inl ⟨begun, mem, resume .undefined callers⟩ := by
  simp [round, htasks]

/-- What an effect leaves is the work of the effect and of the other frames. -/
theorem work_carryOn_le {effect : Memory × Effect}
    (h : carryOn begun callers effect = .inl u) :
    work u.frames ≤ 1 + effect.2.weight + work callers ∧ u.begun = begun := by
  obtain ⟨memory, effect⟩ := effect
  cases effect with
  | stay frame =>
    cases h
    exact ⟨Nat.le_refl _, rfl⟩
  | enter caller callee =>
    cases h
    refine ⟨?_, rfl⟩
    simp only [work_cons, Effect.weight]
    omega
  | leave value =>
    cases h
    rw [work_resume]
    exact ⟨by omega, rfl⟩
  | fail fault frame => cases h

/-- A round that begins no statement leaves less work in front of the next statement. -/
theorem work_round_lt (h : round p u = .inl u') (hbegun : u'.begun = u.begun) :
    work u'.frames < work u.frames := by
  obtain ⟨begun, mem, frames⟩ := u
  cases frames with
  | nil => cases h
  | cons frame callers =>
    rw [work_cons]
    cases htasks : frame.tasks with
    | nil =>
      rw [round_leave htasks] at h
      cases h
      rw [work_resume]
      omega
    | cons task tasks =>
      cases hstmt : task.statement? with
      | none =>
        rw [round_of_other htasks hstmt] at h
        have hlt := Memory.weight_perform_lt p mem callers { frame with tasks } hstmt
        have hle := (work_carryOn_le h).1
        rw [pending_cons _ _ hstmt]
        simp only at hlt
        omega
      | some s =>
        obtain rfl := statement?_eq_some hstmt
        -- A statement either ends the step or begins, and `hbegun` rules out that it begins.
        cases begun with
        | true =>
          rw [round_of_statement htasks] at h
          cases h
        | false =>
          rw [round_begin htasks] at h
          rw [(work_carryOn_le h).2] at hbegun
          cases hbegun

/-! ### The end of a step -/

/-- The rounds end with the `n`-th one and come to `settled`. -/
def EndsIn (p : Program) (u : Underway) (n : Nat) (settled : Memory × Settled) : Prop :=
  ∀ fuel, rounds p fuel u = if fuel < n then none else some settled

theorem EndsIn.now (h : round p u = .inr settled) : EndsIn p u 1 settled := by
  intro fuel
  cases fuel with
  | zero => rfl
  | succ fuel => simp [rounds, h]

theorem EndsIn.later {n : Nat} (h : round p u = .inl u') (h' : EndsIn p u' n settled) :
    EndsIn p u (n + 1) settled := by
  intro fuel
  cases fuel with
  | zero => rfl
  | succ fuel => simp [rounds, h, h' fuel]

/-- One more round in front of rounds that the work bounds. -/
theorem exists_endsIn_later (h : round p u = .inl u') (hbegun : u'.begun = u.begun)
    (hends : ∃ n ≤ work u'.frames + 1, EndsIn p u' n settled) :
    ∃ n ≤ work u.frames + 1, EndsIn p u n settled := by
  obtain ⟨n, hn, hends⟩ := hends
  have hlt := work_round_lt h hbegun
  exact ⟨n + 1, by omega, .later h hends⟩

/-- Once a statement has begun, the rounds of a step end as settling does, and there are no more of
them than the work in front of the next statement allows. -/
theorem exists_endsIn_settle (p : Program) (mem : Memory) (frames : List Frame) :
    ∃ n ≤ work frames + 1, EndsIn p ⟨true, mem, frames⟩ n (settle p mem frames) := by
  fun_induction settle p mem frames with
  | case1 mem => exact ⟨1, Nat.le_refl 1, .now rfl⟩
  | case2 mem frame callers htasks ih => exact exists_endsIn_later (round_leave htasks) rfl ih
  | case3 mem frame callers task tasks htasks s labels hstmt =>
    obtain rfl := statement?_eq_some hstmt
    exact ⟨1, Nat.le_add_left _ _, .now (round_of_statement htasks)⟩
  | case4 mem frame callers task tasks htasks hstmt mem' frame' heffect ih
  | case5 mem frame callers task tasks htasks hstmt mem' caller callee heffect ih
  | case6 mem frame callers task tasks htasks hstmt mem' value heffect ih =>
    exact exists_endsIn_later (round_of_effect htasks hstmt heffect) rfl ih
  | case7 mem frame callers task tasks htasks hstmt mem' fault frame' heffect =>
    exact ⟨1, Nat.le_add_left _ _, .now (round_of_effect htasks hstmt heffect)⟩

theorem runStatement_eq (p : Program) (mem : Memory) (s : Stmt) (labels : List String)
    (frame : Frame) (callers : List Frame) : runStatement p mem s labels frame callers =
      match carryOn true callers (mem.exec frame labels s) with
      | .inl u => settle p u.memory u.frames
      | .inr settled => settled := by
  unfold runStatement
  split <;> rename_i heffect <;> rw [heffect] <;> rfl

/-- A step that begins between two steps ends after a number of rounds. -/
theorem Paused.exists_endsIn (h : Paused p m) :
    ∃ n ≤ effort m.frames,
      EndsIn p ⟨false, m.memory, m.frames⟩ n (advance p m.memory m.frames) := by
  obtain ⟨frame, callers, s, labels, tasks, hframes, htasks, -⟩ := h.front
  have hbegin : round p ⟨false, m.memory, frame :: callers⟩ = _ := round_begin htasks
  rw [hframes, advance, settle_of_statement htasks]
  simp only [runStatement_eq, effort, htasks, burden, Task.burden]
  cases hexec : carryOn true callers (m.memory.exec { frame with tasks } labels s) with
  | inr settled =>
    rw [hexec] at hbegin
    exact ⟨1, by omega, .now hbegin⟩
  | inl u =>
    rw [hexec] at hbegin
    -- The statement has begun, so the rest of the step settles.
    obtain ⟨hwork, hbegun⟩ := work_carryOn_le hexec
    have hweight := Memory.weight_exec_le m.memory { frame with tasks } labels s
    obtain ⟨n, hn, hends⟩ := exists_endsIn_settle p u.memory u.frames
    rw [← hbegun] at hends
    simp only at hweight
    exact ⟨n + 1, by omega, .later hbegin hends⟩

/-- The machine is between two steps, or its run is over. -/
theorem paused_or_over (p : Program) (m : Machine) (n : Nat) :
    Paused p ((m.load p).after n) ∨ ((m.load p).after n).terminated = true ∨
      ((m.load p).after n).fault.isSome = true := by
  induction n with
  | zero =>
    by_cases hbody : p.body = []
    · right
      left
      simp [after, load, hbody]
    · exact .inl (paused_load m hbody)
  | succ n ih =>
    rw [after_succ]
    generalize (m.load p).after n = m at ih
    rcases ih with hpaused | hover
    · have hpaused' := hpaused.paused_step
      rw [hpaused.step_eq] at hpaused' ⊢
      generalize advance p m.memory m.frames = settled at hpaused' ⊢
      obtain ⟨mem, settled⟩ := settled
      cases settled with
      | ready s labels frame callers => exact .inl (hpaused' rfl)
      | done => exact .inr (.inl rfl)
      | failed fault frames => exact .inr (.inr rfl)
    · right
      unfold step
      split
      · exact hover
      · rename_i hterminated
        rw [if_pos (hover.resolve_left hterminated)]
        exact .inl rfl

/-- Whatever program a machine runs and however many steps it has made, the next step ends: it
takes a number of rounds that the tasks of the frames bound, comes to the end of the run, the next
statement or a fault in the last of them, and not before. -/
theorem step_ends (p : Program) (m : Machine) (n : Nat) :
    ∃ rounds ≤ effort ((m.load p).after n).frames, ∀ fuel,
      ((m.load p).after n).stepWithin fuel =
        if fuel < rounds then none else some ((m.load p).after n).step := by
  have hstate := paused_or_over p m n
  generalize (m.load p).after n = m at hstate
  by_cases hover : m.terminated = true ∨ m.fault.isSome = true
  -- A run that is over is not taken up again.
  · refine ⟨0, Nat.zero_le _, fun fuel => ?_⟩
    unfold stepWithin step
    split
    · rfl
    · rename_i hterminated
      rw [if_pos (hover.resolve_left hterminated), if_pos (hover.resolve_left hterminated)]
      rfl
  · obtain hpaused := hstate.resolve_right hover
    obtain ⟨rounds, hle, hends⟩ := hpaused.exists_endsIn
    refine ⟨rounds, hle, fun fuel => ?_⟩
    rw [hpaused.step_eq, stepWithin]
    simp only [hpaused.terminated, hpaused.fault, hpaused.program, hends fuel, Bool.false_eq_true,
      Option.isSome_none, if_false]
    split <;> rfl

end Machine

end LWorkbench
