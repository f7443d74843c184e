import LWorkbench.Proofs.Machine.Jumps

/-!
# Faults and the frames they leave

A task that fails ends the run, but the frames stay until the next step, so that a failed machine
can still be looked at. Nothing is taken off the callers and nothing is written to memory, and the
innermost frame keeps its chain, so that the variables in sight of the failing task are still in
sight. Jumps are the exception: one that finds no target has already left all blocks of its frame
when it fails, and the frame shows the chain in which it was opened.

## Main definitions

* `Frame.outside` — the chain of a frame outside of all its blocks
* `Entered` — the frame above the callers was opened with a chain
* `Effect.Tidy` — how an effect treats the frame it belongs to

## Main results

* `Memory.tidy_perform` — only jumps fail in another chain
* `Machine.entered_outside` — outside of its blocks every frame has the chain it was opened with
* `Machine.failed_frames_stay` — what a step that fails leaves, and what later steps make of it
-/

namespace LWorkbench

/-- The chain of a frame outside of all its blocks. -/
def Frame.outside (frame : Frame) : Environment :=
  frame.tasks.foldl Task.behind frame.environment

/-- The frame above the callers is opened with a chain: the frame of the program at the start, or
the frame of a function by a call. -/
inductive Enters (run : Nat → Progress) : Nat → List Frame → Environment → Prop
  | program {mem : Memory} {frame : Frame} (hrun : run 0 = .going mem [frame]) :
    Enters run 0 [] frame.environment
  | function {n : Nat} {mem mem' : Memory} {frame caller callee : Frame} {callers : List Frame}
      (hrun : run n = .going mem (frame :: callers))
      (hnext : run (n + 1) = .going mem' (callee :: caller :: callers)) :
    Enters run (n + 1) (caller :: callers) callee.environment

/-- The frame above the callers was opened with a chain, and has been there since. -/
def Entered (run : Nat → Progress) (n : Nat) (callers : List Frame) (env : Environment) : Prop :=
  ∃ i ≤ n, Enters run i callers env ∧ ∀ j, i ≤ j → j ≤ n → Stands run j callers []

/-- What an effect does to the frame whose task it is: outside of its blocks the frame keeps its
chain, a new frame has no blocks, and a frame that fails is still in its chain, or outside of its
blocks if the task is a jump. -/
def Effect.Tidy (frame : Frame) (outside : Environment) : Effect → Prop
  | .stay frame' => frame'.outside = outside
  | .enter caller callee => caller.outside = outside ∧ callee.outside = callee.environment
  | .leave _ => True
  | .fail fault frame' => frame'.current = frame.current ∧ frame'.function = frame.function ∧
      frame'.environment = if fault.isJump then outside else frame.environment

variable {p : Program} {run : Nat → Progress} {n : Nat} {mem mem' : Memory}
  {frame frame' caller callee : Frame} {callers frames below : List Frame} {task : Task}
  {tasks rest : List Task} {env env' outside : Environment} {fault : Fault}

/-! ### Outside of all blocks -/

theorem Task.foldl_behind (h : ∀ outer, Task.restore outer ∉ tasks) :
    tasks.foldl Task.behind env = env := by
  induction tasks with
  | nil => rfl
  | cons task tasks ih =>
    rw [List.foldl_cons, Task.behind_eq fun outer heq => h outer (heq ▸ List.mem_cons_self)]
    exact ih fun outer houter => h outer (List.mem_cons_of_mem _ houter)

namespace Frame

theorem outside_of_tasks (h : frame.tasks = task :: rest) :
    frame.outside = rest.foldl Task.behind (task.behind frame.environment) := by
  rw [outside, h, List.foldl_cons]

/-- Tasks that end no block do not change what is outside. -/
theorem outside_schedule {ts : List Task} (h : ∀ outer, Task.restore outer ∉ ts) :
    (frame.schedule ts).outside = frame.outside := by
  rw [outside, schedule, List.foldl_append, Task.foldl_behind h, outside]

theorem outside_ofBody (current : NodeId) (env : Environment) (function : Option NodeId)
    (body : List Stmt) : (ofBody current env function body).outside = env :=
  Task.foldl_behind (by simp [ofBody])

/-- A jump that finds no target leaves all blocks. -/
theorem unwindTasks_none {wanted : Task → Bool}
    (h : unwindTasks wanted tasks env = (none, env')) :
    env' = tasks.foldl Task.behind env := by
  induction tasks generalizing env with
  | nil =>
    cases h
    rfl
  | cons task tasks ih =>
    rw [unwindTasks_cons] at h
    split at h
    · cases h
    · exact ih h

/-- A jump that finds its target leaves only blocks that the frame is in. -/
theorem unwindTasks_some {wanted : Task → Bool}
    (h : unwindTasks wanted tasks env = (some (task, rest), env')) :
    (task :: rest).foldl Task.behind env' =
      tasks.foldl Task.behind env := by
  induction tasks generalizing env with
  | nil => cases h
  | cons first tasks ih =>
    rw [unwindTasks_cons] at h
    split at h
    · cases h
      rfl
    · exact ih h

end Frame

/-! ### Performing a task -/

namespace Effect

theorem tidy_withValue {values : List Value} {next : Value → Frame → Effect}
    (h : ∀ v values, (next v { frame with values }).Tidy frame outside) :
    (withValue { frame with values } next).Tidy frame outside := by
  unfold withValue
  split
  · exact h _ _
  · exact ⟨rfl, rfl, rfl⟩

/-- A fault of another task than a jump leaves the frame in its chain. -/
theorem tidy_fail {values : List Value} (h : fault.isJump = false) :
    (fail fault { frame with values }).Tidy frame outside := by
  refine ⟨rfl, rfl, ?_⟩
  rw [h]
  rfl

/-- Operators fail because of their operands, and leave the frame as it is. -/
theorem tidy_result {values : List Value} {r : Except Fault Value}
    (h : Except.Every (fun _ => True) r) :
    (result { frame with values } r).Tidy frame frame.outside := by
  cases r with
  | ok value => rfl
  | error fault =>
    have hspares : (result frame (.error fault)).Spares := spares_result h
    exact tidy_fail hspares

end Effect

namespace Memory

theorem tidy_breakOut (label : Option Name) :
    (breakOut frame label).Tidy frame frame.outside := by
  cases hunwind : Frame.unwindTasks (breaksAt label) frame.tasks frame.environment with
  | mk found env =>
    rw [breakOut, Frame.unwind, hunwind]
    cases found with
    | none =>
      have hjump : (lostJump label .illegalBreak).isJump = true := by cases label <;> rfl
      refine ⟨rfl, rfl, ?_⟩
      rw [if_pos hjump]
      exact Frame.unwindTasks_none hunwind
    | some marker =>
      -- The marker of a jump is no block, so the chain behind it is the same.
      have hbehind : marker.1.behind env = env := by
        have hwanted := Frame.wanted_of_unwindTasks hunwind
        cases hmarker : marker.1 <;> first | rfl | (rw [hmarker] at hwanted; cases hwanted)
      have hsame := Frame.unwindTasks_some hunwind
      rw [List.foldl_cons, hbehind] at hsame
      exact hsame

theorem tidy_continueLoop (label : Option Name) :
    (continueLoop frame label).Tidy frame frame.outside := by
  cases hunwind : Frame.unwindTasks (continuesAt label) frame.tasks frame.environment with
  | mk found env =>
    rw [continueLoop, Frame.unwind, hunwind]
    cases found with
    | none =>
      have hjump : (lostJump label .illegalContinue).isJump = true := by cases label <;> rfl
      refine ⟨rfl, rfl, ?_⟩
      rw [if_pos hjump]
      exact Frame.unwindTasks_none hunwind
    | some marker =>
      obtain ⟨marker, rest⟩ := marker
      have hwanted := Frame.wanted_of_unwindTasks hunwind
      have hsame := Frame.unwindTasks_some hunwind
      -- A `continue` looks for loops, and goes on with tasks that end no block.
      cases marker with
      | loop l =>
        exact (Frame.outside_schedule (by simp [roundTasks])).trans hsame
      | _ => cases hwanted

theorem tidy_exec (s : Stmt) (labels : List String) :
    (mem.exec frame labels s).2.Tidy frame frame.outside := by
  cases s with
  | declare site name init => cases init <;> rfl
  | returnWith site value => cases value <;> rfl
  | breakTo site label => exact tidy_breakOut label
  | continueTo site label => exact tidy_continueLoop label
  | block site body =>
    -- Behind its statements the block puts the chain back.
    have hbody : ∀ env, (body.map (Task.exec · [])).foldl Task.behind env = env :=
      fun env => Task.foldl_behind (by simp)
    simp only [exec, Effect.Tidy, Frame.outside, Frame.schedule, List.foldl_append, hbody]
    rfl
  | _ => rfl

theorem tidy_eval (e : Expr) : (mem.eval frame e).2.Tidy frame frame.outside := by
  cases e with
  | name r =>
    simp only [eval]
    split
    · rfl
    · exact ⟨rfl, rfl, rfl⟩
  | array | tuple | object | call => exact Frame.outside_schedule (by simp)
  | _ => rfl

theorem tidy_call (count : Nat) :
    (mem.call p callers frame count).2.Tidy frame frame.outside := by
  have hspares : (mem.call p callers frame count).2.Spares := spares_call count
  rcases call_cases p mem callers frame count with
    ⟨fault, values, -, hcall⟩ | ⟨_, _, _, _, _, _, -, -, hcall⟩
  · rw [hcall] at hspares ⊢
    exact Effect.tidy_fail hspares
  · rw [hcall]
    exact ⟨rfl, Frame.outside_ofBody ..⟩

/-- The chain of a frame outside of its blocks is kept, and only jumps fail in it. -/
theorem tidy_perform (h : frame.tasks = task :: rest) :
    (mem.perform p callers { frame with tasks := rest } task).2.Tidy frame frame.outside := by
  by_cases hrestore : ∃ outer, task = .restore outer
  · obtain ⟨outer, rfl⟩ := hrestore
    exact (Frame.outside_of_tasks h).symm
  · -- The task ends no block, so that the same is outside when it has been taken off.
    have hbehind : task.behind frame.environment = frame.environment :=
      Task.behind_eq fun outer heq => hrestore ⟨outer, heq⟩
    have houtside : frame.outside = ({ frame with tasks := rest } : Frame).outside := by
      rw [Frame.outside_of_tasks h, hbehind, Frame.outside]
    suffices hperform : (mem.perform p callers { frame with tasks := rest } task).2.Tidy
        { frame with tasks := rest } ({ frame with tasks := rest } : Frame).outside by
      rw [houtside]
      exact hperform
    generalize ({ frame with tasks := rest } : Frame) = frame
    cases hoperator : task.operands? with
    | some count =>
      rcases operator_cases p mem callers frame hoperator with
        ⟨values, -, hmissing⟩ | ⟨values, result, -, hresult, hperform⟩
      · rw [hmissing]
        exact Effect.tidy_fail rfl
      · rw [hperform]
        exact Effect.tidy_result (hresult _ fun v _ => v.every_true)
    | none =>
      cases task with
      | unary | binary | array | tuple | object | member | index => cases hoperator
      | exec s labels => exact tidy_exec s labels
      | eval e => exact tidy_eval e
      | call count => exact tidy_call count
      | restore outer => exact absurd ⟨outer, rfl⟩ hrestore
      | loop | label => rfl
      | discard | returnValue =>
        simp only [perform]
        exact Effect.tidy_withValue fun _ _ => by trivial
      | declare name =>
        rcases declare_cases p mem callers frame name with hmissing | ⟨_, _, -, hdeclare⟩
        · rw [hmissing]
          exact ⟨rfl, rfl, rfl⟩
        · rw [hdeclare]
          rfl
      | assign name =>
        simp only [perform]
        split
        · split
          · rfl
          · exact ⟨rfl, rfl, rfl⟩
        · exact ⟨rfl, rfl, rfl⟩
      | branch thenBranch elseBranch =>
        simp only [perform]
        refine Effect.tidy_withValue fun v values => ?_
        split <;> exact Frame.outside_schedule (by simp)
      | loopTest | logical =>
        simp only [perform]
        refine Effect.tidy_withValue fun v values => ?_
        split
        · rfl
        · rfl

/-- A task that fails leaves memory as it is. -/
theorem eq_of_perform_fail
    (h : mem.perform p callers frame task = (mem', .fail fault frame')) : mem' = mem := by
  have hmem := congrArg Prod.fst h
  have heffect := congrArg Prod.snd h
  cases task with
  | exec s labels =>
    cases s with
    | declare site name init => cases init <;> cases heffect
    | block => cases heffect
    | returnWith site value => cases value <;> cases heffect
    | _ => exact hmem.symm
  | eval e =>
    cases e with
    | name r =>
      simp only [perform, eval] at hmem
      split at hmem <;> exact hmem.symm
    | function => cases heffect
    | _ => exact hmem.symm
  | declare name =>
    obtain hmissing | ⟨_, _, -, hdeclare⟩ := declare_cases p mem callers frame name
    · exact congrArg Prod.fst (h.symm.trans hmissing)
    · cases h.symm.trans hdeclare
  | assign name =>
    obtain ⟨_, hfail⟩ | ⟨_, _, -, -, hassign⟩ := assign_cases p mem callers frame name
    · exact congrArg Prod.fst (h.symm.trans hfail)
    · cases h.symm.trans hassign
  | call count =>
    obtain ⟨_, _, -, hfail⟩ | ⟨_, _, _, _, _, _, -, -, hcall⟩ :=
      call_cases p mem callers frame count
    · exact congrArg Prod.fst (h.symm.trans hfail)
    · cases h.symm.trans hcall
  | _ => exact hmem.symm

end Memory

/-! ### Frames of a run -/

/-- Each of the frames was opened with the chain that it has outside of its blocks. -/
def EachEntered (run : Nat → Progress) (n : Nat) (frames : List Frame) : Prop :=
  ∀ frame below, frame :: below <:+ frames → Entered run n below frame.outside

theorem eachEntered_cons : EachEntered run n (frame :: callers) ↔
    Entered run n callers frame.outside ∧ EachEntered run n callers := by
  constructor
  · intro h
    exact ⟨h _ _ List.suffix_rfl, fun _ _ hsuffix => h _ _ (hsuffix.trans (List.suffix_cons _ _))⟩
  · rintro ⟨hframe, hcallers⟩ frame' below hsuffix
    rcases List.suffix_cons_iff.1 hsuffix with heq | hsuffix
    · cases heq
      exact hframe
    · exact hcallers frame' below hsuffix

theorem Enters.entered (h : Enters run n callers env) (hstands : Stands run n callers []) :
    Entered run n callers env := by
  refine ⟨n, Nat.le_refl n, h, fun j hij hj => ?_⟩
  rw [Nat.le_antisymm hj hij]
  exact hstands

theorem Entered.succ (h : Entered run n callers env) (hstands : Stands run (n + 1) callers []) :
    Entered run (n + 1) callers env := by
  obtain ⟨i, hi, henters, hall⟩ := h
  refine ⟨i, Nat.le_succ_of_le hi, henters, fun j hij hj => ?_⟩
  rcases Nat.lt_or_ge n j with hlt | hle
  · rw [Nat.le_antisymm hj hlt]
    exact hstands
  · exact hall j hij hle

/-- Frames that are still there were opened as before. -/
theorem EachEntered.succ (h : EachEntered run n callers) (hrun : run (n + 1) = .going mem frames)
    (hsuffix : callers <:+ frames) : EachEntered run (n + 1) callers := by
  intro frame below hbelow
  obtain ⟨inner, hinner⟩ := hbelow.trans hsuffix
  exact (h frame below hbelow).succ ⟨mem, inner, frame, hinner ▸ hrun, List.nil_suffix⟩

/-- The innermost frame goes on, and has the same chain outside of its blocks. -/
theorem EachEntered.stay (h : EachEntered run n (frame :: callers))
    (houtside : frame'.outside = frame.outside)
    (hrun : run (n + 1) = .going mem (Machine.arrive (frame' :: callers))) :
    EachEntered run (n + 1) (Machine.arrive (frame' :: callers)) := by
  obtain ⟨current, harrive⟩ := Machine.arrive_cons frame' callers
  rw [harrive] at hrun ⊢
  obtain ⟨hframe, hcallers⟩ := eachEntered_cons.1 h
  refine eachEntered_cons.2 ⟨?_, hcallers.succ hrun (List.suffix_cons _ _)⟩
  have hkept := hframe.succ ⟨mem, [], _, hrun, List.nil_suffix⟩
  rw [← houtside] at hkept
  exact hkept

theorem EachEntered.leave (h : EachEntered run n callers) {v : Value}
    (hrun : run (n + 1) = .going mem (Machine.arrive (Machine.resume v callers))) :
    EachEntered run (n + 1) (Machine.arrive (Machine.resume v callers)) := by
  cases callers with
  | nil => exact h.succ hrun List.suffix_rfl
  | cons caller callers =>
    have houtside : (caller.pushValue v).outside = caller.outside := rfl
    exact h.stay houtside hrun

/-- A frame that is opened has no blocks yet. -/
theorem EachEntered.enter (h : EachEntered run n (frame :: callers))
    (hgoing : run n = .going mem (frame :: callers)) (hcaller : caller.outside = frame.outside)
    (hcallee : callee.outside = callee.environment)
    (hrun : run (n + 1) = .going mem' (Machine.arrive (callee :: caller :: callers))) :
    EachEntered run (n + 1) (Machine.arrive (callee :: caller :: callers)) := by
  obtain ⟨current, harrive⟩ := Machine.arrive_cons callee (caller :: callers)
  rw [harrive] at hrun ⊢
  obtain ⟨hframe, hcallers⟩ := eachEntered_cons.1 h
  refine eachEntered_cons.2 ⟨?_, eachEntered_cons.2 ⟨?_, ?_⟩⟩
  · have henters := Enters.function hgoing hrun
    rw [← hcallee] at henters
    exact henters.entered ⟨_, [], _, hrun, List.nil_suffix⟩
  · rw [hcaller]
    exact hframe.succ ⟨_, [_], _, hrun, List.nil_suffix⟩
  · exact hcallers.succ hrun ((List.suffix_cons _ _).trans (List.suffix_cons _ _))

namespace Machine

/-- A tick keeps the chains outside of all blocks. -/
theorem eachEntered_next (h : EachEntered run n frames) (hgoing : run n = .going mem frames)
    (hnext : run (n + 1) = (run n).next p) {frames' : List Frame}
    (hrun : run (n + 1) = .going mem' frames') : EachEntered run (n + 1) frames' := by
  rw [hgoing, Progress.next] at hnext
  cases frames with
  | nil =>
    rw [hrun] at hnext
    cases hnext
  | cons frame callers =>
    cases htasks : frame.tasks with
    | nil =>
      rw [tick, htasks] at hnext
      have hsame := hrun.symm.trans hnext
      cases hsame
      exact (eachEntered_cons.1 h).2.leave hrun
    | cons task rest =>
      rw [tick_of_tasks htasks] at hnext
      have htidy : (mem.perform p callers { frame with tasks := rest } task).2.Tidy frame
          frame.outside := Memory.tidy_perform htasks
      generalize mem.perform p callers { frame with tasks := rest } task = result at hnext htidy
      obtain ⟨mem'', effect⟩ := result
      have hsame := hrun.symm.trans hnext
      -- Only a call adds a frame, and the function that it enters has no block open yet.
      cases effect with
      | stay frame' =>
        cases hsame
        exact h.stay htidy hrun
      | enter caller callee =>
        cases hsame
        exact h.enter hgoing htidy.1 htidy.2 hrun
      | leave v =>
        cases hsame
        exact (eachEntered_cons.1 h).2.leave hrun
      | fail => cases hsame

/-- Outside of its blocks every frame of a run has the chain that it was opened with. -/
theorem entered_outside (memory : Memory)
    (hgoing : ((start memory).load p).run p n = .going mem frames) :
    EachEntered (((start memory).load p).run p) n frames := by
  induction n generalizing mem frames with
  | zero =>
    have hload : ((start memory).load p).run p 0 =
        .going ((start memory).load p).memory ((start memory).load p).frames := rfl
    have hsame := hgoing.symm.trans hload
    cases hsame
    cases hframes : ((start memory).load p).frames with
    | nil => exact fun _ _ hsuffix => absurd (List.eq_nil_of_suffix_nil hsuffix) nofun
    | cons frame callers =>
      obtain ⟨houtside, rfl⟩ : frame.outside = frame.environment ∧ callers = [] := by
        rw [load] at hframes
        split at hframes
        · cases hframes
          exact ⟨Frame.outside_ofBody .., rfl⟩
        · cases hframes
      rw [hframes] at hgoing
      refine eachEntered_cons.2 ⟨?_, fun _ _ hsuffix => ?_⟩
      · rw [houtside]
        exact Enters.entered (.program hgoing) ⟨_, [], frame, hgoing, List.nil_suffix⟩
      · exact absurd (List.eq_nil_of_suffix_nil hsuffix) nofun
  | succ n ih =>
    have hnext := run_succ p ((start memory).load p) n
    cases hrun : ((start memory).load p).run p n with
    | going mem' frames' => exact eachEntered_next (ih hrun) hrun hnext hgoing
    | done | failed =>
      -- A run that has ended does not go on.
      rw [hrun, hgoing] at hnext
      cases hnext

/-- The chain of the outermost scope stays the same. -/
@[simp] theorem globals_after (m : Machine) (k : Nat) : (m.after k).globals = m.globals := by
  induction k with
  | zero => rfl
  | succ k ih => rw [after_succ, globals_step, ih]

/-- A run that ends is ended by one of the steps. -/
theorem exists_after_of_runFor {m : Machine} {fuel : Nat} {r : Machine × StepOutcome}
    (h : m.runFor fuel = some r) : ∃ k, (m.after k).step = r := by
  induction fuel generalizing m with
  | zero => cases h
  | succ fuel ih =>
    rw [runFor] at h
    split at h
    · rename_i m' hstep
      obtain ⟨k, hk⟩ := ih h
      refine ⟨k + 1, ?_⟩
      rw [after, Function.iterate_succ_apply, hstep]
      exact hk
    · exact ⟨0, Option.some.inj h⟩

/-- A machine that a step leaves failed keeps its frames, and the next step only finishes. -/
theorem Sound.after_failed {base : ScopeId} {m : Machine} {k : Nat} (hp : p.Indexed)
    (h : Sound p base m) (hfailed : (m.after k).step.2 = .failed fault) :
    (m.after (k + 1)).program = some p ∧ (m.after (k + 1)).fault = some fault ∧
      (m.after (k + 1)).terminated = false := by
  rw [after_succ]
  cases h.steps hp k with
  | running hpaused _ =>
    rw [hpaused.step_eq] at hfailed ⊢
    generalize advance p (m.after k).memory (m.after k).frames = settled at hfailed ⊢
    obtain ⟨mem, settled⟩ := settled
    cases settled with
    | failed fault' frames =>
      cases hfailed
      exact ⟨rfl, rfl, rfl⟩
    | _ => cases hfailed
  | ended hended _ =>
    rw [Machine.step] at hfailed
    split at hfailed
    · cases hfailed
    · rename_i hrunning
      rw [if_pos (hended.resolve_left hrunning)] at hfailed
      cases hfailed

end Machine

/-- The next task of the innermost frame fails, and leaves the frame in a certain state. -/
def FailsAt (p : Program) (run : Nat → Progress) (n : Nat) (mem : Memory) (frame : Frame)
    (callers : List Frame) (fault : Fault) (left : Frame) : Prop :=
  run n = .going mem (frame :: callers) ∧ ∃ task tasks, frame.tasks = task :: tasks ∧
    mem.perform p callers { frame with tasks } task = (mem, .fail fault left)

namespace Machine

/-- A run that fails fails by a task of the innermost frame. -/
theorem exists_failsAt {m : Machine} (h : m.run p n = .failed fault mem frames) :
    ∃ i frame callers left, FailsAt p (m.run p) i mem frame callers fault left ∧
      frames = left :: callers := by
  obtain ⟨i, mem', frames', hgoing, hlast⟩ := exists_last_tick h
  rw [run_succ, hgoing, Progress.next] at hlast
  cases frames' with
  | nil => cases hlast
  | cons frame callers =>
    cases htasks : frame.tasks with
    | nil =>
      rw [tick, htasks] at hlast
      cases hlast
    | cons task tasks =>
      rw [tick_of_tasks htasks] at hlast
      cases hperform : mem'.perform p callers { frame with tasks } task with
      | mk mem'' effect =>
        rw [hperform] at hlast
        cases effect with
        | fail fault' left =>
          cases hlast
          obtain rfl := Memory.eq_of_perform_fail hperform
          exact ⟨i, frame, callers, left, ⟨hgoing, task, tasks, htasks, hperform⟩, rfl⟩
        | _ => cases hlast

/-- A step of a program that was parsed fails. Then some task of the run has failed, and all frames
that were there when it was performed are still on the stack, with memory as it was: the callers as
they were, and the innermost frame at the same statement of the same function. It is in the chain in
force at the task, unless the task is a jump and the frame is in a block: a jump without a target
leaves the frame in the chain that it was opened with. The next step takes the frames off and does
nothing else, and all later steps do nothing. -/
theorem failed_frames_stay {text : String} (hparse : Program.parse text = .ok p) (memory : Memory)
    {k : Nat} (hfailed : (((start memory).load p).after k).step.2 = .failed fault) :
    ∃ n mem frame callers left,
      FailsAt p (((start memory).load p).run p) n mem frame callers fault left ∧
      ((start memory).load p).after (k + 1) =
        { memory := mem, globals := (start memory).globals, program := some p
          frames := left :: callers, fault := some fault, terminated := false } ∧
      left.current = frame.current ∧ left.function = frame.function ∧
      (fault.isJump = false ∨ (∀ outer, Task.restore outer ∉ frame.tasks) →
        left.environment = frame.environment) ∧
      (fault.isJump = true →
        Entered (((start memory).load p).run p) n callers left.environment) ∧
      (((start memory).load p).after (k + 1)).step =
        ({ ((start memory).load p).after (k + 1) with frames := [], terminated := true },
          .finished) ∧
      ∀ j, (((start memory).load p).after (k + 2 + j)).step =
        (((start memory).load p).after (k + 2), .finished) := by
  have hp := Program.indexed_of_parse hparse
  have hsound := sound_load memory p
  obtain ⟨hprogram, hfault, hterminated⟩ := hsound.after_failed hp hfailed
  obtain ⟨i, hi⟩ := hsound.exists_run_failed hp hfailed
  obtain ⟨n, frame, callers, left, hfails, hframes⟩ := exists_failsAt hi
  have hglobals : (((start memory).load p).after (k + 1)).globals = (start memory).globals := by
    rw [globals_after, globals_load]
  generalize hm : ((start memory).load p).after (k + 1) = m at *
  have hstep : m.step = ({ m with frames := [], terminated := true }, .finished) := by
    simp [step, hterminated, hfault, terminate]
  have hagain : ((start memory).load p).after (k + 2) =
      { m with frames := [], terminated := true } := by
    rw [after_succ, hm, hstep]
  -- By induction on the later steps: a machine that has terminated stays as it is.
  have hrest : ∀ j, ((start memory).load p).after (k + 2 + j) =
      { m with frames := [], terminated := true } := by
    intro j
    induction j with
    | zero => exact hagain
    | succ j ih =>
      rw [← Nat.add_assoc, after_succ, ih]
      simp [step]
  -- What the task has done to its frame before it failed.
  obtain ⟨hgoing, task, tasks, htasks, hperform⟩ := hfails
  have htidy : (m.memory.perform p callers { frame with tasks } task).2.Tidy frame
      frame.outside := Memory.tidy_perform htasks
  rw [hperform] at htidy
  obtain ⟨hcurrent, hfunction, henv⟩ := htidy
  refine ⟨n, m.memory, frame, callers, left, ⟨hgoing, task, tasks, htasks, hperform⟩, ?_, hcurrent,
    hfunction, ?_, ?_, hstep, ?_⟩
  · rw [← hframes, ← hglobals, ← hprogram, ← hfault, ← hterminated]
  · intro hkept
    rw [henv]
    split
    · rename_i hjump
      rw [hjump, Bool.true_eq_false, false_or] at hkept
      exact Task.foldl_behind hkept
    · rfl
  · intro hjump
    rw [henv, if_pos hjump]
    exact (entered_outside memory hgoing) frame callers List.suffix_rfl
  · intro j
    rw [hrest j, hagain]
    simp [step]

/-! ### A jump that leaves a block -/

/-- A block with a variable, and a `break` outside of all loops. -/
def breakingBlock : Stmt :=
  .block ⟨3, ⟨0, 14⟩⟩
    [.declare ⟨1, ⟨1, 7⟩⟩ ⟨⟨0, ⟨5, 6⟩⟩, "x", .variable⟩ none, .breakTo ⟨2, ⟨7, 13⟩⟩ none]

theorem scan_breaking : Lexeme.scan "\x7bvar x;break;\x7d" = .ok
    [⟨.symbol .leftBrace, ⟨0, 1⟩⟩, ⟨.keyword .varWord, ⟨1, 4⟩⟩, ⟨.identifier "x", ⟨5, 6⟩⟩,
      ⟨.symbol .semicolon, ⟨6, 7⟩⟩, ⟨.keyword .breakWord, ⟨7, 12⟩⟩, ⟨.symbol .semicolon, ⟨12, 13⟩⟩,
      ⟨.symbol .rightBrace, ⟨13, 14⟩⟩] := by
  decide +kernel

set_option maxRecDepth 4000 in
theorem parse_breaking : (Program.parse "\x7bvar x;break;\x7d").toOption.map (·.body) =
    some [breakingBlock] := by
  rw [Program.parse, scan_breaking]
  cbv

/-- A step fails at the `break`, and leaves the frame of the program. -/
theorem failed_frames_stay_breaking :
    ∃ p, Program.parse "\x7bvar x;break;\x7d" = .ok p ∧ ∃ k left,
      ((fresh.load p).after k).step.2 = .failed .illegalBreak ∧
      ((fresh.load p).after (k + 1)).frames = [left] ∧ left.function = none ∧
      ∃ n, Entered ((fresh.load p).run p) n [] left.environment := by
  obtain ⟨p, hparse, hbody⟩ := Program.exists_of_parse_body parse_breaking
  have hrun : ∃ mem left, (fresh.load p).run p 4 = .failed .illegalBreak mem [left] ∧
      left.function = none := by
    rw [run, load, hbody]
    exact ⟨_, _, rfl, rfl⟩
  obtain ⟨mem, left, hrun, hfunction⟩ := hrun
  obtain ⟨fuel, m, hrunFor⟩ := exists_runFor_of_failed hrun
  obtain ⟨k, hk⟩ := exists_after_of_runFor hrunFor
  have hfailed : ((fresh.load p).after k).step.2 = .failed .illegalBreak :=
    congrArg Prod.snd hk
  obtain ⟨n, mem', frame, callers, left', hfails, hafter, -, -, -, hentered, -⟩ :=
    failed_frames_stay hparse ⟨.empty, 0⟩ hfailed
  -- The run fails only once, so that these are the frames of its end.
  have hnext : (fresh.load p).run p (n + 1) = .failed .illegalBreak mem' (left' :: callers) := by
    obtain ⟨hgoing, task, tasks, htasks, hperform⟩ := hfails
    rw [run_succ]
    refine (congrArg _ hgoing).trans ?_
    rw [Progress.next, tick_of_tasks htasks, hperform]
    rfl
  have hsame := Progress.end_unique hrun hnext rfl rfl
  cases hsame
  exact ⟨p, hparse, k, left, hfailed, congrArg Machine.frames hafter, hfunction, n, hentered rfl⟩

/-- It is not true of every fault that the frame keeps the chain in force: the variable of the block
is in sight at the `break`, and not in sight of the frame that has failed. -/
theorem failed_frame_leaves_block :
    ∃ p, Program.parse "\x7bvar x;break;\x7d" = .ok p ∧ ∃ n mem frame left,
      FailsAt p ((fresh.load p).run p) n mem frame [] .illegalBreak left ∧
      mem.store.lookup? frame.environment "x" = some .undefined ∧
      mem.store.lookup? left.environment "x" = none := by
  obtain ⟨p, hparse, hbody⟩ := Program.exists_of_parse_body parse_breaking
  refine ⟨p, hparse, 3, ?_⟩
  unfold FailsAt run load
  rw [hbody]
  exact ⟨_, _, _, ⟨rfl, _, _, rfl, rfl⟩, rfl, rfl⟩

end Machine

end LWorkbench
