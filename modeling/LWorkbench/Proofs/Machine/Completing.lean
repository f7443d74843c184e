import LWorkbench.Proofs.Machine.Following

/-!
# Completions on the machine

A statement that completes by a jump leaves tasks behind, and the machine drops them one by one up
to the marker of the statement that catches the jump. Here a completion is read as an effect on
the frame in which the statement was run, as if nothing of the statement itself were left. That is
justified by what a jump passes: it leaves everything behind except the marker that it looks for,
and the end of a block on its way puts the outer chain of scopes back.

## Main definitions

* `Completion.effect` — a completion as an effect on a frame
* `Leads` — a run comes to an effect
* `Completes` — a run does what an execution says

## Main results

* `Completes.bind`, `Completes.complete` — executions after executions and after evaluations
* `Leads.pass_statements`, `Leads.pass_round`, `Leads.pastLabel`, `Completes.restore` — how
  completions leave statement lists, loops, labels and blocks
-/

namespace LWorkbench

open Progress

/-! ### Completions -/

namespace Completion

/-- What a completion does to the frame in which a statement was run. -/
def effect (frame : Frame) : Completion → Effect
  | normal => .stay frame
  | breakTo label => Memory.breakOut frame label
  | continueTo label => Memory.continueLoop frame label
  | returnWith value => .leave value
  | fault f => .fail f frame

/-- Whether a completion is a jump that does not end at a task, or passes every task. -/
def Passes (task : Task) : Completion → Prop
  | normal => False
  | breakTo label => Memory.breaksAt label task = false
  | continueTo label => Memory.continuesAt label task = false
  | _ => True

end Completion

/-- From `c` on, a run comes to an effect; which frames a failure leaves does not matter. -/
def Leads (p : Program) (c : Progress) (callers : List Frame) : Memory × Effect → Prop
  | (mem, .fail f _) => ∃ frames, Reaches p c (.failed f mem frames)
  | r => Reaches p c (Machine.follow callers r)

theorem Leads.of_reaches {p : Program} {c d : Progress} {callers : List Frame}
    {r : Memory × Effect} (hcd : Reaches p c d) (h : Leads p d callers r) :
    Leads p c callers r := by
  match r, h with
  | (mem, .fail f frame), ⟨frames, h⟩ => exact ⟨frames, hcd.trans h⟩
  | (mem, .stay frame), h => exact hcd.trans h
  | (mem, .enter caller callee), h => exact hcd.trans h
  | (mem, .leave value), h => exact hcd.trans h

theorem Leads.refl (p : Program) (callers : List Frame) (r : Memory × Effect) :
    Leads p (Machine.follow callers r) callers r := by
  match r with
  | (mem, .fail f frame) => exact ⟨_, .refl p _⟩
  | (mem, .stay frame) => exact Reaches.refl p _
  | (mem, .enter caller callee) => exact Reaches.refl p _
  | (mem, .leave value) => exact Reaches.refl p _

/-- From `c` on, a run does what an execution says: it completes in the given frame, or goes on
beyond the bound. The frame may have another current statement by then. -/
def Completes (p : Program) (bound : Nat) (c : Progress) (frame : Frame) (callers : List Frame) :
    Option (Completion × Memory) → Prop
  | none => Outlasts p bound c
  | some (completion, mem) =>
    ∃ current, Leads p c callers (mem, completion.effect { frame with current })

theorem Execution.bind_apply (x : Execution) (f : Completion → Execution) (mem : Memory) :
    (x >>= f) mem = match x mem with
      | none => none
      | some (completion, mem) => f completion mem := by
  show (x mem).bind _ = _
  cases x mem <;> rfl

namespace Completes

variable {p : Program} {bound : Nat} {c d : Progress} {mem : Memory} {frame frame' : Frame}
  {callers : List Frame} {r : Option (Completion × Memory)}

theorem of_reaches (hcd : Reaches p c d) (h : Completes p bound d frame callers r) :
    Completes p bound c frame callers r := by
  match r, h with
  | none, h => exact hcd.outlasts h
  | some (completion, mem), ⟨current, h⟩ => exact ⟨current, h.of_reaches hcd⟩

/-- One tick first. -/
theorem head (h : Completes p bound (c.next p) frame callers r) :
    Completes p bound c frame callers r :=
  of_reaches ⟨1, rfl⟩ h

/-- One tick first, which counts. -/
theorem succ (h : Completes p bound (c.next p) frame callers r) :
    Completes p (bound + 1) c frame callers r := by
  match r, h with
  | none, h => exact Outlasts.head h
  | some (completion, mem), ⟨current, h⟩ => exact ⟨current, h.of_reaches ⟨1, rfl⟩⟩

theorem mono {bound' : Nat} (h : Completes p bound c frame callers r) (hle : bound' ≤ bound) :
    Completes p bound' c frame callers r := by
  match r, h with
  | none, h => exact Outlasts.mono h hle
  | some _, h => exact h

/-- One execution after another. -/
theorem bind {x : Execution} {f : Completion → Execution}
    (hx : Completes p bound c frame' callers (x mem))
    (hf : ∀ completion current mem',
      Leads p c callers (mem', completion.effect { frame' with current }) →
        Completes p bound c frame callers (f completion mem')) :
    Completes p bound c frame callers ((x >>= f) mem) := by
  rw [Execution.bind_apply]
  match x mem, hx with
  | none, hx => exact hx
  | some (completion, mem'), ⟨current, hx⟩ => exact hf completion current mem' hx

/-- An execution after an evaluation. -/
theorem complete {α : Type} {x : Evaluation α} {next : α → Execution}
    {land : α → Memory → Progress} (hx : Follows p bound c land (x mem))
    (hnext : ∀ a mem', Completes p bound (land a mem') frame callers (next a mem')) :
    Completes p bound c frame callers (x.complete next mem) := by
  rw [Evaluation.complete_apply]
  match x mem, hx with
  | none, hx => exact hx
  | some (.error f, mem'), hx => exact ⟨0, hx⟩
  | some (.ok a, mem'), hx => exact of_reaches hx (hnext a mem')

end Completes

/-! ### Passing tasks -/

section Passing

variable {p : Program} {c : Progress} {mem : Memory} {callers : List Frame}
  {completion : Completion}

theorem unwind_cons {wanted : Task → Bool} {task : Task} (h : wanted task = false)
    (hrestore : ∀ env, task ≠ .restore env) (frame : Frame) (tasks : List Task)
    (values : List Value) :
    (frame.doing (task :: tasks) values).unwind wanted =
      (frame.doing tasks values).unwind wanted := by
  have : Frame.unwindTasks wanted (task :: tasks) frame.environment =
      Frame.unwindTasks wanted tasks frame.environment := by
    rw [Frame.unwindTasks, if_neg (by simp [h])]
    exact hrestore
  simp only [Frame.unwind, Frame.tasks_doing, Frame.environment_doing, this]
  rfl

theorem unwind_restore {wanted : Task → Bool} {env : Environment}
    (h : wanted (.restore env) = false) (frame : Frame) (tasks : List Task) (values : List Value) :
    (frame.doing (.restore env :: tasks) values).unwind wanted =
      ({ frame with environment := env }.doing tasks values).unwind wanted := by
  have : Frame.unwindTasks wanted (.restore env :: tasks) frame.environment =
      Frame.unwindTasks wanted tasks env := by
    rw [Frame.unwindTasks, if_neg (by simp [h])]
  simp only [Frame.unwind, Frame.tasks_doing, Frame.environment_doing, this]
  rfl

/-- A jump that does not end at a task leaves it behind. -/
theorem Leads.pass {task : Task} (hpass : completion.Passes task)
    (hrestore : ∀ env, task ≠ .restore env) {frame : Frame} {tasks : List Task}
    {values : List Value}
    (h : Leads p c callers (mem, completion.effect (frame.doing (task :: tasks) values))) :
    Leads p c callers (mem, completion.effect (frame.doing tasks values)) := by
  cases completion with
  | normal => exact hpass.elim
  | breakTo label =>
    rwa [Completion.effect, Memory.breakOut, unwind_cons hpass hrestore] at h
  -- Both kinds of jumps look for their end from the innermost task on.
  | continueTo label =>
    rwa [Completion.effect, Memory.continueLoop, unwind_cons hpass hrestore] at h
  | returnWith | fault => exact h

/-- Only loops and labels stop a jump. -/
theorem passes_of_unmarked (hne : completion ≠ .normal) {task : Task} (hloop : ∀ l, task ≠ .loop l)
    (hlabel : ∀ name, task ≠ .label name) : completion.Passes task := by
  cases completion with
  | normal => exact absurd rfl hne
  | breakTo label | continueTo label =>
    cases task with
    | loop l => exact absurd rfl (hloop l)
    | label name => exact absurd rfl (hlabel name)
    | _ => rfl
  | returnWith | fault => trivial

/-- A jump out of a block puts the outer chain back. -/
theorem Leads.restore (hne : completion ≠ .normal) (frame : Frame) {env : Environment}
    {tasks : List Task} {values : List Value}
    (h : Leads p c callers (mem, completion.effect (frame.doing (.restore env :: tasks) values))) :
    Leads p c callers
      (mem, completion.effect ({ frame with environment := env }.doing tasks values)) := by
  have hpass : completion.Passes (.restore env) := passes_of_unmarked hne (by simp) (by simp)
  cases completion with
  | normal => exact hpass.elim
  | breakTo label => rwa [Completion.effect, Memory.breakOut, unwind_restore hpass] at h
  | continueTo label => rwa [Completion.effect, Memory.continueLoop, unwind_restore hpass] at h
  | returnWith | fault => exact h

/-- A `continue` that ends at a loop starts its next round. -/
theorem continueLoop_round {l : Loop} {label : Option Name}
    (h : Memory.continuesAt label (.loop l) = true) (frame : Frame) (tasks : List Task)
    (values : List Value) :
    Memory.continueLoop (frame.doing (Memory.roundTasks l ++ tasks) values) label =
      .stay (frame.doing (Memory.roundTasks l ++ tasks) values) := by
  have hcut : Frame.unwindTasks (Memory.continuesAt label) (Memory.roundTasks l ++ tasks)
      frame.environment = (some (.loop l, tasks), frame.environment) := by
    have heval : Memory.continuesAt label (.eval l.condition) = false := rfl
    have htest : Memory.continuesAt label (.loopTest l) = false := rfl
    -- The condition and its test stand in front of the marker of the loop and are dropped.
    simp [Memory.roundTasks, Frame.unwindTasks, heval, htest, h]
  simp only [Memory.continueLoop, Frame.unwind, Frame.tasks_doing, Frame.environment_doing, hcut]
  rfl

/-- A jump that does not end at a loop leaves its round behind. -/
theorem Leads.pass_round {l : Loop} (hpass : completion.Passes (.loop l)) {frame : Frame}
    {tasks : List Task} {values : List Value}
    (h : Leads p c callers
      (mem, completion.effect (frame.doing (Memory.roundTasks l ++ tasks) values))) :
    Leads p c callers (mem, completion.effect (frame.doing tasks values)) := by
  have hne : completion ≠ .normal := by
    rintro rfl
    exact hpass
  have heval : completion.Passes (.eval l.condition) := passes_of_unmarked hne (by simp) (by simp)
  have htest : completion.Passes (.loopTest l) := passes_of_unmarked hne (by simp) (by simp)
  exact ((h.pass heval (by simp)).pass htest (by simp)).pass hpass (by simp)

/-- A jump leaves the statements behind that would have come next. -/
theorem Leads.pass_statements (hne : completion ≠ .normal) {frame : Frame} {ss : List Stmt}
    {tasks : List Task} {values : List Value}
    (h : Leads p c callers
      (mem, completion.effect (frame.doing (ss.map (Task.exec · []) ++ tasks) values))) :
    Leads p c callers (mem, completion.effect (frame.doing tasks values)) := by
  induction ss with
  | nil => exact h
  | cons s ss ih =>
    apply ih
    exact h.pass (passes_of_unmarked hne (by simp) (by simp)) (by simp)

/-- The end of a block puts the outer chain back, however it is reached. -/
theorem Completes.restore {bound : Nat} {frame : Frame} {env : Environment} {tasks : List Task}
    {values : List Value} {r : Option (Completion × Memory)}
    (h : Completes p bound c (frame.doing (.restore env :: tasks) values) callers r) :
    Completes p bound c ({ frame with environment := env }.doing tasks values) callers r := by
  match r, h with
  | none, h => exact h
  | some (completion, mem), ⟨current, h⟩ =>
    refine ⟨current, ?_⟩
    -- A block that ends normally performs the task that a jump out of it finds on its way.
    by_cases hnormal : completion = .normal
    · subst hnormal
      exact Reaches.trans h ⟨1, rfl⟩
    · exact Leads.restore hnormal { frame with current } h

/-- A label ends every `break` with its name, and nothing else. -/
theorem Leads.pastLabel (frame : Frame) {name : String} {tasks : List Task} {values : List Value}
    (h : Leads p c callers (mem, completion.effect (frame.doing (.label name :: tasks) values))) :
    Leads p c callers (mem, (completion.pastLabel name).effect (frame.doing tasks values)) := by
  match completion with
  | .normal => exact Reaches.trans h ⟨1, rfl⟩
  | .breakTo (some target) =>
    rw [Completion.pastLabel]
    split
    -- The jump names this label, and the run goes on behind the labeled statement.
    · rename_i hname
      have hcut : Memory.breakOut (frame.doing (.label name :: tasks) values) (some target) =
          .stay (frame.doing tasks values) := by
        simp [Memory.breakOut, Frame.unwind, Frame.unwindTasks, Memory.breaksAt, hname, Frame.doing]
      rwa [Completion.effect, hcut] at h
    · rename_i hname
      refine h.pass ?_ (by simp)
      simpa [Completion.Passes, Memory.breaksAt] using hname
  | .breakTo none =>
    have hpass : (Completion.breakTo none).Passes (.label name) := rfl
    exact h.pass hpass (by simp)
  | .continueTo label =>
    have hpass : (Completion.continueTo label).Passes (.label name) := rfl
    exact h.pass hpass (by simp)
  | .returnWith value => exact h
  | .fault f => exact h

end Passing

end LWorkbench
