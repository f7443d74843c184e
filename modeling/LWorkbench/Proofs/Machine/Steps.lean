import LWorkbench.Proofs.Machine.Stacks
import Mathlib

/-!
# Steps without internal faults

A machine that starts with a new outermost scope and a program that was parsed keeps its stacks and
frames in order, however often it steps. So the faults that a broken machine would report do not
occur, calls nest only as deep as they may, and whenever the machine pauses its innermost frame
stands with an empty stack in front of its current statement.

## Main definitions

* `InternalMessage` — the wordings of the faults of a broken machine
* `Machine.InFront` — standing in front of the current statement with an empty stack
* `Machine.Sound` — a machine between two steps, or one whose run is over

## Main results

* `Machine.sound_load`, `Machine.Sound.step` — loading a program and stepping keep a machine sound
* `Machine.steps_stay_sound` — what holds after any number of steps
-/

namespace LWorkbench

/-- What a machine would report if values, frames or nodes were missing: a node that is not a
statement, an expression, a name, a loop or a function. -/
inductive InternalMessage : String → Prop
  | underflow : InternalMessage "Value stack underflow"
  | noFrame : InternalMessage "No active frame"
  | wrongNode (id : NodeId) (what : String) : InternalMessage s!"Node NodeId({id}) is not {what}"

/-- The wording of a fault of the program is none of a broken machine. -/
theorem not_internalMessage {fault : Fault} (h : fault.isInternal = false) :
    ¬ InternalMessage fault.message := by
  intro hmessage
  generalize hm : fault.message = message at hmessage
  rw [← String.toList_inj] at hm
  -- The first letters differ, or the fourth one for a machine without a program.
  obtain _ | _ | ⟨id, what⟩ := hmessage <;>
    cases fault with
    | notCallable type =>
      unfold Fault.message at hm
      cases type <;> simp [toString, ValueType.word] at hm
    | missingValue => cases h
    | notAFunction => cases h
    | _ =>
      unfold Fault.message at hm
      simp [toString] at hm

namespace Machine

variable {p : Program} {base : ScopeId} {m : Machine}

/-- The innermost frame has an empty stack, and its next task runs its current statement. -/
def InFront (p : Program) (m : Machine) : Prop :=
  ∃ frame callers s labels tasks, m.frames = frame :: callers ∧ frame.values = [] ∧
    frame.tasks = .exec s labels :: tasks ∧ s.id = frame.current ∧
    p.node? frame.current = some (.stmt s)

/-- The machine after a number of steps. -/
def after (m : Machine) (n : Nat) : Machine := (fun m => m.step.1)^[n] m

theorem after_succ (m : Machine) (n : Nat) : m.after (n + 1) = (m.after n).step.1 :=
  Function.iterate_succ_apply' _ n m

/-- The machine stands between two steps of a sound run, or the run is over. -/
inductive Sound (p : Program) (base : ScopeId) (m : Machine) : Prop
  | running (hpaused : Paused p m) (hsound : (Progress.going m.memory m.frames).Sound p base)
  | ended (hended : m.terminated = true ∨ m.fault.isSome = true)
      (hlimit : m.frames.length ≤ frameLimit)

theorem Sound.length_frames (h : Sound p base m) : m.frames.length ≤ frameLimit := by
  cases h with
  | running _ hsound => exact hsound.2.2
  | ended _ hlimit => exact hlimit

/-- Statements run on an empty stack, so a sound machine pauses with one. -/
theorem inFront_of_paused (hp : p.Indexed) (hpaused : Paused p m)
    (hsound : (Progress.going m.memory m.frames).Sound p base) : InFront p m := by
  obtain ⟨frame, callers, s, labels, tasks, hframes, htasks, hcurrent⟩ := hpaused.front
  obtain ⟨-, hfit, -⟩ := hsound
  rw [hframes] at hfit
  obtain ⟨hframe, -⟩ := hfit
  obtain ⟨hs, -⟩ := List.forall_mem_cons.1 (htasks ▸ hframe.tasks)
  obtain ⟨height, hheight, -⟩ := balanced_cons.1 (htasks ▸ hframe.balanced)
  have hempty : frame.values = [] := by
    simp only [Task.height?, Option.ite_none_right_eq_some] at hheight
    exact List.length_eq_zero_iff.1 hheight.1
  refine ⟨frame, callers, s, labels, tasks, hframes, hempty, htasks, hcurrent.symm, ?_⟩
  rw [hcurrent]
  exact hp _ hs

/-- A new outermost scope holds nothing, and a loaded program has only statements to run. -/
theorem sound_going_load (memory : Memory) (p : Program) :
    (Progress.going ((start memory).load p).memory ((start memory).load p).frames).Sound p
      memory.store.scopes.size := by
  obtain ⟨hmem, henv⟩ := holds_start memory (Closure.Known p memory.store.scopes.size)
  rw [← Memory.known_iff_holds] at hmem
  unfold load
  split
  · rename_i first others hbody
    refine ⟨hmem, ⟨⟨henv, List.forall_mem_nil _, ?_, height_execs p.body⟩,
      List.forall_mem_nil _⟩, ?_⟩
    · intro task htask
      obtain ⟨s, hs, rfl⟩ := List.mem_map.1 htask
      exact .top hs
    · simp [frameLimit]
  · exact ⟨hmem, trivial, Nat.zero_le _⟩

theorem sound_load (memory : Memory) (p : Program) :
    Sound p memory.store.scopes.size ((start memory).load p) := by
  by_cases hbody : p.body = []
  · refine .ended (.inl ?_) ?_
    · simp [load, hbody]
    · simp [load, hbody]
  · exact .running (paused_load _ hbody) (sound_going_load memory p)

/-- A step keeps a machine sound, pauses in front of a statement, and reports only faults of the
program. -/
theorem Sound.step (hp : p.Indexed) (h : Sound p base m) :
    Sound p base m.step.1 ∧ (∀ fault, m.step.2 = .failed fault → fault.isInternal = false) ∧
      (m.step.2 = .paused → InFront p m.step.1) := by
  cases h with
  | running hpaused hsound =>
    obtain ⟨n, hn⟩ := hpaused.ticks_step
    have hafter : (progress m.step).Sound p base := hn ▸ hsound.ticks hp (n + 1)
    have hpaused' := hpaused.paused_step
    rw [hpaused.step_eq] at hafter hpaused' ⊢
    generalize advance p m.memory m.frames = settled at hafter hpaused' ⊢
    obtain ⟨mem, settled⟩ := settled
    cases settled with
    | ready s labels frame callers =>
      refine ⟨.running (hpaused' rfl) hafter, ?_, ?_⟩
      · intro fault hfailed
        cases hfailed
      · intro _
        exact inFront_of_paused hp (hpaused' rfl) hafter
    | done =>
      refine ⟨.ended (.inl rfl) (Nat.zero_le _), ?_, ?_⟩
      · intro fault hfailed
        cases hfailed
      · intro hpause
        cases hpause
    | failed fault frames =>
      refine ⟨.ended (.inr rfl) hafter.2, ?_, ?_⟩
      · intro fault' hfailed
        cases hfailed
        exact hafter.1
      · intro hpause
        cases hpause
  | ended hended hlimit =>
    have hfinished : m.step.2 = .finished ∧ Sound p base m.step.1 := by
      unfold Machine.step
      split
      · exact ⟨rfl, .ended hended hlimit⟩
      · rename_i hterminated
        rw [if_pos (hended.resolve_left hterminated)]
        exact ⟨rfl, .ended (.inl rfl) (Nat.zero_le _)⟩
    rw [hfinished.1]
    refine ⟨hfinished.2, ?_, ?_⟩
    · intro fault hfailed
      cases hfailed
    · intro hpause
      cases hpause

theorem Sound.steps (hp : p.Indexed) (h : Sound p base m) (n : Nat) :
    Sound p base (m.after n) := by
  induction n with
  | zero => exact h
  | succ n ih =>
    rw [after_succ]
    exact (ih.step hp).1

end Machine

/-- The index has the node, and the nodes directly inside it, at their numbers. -/
def Program.Finds (p : Program) (n : Node) : Prop :=
  p.node? n.id = some n ∧ ∀ c ∈ n.children, p.node? c.id = some c

theorem Program.Indexed.finds {p : Program} (hp : p.Indexed) (n : Node) (hn : p.Contains n) :
    p.Finds n :=
  ⟨hp n hn, fun c hc => hp c (.child hn hc)⟩

theorem FramesFit.known {p : Program} {base : ScopeId} {frames : List Frame}
    (h : FramesFit p base frames) : ∀ frame ∈ frames, ∀ task ∈ frame.tasks, task.Known p base := by
  intro frame hframe
  cases frames with
  | nil => cases hframe
  | cons first callers =>
    obtain hframe | hframe := List.mem_cons.1 hframe
    · rw [hframe]
      exact h.1.tasks
    · exact (h.2 frame hframe).tasks

namespace Machine

/-- A program that was parsed, on a machine whose outermost scope is new: after any number of steps
there are at most `frameLimit` frames, the next step reports no internal fault, and a machine that
pauses stands in front of its current statement. Every node that a task has to do with is found in
the index, and that at every moment of the run. -/
theorem steps_stay_sound {text : String} {p : Program} (hparse : Program.parse text = .ok p)
    (memory : Memory) :
    (p.body ≠ [] → InFront p ((start memory).load p)) ∧
    (∀ n, (((start memory).load p).after n).frames.length ≤ frameLimit ∧
      (∀ fault, (((start memory).load p).after n).step.2 = .failed fault →
        ¬ InternalMessage fault.message) ∧
      ((((start memory).load p).after n).step.2 = .paused →
        InFront p (((start memory).load p).after (n + 1)))) ∧
    ∀ n mem frames, (Progress.next p)^[n]
        (.going ((start memory).load p).memory ((start memory).load p).frames) = .going mem frames →
      frames.length ≤ frameLimit ∧
        ∀ frame ∈ frames, ∀ task ∈ frame.tasks, task.All p.Finds fun _ => True := by
  have hp : p.Indexed := Program.indexed_of_parse hparse
  have hload := sound_going_load memory p
  refine ⟨fun hbody => inFront_of_paused hp (paused_load _ hbody) hload, fun n => ?_, ?_⟩
  · have hsound := (sound_load memory p).steps hp n
    obtain ⟨-, hfault, hfront⟩ := hsound.step hp
    refine ⟨hsound.length_frames, fun fault h => not_internalMessage (hfault fault h), ?_⟩
    rw [after_succ]
    exact hfront
  · intro n mem frames hn
    have hsound := hload.ticks hp n
    rw [hn] at hsound
    refine ⟨hsound.2.2, fun frame hframe task htask => ?_⟩
    exact (hsound.2.1.known frame hframe task htask).mono hp.finds fun _ _ => trivial

/-- A block that drops a list and then calls one is a program. -/
theorem parse_call_of_list :
    (Program.parse "\x7b[[]];[]([]);\x7d").toOption.any (!·.body.isEmpty) = true := by
  decide +kernel

/-- The run of a block that calls a list, which is no function. -/
theorem steps_stay_sound_call_of_list :
    ∃ p, Program.parse "\x7b[[]];[]([]);\x7d" = .ok p ∧ InFront p (fresh.load p) ∧
      ∀ n fault, ((fresh.load p).after n).step.2 = .failed fault →
        ¬ InternalMessage fault.message := by
  have hsome := parse_call_of_list
  cases hparse : Program.parse "\x7b[[]];[]([]);\x7d" with
  | error e =>
    rw [hparse] at hsome
    cases hsome
  | ok p =>
    rw [hparse] at hsome
    have hbody : p.body ≠ [] := by simpa [Except.toOption] using hsome
    obtain ⟨hfront, hsteps, -⟩ := steps_stay_sound hparse ⟨.empty, 0⟩
    exact ⟨p, rfl, hfront hbody, fun n => (hsteps n).2.1⟩

end Machine

end LWorkbench
