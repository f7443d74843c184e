import LWorkbench.Machine

/-!
# Outcomes of steps

What a step reports can be seen from the machine that it leaves: a pause or a fault leaves frames,
and a finished run leaves none. A fault is reported once. The machine remembers it, and from then on
every step only finishes the run. Running to the end reports what its last step does.

## Main definitions

* `StepOutcome.fault?` — the fault that an outcome reports
* `Machine.Ready` — a machine with a program, which has frames unless the run is over
* `Machine.Ended` — a run that has finished or failed
* `Machine.Advance` — what one machine has to do with the one that a step leaves

## Main results

* `Machine.Ready.advance_step`, `Machine.Ready.advance_runFor` — one step, and steps to the end
-/

namespace LWorkbench

/-- The fault that an outcome reports. -/
def StepOutcome.fault? : StepOutcome → Option Fault
  | failed fault => some fault
  | _ => none

namespace Machine

variable {m m' : Machine} {p : Program} {mem mem' : Memory} {frames frames' : List Frame}
  {fault : Fault} {outcome : StepOutcome}

/-- The run has finished or failed. -/
def Ended (m : Machine) : Prop := m.terminated = true ∨ m.fault.isSome = true

/-- The machine has a program, and it has frames unless the run is over. -/
structure Ready (m : Machine) : Prop where
  program : m.program.isSome = true
  frames : m.frames = [] ↔ m.terminated = true

/-- What an outcome says about the machine that is left. -/
def LeftBy (m : Machine) : StepOutcome → Prop
  | .paused => m.terminated = false ∧ m.fault = none
  | .finished => m.terminated = true
  | .failed fault => m.terminated = false ∧ m.fault = some fault

/-- The second machine is left by running the first one, with the given outcome. A run that has
ended reports no fault again, and one that has not ended remembers the fault that it reports. -/
structure Advance (m m' : Machine) (outcome : StepOutcome) : Prop where
  ready : m'.Ready
  left : m'.LeftBy outcome
  ended : m.Ended → outcome = .finished ∧ m'.fault = m.fault
  going : ¬ m.Ended → m'.fault = outcome.fault?

theorem LeftBy.not_ended (h : m.LeftBy .paused) : ¬ m.Ended := by
  rintro (hterminated | hfault)
  · rw [h.1] at hterminated
    cases hterminated
  · rw [h.2] at hfault
    cases hfault

/-- As long as nothing has failed, the fault that the machine remembers is the one reported now. -/
theorem Advance.fault_eq (h : Advance m m' outcome) (hfault : m.fault = none) :
    m'.fault = outcome.fault? := by
  by_cases hended : m.Ended
  · obtain ⟨rfl, hsame⟩ := h.ended hended
    rw [hsame, hfault]
    rfl
  · exact h.going hended

/-! ### One step -/

/-- A task fails in a frame, which stays. -/
theorem frames_ne_nil_of_settle (h : settle p mem frames = (mem', .failed fault frames')) :
    frames' ≠ [] := by
  fun_induction settle p mem frames with
  | case1 => cases h
  | case2 _ _ _ _ ih => exact ih h
  | case3 => cases h
  | case4 _ _ _ _ _ _ _ _ _ _ ih => exact ih h
  | case5 _ _ _ _ _ _ _ _ _ _ _ ih => exact ih h
  | case6 _ _ _ _ _ _ _ _ _ _ ih => exact ih h
  | case7 =>
    cases h
    exact List.cons_ne_nil _ _

theorem frames_ne_nil_of_advance (h : advance p mem frames = (mem', .failed fault frames')) :
    frames' ≠ [] := by
  unfold advance at h
  split at h
  · unfold runStatement at h
    split at h
    · exact frames_ne_nil_of_settle h
    · exact frames_ne_nil_of_settle h
    · exact frames_ne_nil_of_settle h
    · cases h
      exact List.cons_ne_nil _ _
  · exact frames_ne_nil_of_settle h

theorem ready_load (m : Machine) (p : Program) : (m.load p).Ready := by
  unfold load
  split
  · exact ⟨rfl, iff_of_false (List.cons_ne_nil _ _) Bool.false_ne_true⟩
  · exact ⟨rfl, iff_of_true rfl rfl⟩

@[simp] theorem fault_load (m : Machine) (p : Program) : (m.load p).fault = none := by
  unfold load
  split <;> rfl

/-- A run that has ended only finishes. -/
theorem Ready.advance_of_ended (h : m.Ready) (hended : m.Ended) :
    Advance m m.step.1 m.step.2 := by
  unfold step
  split
  · rename_i hterminated
    exact ⟨h, hterminated, fun _ => ⟨rfl, rfl⟩, fun hgoing => absurd hended hgoing⟩
  · rename_i hterminated
    have hfault : m.fault.isSome = true := hended.resolve_left hterminated
    rw [if_pos hfault]
    exact ⟨⟨h.program, iff_of_true rfl rfl⟩, rfl, fun _ => ⟨rfl, rfl⟩,
      fun hgoing => absurd hended hgoing⟩

/-- A step leaves what its outcome says. -/
theorem Ready.advance_step (h : m.Ready) : Advance m m.step.1 m.step.2 := by
  by_cases hended : m.Ended
  · exact h.advance_of_ended hended
  have hterminated : ¬ m.terminated = true := fun h => hended (.inl h)
  have hfault : ¬ m.fault.isSome = true := fun h => hended (.inr h)
  obtain ⟨p, hp⟩ := Option.isSome_iff_exists.1 h.program
  rw [step, if_neg hterminated, if_neg hfault, hp]
  dsimp only
  -- What is concluded follows from what the frames have come to.
  cases hadvance : advance p m.memory m.frames with
  | mk mem settled =>
    cases settled with
    | ready s labels frame callers =>
      exact ⟨⟨rfl, iff_of_false (List.cons_ne_nil _ _) Bool.false_ne_true⟩, ⟨rfl, rfl⟩,
        fun h => absurd h hended, fun _ => rfl⟩
    | done => exact ⟨⟨rfl, iff_of_true rfl rfl⟩, rfl, fun h => absurd h hended, fun _ => rfl⟩
    | failed fault frames =>
      exact ⟨⟨rfl, iff_of_false (frames_ne_nil_of_advance hadvance) Bool.false_ne_true⟩,
        ⟨rfl, rfl⟩, fun h => absurd h hended, fun _ => rfl⟩

/-! ### Steps to the end -/

/-- Running to the end leaves what its outcome says, and does not pause. -/
theorem Ready.advance_runFor (h : m.Ready) {fuel : Nat}
    (hrun : m.runFor fuel = some (m', outcome)) : Advance m m' outcome ∧ outcome ≠ .paused := by
  induction fuel generalizing m with
  | zero => cases hrun
  | succ fuel ih =>
    have hstep := h.advance_step
    rw [runFor] at hrun
    split at hrun
    · rename_i m₁ hpaused
      rw [hpaused] at hstep
      have hgoing : ¬ m₁.Ended := hstep.left.not_ended
      obtain ⟨hadvance, hne⟩ := ih hstep.ready hrun
      refine ⟨⟨hadvance.ready, hadvance.left, fun hended => ?_, fun _ => hadvance.going hgoing⟩,
        hne⟩
      -- A run that has ended does not pause.
      cases (hstep.ended hended).1
    · rename_i hne
      have heq : m.step = (m', outcome) := Option.some.inj hrun
      rw [heq] at hstep
      exact ⟨hstep, fun hpaused => hne m' (by rw [heq, hpaused])⟩

end Machine

end LWorkbench
