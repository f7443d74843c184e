import LWorkbench.Debugger.Session
import LWorkbench.Proofs.Machine.Outcomes
import Mathlib

/-!
# Turns of a debug session

A client sends requests one after another, each when the one before has been answered. Only three
kinds of turns have to do with the run of the program: a start that fails, one that succeeds, and
going on. All others leave the program and the state of the session alone. What a session says about
the program is said by the turns of the last two kinds, and says what their outcome is.

## Main definitions

* `Turn`, `Transcript` — a request with the reply to it, and all turns of a session
* `Session.Reached` — the transcripts of sessions, with what they lead to
* `Session.Outcome` — what a turn does to the program
* `Session.Truthful` — the state of a session says how the program stands

## Main results

* `Session.outcome_of_handle` — every turn has one of four kinds of outcomes
* `Session.Truthful.handle` — one turn keeps the state truthful
* `Session.Reached.state_truthful` — what the state of a session says after any transcript
-/

namespace LWorkbench

/-! ### Requests -/

namespace Request

/-- The request is to start a program. -/
def launches (request : Request) : Bool :=
  request.command == "launch" || request.command == "attach"

/-- How the request is to go on with the program, if it is to do that. -/
def resumeMode? (request : Request) : Option ResumeMode :=
  match request.command with
  | "continue" => some .toEnd
  | "next" => some .oneStep
  | "stepIn" => some .oneStep
  | _ => none

/-- The request is to run the program, from the start or from where it stands. -/
def runs (request : Request) : Bool :=
  request.launches || request.resumeMode?.isSome

end Request

/-- A request with the reply to it. -/
abbrev Turn := Request × Reply

/-- The turns of a session in order. -/
abbrev Transcript := List Turn

namespace Turn

/-- A program was started. -/
def starts (turn : Turn) : Bool := turn.1.launches && turn.2.answer.isSuccess

/-- The program ran. -/
def ran (turn : Turn) : Bool := turn.1.runs && turn.2.answer.isSuccess

end Turn

/-! ### Outcomes -/

/-- The state that an outcome leads to. -/
def StepOutcome.state : StepOutcome → SessionState
  | paused => .stopped
  | finished => .terminated
  | failed _ => .stopped

/-- The event that tells an outcome, where a pause is told with the given reason. -/
def StepOutcome.event (reason : StopReason) : StepOutcome → Event
  | paused => .stopped reason
  | finished => .terminated
  | failed fault => .stopped (.exception fault)

/-- The event that tells a fault. Without debugging it is output. -/
def Fault.event (noDebug : Bool) (fault : Fault) : Event :=
  if noDebug then .output (fault.message ++ "\n") else .stopped (.exception fault)

namespace Debuggee

theorem machine_scopes (d : Debuggee) (frame : Nat) : (d.scopes frame).1.machine = d.machine := by
  unfold scopes
  split <;> rfl

theorem loaded_scopes (d : Debuggee) (frame : Nat) : (d.scopes frame).1.loaded = d.loaded := by
  unfold scopes
  split <;> rfl

theorem machine_expand (d : Debuggee) (handle : Int) : (d.expand handle).1.machine = d.machine := by
  unfold expand
  split <;> rfl

theorem loaded_expand (d : Debuggee) (handle : Int) : (d.expand handle).1.loaded = d.loaded := by
  unfold expand
  split <;> rfl

end Debuggee

namespace Session

variable {s s' : Session} {request : Request} {reply : Reply} {fuel : Nat}
  {read : String → Except ReadError String}

/-- What a turn does to the program and to the state of the session. -/
inductive Outcome (s : Session) (request : Request) (s' : Session) (reply : Reply) : Prop
  /-- The turn leaves both alone. -/
  | aside (hruns : request.runs = false ∨ reply.answer.isSuccess = false)
      (hstate : s'.state = s.state) (hmachine : s'.debuggee.machine = s.debuggee.machine)
      (hloaded : s'.debuggee.loaded = s.debuggee.loaded)
      (hevents : ∀ event ∈ reply.events, event = .initialized)
  /-- There is no program to start. -/
  | notStarted (hlaunches : request.launches = true) (hfails : reply.answer.isSuccess = false)
      (hstate : s'.state = .idle) (hdebuggee : s'.debuggee = s.debuggee)
      (hevents : reply.events = [])
  /-- A program is started. Without debugging it ends, and a fault is output in front. -/
  | started (arguments : LaunchArguments) (outcome : StepOutcome)
      (hlaunches : request.launches = true)
      (harguments : request.launchArguments? = some arguments)
      (hsuccess : reply.answer.isSuccess = true) (hstate : s'.state = outcome.state)
      (hloaded : s'.debuggee.loaded.isSome = true) (hready : s'.debuggee.machine.Ready)
      (hleft : s'.debuggee.machine.LeftBy outcome)
      (hquiet : arguments.noDebug = true → outcome = .finished)
      (hfault : outcome.fault? = if arguments.noDebug then none else s'.debuggee.machine.fault)
      (hevents : reply.events = (if arguments.noDebug then
        (s'.debuggee.machine.fault.map (Fault.event true)).toList else []) ++
          [outcome.event .entry])
  /-- The program that is loaded goes on. -/
  | resumed (mode : ResumeMode) (outcome : StepOutcome)
      (hmode : request.resumeMode? = some mode) (hsuccess : reply.answer.isSuccess = true)
      (hstate : s'.state = outcome.state) (hwas : s.debuggee.loaded.isSome = true)
      (hloaded : s'.debuggee.loaded = s.debuggee.loaded)
      (hadvance : s.debuggee.machine.Ready →
        s.debuggee.machine.Advance s'.debuggee.machine outcome)
      (hpaused : mode = .toEnd → s.debuggee.machine.Ready → outcome ≠ .paused)
      (hevents : reply.events = [outcome.event .step])

@[simp] theorem state_notice (s : Session) (request : Request) :
    (s.notice request).state = s.state := by
  unfold notice
  split <;> rfl

@[simp] theorem debuggee_notice (s : Session) (request : Request) :
    (s.notice request).debuggee = s.debuggee := by
  unfold notice
  split <;> rfl

theorem report_eq (s : Session) (reason : StopReason) (outcome : StepOutcome) :
    s.report reason outcome = ({ s with state := outcome.state }, outcome.event reason) := by
  cases outcome <;> rfl

/-! ### Starting -/

/-- What the first run of a program that was just loaded leaves. -/
structure FirstRun (arguments : LaunchArguments) (m : Machine) (outcome : StepOutcome)
    (output : List Event) : Prop where
  ready : m.Ready
  left : m.LeftBy outcome
  quiet : arguments.noDebug = true → outcome = .finished
  fault : outcome.fault? = if arguments.noDebug then none else m.fault
  output : output = if arguments.noDebug then (m.fault.map (Fault.event true)).toList else []

theorem firstRun_of_firstRun? {arguments : LaunchArguments} {d d' : Debuggee}
    {outcome : StepOutcome} {output : List Event} (hready : d.machine.Ready)
    (hfresh : d.machine.fault = none)
    (h : firstRun? fuel arguments d = some (d', outcome, output)) :
    d'.loaded = d.loaded ∧ FirstRun arguments d'.machine outcome output := by
  unfold firstRun? at h
  split at h
  · rename_i hdebug
    unfold Debuggee.runFor at h
    cases hrun : d.machine.runFor fuel with
    | none =>
      rw [hrun] at h
      cases h
    | some first =>
      obtain ⟨m, firstOutcome⟩ := first
      obtain ⟨hadvance, hne⟩ := hready.advance_runFor hrun
      have hfault := hadvance.fault_eq hfresh
      rw [hrun] at h
      cases firstOutcome with
      | paused => exact absurd rfl hne
      | finished =>
        cases h
        refine ⟨rfl, hadvance.ready, hadvance.left, fun _ => rfl, ?_, ?_⟩
        · rw [hdebug]
          rfl
        · dsimp only
          rw [hdebug, hfault]
          rfl
      | failed fault =>
        -- The fault is remembered, so the second run only finishes.
        obtain ⟨⟨m', secondOutcome⟩, hsecond, heq⟩ := Option.map_eq_some_iff.1 h
        obtain ⟨⟨m'', second⟩, hrun', hpair⟩ := Option.map_eq_some_iff.1 hsecond
        cases hpair
        cases heq
        obtain ⟨hadvance', -⟩ := hadvance.ready.advance_runFor hrun'
        have hended : m.Ended := by
          right
          rw [hfault]
          rfl
        obtain ⟨rfl, hkept⟩ := hadvance'.ended hended
        refine ⟨rfl, hadvance'.ready, hadvance'.left, fun _ => rfl, ?_, ?_⟩
        · rw [hdebug]
          rfl
        · dsimp only
          rw [hdebug, hkept, hfault]
          rfl
  · rename_i hdebug
    have hrest (m : Machine) (hadvance : d.machine.Advance m outcome) (houtput : output = []) :
        FirstRun arguments m outcome output := by
      refine ⟨hadvance.ready, hadvance.left, fun h => absurd h hdebug, ?_, ?_⟩
      · rw [if_neg hdebug, hadvance.fault_eq hfresh]
      · rw [if_neg hdebug, houtput]
    split at h
    · cases h
      exact ⟨rfl, hrest _ hready.advance_step rfl⟩
    · obtain ⟨⟨d₁, outcome₁⟩, hrun, heq⟩ := Option.map_eq_some_iff.1 h
      cases heq
      obtain ⟨⟨m, outcome₂⟩, hmachine, hpair⟩ := Option.map_eq_some_iff.1 hrun
      cases hpair
      exact ⟨rfl, hrest _ (hready.advance_runFor hmachine).1 rfl⟩

theorem outcome_of_launch? (hlaunches : request.launches = true)
    (h : s.launch? read fuel request = some (s', reply)) : s.Outcome request s' reply := by
  unfold launch? at h
  split at h
  · cases h
    exact .aside (.inr rfl) rfl rfl rfl (List.forall_mem_nil _)
  · rename_i arguments harguments
    dsimp only at h
    split at h
    · cases h
      exact .notStarted hlaunches rfl rfl rfl rfl
    · rename_i source p hfetch
      obtain ⟨⟨d, outcome, output⟩, hrun, heq⟩ := Option.map_eq_some_iff.1 h
      rw [report_eq] at heq
      cases heq
      obtain ⟨hloaded, hfirst⟩ := firstRun_of_firstRun? (Machine.ready_load _ p)
        (Machine.fault_load _ p) hrun
      refine .started arguments outcome hlaunches harguments rfl rfl ?_ hfirst.ready hfirst.left
        hfirst.quiet hfirst.fault ?_
      · dsimp only
        rw [hloaded]
        rfl
      · dsimp only
        rw [hfirst.output]

/-! ### Going on -/

theorem outcome_of_resume? {mode : ResumeMode} (hmode : request.resumeMode? = some mode)
    (h : s.resume? fuel mode = some (s', reply)) : s.Outcome request s' reply := by
  unfold resume? at h
  split at h
  · cases h
    exact .aside (.inr rfl) rfl rfl rfl (List.forall_mem_nil _)
  · rename_i hloaded
    have hwas : s.debuggee.loaded.isSome = true := by
      rw [Option.isSome_iff_ne_none]
      exact fun hnone => hloaded (by rw [hnone]; rfl)
    obtain ⟨⟨d, outcome⟩, hrun, heq⟩ := Option.map_eq_some_iff.1 h
    dsimp only at heq
    rw [report_eq] at heq
    cases heq
    cases mode with
    | toEnd =>
      obtain ⟨⟨m, outcome'⟩, hmachine, hpair⟩ := Option.map_eq_some_iff.1 hrun
      cases hpair
      exact .resumed .toEnd outcome hmode rfl rfl hwas rfl
        (fun hready => (hready.advance_runFor hmachine).1)
        (fun _ hready => (hready.advance_runFor hmachine).2) rfl
    | oneStep =>
      cases hrun
      exact .resumed .oneStep _ hmode rfl rfl hwas rfl (fun hready => hready.advance_step) nofun rfl

/-! ### All requests -/

theorem outcome_of_configure (hruns : request.runs = false) :
    s.Outcome request (s.configure request).1 (s.configure request).2 := by
  unfold configure
  split
  · exact .aside (.inl hruns) rfl rfl rfl (List.forall_mem_nil _)
  · exact .aside (.inl hruns) rfl rfl rfl fun event hevent => List.mem_singleton.1 hevent

theorem outcome_of_stackTrace (hruns : request.runs = false) :
    s.Outcome request (s.stackTrace request).1 (s.stackTrace request).2 := by
  unfold stackTrace
  split <;> exact .aside (.inl hruns) rfl rfl rfl (List.forall_mem_nil _)

theorem outcome_of_scopes (hruns : request.runs = false) :
    s.Outcome request (s.scopes request).1 (s.scopes request).2 := by
  unfold scopes
  split
  · exact .aside (.inl hruns) rfl rfl rfl (List.forall_mem_nil _)
  · exact .aside (.inl hruns) rfl (Debuggee.machine_scopes _ _) (Debuggee.loaded_scopes _ _)
      (List.forall_mem_nil _)

theorem outcome_of_expand (hruns : request.runs = false) :
    s.Outcome request (s.expand request).1 (s.expand request).2 := by
  unfold expand
  split
  · exact .aside (.inl hruns) rfl rfl rfl (List.forall_mem_nil _)
  · exact .aside (.inl hruns) rfl (Debuggee.machine_expand _ _) (Debuggee.loaded_expand _ _)
      (List.forall_mem_nil _)

/-- A request is to run the program only if its command says so. -/
theorem runs_eq_false {command : String} (h : request.command = command)
    (hcommand : command ∉ ["launch", "attach", "continue", "next", "stepIn"]) :
    request.runs = false := by
  subst h
  simp only [List.mem_cons, List.not_mem_nil, or_false, not_or] at hcommand
  obtain ⟨hlaunch, hattach, hcontinue, hnext, hstepIn⟩ := hcommand
  have hmode : request.resumeMode? = none := by
    unfold Request.resumeMode?
    split
    · exact absurd ‹_› hcontinue
    · exact absurd ‹_› hnext
    · exact absurd ‹_› hstepIn
    · rfl
  simp [Request.runs, Request.launches, hlaunch, hattach, hmode]

theorem outcome_of_reply? (h : s.reply? read fuel request = some (s', reply)) :
    s.Outcome request s' reply := by
  unfold reply? at h
  split at h
  case h_1 hcommand =>
    have hlook := s.outcome_of_configure (runs_eq_false hcommand (by decide))
    rwa [Option.some.inj h] at hlook
  case h_2 hcommand => exact outcome_of_launch? (by simp [Request.launches, hcommand]) h
  case h_3 hcommand => exact outcome_of_launch? (by simp [Request.launches, hcommand]) h
  case h_6 hcommand =>
    have hlook := s.outcome_of_stackTrace (runs_eq_false hcommand (by decide))
    rwa [Option.some.inj h] at hlook
  case h_7 hcommand =>
    have hlook := s.outcome_of_scopes (runs_eq_false hcommand (by decide))
    rwa [Option.some.inj h] at hlook
  case h_8 hcommand =>
    have hlook := s.outcome_of_expand (runs_eq_false hcommand (by decide))
    rwa [Option.some.inj h] at hlook
  case h_9 hcommand => exact outcome_of_resume? (by simp [Request.resumeMode?, hcommand]) h
  case h_10 hcommand => exact outcome_of_resume? (by simp [Request.resumeMode?, hcommand]) h
  case h_11 hcommand => exact outcome_of_resume? (by simp [Request.resumeMode?, hcommand]) h
  case h_13 =>
    cases h
    exact .aside (.inr rfl) rfl rfl rfl (List.forall_mem_nil _)
  -- The other commands say nothing about the program.
  all_goals
    cases h
    exact .aside (.inl (runs_eq_false ‹_› (by decide))) rfl rfl rfl (List.forall_mem_nil _)

/-- What a turn does to the program and to the state of the session. -/
theorem outcome_of_handle (h : s.handle? read fuel request = some (s', reply)) :
    s.Outcome request s' reply := by
  cases outcome_of_reply? h with
  | aside hruns hstate hmachine hloaded hevents =>
    rw [state_notice] at hstate
    rw [debuggee_notice] at hmachine hloaded
    exact .aside hruns hstate hmachine hloaded hevents
  | notStarted hlaunches hfails hstate hdebuggee hevents =>
    rw [debuggee_notice] at hdebuggee
    exact .notStarted hlaunches hfails hstate hdebuggee hevents
  | started arguments outcome hlaunches harguments hsuccess hstate hloaded hready hleft hquiet
      hfault hevents =>
    exact .started arguments outcome hlaunches harguments hsuccess hstate hloaded hready hleft
      hquiet hfault hevents
  | resumed mode outcome hmode hsuccess hstate hwas hloaded hadvance hpaused hevents =>
    rw [debuggee_notice] at hwas hloaded hadvance hpaused
    exact .resumed mode outcome hmode hsuccess hstate hwas hloaded hadvance hpaused hevents

/-! ### What the state says -/

/-- The state of a session says how the program that is loaded stands. -/
structure Truthful (s : Session) : Prop where
  ready : s.debuggee.loaded.isSome = true → s.debuggee.machine.Ready
  state : s.state = .idle ∨ s.debuggee.loaded.isSome = true ∧
    (s.state = .stopped ∧ s.debuggee.machine.terminated = false ∨
      s.state = .terminated ∧ s.debuggee.machine.terminated = true)

theorem truthful_start (configured : Bool) : (start configured).Truthful :=
  ⟨nofun, .inl rfl⟩

/-- The state that an outcome leads to says how the machine stands. -/
theorem truthful_of_outcome {outcome : StepOutcome} (hstate : s.state = outcome.state)
    (hloaded : s.debuggee.loaded.isSome = true) (hready : s.debuggee.machine.Ready)
    (hleft : s.debuggee.machine.LeftBy outcome) : s.Truthful := by
  refine ⟨fun _ => hready, .inr ⟨hloaded, ?_⟩⟩
  rw [hstate]
  cases outcome with
  | paused => exact .inl ⟨rfl, hleft.1⟩
  | finished => exact .inr ⟨rfl, hleft⟩
  | failed fault => exact .inl ⟨rfl, hleft.1⟩

/-- One turn keeps the state truthful. -/
theorem Truthful.handle (h : s.Truthful)
    (hhandle : s.handle? read fuel request = some (s', reply)) : s'.Truthful := by
  cases outcome_of_handle hhandle with
  | aside _ hstate hmachine hloaded _ =>
    refine ⟨?_, ?_⟩
    · rw [hmachine, hloaded]
      exact h.ready
    · rw [hstate, hmachine, hloaded]
      exact h.state
  | notStarted _ _ hstate hdebuggee _ =>
    refine ⟨?_, .inl hstate⟩
    rw [hdebuggee]
    exact h.ready
  | started _ _ _ _ _ hstate hloaded hready hleft _ _ _ =>
    exact truthful_of_outcome hstate hloaded hready hleft
  | resumed _ _ _ _ hstate hwas hloaded hadvance _ _ =>
    have hadvance := hadvance (h.ready hwas)
    exact truthful_of_outcome hstate (hloaded ▸ hwas) hadvance.ready hadvance.left

/-- A session that was reached by a transcript. Every request finds the files that there are then,
and its handling returns. -/
inductive Reached (configured : Bool) : Transcript → Session → Prop
  | start : Reached configured [] (.start configured)
  | handle {transcript : Transcript} {s s' : Session} {request : Request} {reply : Reply}
      {read : String → Except ReadError String} {fuel : Nat} (h : Reached configured transcript s)
      (hhandle : s.handle? read fuel request = some (s', reply)) :
      Reached configured (transcript ++ [(request, reply)]) s'

theorem Reached.truthful {configured : Bool} {transcript : Transcript}
    (h : Reached configured transcript s) : s.Truthful := by
  induction h with
  | start => exact truthful_start configured
  | handle _ hhandle ih => exact ih.handle hhandle

/-- A turn in which the program ran leaves the session stopped or terminated. -/
theorem state_ne_idle_of_ran (hhandle : s.handle? read fuel request = some (s', reply))
    (hran : Turn.ran (request, reply) = true) : s'.state ≠ .idle := by
  obtain ⟨hruns, hsuccess⟩ := Bool.and_eq_true_iff.1 hran
  have hstate (outcome : StepOutcome) : outcome.state ≠ .idle := by
    cases outcome <;> nofun
  cases outcome_of_handle hhandle with
  | aside hneither _ _ _ _ =>
    obtain hneither | hneither := hneither
    · rw [hneither] at hruns
      cases hruns
    · rw [hneither] at hsuccess
      cases hsuccess
  | notStarted _ hfails _ _ _ =>
    rw [hfails] at hsuccess
    cases hsuccess
  | started _ outcome _ _ _ h _ _ _ _ _ _ => exact h ▸ hstate outcome
  | resumed _ outcome _ _ h _ _ _ _ _ => exact h ▸ hstate outcome

/-- The state of a session tells the truth about the program. Between two requests a session is
never launching or running. When it is stopped, a program is loaded that has not ended and has a
frame; when it is terminated, a program is loaded that has ended and has none. And it is one of
these two whenever the program ran in the last turn. -/
theorem Reached.state_truthful {configured : Bool} {transcript : Transcript}
    (h : Reached configured transcript s) :
    (s.state = .idle ∨ s.state = .stopped ∨ s.state = .terminated) ∧
    (s.state = .stopped →
      s.debuggee.loaded.isSome = true ∧ s.debuggee.machine.program.isSome = true ∧
        s.debuggee.machine.terminated = false ∧ s.debuggee.machine.frames ≠ []) ∧
    (s.state = .terminated →
      s.debuggee.loaded.isSome = true ∧ s.debuggee.machine.program.isSome = true ∧
        s.debuggee.machine.terminated = true ∧ s.debuggee.machine.frames = []) ∧
    ∀ earlier turn, transcript = earlier ++ [turn] → turn.ran = true → s.state ≠ .idle := by
  have htruthful := h.truthful
  refine ⟨?_, fun hstopped => ?_, fun hterminated => ?_, fun earlier turn htranscript hran => ?_⟩
  · obtain hidle | ⟨-, hstopped | hterminated⟩ := htruthful.state
    · exact .inl hidle
    · exact .inr (.inl hstopped.1)
    · exact .inr (.inr hterminated.1)
  · obtain ⟨hloaded, ⟨-, hgoing⟩ | ⟨hstate, -⟩⟩ := htruthful.state.resolve_left (by simp [hstopped])
    · have hready := htruthful.ready hloaded
      refine ⟨hloaded, hready.program, hgoing, fun hframes => ?_⟩
      rw [hready.frames.1 hframes] at hgoing
      cases hgoing
    · rw [hstopped] at hstate
      cases hstate
  · obtain ⟨hloaded, ⟨hstate, -⟩ | ⟨-, hended⟩⟩ :=
      htruthful.state.resolve_left (by simp [hterminated])
    · rw [hterminated] at hstate
      cases hstate
    · have hready := htruthful.ready hloaded
      exact ⟨hloaded, hready.program, hended, hready.frames.2 hended⟩
  · cases h with
    | start => simp at htranscript
    | handle _ hhandle =>
      -- The last turn is the request that was handled last.
      obtain ⟨-, hturn⟩ := List.append_inj' htranscript rfl
      obtain rfl := List.singleton_inj.1 hturn
      exact state_ne_idle_of_ran hhandle hran

/-- A program that is stopped at its entry, fails in its second statement, and ends. -/
theorem events_of_fault : (do
      let first ← (start true).launch? (fun _ => .ok "\x7b\x7d[]();") 5
        ⟨1, "launch", .object [("stopOnEntry", .bool true)]⟩
      let second ← first.1.resume? 5 .oneStep
      let third ← second.1.resume? 5 .toEnd
      some ([first, second, third].map fun r => (r.1.state, r.2.answer.isSuccess, r.2.events))) =
    some [(.stopped, true, [.stopped .entry]),
      (.stopped, true, [.stopped (.exception (.notCallable .array))]),
      (.terminated, true, [.terminated])] := by
  decide +kernel

/-- The session of that program, after its second and after its third turn. -/
theorem exists_reached_fault : ∃ turns turn s s', Reached true turns s ∧
    Reached true (turns ++ [turn]) s' ∧ s.state = .stopped ∧ s'.state = .terminated ∧
    (turns ++ [turn]).map (fun turn => (turn.1.command, turn.2.answer.isSuccess, turn.2.events)) =
      [("launch", true, [.stopped .entry]),
        ("next", true, [.stopped (.exception (.notCallable .array))]),
        ("continue", true, [.terminated])] := by
  have hevents := events_of_fault
  obtain ⟨⟨s₁, r₁⟩, hfirst, hevents⟩ := Option.bind_eq_some_iff.1 hevents
  obtain ⟨⟨s₂, r₂⟩, hsecond, hevents⟩ := Option.bind_eq_some_iff.1 hevents
  obtain ⟨⟨s₃, r₃⟩, hthird, hevents⟩ := Option.bind_eq_some_iff.1 hevents
  -- The command decides what a request is, so that each of them is handled in this way.
  have hlaunch : (start true).handle? (fun _ => .ok "\x7b\x7d[]();") 5
      ⟨1, "launch", .object [("stopOnEntry", .bool true)]⟩ = some (s₁, r₁) := hfirst
  have hnext : s₁.handle? (fun _ => .error .notFound) 5 ⟨2, "next", .null⟩ = some (s₂, r₂) := hsecond
  have hcontinue : s₂.handle? (fun _ => .error .notFound) 5 ⟨3, "continue", .null⟩ =
      some (s₃, r₃) := hthird
  have h₂ := (Reached.start.handle hlaunch).handle hnext
  simp only [List.map_cons, List.map_nil, Option.some.injEq, List.cons.injEq, Prod.mk.injEq,
    and_true] at hevents
  obtain ⟨⟨-, hok₁, hevents₁⟩, ⟨hstate₂, hok₂, hevents₂⟩, hstate₃, hok₃, hevents₃⟩ := hevents
  refine ⟨_, _, s₂, s₃, h₂, h₂.handle hcontinue, hstate₂, hstate₃, ?_⟩
  simp [hok₁, hok₂, hok₃, hevents₁, hevents₂, hevents₃]

/-- After a fault the session is stopped, and its program still has a frame. -/
theorem Reached.state_truthful_fault : ∃ turns s, Reached true turns s ∧ s.state = .stopped ∧
    turns.length = 2 ∧ s.debuggee.machine.frames ≠ [] := by
  obtain ⟨turns, turn, s, s', h, -, hstate, -, hturns⟩ := exists_reached_fault
  obtain ⟨-, hstopped, -⟩ := h.state_truthful
  refine ⟨turns, s, h, hstate, ?_, (hstopped hstate).2.2.2⟩
  have hlength := congrArg List.length hturns
  simpa using hlength

end Session

end LWorkbench
