import LWorkbench.Proofs.Debugger.Turns
import Mathlib.Computability.RegularExpressions

/-!
# Events in the order of the protocol

What a session tells about the run of a program is a word: the program may stop at its entry, then
after any number of steps, then because of a fault, and from then on it only ends. The word grows by
one letter with every turn in which the program runs, and by none with any other turn. As long as the
run has not ended, the word has only stops at the entry and after steps; once it has ended, every
further turn finds it ended.

## Main definitions

* `Signal`, `Event.signal?` — what an event says about the run
* `Signal.protocol` — the words that a run may give
* `Session.InRun` — what the turns since a program was started say about the session

## Main results

* `Session.InRun.handle` — one more turn of a run
* `Session.Reached.events_follow_protocol` — the events of any transcript
-/

namespace LWorkbench

/-- What an event says about the run of a program. -/
inductive Signal where
  | entry
  | step
  | exception
  | terminated
  deriving DecidableEq, Repr

/-- What an event says about the run, if it says something. -/
def Event.signal? : Event → Option Signal
  | stopped .entry => some .entry
  | stopped .step => some .step
  | stopped (.exception _) => some .exception
  | terminated => some .terminated
  | initialized => none
  | output _ => none

/-- The event tells a fault. -/
def Event.tellsFault : Event → Bool
  | stopped (.exception _) => true
  | output _ => true
  | _ => false

/-- What a turn says about the run. -/
def Turn.signals (turn : Turn) : List Signal := turn.2.events.filterMap Event.signal?

namespace Transcript

/-- What the turns say about the run, in order. -/
def signals (transcript : Transcript) : List Signal := transcript.flatMap Turn.signals

/-- The events of the turns in order. -/
def events (transcript : Transcript) : List Event := transcript.flatMap fun turn => turn.2.events

theorem signals_concat (transcript : Transcript) (turn : Turn) :
    signals (transcript ++ [turn]) = transcript.signals ++ turn.signals := by
  rw [signals, List.flatMap_append, List.flatMap_singleton, signals]

theorem events_concat (transcript : Transcript) (turn : Turn) :
    events (transcript ++ [turn]) = transcript.events ++ turn.2.events := by
  rw [events, List.flatMap_append, List.flatMap_singleton, events]

end Transcript

/-! ### Words -/

namespace Signal

open RegularExpression (char star)

variable {word : List Signal}

/-- The words of a run that has not ended. -/
def goingProtocol : RegularExpression Signal :=
  (1 + char entry) * star (char step)

/-- The words of a run. -/
def protocol : RegularExpression Signal :=
  goingProtocol * (1 + char exception) * star (char terminated)

theorem nil_mem_optional (signal : Signal) : [] ∈ (1 + char signal).matches' :=
  .inl rfl

theorem mem_optional (signal : Signal) : [signal] ∈ (1 + char signal).matches' :=
  .inr rfl

/-- One more letter can be added to any number of them. -/
theorem concat_mem_star {signal : Signal} (h : word ∈ (star (char signal)).matches') :
    word ++ [signal] ∈ (star (char signal)).matches' := by
  have hletter : [signal] ∈ (char signal).matches' := rfl
  rw [RegularExpression.matches'_star] at h ⊢
  rw [← Language.one_add_kstar_mul_self_eq_kstar]
  exact .inr (Language.append_mem_mul h hletter)

theorem nil_mem_going : [] ∈ goingProtocol.matches' :=
  Language.append_mem_mul (nil_mem_optional entry) (Language.nil_mem_kstar _)

theorem entry_mem_going : [entry] ∈ goingProtocol.matches' :=
  Language.append_mem_mul (mem_optional entry) (Language.nil_mem_kstar _)

theorem step_mem_going (h : word ∈ goingProtocol.matches') :
    word ++ [step] ∈ goingProtocol.matches' := by
  obtain ⟨front, hfront, steps, hsteps, rfl⟩ := Language.mem_mul.1 h
  rw [List.append_assoc]
  exact Language.append_mem_mul hfront (concat_mem_star hsteps)

theorem mem_protocol_of_going (h : word ∈ goingProtocol.matches') : word ∈ protocol.matches' := by
  have hword : word ++ [] ++ [] ∈ protocol.matches' :=
    Language.append_mem_mul (Language.append_mem_mul h (nil_mem_optional exception))
      (Language.nil_mem_kstar _)
  rwa [List.append_nil, List.append_nil] at hword

theorem exception_mem_protocol (h : word ∈ goingProtocol.matches') :
    word ++ [exception] ∈ protocol.matches' := by
  have hword : word ++ [exception] ++ [] ∈ protocol.matches' :=
    Language.append_mem_mul (Language.append_mem_mul h (mem_optional exception))
      (Language.nil_mem_kstar _)
  rwa [List.append_nil] at hword

theorem terminated_mem_protocol (h : word ∈ protocol.matches') :
    word ++ [terminated] ∈ protocol.matches' := by
  obtain ⟨front, hfront, ends, hends, rfl⟩ := Language.mem_mul.1 h
  rw [List.append_assoc]
  exact Language.append_mem_mul hfront (concat_mem_star hends)

end Signal

/-! ### One turn -/

/-- A request to start a program is none to go on with one. -/
theorem Request.resumeMode?_of_launches {request : Request} (h : request.launches = true) :
    request.resumeMode? = none := by
  have hcommand : request.command = "launch" ∨ request.command = "attach" := by
    simpa [launches] using h
  obtain hcommand | hcommand := hcommand <;> simp [resumeMode?, hcommand]

/-- What an outcome says about the run, where a pause is told with the given signal. -/
def StepOutcome.signal (pause : Signal) : StepOutcome → Signal
  | paused => pause
  | finished => .terminated
  | failed _ => .exception

namespace Session

variable {s s' : Session} {request : Request} {reply : Reply} {outcome : StepOutcome} {fuel : Nat}
  {read : String → Except ReadError String}

theorem signal?_event {reason : StopReason} {pause : Signal}
    (hreason : (Event.stopped reason).signal? = some pause) (outcome : StepOutcome) :
    (outcome.event reason).signal? = some (outcome.signal pause) := by
  cases outcome with
  | paused => exact hreason
  | finished => rfl
  | failed fault => rfl

/-- What is told about a start is one signal, whatever is output in front. -/
theorem signals_of_started {noDebug : Bool} {fault : Option Fault}
    (hevents : reply.events =
      (if noDebug then (fault.map (Fault.event true)).toList else []) ++ [outcome.event .entry]) :
    Turn.signals (request, reply) = [outcome.signal .entry] := by
  have hfront : (if noDebug then (fault.map (Fault.event true)).toList else []).filterMap
      Event.signal? = [] := by
    cases noDebug with
    | false => rfl
    | true => cases fault <;> rfl
  rw [Turn.signals, hevents, List.filterMap_append, hfront, List.nil_append,
    List.filterMap_cons_some (signal?_event rfl outcome), List.filterMap_nil]

theorem signals_of_resumed (hevents : reply.events = [outcome.event .step]) :
    Turn.signals (request, reply) = [outcome.signal .step] := by
  rw [Turn.signals, hevents, List.filterMap_cons_some (signal?_event rfl outcome),
    List.filterMap_nil]

theorem signals_of_aside (hevents : ∀ event ∈ reply.events, event = .initialized) :
    Turn.signals (request, reply) = [] := by
  refine List.filterMap_eq_nil_iff.2 fun event hevent => ?_
  rw [hevents event hevent]
  rfl

/-- A turn in which the program ran gives one signal, all others give none, and running to the end
gives no stop at the entry or after a step. -/
theorem Truthful.signals_of_handle (h : s.Truthful)
    (hhandle : s.handle? read fuel request = some (s', reply)) :
    (Turn.ran (request, reply) = true → ∃ signal, Turn.signals (request, reply) = [signal]) ∧
    (Turn.ran (request, reply) = false → Turn.signals (request, reply) = []) ∧
    (request.resumeMode? = some .toEnd →
      .entry ∉ Turn.signals (request, reply) ∧ .step ∉ Turn.signals (request, reply)) := by
  cases outcome_of_handle hhandle with
  | aside hruns _ _ _ hevents =>
    have hran : Turn.ran (request, reply) = false := Bool.and_eq_false_iff.2 hruns
    rw [signals_of_aside hevents, hran]
    refine ⟨fun htrue => ?_, fun _ => rfl, fun _ => ⟨List.not_mem_nil, List.not_mem_nil⟩⟩
    cases htrue
  | notStarted _ hfails _ _ hevents =>
    have hran : Turn.ran (request, reply) = false := Bool.and_eq_false_iff.2 (.inr hfails)
    rw [Turn.signals, hevents, hran]
    refine ⟨fun htrue => ?_, fun _ => rfl, fun _ => ⟨List.not_mem_nil, List.not_mem_nil⟩⟩
    cases htrue
  | started arguments outcome hlaunches _ hsuccess _ _ _ _ _ _ hevents =>
    have hran : Turn.ran (request, reply) = true := by
      rw [Turn.ran, Request.runs, hlaunches, hsuccess]
      rfl
    rw [signals_of_started hevents, hran, Request.resumeMode?_of_launches hlaunches]
    refine ⟨fun _ => ⟨_, rfl⟩, fun hfalse => ?_, fun htoEnd => ?_⟩
    · cases hfalse
    · cases htoEnd
  | resumed mode outcome hmode hsuccess _ hwas _ _ hpaused hevents =>
    have hran : Turn.ran (request, reply) = true := by
      rw [Turn.ran, Request.runs, hmode, hsuccess, Option.isSome_some, Bool.or_true]
      rfl
    rw [signals_of_resumed hevents, hran, hmode]
    refine ⟨fun _ => ⟨_, rfl⟩, fun hfalse => absurd hfalse.symm Bool.false_ne_true,
      fun htoEnd => ?_⟩
    have hne := hpaused (Option.some.inj htoEnd) (h.ready hwas)
    cases outcome with
    | paused => exact absurd rfl hne
    | finished => exact ⟨by decide, by decide⟩
    | failed fault => exact ⟨by simp [StepOutcome.signal], by simp [StepOutcome.signal]⟩

/-! ### The turns of a run -/

/-- What the turns since a program was started say about the session. -/
structure InRun (noDebug : Bool) (run : Transcript) (s : Session) : Prop where
  loaded : s.debuggee.loaded.isSome = true
  ready : s.debuggee.machine.Ready
  word : run.signals ∈ Signal.protocol.matches'
  /-- Without an end there were only stops at the entry and after steps. -/
  going : ¬ s.debuggee.machine.Ended → run.signals ∈ Signal.goingProtocol.matches'
  ended : .exception ∈ run.signals ∨ .terminated ∈ run.signals → s.debuggee.machine.Ended
  /-- Without debugging a start runs to the end. -/
  quiet : noDebug = true → s.debuggee.machine.Ended
  /-- The fault that the machine remembers was told once. -/
  faults : run.events.filter Event.tellsFault =
    (s.debuggee.machine.fault.map (Fault.event noDebug)).toList
  /-- From the end on, every turn in which the program ran says that it has ended. -/
  after : ∀ (earlier : Transcript) turn later, run = earlier ++ turn :: later → turn.ran = true →
    .exception ∈ earlier.signals ∨ .terminated ∈ earlier.signals → turn.signals = [.terminated]

theorem ended_of_leftBy {m : Machine} (h : m.LeftBy outcome) (hne : outcome ≠ .paused) :
    m.Ended := by
  cases outcome with
  | paused => exact absurd rfl hne
  | finished => exact .inl h
  | failed fault =>
    right
    rw [h.2]
    rfl

/-- A word that may stop stays a word of the protocol with whatever comes next. -/
theorem mem_protocol_of_outcome {word : List Signal} {pause : Signal}
    (hword : word ∈ Signal.goingProtocol.matches')
    (hpause : word ++ [pause] ∈ Signal.goingProtocol.matches') (outcome : StepOutcome) :
    word ++ [outcome.signal pause] ∈ Signal.protocol.matches' := by
  cases outcome with
  | paused => exact Signal.mem_protocol_of_going hpause
  | finished => exact Signal.terminated_mem_protocol (Signal.mem_protocol_of_going hword)
  | failed fault => exact Signal.exception_mem_protocol hword

/-- The event of an outcome tells the fault that the outcome reports. -/
theorem filter_tellsFault_event {reason : StopReason} (outcome : StepOutcome)
    (hreason : (Event.stopped reason).tellsFault = false) :
    [outcome.event reason].filter Event.tellsFault =
      (outcome.fault?.map (Fault.event false)).toList := by
  cases outcome with
  | paused => simp [StepOutcome.event, StepOutcome.fault?, hreason]
  | finished => rfl
  | failed fault => rfl

/-- A start begins a run. -/
theorem inRun_of_started {noDebug : Bool} (hloaded : s'.debuggee.loaded.isSome = true)
    (hready : s'.debuggee.machine.Ready) (hleft : s'.debuggee.machine.LeftBy outcome)
    (hquiet : noDebug = true → outcome = .finished)
    (hfault : outcome.fault? = if noDebug then none else s'.debuggee.machine.fault)
    (hevents : reply.events = (if noDebug then
      (s'.debuggee.machine.fault.map (Fault.event true)).toList else []) ++
        [outcome.event .entry]) :
    InRun noDebug [(request, reply)] s' := by
  have hsignals : Transcript.signals [(request, reply)] = [outcome.signal .entry] := by
    rw [Transcript.signals, List.flatMap_singleton, signals_of_started hevents]
  have hpaused : ¬ s'.debuggee.machine.Ended → outcome = .paused := fun hgoing =>
    not_not.1 fun hne => hgoing (ended_of_leftBy hleft hne)
  refine ⟨hloaded, hready, ?_, fun hgoing => ?_, fun hends => ?_, fun hnoDebug => ?_, ?_, ?_⟩
  · rw [hsignals]
    exact mem_protocol_of_outcome Signal.nil_mem_going Signal.entry_mem_going outcome
  · rw [hsignals, hpaused hgoing]
    exact Signal.entry_mem_going
  · refine ended_of_leftBy hleft fun hstop => ?_
    rw [hsignals, hstop] at hends
    exact absurd hends (by decide)
  · exact ended_of_leftBy hleft (by rw [hquiet hnoDebug]; nofun)
  · rw [Transcript.events, List.flatMap_singleton]
    dsimp only
    rw [hevents, List.filter_append, filter_tellsFault_event outcome rfl, hfault]
    cases noDebug with
    | false => rfl
    | true => cases s'.debuggee.machine.fault <;> rfl
  · intro earlier turn later hrun _ hends
    -- Nothing was said before the first turn.
    obtain ⟨rfl, -⟩ : earlier = [] ∧ _ := by simpa using List.append_eq_singleton_iff.1 hrun.symm
    exact absurd hends (by decide)

/-- The last turn of a transcript that is split is the turn at the split, or it comes later. -/
theorem split_concat {run earlier later : Transcript} {last turn : Turn}
    (h : run ++ [last] = earlier ++ turn :: later) :
    (earlier = run ∧ turn = last ∧ later = []) ∨
      ∃ later', later = later' ++ [last] ∧ run = earlier ++ turn :: later' := by
  obtain rfl | ⟨later', final, rfl⟩ := later.eq_nil_or_concat
  · obtain ⟨hrun, hlast⟩ := List.append_inj' h rfl
    exact .inl ⟨hrun.symm, (List.singleton_inj.1 hlast).symm, rfl⟩
  · rw [List.concat_eq_append, ← List.cons_append, ← List.append_assoc] at h
    obtain ⟨hrun, hlast⟩ := List.append_inj' h rfl
    exact .inr ⟨later', by rw [List.concat_eq_append, List.singleton_inj.1 hlast], hrun⟩

/-- A turn that says no more than that the run has ended keeps what is said from the end on. -/
theorem InRun.after_concat {noDebug : Bool} {run : Transcript} (h : InRun noDebug run s)
    (last : Turn) (hlast : last.ran = true → s.debuggee.machine.Ended →
      last.signals = [.terminated]) (earlier : Transcript) (turn : Turn) (later : Transcript)
    (hsplit : run ++ [last] = earlier ++ turn :: later) (hran : turn.ran = true)
    (hends : .exception ∈ earlier.signals ∨ .terminated ∈ earlier.signals) :
    turn.signals = [.terminated] := by
  obtain ⟨rfl, rfl, -⟩ | ⟨later', -, hrun⟩ := split_concat hsplit
  · exact hlast hran (h.ended hends)
  · exact h.after earlier turn later' hrun hran hends

/-- A turn of the run goes on with it. -/
theorem InRun.resume {noDebug : Bool} {run : Transcript} (h : InRun noDebug run s)
    (hloaded : s'.debuggee.loaded = s.debuggee.loaded)
    (hadvance : s.debuggee.machine.Advance s'.debuggee.machine outcome)
    (hevents : reply.events = [outcome.event .step]) :
    InRun noDebug (run ++ [(request, reply)]) s' := by
  have hloaded' : s'.debuggee.loaded.isSome = true := hloaded ▸ h.loaded
  have hsignals : Transcript.signals (run ++ [(request, reply)]) =
      run.signals ++ [outcome.signal .step] := by
    rw [Transcript.signals_concat, signals_of_resumed hevents]
  have hfilter : (Transcript.events (run ++ [(request, reply)])).filter Event.tellsFault =
      (s.debuggee.machine.fault.map (Fault.event noDebug)).toList ++
        (outcome.fault?.map (Fault.event false)).toList := by
    rw [Transcript.events_concat, List.filter_append, h.faults, hevents,
      filter_tellsFault_event outcome rfl]
  have hafter := h.after_concat (request, reply) fun _ hended => by
    rw [signals_of_resumed hevents, (hadvance.ended hended).1]
    rfl
  by_cases hended : s.debuggee.machine.Ended
  · obtain ⟨rfl, hfault⟩ := hadvance.ended hended
    have hended' : s'.debuggee.machine.Ended := .inl hadvance.left
    refine ⟨hloaded', hadvance.ready, ?_, fun hgoing => absurd hended' hgoing, fun _ => hended',
      fun _ => hended', ?_, hafter⟩
    · rw [hsignals]
      exact Signal.terminated_mem_protocol h.word
    · rw [hfilter, hfault]
      exact List.append_nil _
  · have hword := h.going hended
    have hnone : s.debuggee.machine.fault = none :=
      Option.not_isSome_iff_eq_none.1 fun hfault => hended (.inr hfault)
    -- With `noDebug` the run would have ended at its start.
    have hdebug : noDebug = false := Bool.eq_false_iff.2 fun hquiet => hended (h.quiet hquiet)
    refine ⟨hloaded', hadvance.ready, ?_, fun hgoing => ?_, fun hends => ?_, ?_, ?_, hafter⟩
    · rw [hsignals]
      exact mem_protocol_of_outcome hword (Signal.step_mem_going hword) outcome
    · have hpaused : outcome = .paused :=
        not_not.1 fun hne => hgoing (ended_of_leftBy hadvance.left hne)
      rw [hsignals, hpaused]
      exact Signal.step_mem_going hword
    · refine ended_of_leftBy hadvance.left fun hpaused => hended (h.ended ?_)
      rw [hsignals, hpaused] at hends
      simpa [StepOutcome.signal] using hends
    · rw [hdebug]
      nofun
    · rw [hfilter, hnone, hadvance.going hended, hdebug]
      rfl

/-- A turn that says nothing about the run and leaves it alone. -/
theorem InRun.idle {noDebug : Bool} {run : Transcript} (h : InRun noDebug run s)
    (hmachine : s'.debuggee.machine = s.debuggee.machine)
    (hloaded : s'.debuggee.loaded = s.debuggee.loaded)
    (hran : Turn.ran (request, reply) = false)
    (hevents : ∀ event ∈ reply.events, event = .initialized) :
    InRun noDebug (run ++ [(request, reply)]) s' := by
  have hsignals : Transcript.signals (run ++ [(request, reply)]) = run.signals := by
    rw [Transcript.signals_concat, signals_of_aside hevents, List.append_nil]
  have hnone : reply.events.filter Event.tellsFault = [] := by
    refine List.filter_eq_nil_iff.2 fun event hevent => ?_
    rw [hevents event hevent]
    exact Bool.false_ne_true
  have hafter := h.after_concat (request, reply) fun hruns _ => by
    rw [hran] at hruns
    cases hruns
  refine ⟨hloaded ▸ h.loaded, hmachine ▸ h.ready, ?_, ?_, ?_, ?_, ?_, hafter⟩
  · rw [hsignals]
    exact h.word
  · rw [hsignals, hmachine]
    exact h.going
  · rw [hsignals, hmachine]
    exact h.ended
  · rw [hmachine]
    exact h.quiet
  · rw [Transcript.events_concat, List.filter_append, hnone, List.append_nil, hmachine]
    exact h.faults

/-- One more turn of a run, which starts no other program. -/
theorem InRun.handle {noDebug : Bool} {run : Transcript} (h : InRun noDebug run s)
    (hhandle : s.handle? read fuel request = some (s', reply))
    (hstarts : Turn.starts (request, reply) = false) :
    InRun noDebug (run ++ [(request, reply)]) s' := by
  cases outcome_of_handle hhandle with
  | aside hruns _ hmachine hloaded hevents =>
    exact h.idle hmachine hloaded (Bool.and_eq_false_iff.2 hruns) hevents
  | notStarted _ hfails _ hdebuggee hevents =>
    refine h.idle (by rw [hdebuggee]) (by rw [hdebuggee]) (Bool.and_eq_false_iff.2 (.inr hfails)) ?_
    rw [hevents]
    nofun
  | started _ _ hlaunches _ hsuccess =>
    rw [Turn.starts, hlaunches, hsuccess] at hstarts
    cases hstarts
  | resumed _ _ _ _ _ _ hloaded hadvance _ hevents =>
    exact h.resume hloaded (hadvance h.ready) hevents

/-! ### Whole transcripts -/

/-- The turns since the last start are a run of the program that was started. -/
theorem Reached.inRun {configured : Bool} {transcript : Transcript}
    (h : Reached configured transcript s) {before : Transcript} {start : Turn} {since : Transcript}
    (hsplit : transcript = before ++ start :: since) (hstart : start.starts = true)
    (hsince : ∀ turn ∈ since, turn.starts = false) :
    ∃ arguments, start.1.launchArguments? = some arguments ∧
      InRun arguments.noDebug (start :: since) s := by
  induction h generalizing since with
  | start => simp at hsplit
  | handle _ hhandle ih =>
    -- The last turn is the start itself, or it goes on with the run.
    obtain ⟨-, rfl, rfl⟩ | ⟨earlier, rfl, hearlier⟩ := split_concat hsplit
    · obtain ⟨hlaunches, hsuccess⟩ := Bool.and_eq_true_iff.1 hstart
      cases outcome_of_handle hhandle with
      | aside hruns =>
        simp [Request.runs, hlaunches, hsuccess] at hruns
      | notStarted _ hfails =>
        rw [hfails] at hsuccess
        cases hsuccess
      | started arguments outcome _ harguments _ _ hloaded hready hleft hquiet hfault hevents =>
        exact ⟨arguments, harguments,
          inRun_of_started hloaded hready hleft hquiet hfault hevents⟩
      | resumed _ _ hmode =>
        rw [Request.resumeMode?_of_launches hlaunches] at hmode
        cases hmode
    · obtain ⟨arguments, harguments, hrun⟩ :=
        ih hearlier fun turn hturn => hsince turn (List.mem_append_left _ hturn)
      exact ⟨arguments, harguments,
        hrun.handle hhandle (hsince _ (List.mem_append_right _ (List.mem_singleton_self _)))⟩

/-- A transcript that was reached goes through all its beginnings. -/
theorem Reached.of_append {configured : Bool} {transcript rest : Transcript}
    (h : Reached configured (transcript ++ rest) s) :
    ∃ s', Reached configured transcript s' ∧ (rest = [] → s' = s) := by
  induction rest using List.reverseRecOn generalizing s with
  | nil =>
    rw [List.append_nil] at h
    exact ⟨s, h, fun _ => rfl⟩
  | append_singleton rest turn ih =>
    rw [← List.append_assoc] at h
    generalize hwhole : transcript ++ rest ++ [turn] = whole at h
    cases h with
    | start => simp at hwhole
    | handle hearlier _ =>
      obtain ⟨rfl, -⟩ := List.append_inj' hwhole rfl
      obtain ⟨s', hreached, -⟩ := ih hearlier
      exact ⟨s', hreached, fun hnil => absurd hnil (by simp)⟩

/-- Every turn of a transcript handles a request in a session that tells the truth. -/
theorem Reached.handle_of_mem {configured : Bool} {transcript : Transcript}
    (h : Reached configured transcript s) {turn : Turn} (hturn : turn ∈ transcript) :
    ∃ earlier later read fuel, Truthful earlier ∧
      earlier.handle? read fuel turn.1 = some (later, turn.2) := by
  induction h with
  | start => cases hturn
  | handle hearlier hhandle ih =>
    obtain hturn | hturn := List.mem_append.1 hturn
    · exact ih hturn
    · obtain rfl := List.mem_singleton.1 hturn
      exact ⟨_, _, _, _, hearlier.truthful, hhandle⟩

/-- The events follow the protocol. From the start of a program up to the next start, what the turns
say is a word of the protocol; once it says that the run has ended, every turn in which the program
runs says no more than that; and the fault that the machine remembers, if any, is told once. Each
turn in which the program ran says one thing about it, and going on to the end says neither that the
program is at its entry nor that it has made a step. All other turns say nothing. -/
theorem Reached.events_follow_protocol {configured : Bool} {transcript : Transcript}
    (h : Reached configured transcript s) :
    (∀ before start since rest, transcript = before ++ start :: since ++ rest →
      start.starts = true → (∀ turn ∈ since, turn.starts = false) →
      Transcript.signals (start :: since) ∈ Signal.protocol.matches' ∧
      (∀ earlier turn later, start :: since = earlier ++ turn :: later → turn.ran = true →
        .exception ∈ Transcript.signals earlier ∨ .terminated ∈ Transcript.signals earlier →
        turn.signals = [.terminated]) ∧
      ∃ arguments fault, start.1.launchArguments? = some arguments ∧
        (Transcript.events (start :: since)).filter Event.tellsFault =
          (fault.map (Fault.event arguments.noDebug)).toList ∧
        (rest = [] → fault = s.debuggee.machine.fault)) ∧
    ∀ turn ∈ transcript,
      (turn.ran = true → ∃ signal, turn.signals = [signal]) ∧
      (turn.ran = false → turn.signals = []) ∧
      (turn.1.command = "continue" → .entry ∉ turn.signals ∧ .step ∉ turn.signals) := by
  refine ⟨fun before start since rest hsplit hstart hsince => ?_, fun turn hturn => ?_⟩
  · rw [hsplit] at h
    obtain ⟨s', hreached, hs⟩ := h.of_append
    obtain ⟨arguments, harguments, hrun⟩ := hreached.inRun rfl hstart hsince
    refine ⟨hrun.word, hrun.after, arguments, s'.debuggee.machine.fault, harguments, hrun.faults,
      fun hrest => ?_⟩
    rw [hs hrest]
  · obtain ⟨earlier, later, read, fuel, htruthful, hhandle⟩ := h.handle_of_mem hturn
    obtain ⟨hran, hnot, htoEnd⟩ := htruthful.signals_of_handle hhandle
    exact ⟨hran, hnot, fun hcommand => htoEnd (by simp [Request.resumeMode?, hcommand])⟩

/-- A program that stops at its entry, fails after that, and ends: its fault is told by its second
turn, and by no other. -/
theorem Reached.events_follow_protocol_fault : ∃ turns s, Reached true turns s ∧
    Transcript.signals turns = [.entry, .exception, .terminated] ∧
    Transcript.signals turns ∈ Signal.protocol.matches' ∧
    (Transcript.events turns).filter Event.tellsFault =
      [.stopped (.exception (.notCallable .array))] := by
  obtain ⟨turns, turn, -, s, -, h, -, -, hturns⟩ := exists_reached_fault
  generalize turns ++ [turn] = whole at h hturns
  obtain ⟨first, second, third, rfl⟩ := List.length_eq_three.1
    (by simpa using congrArg List.length hturns)
  simp only [List.map_cons, List.map_nil, List.cons.injEq, Prod.mk.injEq, and_true] at hturns
  obtain ⟨⟨hlaunch, hok, hevents₁⟩, ⟨hnext, -, hevents₂⟩, hcontinue, -, hevents₃⟩ := hturns
  have hstart : first.starts = true := by simp [Turn.starts, Request.launches, hlaunch, hok]
  have hsince : ∀ turn ∈ [second, third], turn.starts = false := by
    simp [Turn.starts, Request.launches, hnext, hcontinue]
  obtain ⟨hword, -, -⟩ := h.events_follow_protocol.1 [] first [second, third] [] rfl hstart hsince
  refine ⟨_, s, h, ?_, hword, ?_⟩
  · simp [Transcript.signals, Turn.signals, hevents₁, hevents₂, hevents₃, Event.signal?]
  · simp only [Transcript.events, List.flatMap_cons, List.flatMap_nil, hevents₁, hevents₂, hevents₃]
    rfl

end Session

end LWorkbench
