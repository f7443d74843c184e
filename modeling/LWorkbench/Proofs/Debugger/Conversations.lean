import LWorkbench.Proofs.Debugger.Turns
import Mathlib.Data.List.Induction

/-!
# Conversations

A client sends one request after another. Each finds the files that there are then, and may take a
number of steps. These calls determine the turns of a session and the session that they lead to, so
two conversations can be compared turn by turn.

A program that runs sees nothing of its debuggee but the machine, and it leaves everything else
alone. Giving a request more steps does not change its answer.

## Main definitions

* `Command`, `Request.kind` — what a request asks for
* `Call` — a request with the files it finds and the steps it may take
* `Session.handleAll?` — the turns of a session that handles calls in order
* `Session.Course` — what a turn does to the debuggee
* `Session.Twins` — sessions that differ at most in where they stand and in their gates

## Main results

* `Session.reply?_eq_obey?` — a request is answered by what it asks for
* `Session.firstRun?_eq_map`, `Debuggee.goOn?_eq_map` — a run sees and changes only the machine
* `Session.launch?_of_ok`, `Session.resume?_of_loaded`, … — what a start and going on come to
* `Session.reply?_mono` — more steps change no answer
* `Session.course_of_handle` — every turn has one of five courses
* `Session.Twins.handleAll?` — answers depend neither on where the session stands nor on its gate
* `Session.reached_iff` — the sessions that are reached are those of conversations
-/

namespace LWorkbench

/-! ### Commands -/

/-- What a request asks for. Two names stand for a start and two for a step. -/
inductive Command where
  | configure
  | launch
  | configured
  | threads
  | stackTrace
  | scopes
  | expand
  | resume (mode : ResumeMode)
  | disconnect
  | unknown
  deriving DecidableEq

namespace Request

variable {request : Request}

/-- What the request asks for. -/
def kind (request : Request) : Command :=
  match request.command with
  | "initialize" => .configure
  | "launch" => .launch
  | "attach" => .launch
  | "configurationDone" => .configured
  | "threads" => .threads
  | "stackTrace" => .stackTrace
  | "scopes" => .scopes
  | "variables" => .expand
  | "continue" => .resume .toEnd
  | "next" => .resume .oneStep
  | "stepIn" => .resume .oneStep
  | "disconnect" => .disconnect
  | _ => .unknown

theorem launches_iff : request.launches = true ↔ request.kind = .launch := by
  unfold launches kind
  split <;> simp_all

end Request

/-- What a client is told about going on. -/
def ResumeMode.body? : ResumeMode → Option Body
  | toEnd => some .continued
  | oneStep => none

/-- Goes on with the program that is loaded; none if `fuel` steps are not enough. -/
def Debuggee.goOn? (d : Debuggee) (fuel : Nat) : ResumeMode → Option (Debuggee × StepOutcome)
  | .toEnd => d.runFor fuel
  | .oneStep => some d.step

namespace Session

variable {s s' t : Session} {request : Request} {reply : Reply} {fuel more : Nat}
  {read : String → Except ReadError String}

/-- The answer to a request that asks for the given thing. -/
def obey? (read : String → Except ReadError String) (fuel : Nat) (s : Session)
    (request : Request) : Command → Option (Session × Reply)
  | .configure => some (s.configure request)
  | .launch => s.launch? read fuel request
  | .configured => some (s, .success none [])
  | .threads => some (s, .success (some .threads) [])
  | .stackTrace => some (s.stackTrace request)
  | .scopes => some (s.scopes request)
  | .expand => some (s.expand request)
  | .resume mode => s.resume? fuel mode
  | .disconnect => some ({ s with disconnected := true }, .success none [])
  | .unknown => some (s, .refusal s!"unrecognized request '{request.command}'")

/-- A request is answered by what it asks for. -/
theorem reply?_eq_obey? (read : String → Except ReadError String) (fuel : Nat) (s : Session)
    (request : Request) :
    s.reply? read fuel request = s.obey? read fuel request request.kind := by
  unfold reply? Request.kind
  split <;> simp_all [obey?]

theorem notice_of_kind_ne (h : request.kind ≠ .configured) : s.notice request = s := by
  have hcommand : request.command ≠ "configurationDone" := by
    intro hcommand
    apply h
    rw [Request.kind, hcommand]
    rfl
  exact if_neg (by simpa using hcommand)

theorem handle?_eq_obey? (h : request.kind ≠ .configured) :
    s.handle? read fuel request = s.obey? read fuel request request.kind := by
  rw [handle?, notice_of_kind_ne h, reply?_eq_obey?]

/-! ### Starting and going on -/

theorem launch?_of_none (h : request.launchArguments? = none) :
    s.launch? read fuel request = some (s, .badArguments request) := by
  rw [launch?, h]

theorem launch?_of_error {arguments : LaunchArguments} {e : ErrorMessage}
    (harguments : request.launchArguments? = some arguments)
    (hfetch : fetch read arguments = .error e) :
    s.launch? read fuel request =
      some ({ s with state := .idle }, ⟨.error e, [], !s.configured⟩) := by
  rw [launch?, harguments]
  dsimp only
  rw [hfetch]

theorem launch?_of_ok {arguments : LaunchArguments} {source : SourceFile} {p : Program}
    (harguments : request.launchArguments? = some arguments)
    (hfetch : fetch read arguments = .ok (source, p)) :
    s.launch? read fuel request =
      (firstRun? fuel arguments (s.debuggee.load source p)).map fun r =>
        ({ s with debuggee := r.1, state := r.2.1.state },
          ⟨.success none, r.2.2 ++ [r.2.1.event .entry], !s.configured⟩) := by
  rw [launch?, harguments]
  dsimp only
  rw [hfetch]
  simp only [report_eq]

theorem resume?_of_none {mode : ResumeMode} (h : s.debuggee.loaded = none) :
    s.resume? fuel mode = some (s, .refusal "no program is running") := by
  unfold resume?
  rw [h]
  rfl

theorem resume?_of_loaded {mode : ResumeMode} (h : s.debuggee.loaded.isSome = true) :
    s.resume? fuel mode = (s.debuggee.goOn? fuel mode).map fun r =>
      ({ s with debuggee := r.1, state := r.2.state }, .success mode.body? [r.2.event .step]) := by
  have hloaded : ¬ s.debuggee.loaded.isNone = true := by
    rw [Option.isNone_iff_eq_none, ← Option.not_isSome_iff_eq_none, h]
    exact not_not_intro rfl
  unfold resume?
  rw [if_neg hloaded]
  simp only [report_eq]
  cases mode <;> rfl

/-! ### Running sees only the machine -/

/-- The first run of a program sees and changes only the machine. -/
theorem firstRun?_eq_map {arguments : LaunchArguments} {d e : Debuggee}
    (h : d.machine = e.machine) :
    firstRun? fuel arguments d =
      (firstRun? fuel arguments e).map fun r => ({ d with machine := r.1.machine }, r.2) := by
  -- Both sides ask the same machine, so only what is done with its answer is left to compare.
  unfold firstRun? Debuggee.runFor Debuggee.step
  rw [h]
  split
  · cases e.machine.runFor fuel with
    | none => rfl
    | some first =>
      obtain ⟨m, outcome⟩ := first
      cases outcome with
      | failed fault =>
        dsimp only [Option.map_some]
        cases m.runFor fuel <;> rfl
      | paused => rfl
      | finished => rfl
  · split
    · rfl
    · cases e.machine.runFor fuel <;> rfl

/-- The first run leaves everything but the machine as it is. -/
theorem eq_of_firstRun? {arguments : LaunchArguments} {d : Debuggee}
    {r : Debuggee × StepOutcome × List Event} (h : firstRun? fuel arguments d = some r) :
    r.1 = { d with machine := r.1.machine } := by
  rw [firstRun?_eq_map (e := d) rfl] at h
  obtain ⟨r', -, rfl⟩ := Option.map_eq_some_iff.1 h
  rfl

end Session

/-- Going on sees and changes only the machine. -/
theorem Debuggee.goOn?_eq_map {fuel : Nat} {mode : ResumeMode} {d e : Debuggee}
    (h : d.machine = e.machine) :
    d.goOn? fuel mode =
      (e.goOn? fuel mode).map fun r => ({ d with machine := r.1.machine }, r.2) := by
  cases mode with
  | toEnd =>
    simp only [goOn?, runFor, h, Option.map_map]
    rfl
  | oneStep =>
    simp only [goOn?, step, h, Option.map_some]

/-- Going on leaves everything but the machine as it is. -/
theorem Debuggee.eq_of_goOn? {fuel : Nat} {mode : ResumeMode} {d : Debuggee}
    {r : Debuggee × StepOutcome} (h : d.goOn? fuel mode = some r) :
    r.1 = { d with machine := r.1.machine } := by
  rw [goOn?_eq_map (e := d) rfl] at h
  obtain ⟨r', -, rfl⟩ := Option.map_eq_some_iff.1 h
  rfl

/-! ### More steps -/

theorem Machine.runFor_mono {m : Machine} {fuel more : Nat} {r : Machine × StepOutcome}
    (h : m.runFor fuel = some r) (hle : fuel ≤ more) : m.runFor more = some r := by
  induction fuel generalizing m more with
  | zero => cases h
  | succ fuel ih =>
    obtain ⟨more, rfl⟩ := Nat.exists_eq_succ_of_ne_zero (Nat.ne_of_gt (Nat.lt_of_lt_of_le
      fuel.succ_pos hle))
    rw [runFor] at h ⊢
    split at h
    · exact ih h (Nat.le_of_succ_le_succ hle)
    · exact h

theorem Debuggee.runFor_mono {d : Debuggee} {fuel more : Nat} {r : Debuggee × StepOutcome}
    (h : d.runFor fuel = some r) (hle : fuel ≤ more) : d.runFor more = some r := by
  obtain ⟨r', hrun, heq⟩ := Option.map_eq_some_iff.1 h
  exact Option.map_eq_some_iff.2 ⟨r', Machine.runFor_mono hrun hle, heq⟩

namespace Session

variable {s s' t : Session} {request : Request} {reply : Reply} {fuel more : Nat}
  {read : String → Except ReadError String}

theorem firstRun?_mono {arguments : LaunchArguments} {d : Debuggee}
    {r : Debuggee × StepOutcome × List Event} (h : firstRun? fuel arguments d = some r)
    (hle : fuel ≤ more) : firstRun? more arguments d = some r := by
  unfold firstRun? at h ⊢
  split at h
  · rename_i hquiet
    rw [if_pos hquiet]
    cases hrun : d.runFor fuel with
    | none =>
      rw [hrun] at h
      cases h
    | some first =>
      rw [hrun] at h
      rw [Debuggee.runFor_mono hrun hle]
      obtain ⟨d', outcome⟩ := first
      cases outcome with
      | failed fault =>
        obtain ⟨r', hrest, heq⟩ := Option.map_eq_some_iff.1 h
        exact Option.map_eq_some_iff.2 ⟨r', Debuggee.runFor_mono hrest hle, heq⟩
      | paused => exact h
      | finished => exact h
  · rename_i hdebug
    rw [if_neg hdebug]
    split at h
    · rename_i hentry
      rw [if_pos hentry]
      exact h
    · rename_i hentry
      rw [if_neg hentry]
      obtain ⟨r', hrun, heq⟩ := Option.map_eq_some_iff.1 h
      exact Option.map_eq_some_iff.2 ⟨r', Debuggee.runFor_mono hrun hle, heq⟩

theorem launch?_mono (h : s.launch? read fuel request = some (s', reply)) (hle : fuel ≤ more) :
    s.launch? read more request = some (s', reply) := by
  cases harguments : request.launchArguments? with
  | none =>
    rw [launch?_of_none harguments] at h ⊢
    exact h
  | some arguments =>
    cases hfetch : fetch read arguments with
    | error e =>
      rw [launch?_of_error harguments hfetch] at h ⊢
      exact h
    | ok found =>
      rw [launch?_of_ok harguments hfetch] at h ⊢
      obtain ⟨r, hrun, heq⟩ := Option.map_eq_some_iff.1 h
      exact Option.map_eq_some_iff.2 ⟨r, firstRun?_mono hrun hle, heq⟩

theorem resume?_mono {mode : ResumeMode} (h : s.resume? fuel mode = some (s', reply))
    (hle : fuel ≤ more) : s.resume? more mode = some (s', reply) := by
  cases hloaded : s.debuggee.loaded with
  | none =>
    rw [resume?_of_none hloaded] at h ⊢
    exact h
  | some source =>
    rw [resume?_of_loaded (by rw [hloaded]; rfl)] at h ⊢
    obtain ⟨r, hrun, heq⟩ := Option.map_eq_some_iff.1 h
    refine Option.map_eq_some_iff.2 ⟨r, ?_, heq⟩
    cases mode with
    | toEnd => exact Debuggee.runFor_mono hrun hle
    | oneStep => exact hrun

/-- More steps change no answer. -/
theorem reply?_mono (h : s.reply? read fuel request = some (s', reply)) (hle : fuel ≤ more) :
    s.reply? read more request = some (s', reply) := by
  rw [reply?_eq_obey?] at h ⊢
  cases hkind : request.kind with
  | launch =>
    rw [hkind] at h
    exact launch?_mono h hle
  | resume mode =>
    rw [hkind] at h
    exact resume?_mono h hle
  -- The other requests take no steps.
  | configure | configured | threads | stackTrace | scopes | expand | disconnect | unknown =>
    rw [hkind] at h
    exact h

end Session

/-! ### What turns leave alone -/

namespace Session

variable {s s' : Session} {request : Request} {reply : Reply} {fuel : Nat}
  {read : String → Except ReadError String}

/-- What starting a program and going on with it leave alone, and how they are answered at most. -/
structure OnlyRuns (s s' : Session) (reply : Reply) : Prop where
  handles : s'.debuggee.handles = s.debuggee.handles
  disconnected : s'.disconnected = s.disconnected
  body : ∀ body, reply.answer = .success (some body) → body = .continued

theorem onlyRuns_of_launch (h : s.launch? read fuel request = some (s', reply)) :
    s.OnlyRuns s' reply := by
  cases harguments : request.launchArguments? with
  | none =>
    rw [launch?_of_none harguments] at h
    cases h
    exact ⟨rfl, rfl, nofun⟩
  | some arguments =>
    cases hfetch : fetch read arguments with
    | error e =>
      rw [launch?_of_error harguments hfetch] at h
      cases h
      exact ⟨rfl, rfl, nofun⟩
    | ok found =>
      rw [launch?_of_ok harguments hfetch] at h
      obtain ⟨r, hrun, heq⟩ := Option.map_eq_some_iff.1 h
      cases heq
      have hkept := congrArg Debuggee.handles (eq_of_firstRun? hrun)
      exact ⟨hkept, rfl, nofun⟩

theorem onlyRuns_of_resume {mode : ResumeMode} (h : s.resume? fuel mode = some (s', reply)) :
    s.OnlyRuns s' reply := by
  cases hloaded : s.debuggee.loaded with
  | none =>
    rw [resume?_of_none hloaded] at h
    cases h
    exact ⟨rfl, rfl, nofun⟩
  | some source =>
    rw [resume?_of_loaded (by rw [hloaded]; rfl)] at h
    obtain ⟨r, hrun, heq⟩ := Option.map_eq_some_iff.1 h
    cases heq
    have hkept := congrArg Debuggee.handles (Debuggee.eq_of_goOn? hrun)
    refine ⟨hkept, rfl, fun body hbody => ?_⟩
    cases mode with
    | toEnd =>
      cases hbody
      rfl
    | oneStep => cases hbody

/-- What a turn does to the debuggee. It starts a program or goes on with one, it lists scopes or
parts with new handles, or it leaves both the machine and the handles alone. -/
inductive Course (read : String → Except ReadError String) (fuel : Nat) (s : Session)
    (request : Request) (s' : Session) (reply : Reply) : Prop
  | launched (hkind : request.kind = .launch)
      (hlaunch : s.launch? read fuel request = some (s', reply))
  | resumed (mode : ResumeMode) (hkind : request.kind = .resume mode)
      (hresume : s.resume? fuel mode = some (s', reply))
  | listed (frame : Nat) (hkind : request.kind = .scopes)
      (hsession : s' = { s with debuggee := (s.debuggee.scopes frame).1 })
      (hanswer : reply.answer = .success (some (.scopes (s.debuggee.scopes frame).2)))
  | expanded (handle : Int) (hkind : request.kind = .expand)
      (hsession : s' = { s with debuggee := (s.debuggee.expand handle).1 })
      (hanswer : reply.answer = .success (some (.parts (s.debuggee.expand handle).2)))
  | aside (hmachine : s'.debuggee.machine = s.debuggee.machine)
      (hhandles : s'.debuggee.handles = s.debuggee.handles)
      (hdisconnected : s'.disconnected = (s.disconnected || decide (request.kind = .disconnect)))
      (hscopes : ∀ groups, reply.answer ≠ .success (some (.scopes groups)))
      (hparts : ∀ list, reply.answer ≠ .success (some (.parts list)))

/-- Every turn is of one of these kinds. -/
theorem course_of_handle (h : s.handle? read fuel request = some (s', reply)) :
    s.Course read fuel request s' reply := by
  have hobey (hne : request.kind ≠ .configured) :
      s.obey? read fuel request request.kind = some (s', reply) := by
    rw [← handle?_eq_obey? hne]
    exact h
  cases hkind : request.kind with
  -- Only this request is noticed before it is answered.
  | configured =>
    rw [handle?, reply?_eq_obey?, hkind] at h
    have hdisconnected : (s.notice request).disconnected = s.disconnected := by
      unfold notice
      split <;> rfl
    cases h
    refine .aside ?_ ?_ ?_ nofun nofun
    · rw [debuggee_notice]
    · rw [debuggee_notice]
    · rw [hdisconnected, hkind]
      exact (Bool.or_false _).symm
  | launch =>
    rw [hkind] at hobey
    exact .launched hkind (hobey nofun)
  | resume mode =>
    rw [hkind] at hobey
    exact .resumed mode hkind (hobey nofun)
  | scopes =>
    rw [hkind] at hobey
    have hlist := Option.some.inj (hobey nofun)
    unfold scopes at hlist
    split at hlist
    · cases hlist
      exact .aside rfl rfl (by simp [hkind]) nofun nofun
    · cases hlist
      exact .listed _ hkind rfl rfl
  | expand =>
    rw [hkind] at hobey
    have hexpand := Option.some.inj (hobey nofun)
    unfold expand at hexpand
    split at hexpand
    · cases hexpand
      exact .aside rfl rfl (by simp [hkind]) nofun nofun
    · cases hexpand
      exact .expanded _ hkind rfl rfl
  | configure =>
    rw [hkind] at hobey
    have hconfigure := Option.some.inj (hobey nofun)
    unfold configure at hconfigure
    split at hconfigure <;>
    · cases hconfigure
      exact .aside rfl rfl (by simp [hkind]) nofun nofun
  | stackTrace =>
    rw [hkind] at hobey
    have htrace := Option.some.inj (hobey nofun)
    unfold stackTrace at htrace
    split at htrace <;>
    · cases htrace
      exact .aside rfl rfl (by simp [hkind]) nofun nofun
  | threads | disconnect | unknown =>
    rw [hkind] at hobey
    cases Option.some.inj (hobey nofun)
    exact .aside rfl rfl (by simp [hkind]) nofun nofun

/-- A session is disconnected when it is asked to. -/
theorem disconnected_of_handle (h : s.handle? read fuel request = some (s', reply)) :
    s'.disconnected = (s.disconnected || decide (request.kind = .disconnect)) := by
  cases course_of_handle h with
  | launched hkind hlaunch => simp [(onlyRuns_of_launch hlaunch).disconnected, hkind]
  | resumed mode hkind hresume => simp [(onlyRuns_of_resume hresume).disconnected, hkind]
  | listed frame hkind hsession => simp [hsession, hkind]
  | expanded handle hkind hsession => simp [hsession, hkind]
  | aside _ _ hdisconnected => exact hdisconnected

end Session

/-! ### What answers depend on -/

/-- The messages of a turn. -/
def Turn.messages (turn : Turn) : List Message := Session.messages turn.1 turn.2

namespace Session

variable {s s' t : Session} {request : Request} {reply : Reply} {fuel : Nat}
  {read : String → Except ReadError String}

/-- Two sessions that differ at most in where they stand and in their gates. -/
structure Twins (s t : Session) : Prop where
  debuggee : s.debuggee = t.debuggee
  disconnected : s.disconnected = t.disconnected

namespace Twins

theorem symm (h : s.Twins t) : t.Twins s := ⟨h.debuggee.symm, h.disconnected.symm⟩

theorem trans {r : Session} (h : s.Twins t) (h' : t.Twins r) : s.Twins r :=
  ⟨h.debuggee.trans h'.debuggee, h.disconnected.trans h'.disconnected⟩

theorem notice (s : Session) (request : Request) : (s.notice request).Twins s := by
  unfold Session.notice
  split <;> exact ⟨rfl, rfl⟩

theorem launch? (h : s.Twins t) (hlaunch : s.launch? read fuel request = some (s', reply)) :
    ∃ t' reply', t.launch? read fuel request = some (t', reply') ∧ s'.Twins t' ∧
      messages request reply' = messages request reply := by
  cases harguments : request.launchArguments? with
  | none =>
    rw [launch?_of_none harguments] at hlaunch ⊢
    cases hlaunch
    exact ⟨_, _, rfl, h, rfl⟩
  | some arguments =>
    cases hfetch : fetch read arguments with
    | error e =>
      rw [launch?_of_error harguments hfetch] at hlaunch ⊢
      cases hlaunch
      exact ⟨_, _, rfl, ⟨h.debuggee, h.disconnected⟩, rfl⟩
    | ok found =>
      rw [launch?_of_ok harguments hfetch] at hlaunch ⊢
      obtain ⟨r, hrun, heq⟩ := Option.map_eq_some_iff.1 hlaunch
      cases heq
      rw [← h.debuggee, hrun]
      exact ⟨_, _, rfl, ⟨rfl, h.disconnected⟩, rfl⟩

theorem resume? (h : s.Twins t) {mode : ResumeMode}
    (hresume : s.resume? fuel mode = some (s', reply)) :
    ∃ t', t.resume? fuel mode = some (t', reply) ∧ s'.Twins t' := by
  cases hloaded : s.debuggee.loaded with
  | none =>
    rw [resume?_of_none hloaded] at hresume
    rw [resume?_of_none (h.debuggee ▸ hloaded)]
    cases hresume
    exact ⟨_, rfl, h⟩
  | some source =>
    have hsome : s.debuggee.loaded.isSome = true := by
      rw [hloaded]
      rfl
    rw [resume?_of_loaded hsome] at hresume
    rw [resume?_of_loaded (h.debuggee ▸ hsome), ← h.debuggee]
    obtain ⟨r, hrun, heq⟩ := Option.map_eq_some_iff.1 hresume
    cases heq
    rw [hrun]
    exact ⟨_, rfl, rfl, h.disconnected⟩

/-- The same request gets the same messages, and leaves twins again. -/
theorem reply? (h : s.Twins t) (hreply : s.reply? read fuel request = some (s', reply)) :
    ∃ t' reply', t.reply? read fuel request = some (t', reply') ∧ s'.Twins t' ∧
      messages request reply' = messages request reply := by
  obtain ⟨hdebuggee, hdisconnected⟩ := h
  rw [reply?_eq_obey?] at hreply ⊢
  -- No request is answered from that in which twins may differ.
  cases hkind : request.kind with
  | launch =>
    rw [hkind] at hreply
    exact launch? ⟨hdebuggee, hdisconnected⟩ hreply
  | resume mode =>
    rw [hkind] at hreply
    obtain ⟨t', hresume, htwins⟩ := resume? ⟨hdebuggee, hdisconnected⟩ hreply
    exact ⟨t', reply, hresume, htwins, rfl⟩
  | configure =>
    rw [hkind] at hreply
    simp only [obey?, configure, Option.some.injEq] at hreply ⊢
    split at hreply
    · cases hreply
      exact ⟨_, _, rfl, ⟨hdebuggee, hdisconnected⟩, rfl⟩
    · cases hreply
      exact ⟨_, _, rfl, ⟨by rw [hdebuggee], hdisconnected⟩, rfl⟩
  | stackTrace =>
    rw [hkind] at hreply
    simp only [obey?, stackTrace, Option.some.injEq] at hreply ⊢
    rw [← hdebuggee]
    split at hreply <;>
    · cases hreply
      exact ⟨_, _, rfl, ⟨hdebuggee, hdisconnected⟩, rfl⟩
  | scopes =>
    rw [hkind] at hreply
    simp only [obey?, scopes, Option.some.injEq] at hreply ⊢
    rw [← hdebuggee]
    split at hreply
    · cases hreply
      exact ⟨_, _, rfl, ⟨hdebuggee, hdisconnected⟩, rfl⟩
    · cases hreply
      exact ⟨_, _, rfl, ⟨rfl, hdisconnected⟩, rfl⟩
  | expand =>
    rw [hkind] at hreply
    simp only [obey?, expand, Option.some.injEq] at hreply ⊢
    rw [← hdebuggee]
    split at hreply
    · cases hreply
      exact ⟨_, _, rfl, ⟨hdebuggee, hdisconnected⟩, rfl⟩
    · cases hreply
      exact ⟨_, _, rfl, ⟨rfl, hdisconnected⟩, rfl⟩
  | disconnect =>
    rw [hkind] at hreply
    cases hreply
    exact ⟨_, _, rfl, ⟨hdebuggee, rfl⟩, rfl⟩
  | configured | threads | unknown =>
    rw [hkind] at hreply
    cases hreply
    exact ⟨_, _, rfl, ⟨hdebuggee, hdisconnected⟩, rfl⟩

theorem handle? (h : s.Twins t) (hhandle : s.handle? read fuel request = some (s', reply)) :
    ∃ t' reply', t.handle? read fuel request = some (t', reply') ∧ s'.Twins t' ∧
      messages request reply' = messages request reply :=
  reply? ((notice s request).trans (h.trans (notice t request).symm)) hhandle

end Twins

end Session

/-! ### Conversations -/

/-- A request with the files it finds and the steps it may take. -/
structure Call where
  request : Request
  read : String → Except ReadError String
  fuel : Nat

namespace Session

variable {s s' t : Session} {request : Request} {reply : Reply} {call : Call}
  {calls later : List Call} {turns : Transcript}

/-- The turns of a session that handles calls in order, with the session that they lead to; none if
a request takes more steps than it may. -/
def handleAll? (s : Session) : List Call → Option (Session × Transcript)
  | [] => some (s, [])
  | call :: calls =>
    (s.handle? call.read call.fuel call.request).bind fun first =>
      (handleAll? first.1 calls).map fun rest => (rest.1, (call.request, first.2) :: rest.2)

theorem handleAll?_cons_eq_some_iff :
    s.handleAll? (call :: calls) = some (t, turns) ↔
      ∃ s' reply rest, s.handle? call.read call.fuel call.request = some (s', reply) ∧
        s'.handleAll? calls = some (t, rest) ∧ turns = (call.request, reply) :: rest := by
  simp only [handleAll?, Option.bind_eq_some_iff, Option.map_eq_some_iff, Prod.exists,
    Prod.mk.injEq]
  constructor
  · rintro ⟨s', reply, hfirst, _, rest, hrest, rfl, rfl⟩
    exact ⟨s', reply, rest, hfirst, hrest, rfl⟩
  · rintro ⟨s', reply, rest, hfirst, hrest, rfl⟩
    exact ⟨s', reply, hfirst, t, rest, hrest, rfl, rfl⟩

/-- Calls one after another are answered one after another. -/
theorem handleAll?_append_eq_some_iff :
    s.handleAll? (calls ++ later) = some (t, turns) ↔
      ∃ s' before after, s.handleAll? calls = some (s', before) ∧
        s'.handleAll? later = some (t, after) ∧ turns = before ++ after := by
  induction calls generalizing s turns with
  | nil =>
    constructor
    · intro h
      exact ⟨s, [], turns, rfl, h, rfl⟩
    · rintro ⟨s', before, after, hbefore, hafter, rfl⟩
      cases hbefore
      exact hafter
  | cons call calls ih =>
    simp only [List.cons_append, handleAll?_cons_eq_some_iff, ih]
    constructor
    · rintro ⟨s', reply, _, hfirst, ⟨s'', before, after, hbefore, hafter, rfl⟩, rfl⟩
      exact ⟨s'', _, after, ⟨s', reply, before, hfirst, hbefore, rfl⟩, hafter, rfl⟩
    · rintro ⟨s'', _, after, ⟨s', reply, before, hfirst, hbefore, rfl⟩, hafter, rfl⟩
      exact ⟨s', reply, _, hfirst, ⟨s'', before, after, hbefore, hafter, rfl⟩, rfl⟩

theorem handleAll?_singleton_eq_some_iff :
    s.handleAll? [call] = some (t, turns) ↔
      ∃ reply, s.handle? call.read call.fuel call.request = some (t, reply) ∧
        turns = [(call.request, reply)] := by
  rw [handleAll?_cons_eq_some_iff]
  constructor
  · rintro ⟨_, reply, _, hfirst, hrest, rfl⟩
    cases hrest
    exact ⟨reply, hfirst, rfl⟩
  · rintro ⟨reply, hfirst, rfl⟩
    exact ⟨t, reply, [], hfirst, rfl, rfl⟩

/-- The sessions that are reached are those of conversations. -/
theorem reached_iff {configured : Bool} :
    Reached configured turns s ↔ ∃ calls, (start configured).handleAll? calls = some (s, turns) := by
  constructor
  · intro h
    induction h with
    | start => exact ⟨[], rfl⟩
    | @handle turns s s' request reply read fuel _ hhandle ih =>
      obtain ⟨calls, hcalls⟩ := ih
      refine ⟨calls ++ [⟨request, read, fuel⟩], handleAll?_append_eq_some_iff.2
        ⟨s, turns, _, hcalls, handleAll?_singleton_eq_some_iff.2 ⟨reply, hhandle, rfl⟩, rfl⟩⟩
  · rintro ⟨calls, h⟩
    induction calls using List.reverseRecOn generalizing s turns with
    | nil =>
      cases h
      exact .start
    | append_singleton calls call ih =>
      obtain ⟨s', before, after, hbefore, hafter, rfl⟩ := handleAll?_append_eq_some_iff.1 h
      obtain ⟨reply, hhandle, rfl⟩ := handleAll?_singleton_eq_some_iff.1 hafter
      exact (ih hbefore).handle hhandle

/-- Twins have the same conversations, turn by turn. -/
theorem Twins.handleAll? (h : s.Twins t) (hall : s.handleAll? calls = some (s', turns)) :
    ∃ t' turns', t.handleAll? calls = some (t', turns') ∧ s'.Twins t' ∧
      turns'.map Turn.messages = turns.map Turn.messages := by
  induction calls generalizing s t turns with
  | nil =>
    cases hall
    exact ⟨t, [], rfl, h, rfl⟩
  | cons call calls ih =>
    obtain ⟨s₁, reply, rest, hfirst, hrest, rfl⟩ := handleAll?_cons_eq_some_iff.1 hall
    obtain ⟨t₁, reply', hfirst', h₁, hmessages⟩ := h.handle? hfirst
    obtain ⟨t', rest', hrest', h', hmap⟩ := ih h₁ hrest
    refine ⟨t', _, handleAll?_cons_eq_some_iff.2 ⟨t₁, reply', rest', hfirst', hrest', rfl⟩, h', ?_⟩
    rw [List.map_cons, List.map_cons, hmap]
    exact congrArg (· :: _) hmessages

/-- What is told in a conversation, and the debuggee that it leaves, are the same for twins. -/
theorem Twins.map_handleAll? (h : s.Twins t) (calls : List Call) :
    (s.handleAll? calls).map (fun r => (r.1.debuggee, r.2.map Turn.messages)) =
      (t.handleAll? calls).map fun r => (r.1.debuggee, r.2.map Turn.messages) := by
  refine Option.ext fun told => ?_
  simp only [Option.map_eq_some_iff, Prod.exists]
  constructor
  · rintro ⟨s', turns, hall, rfl⟩
    obtain ⟨t', turns', hall', htwins, hmap⟩ := h.handleAll? hall
    exact ⟨t', turns', hall', by rw [htwins.debuggee, hmap]⟩
  · rintro ⟨t', turns, hall, rfl⟩
    obtain ⟨s', turns', hall', htwins, hmap⟩ := h.symm.handleAll? hall
    exact ⟨s', turns', hall', by rw [htwins.debuggee, hmap]⟩

end Session

end LWorkbench
