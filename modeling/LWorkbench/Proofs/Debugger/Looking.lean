import LWorkbench.Proofs.Debugger.Conversations

/-!
# Looking and stepping

Most requests only look: they list frames, scopes and parts of values, or have nothing to do with
the run at all. Looking hands out new handles, but a run sees no handles. So whoever looks and
whoever does not are told the same about the run, and their machines end up the same.

Nor does it matter into how many pieces a run is cut. Where a client steps a few times and then
continues, the program gets to where it would have got had the client continued at once.

## Main definitions

* `Request.looks` — the request does not touch the run
* `Session.SameRun` — the sessions in which the run stands at the same place
* `Session.SameTurn` — the same messages, with the run at the same place

## Main results

* `Session.SameRun.handle?_of_looks` — looking is always answered and leaves the run alone
* `Session.SameRun.handle?` — all other requests are answered by how the run stands
* `Session.SameRun.handleAll?_filter` — the same for a conversation without the looking
* `Session.resume?_add_of_steps` — steps and then going on, against going on at once
* `Session.run_of_looking_and_stepping` — both together
-/

namespace LWorkbench

section Related

variable {α β γ δ : Type} {R : α → β → Prop} {S : γ → δ → Prop} {x : Option α} {y : Option β}

/-- Related results that are worked up in related ways are related. -/
theorem rel_map {f : α → γ} {g : β → δ} (h : Option.Rel R x y) (hfg : ∀ a b, R a b → S (f a) (g b)) :
    Option.Rel S (x.map f) (y.map g) := by
  cases h with
  | some hab => exact .some (hfg _ _ hab)
  | none => exact .none

/-- Related results that are continued in related ways are related. -/
theorem rel_bind {f : α → Option γ} {g : β → Option δ} (h : Option.Rel R x y)
    (hfg : ∀ a b, R a b → Option.Rel S (f a) (g b)) : Option.Rel S (x.bind f) (y.bind g) := by
  cases h with
  | some hab => exact hfg _ _ hab
  | none => exact .none

theorem map_eq_map_of_rel {f : α → γ} {g : β → γ} (h : Option.Rel R x y)
    (hfg : ∀ a b, R a b → f a = g b) : x.map f = y.map g := by
  cases h with
  | some hab => exact congrArg some (hfg _ _ hab)
  | none => rfl

end Related

theorem Debuggee.runFor_succ_of_step {d d' : Debuggee} (h : d.step = (d', .paused)) (fuel : Nat) :
    d.runFor (fuel + 1) = d'.runFor fuel := by
  obtain ⟨hd, hpaused⟩ := Prod.mk.inj h
  have hstep : d.machine.step = (d'.machine, .paused) := by
    rw [← hpaused, ← hd]
    rfl
  rw [runFor, runFor, Machine.runFor, hstep, ← hd]

/-- The request neither starts a program nor goes on with one, and does not end the session. -/
def Request.looks (request : Request) : Bool :=
  match request.kind with
  | .launch | .resume _ | .disconnect => false
  | .configure | .configured | .threads | .stackTrace | .scopes | .expand | .unknown => true

/-- The commands of the requests that do more than look. -/
theorem Request.looks_eq_false_iff {request : Request} : request.looks = false ↔
    request.command ∈ ["launch", "attach", "continue", "next", "stepIn", "disconnect"] := by
  unfold looks
  fun_cases kind request <;> simp_all

namespace Session

variable {s s' t : Session} {request : Request} {reply : Reply} {fuel : Nat}
  {read : String → Except ReadError String}

/-- Two sessions in which the run stands at the same place, whatever has been looked at. -/
structure SameRun (s t : Session) : Prop where
  state : s.state = t.state
  machine : s.debuggee.machine = t.debuggee.machine
  loaded : s.debuggee.loaded = t.debuggee.loaded
  disconnected : s.disconnected = t.disconnected

/-- What two sessions come to by a request: the same messages, with the run at the same place. -/
structure SameTurn (request : Request) (x y : Session × Reply) : Prop where
  run : x.1.SameRun y.1
  messages : messages request x.2 = messages request y.2

namespace SameRun

theorem refl (s : Session) : s.SameRun s := ⟨rfl, rfl, rfl, rfl⟩

theorem trans {r : Session} (h : s.SameRun t) (h' : t.SameRun r) : s.SameRun r :=
  ⟨h.state.trans h'.state, h.machine.trans h'.machine, h.loaded.trans h'.loaded,
    h.disconnected.trans h'.disconnected⟩

/-! ### Looking -/

theorem notice (s : Session) (request : Request) : (s.notice request).SameRun s := by
  unfold Session.notice
  split <;> exact ⟨rfl, rfl, rfl, rfl⟩

theorem configure (s : Session) (request : Request) : (s.configure request).1.SameRun s := by
  unfold Session.configure
  split <;> exact ⟨rfl, rfl, rfl, rfl⟩

theorem stackTrace (s : Session) (request : Request) : (s.stackTrace request).1.SameRun s := by
  unfold Session.stackTrace
  split <;> exact refl s

theorem scopes (s : Session) (request : Request) : (s.scopes request).1.SameRun s := by
  unfold Session.scopes
  split
  · exact refl s
  · exact ⟨rfl, s.debuggee.machine_scopes _, s.debuggee.loaded_scopes _, rfl⟩

theorem expand (s : Session) (request : Request) : (s.expand request).1.SameRun s := by
  unfold Session.expand
  split
  · exact refl s
  · exact ⟨rfl, s.debuggee.machine_expand _, s.debuggee.loaded_expand _, rfl⟩

/-- Looking is always answered, and leaves the run alone. -/
theorem handle?_of_looks (s : Session) (read : String → Except ReadError String) (fuel : Nat)
    (hlooks : request.looks = true) :
    ∃ s' reply, s.handle? read fuel request = some (s', reply) ∧ s'.SameRun s := by
  have hnotice := notice s request
  rw [handle?, reply?_eq_obey?]
  rw [Request.looks] at hlooks
  cases hkind : request.kind with
  | configure => exact ⟨_, _, rfl, (configure _ request).trans hnotice⟩
  | stackTrace => exact ⟨_, _, rfl, (stackTrace _ request).trans hnotice⟩
  | scopes => exact ⟨_, _, rfl, (scopes _ request).trans hnotice⟩
  | expand => exact ⟨_, _, rfl, (expand _ request).trans hnotice⟩
  | configured | threads | unknown => exact ⟨_, _, rfl, hnotice⟩
  | launch | resume _ | disconnect =>
    rw [hkind] at hlooks
    cases hlooks

/-! ### Running -/

theorem launch? (h : s.SameRun t) : Option.Rel (SameTurn request)
    (s.launch? read fuel request) (t.launch? read fuel request) := by
  cases harguments : request.launchArguments? with
  | none =>
    rw [launch?_of_none harguments, launch?_of_none harguments]
    exact .some ⟨h, rfl⟩
  | some arguments =>
    cases hfetch : fetch read arguments with
    | error e =>
      rw [launch?_of_error harguments hfetch, launch?_of_error harguments hfetch]
      exact .some ⟨⟨rfl, h.machine, h.loaded, h.disconnected⟩, rfl⟩
    | ok found =>
      obtain ⟨source, p⟩ := found
      -- The program gets a new machine, which has only the memory of the old one.
      have hload : (s.debuggee.load source p).machine = (t.debuggee.load source p).machine := by
        simp only [Debuggee.load, h.machine]
      rw [launch?_of_ok harguments hfetch, launch?_of_ok harguments hfetch,
        firstRun?_eq_map hload, Option.map_map]
      cases hrun : firstRun? fuel arguments (t.debuggee.load source p) with
      | none => exact .none
      | some r =>
        have hloaded : r.1.loaded = some source := congrArg Debuggee.loaded (eq_of_firstRun? hrun)
        exact .some ⟨⟨rfl, rfl, hloaded.symm, h.disconnected⟩, rfl⟩

theorem resume? (h : s.SameRun t) (mode : ResumeMode) : Option.Rel (SameTurn request)
    (s.resume? fuel mode) (t.resume? fuel mode) := by
  cases hloaded : s.debuggee.loaded with
  | none =>
    rw [resume?_of_none hloaded, resume?_of_none (h.loaded ▸ hloaded)]
    exact .some ⟨h, rfl⟩
  | some source =>
    have hsome : s.debuggee.loaded.isSome = true := by
      rw [hloaded]
      rfl
    rw [resume?_of_loaded hsome, resume?_of_loaded (h.loaded ▸ hsome),
      Debuggee.goOn?_eq_map h.machine, Option.map_map]
    cases hrun : t.debuggee.goOn? fuel mode with
    | none => exact .none
    | some r =>
      have hkept := congrArg Debuggee.loaded (Debuggee.eq_of_goOn? hrun)
      exact .some ⟨⟨rfl, rfl, h.loaded.trans hkept.symm, h.disconnected⟩, rfl⟩

/-- Requests that do not look are answered by how the run stands. -/
theorem handle? (h : s.SameRun t) (hlooks : request.looks = false) : Option.Rel (SameTurn request)
    (s.handle? read fuel request) (t.handle? read fuel request) := by
  have hkind : request.kind ≠ .configured := by
    intro hkind
    rw [Request.looks, hkind] at hlooks
    cases hlooks
  rw [handle?_eq_obey? hkind, handle?_eq_obey? hkind]
  rw [Request.looks] at hlooks
  cases hkind : request.kind with
  | launch => exact h.launch?
  | resume mode => exact h.resume? mode
  | disconnect => exact .some ⟨⟨h.state, h.machine, h.loaded, rfl⟩, rfl⟩
  | configure | configured | threads | stackTrace | scopes | expand | unknown =>
    rw [hkind] at hlooks
    cases hlooks

/-- A conversation in which nothing is looked at goes the same way as one in which the run stands
at the same place and something is looked at in between. -/
theorem handleAll?_filter (h : s.SameRun t) (calls : List Call) :
    Option.Rel (fun x y => x.1.SameRun y.1 ∧
        (x.2.filter fun turn => !turn.1.looks).map Turn.messages = y.2.map Turn.messages)
      (s.handleAll? calls) (t.handleAll? (calls.filter fun call => !call.request.looks)) := by
  induction calls generalizing s t with
  | nil => exact .some ⟨h, rfl⟩
  | cons call calls ih =>
    cases hlooks : call.request.looks with
    | true =>
      -- The other side skips the request, and the run stands where it stood.
      obtain ⟨s', reply, hfirst, hkept⟩ := handle?_of_looks s call.read call.fuel hlooks
      rw [List.filter_cons_of_neg (by simp [hlooks]), Session.handleAll?, hfirst, Option.bind_some,
        ← Option.map_id' (x := t.handleAll? _)]
      refine rel_map (ih (hkept.trans h)) fun rest rest' hrest => ⟨hrest.1, ?_⟩
      rw [List.filter_cons_of_neg (by simp [hlooks])]
      exact hrest.2
    | false =>
      rw [List.filter_cons_of_pos (by simp [hlooks]), Session.handleAll?, Session.handleAll?]
      refine rel_bind (h.handle? hlooks) fun first first' hturn =>
        rel_map (ih hturn.run) fun rest rest' hrest => ⟨hrest.1, ?_⟩
      rw [List.filter_cons_of_pos (by simp [hlooks]), List.map_cons, List.map_cons, hrest.2]
      exact congrArg (· :: _) hturn.messages

end SameRun

/-! ### Stepping -/

/-- A step to the next statement is the first step of going on to the end. -/
theorem resume?_succ_of_step {more : Nat} (h : s.resume? more .oneStep = some (s', reply))
    (hpauses : reply.events = [.stopped .step]) (fuel : Nat) :
    s.resume? (fuel + 1) .toEnd = s'.resume? fuel .toEnd := by
  cases hloaded : s.debuggee.loaded with
  | none =>
    rw [resume?_of_none hloaded] at h
    cases h
    cases hpauses
  | some source =>
    have hsome : s.debuggee.loaded.isSome = true := by
      rw [hloaded]
      rfl
    rw [resume?_of_loaded hsome] at h
    obtain ⟨⟨d, outcome⟩, hstep, heq⟩ := Option.map_eq_some_iff.1 h
    cases heq
    have hpaused : outcome = .paused := by
      cases outcome with
      | paused => rfl
      | finished | failed _ => cases hpauses
    subst hpaused
    have hkept := congrArg Debuggee.loaded (Debuggee.eq_of_goOn? hstep)
    rw [resume?_of_loaded hsome, resume?_of_loaded (hkept ▸ hsome)]
    exact congrArg _ (Debuggee.runFor_succ_of_step (Option.some.inj hstep) fuel)

/-- Going on after some steps comes to the same as going on at once. -/
theorem resume?_add_of_steps {steps : List Call} {turns : Transcript}
    (hsteps : ∀ call ∈ steps, call.request.kind = .resume .oneStep)
    (hall : s.handleAll? steps = some (s', turns))
    (hpauses : ∀ turn ∈ turns, turn.2.events = [.stopped .step]) (fuel : Nat) :
    s.resume? (fuel + steps.length) .toEnd = s'.resume? fuel .toEnd := by
  induction steps generalizing s turns with
  | nil =>
    cases hall
    rfl
  | cons call steps ih =>
    obtain ⟨s₁, reply, rest, hfirst, hrest, rfl⟩ := handleAll?_cons_eq_some_iff.1 hall
    have hkind := hsteps call List.mem_cons_self
    rw [handle?_eq_obey? (by rw [hkind]; nofun), hkind] at hfirst
    change s.resume? call.fuel .oneStep = _ at hfirst
    rw [List.length_cons, ← Nat.add_assoc,
      resume?_succ_of_step hfirst (hpauses (call.request, reply) List.mem_cons_self)]
    exact ih (fun call hcall => hsteps call (List.mem_cons_of_mem _ hcall)) hrest
      (fun turn hturn => hpauses turn (List.mem_cons_of_mem _ hturn))

/-! ### The run -/

/-- The run depends on nothing but what is asked of it. Leaving out all requests that only look
changes neither what is told about the others nor the state and the machine that they lead to. And
after some steps that all stop at a statement, going on to the end comes to the same answer, event
and session as going on without them, if either of the two ends. -/
theorem run_of_looking_and_stepping (s : Session) :
    (∀ calls : List Call,
      (s.handleAll? calls).map (fun r => (r.1.state, r.1.debuggee.machine,
          (r.2.filter fun turn => !turn.1.looks).map Turn.messages)) =
        (s.handleAll? (calls.filter fun call => !call.request.looks)).map fun r =>
          (r.1.state, r.1.debuggee.machine, r.2.map Turn.messages)) ∧
    ∀ (steps : List Call) (s' : Session) (turns : Transcript),
      (∀ call ∈ steps, call.request.kind = .resume .oneStep) →
      s.handleAll? steps = some (s', turns) →
      (∀ turn ∈ turns, turn.2.events = [.stopped .step]) →
      ∀ (request : Request) (read : String → Except ReadError String) (fuel : Nat)
        (r : Session × Reply), request.kind = .resume .toEnd →
        (s.handle? read fuel request = some r → s'.handle? read fuel request = some r) ∧
        (s'.handle? read fuel request = some r →
          s.handle? read (fuel + steps.length) request = some r) := by
  constructor
  · intro calls
    refine map_eq_map_of_rel ((SameRun.refl s).handleAll?_filter calls) fun x y h => ?_
    rw [h.1.state, h.1.machine, h.2]
  · intro steps s' turns hsteps hall hpauses request read fuel r hkind
    have hne : request.kind ≠ .configured := by
      rw [hkind]
      nofun
    -- Going on to the end begins with these steps.
    have hcut := resume?_add_of_steps hsteps hall hpauses fuel
    rw [handle?_eq_obey? hne, handle?_eq_obey? hne, handle?_eq_obey? hne, hkind]
    change (s.resume? fuel .toEnd = _ → s'.resume? fuel .toEnd = _) ∧
      (s'.resume? fuel .toEnd = _ → s.resume? (fuel + steps.length) .toEnd = _)
    rw [hcut]
    refine ⟨fun hreply => ?_, id⟩
    rw [← hcut]
    exact resume?_mono hreply (Nat.le_add_right fuel steps.length)

/-- A program of three blocks that stops at its entry, makes a step, and goes on to its end. -/
theorem events_of_blocks : (do
      let first ← (start true).launch? (fun _ => .ok "\x7b\x7d\x7b\x7d\x7b\x7d") 5
        ⟨1, "launch", .object [("stopOnEntry", .bool true)]⟩
      let second ← first.1.resume? 5 .oneStep
      let third ← second.1.resume? 5 .toEnd
      some ([second, third].map fun r => r.2.events)) =
    some [[.stopped .step], [.terminated]] := by
  decide +kernel

/-- Going on at once ends like going on after a step. -/
theorem run_of_looking_and_stepping_blocks : ∃ (s s' : Session) (reply : Reply)
    (r : Session × Reply),
    s.handleAll? [⟨⟨2, "next", .null⟩, fun _ => .error .notFound, 5⟩] =
      some (s', [(⟨2, "next", .null⟩, reply)]) ∧ reply.events = [.stopped .step] ∧
    s'.handle? (fun _ => .error .notFound) 5 ⟨3, "continue", .null⟩ = some r ∧
    r.2.events = [.terminated] ∧
    s.handle? (fun _ => .error .notFound) 6 ⟨3, "continue", .null⟩ = some r := by
  have hevents := events_of_blocks
  obtain ⟨⟨s, first⟩, -, hevents⟩ := Option.bind_eq_some_iff.1 hevents
  obtain ⟨⟨s', reply⟩, hnext, hevents⟩ := Option.bind_eq_some_iff.1 hevents
  obtain ⟨r, hcontinue, hevents⟩ := Option.bind_eq_some_iff.1 hevents
  simp only [List.map_cons, List.map_nil, Option.some.injEq, List.cons.injEq, and_true] at hevents
  have hsteps : s.handleAll? [⟨⟨2, "next", .null⟩, fun _ => .error .notFound, 5⟩] =
      some (s', [(⟨2, "next", .null⟩, reply)]) :=
    handleAll?_singleton_eq_some_iff.2 ⟨reply, hnext, rfl⟩
  refine ⟨s, s', reply, r, hsteps, hevents.1, hcontinue, hevents.2, ?_⟩
  refine ((run_of_looking_and_stepping s).2 _ s' _ ?_ hsteps ?_ ⟨3, "continue", .null⟩ _ 5 r rfl).2
    hcontinue
  · simp only [List.mem_singleton, forall_eq]
    rfl
  · simp only [List.mem_singleton, forall_eq]
    exact hevents.1

end Session

end LWorkbench
