import LWorkbench.Proofs.Machine.Completing

/-!
# The machine implements the structural semantics

Statements, calls and whole programs on the machine, against the structural semantics. A call
pushes a frame of its own, so nothing of a callee can jump into its caller; the depth of a call in
the semantics is the number of frames on the machine.

## Main results

* `completes_run` — the machine runs statements as the structural semantics says
* `callsFollow_call` — and it calls functions so
* `Machine.runFor_load_iff` — a loaded program ends with the memory and the result of its meaning
* `Machine.run_eq_evaluation` — the same for the variables of the outermost scope
-/

namespace LWorkbench

open Progress

/-! ### Statements -/

section Statements

variable {p : Program} {bound depth : Nat} {call : Caller}

/-- Running a statement is one tick, which makes it the current one. -/
theorem next_standing_exec (s : Stmt) (labels : List String) (mem : Memory) (frame : Frame)
    (tasks : List Task) (values : List Value) (callers : List Frame) :
    (standing mem (frame.doing (.exec s labels :: tasks) values) callers).next p =
      Machine.follow callers
        (mem.exec ({ frame with current := s.id }.doing tasks values) labels s) := by
  have htasks (frame : Frame) :
      (frame.doing (.exec s labels :: tasks) values).tasks = .exec s labels :: tasks := rfl
  rw [standing, Machine.arrive_of_statement (htasks frame)]
  exact Machine.tick_of_tasks (htasks { frame with current := s.id }) p mem callers

/-- The machine goes round a loop as the execution says, when it runs the body so. -/
theorem completes_loop (hcall : CallsFollow p bound depth call) (l : Loop) {env : Environment}
    {callers : List Frame} (hdepth : callers.length + 1 = depth) (tasks : List Task)
    (values : List Value)
    (hbody : ∀ (mem : Memory) (frame : Frame) (tasks : List Task), frame.environment = env →
      Completes p bound (standing mem (frame.doing (.exec l.body [] :: tasks) values) callers)
        (frame.doing tasks values) callers (l.body.run call bound env [] mem))
    {rounds : Nat} (hrounds : rounds ≤ bound) (mem : Memory) (frame : Frame)
    (henv : frame.environment = env) :
    Completes p rounds (standing mem (frame.doing (Memory.roundTasks l ++ tasks) values) callers)
      (frame.doing tasks values) callers
      (Execution.loop (l.condition.value call env) (l.body.run call bound env []) l.labels rounds
        mem) := by
  induction rounds generalizing mem frame with
  | zero => exact outlasts_zero _ _
  | succ rounds ih =>
    rw [Execution.loop]
    subst henv
    refine Completes.complete ((follows_value hcall l.condition mem frame hdepth
      (.loopTest l :: .loop l :: tasks) values).mono hrounds) fun value mem₁ => ?_
    apply Completes.succ
    rw [next_standing rfl, Memory.perform, withValue_cons]
    split
    · -- the body is run with the rest of the round behind it
      refine ((hbody mem₁ frame (Memory.roundTasks l ++ tasks) rfl).mono
        (Nat.le_of_succ_le hrounds)).bind fun completion current mem₂ hlead => ?_
      have hagain := ih (Nat.le_of_succ_le hrounds) mem₂ { frame with current } rfl
      replace hlead : Leads p _ callers (mem₂, completion.effect
        ({ frame with current }.doing (Memory.roundTasks l ++ tasks) values)) := hlead
      match completion with
      | .normal => exact hagain.of_reaches hlead
      | .breakTo none => exact ⟨current, hlead⟩
      | .breakTo (some label) =>
        have hpass : (Completion.breakTo (some label)).Passes (.loop l) := by
          rw [Completion.Passes, Memory.breaksAt, Option.isNone_some]
        exact ⟨current, hlead.pass_round hpass⟩
      | .continueTo label =>
        show Completes _ _ _ _ _ ((if _ then _ else _ : Execution) mem₂)
        split
        · rename_i hlabel
          have hcaught := continueLoop_round hlabel { frame with current } tasks values
          rw [Completion.effect, hcaught] at hlead
          exact hagain.of_reaches hlead
        · rename_i hlabel
          have hpass : (Completion.continueTo label).Passes (.loop l) := by
            simpa [Completion.Passes, Memory.continuesAt] using hlabel
          exact ⟨current, hlead.pass_round hpass⟩
      | .returnWith value => exact ⟨current, hlead⟩
      | .fault f => exact ⟨current, hlead⟩
    · -- the loop is over, and its marker does nothing
      apply Completes.head
      exact ⟨frame.current, Reaches.refl p _⟩

theorem openScope_apply (env : Environment) (f : Environment → Execution) (mem : Memory) :
    (Execution.openScope env >>= f) mem =
      f (mem.store.extend env .variable).1
        { mem with store := (mem.store.extend env .variable).2 } := rfl

mutual

/-- Running a statement completes it in its frame. -/
theorem completes_run (hcall : CallsFollow p bound depth call) (s : Stmt) (labels : List String)
    (mem : Memory) (frame : Frame) {callers : List Frame} (hdepth : callers.length + 1 = depth)
    (tasks : List Task) (values : List Value) :
    Completes p bound (standing mem (frame.doing (.exec s labels :: tasks) values) callers)
      (frame.doing tasks values) callers (s.run call bound frame.environment labels mem) := by
  apply Completes.head
  rw [next_standing_exec]
  -- from here on the statement is the current one
  change Completes p bound _ ({ frame with current := s.id }.doing tasks values) callers
    (s.run call bound ({ frame with current := s.id } : Frame).environment labels mem)
  generalize { frame with current := s.id } = frame
  match s with
  | .declare site name none =>
    apply Completes.head
    exact ⟨frame.current, Reaches.refl p _⟩
  | .declare site name (some init) =>
    rw [Stmt.run]
    refine Completes.complete (follows_value hcall init mem frame hdepth
      (.declare name.identifier :: tasks) values) fun v mem₁ => ?_
    apply Completes.head
    exact ⟨frame.current, Reaches.refl p _⟩
  | .evaluate site e =>
    rw [Stmt.run]
    refine Completes.complete (follows_value hcall e mem frame hdepth (.discard :: tasks) values)
      fun v mem₁ => ?_
    apply Completes.head
    exact ⟨frame.current, Reaches.refl p _⟩
  | .block site body =>
    rw [Stmt.run, openScope_apply]
    have hbody := completes_runAll hcall body
      { mem with store := (mem.store.extend frame.environment .variable).2 }
      { frame with environment := (mem.store.extend frame.environment .variable).1 } hdepth
      (.restore frame.environment :: tasks) values
    simp only [Memory.exec, Frame.schedule, List.append_assoc]
    exact hbody.restore
  | .labeled site label body =>
    rw [Stmt.run]
    refine (completes_run hcall body (label.identifier :: labels) mem frame hdepth
      (.label label.identifier :: tasks) values).bind fun completion current mem₁ hlead => ?_
    exact ⟨current, Leads.pastLabel { frame with current } hlead⟩
  | .branch site condition s₁ none =>
    rw [Stmt.run]
    refine Completes.complete (follows_value hcall condition mem frame hdepth
      (.branch s₁ none :: tasks) values) fun v mem₁ => ?_
    apply Completes.head
    rw [next_standing rfl, Memory.perform, withValue_cons]
    split
    · exact completes_run hcall s₁ [] mem₁ frame hdepth tasks values
    · exact ⟨frame.current, Reaches.refl p _⟩
  | .branch site condition s₁ (some s₂) =>
    rw [Stmt.run]
    refine Completes.complete (follows_value hcall condition mem frame hdepth
      (.branch s₁ (some s₂) :: tasks) values) fun v mem₁ => ?_
    apply Completes.head
    rw [next_standing rfl, Memory.perform, withValue_cons]
    split
    · exact completes_run hcall s₁ [] mem₁ frame hdepth tasks values
    · exact completes_run hcall s₂ [] mem₁ frame hdepth tasks values
  | .loop site condition body =>
    rw [Stmt.run]
    refine completes_loop hcall ⟨condition, body, labels⟩ hdepth tasks values
      (fun mem frame' tasks henv => ?_) (Nat.le_refl bound) mem frame rfl
    rw [← henv]
    exact completes_run hcall body [] mem frame' hdepth tasks values
  | .breakTo site label =>
    exact ⟨frame.current,
      Leads.refl p callers (mem, Memory.breakOut (frame.doing tasks values) label)⟩
  | .continueTo site label =>
    exact ⟨frame.current,
      Leads.refl p callers (mem, Memory.continueLoop (frame.doing tasks values) label)⟩
  | .returnWith site none =>
    apply Completes.head
    exact ⟨frame.current, Reaches.refl p _⟩
  | .returnWith site (some e) =>
    rw [Stmt.run]
    refine Completes.complete
      (follows_value hcall e mem frame hdepth (.returnValue :: tasks) values) fun v mem₁ => ?_
    apply Completes.head
    exact ⟨frame.current, Reaches.refl p _⟩

/-- Running statements one after another completes them in their frame. -/
theorem completes_runAll (hcall : CallsFollow p bound depth call) (ss : List Stmt)
    (mem : Memory) (frame : Frame) {callers : List Frame} (hdepth : callers.length + 1 = depth)
    (tasks : List Task) (values : List Value) :
    Completes p bound
      (standing mem (frame.doing (ss.map (Task.exec · []) ++ tasks) values) callers)
      (frame.doing tasks values) callers (Stmt.runAll call bound frame.environment ss mem) := by
  match ss with
  | [] => exact ⟨frame.current, Reaches.refl p _⟩
  | s :: ss =>
    rw [Stmt.runAll]
    refine (completes_run hcall s [] mem frame hdepth (ss.map (Task.exec · []) ++ tasks)
      values).bind fun completion current mem₁ hlead => ?_
    replace hlead : Leads p _ callers (mem₁, completion.effect
      ({ frame with current }.doing (ss.map (Task.exec · []) ++ tasks) values)) := hlead
    cases completion with
    | normal =>
      exact (completes_runAll hcall ss mem₁ { frame with current } hdepth tasks values).of_reaches
        hlead
    | breakTo | continueTo | returnWith | fault =>
      exact ⟨current, hlead.pass_statements (by simp)⟩

end

/-! ### Calls and programs -/

/-- An activation hands its value to the frame that waits for it, or fails. -/
theorem follows_activation (hcall : CallsFollow p bound depth call) (body : List Stmt)
    (mem : Memory) (frame : Frame) {callers : List Frame} (hdepth : callers.length + 1 = depth) :
    Follows p bound (standing mem (frame.doing (body.map (Task.exec · [])) []) callers)
      (fun v mem => .going mem (Machine.arrive (Machine.resume v callers)))
      (Stmt.activation call bound frame.environment body mem) := by
  have hbody := completes_runAll hcall body mem frame hdepth [] []
  rw [List.append_nil] at hbody
  rw [Stmt.activation_apply]
  match Stmt.runAll call bound frame.environment body mem, hbody with
  | none, h => exact h
  | some (.normal, mem), ⟨current, h⟩ => exact Reaches.trans h ⟨1, rfl⟩
  | some (.returnWith value, mem), ⟨current, h⟩ => exact h
  | some (.fault f, mem), ⟨current, h⟩ => exact h
  | some (.breakTo none, mem), ⟨current, h⟩ => exact h
  | some (.breakTo (some label), mem), ⟨current, h⟩ => exact h
  | some (.continueTo none, mem), ⟨current, h⟩ => exact h
  | some (.continueTo (some label), mem), ⟨current, h⟩ => exact h

/-- Once the outermost activation is left no frame is left, and the next tick ends the run. -/
theorem Follows.done {c : Progress} {r : Option (Except Fault Value × Memory)}
    (h : Follows p bound c (fun v mem => .going mem (Machine.arrive (Machine.resume v []))) r) :
    Follows p bound c (fun _ mem => .done mem) r := by
  match r, h with
  | none, h => exact h
  | some (.error f, mem), h => exact h
  | some (.ok value, mem), h => exact Reaches.trans h ⟨1, rfl⟩

/-- Calling a function, with the function looked up first. -/
theorem callClosure_eq (p : Program) (mem : Memory) (callers : List Frame) (frame : Frame)
    (closure : Closure) (args : List Value) :
    mem.callClosure p callers frame closure args =
      match p.function? closure.node with
      | none => (mem, .fail (.notAFunction closure.node) frame)
      | some (params, body) =>
        if frameLimit ≤ callers.length + 1 then (mem, .fail .tooManyFrames frame)
        else
          let inner := mem.store.extend closure.environment .variable
          ({ mem with store := Memory.bindParams inner.2 inner.1 params args },
            .enter frame (.ofBody ((body.head?.map (·.id)).getD closure.node) inner.1
              (some closure.node) body)) := by
  unfold Memory.callClosure Program.function?
  cases p.node? closure.node with
  | none => rfl
  | some n =>
    cases n with
    | stmt s => rfl
    | expr e => cases e <;> rfl

/-- The machine calls functions as the structural semantics says. -/
theorem callsFollow_call (p : Program) (bound depth : Nat) :
    CallsFollow p bound depth (p.call bound depth) := by
  induction bound generalizing depth with
  | zero => exact fun closure args mem frame callers tasks values _ => outlasts_zero _ _
  | succ bound ih =>
    intro closure args mem frame callers tasks values hdepth
    apply Follows.succ
    rw [next_standing rfl, Memory.perform, call_doing, Program.call]
    simp only
    rw [callClosure_eq, hdepth]
    cases p.function? closure.node with
    | none => exact ⟨_, .refl p _⟩
    | some function =>
      obtain ⟨params, body⟩ := function
      simp only
      split
      · exact ⟨_, .refl p _⟩
      · have hdepth' : (frame.doing tasks values :: callers).length + 1 = depth + 1 := by
          rw [List.length_cons, hdepth]
        exact follows_activation (ih (depth + 1)) body _
          (.ofBody ((body.head?.map (·.id)).getD closure.node)
            (mem.store.extend closure.environment .variable).1 (some closure.node) body) hdepth'

end Statements

namespace Machine

/-- A loaded program runs as the structural semantics says. -/
theorem follows_load (m : Machine) {p : Program} (hbody : p.body ≠ []) (bound : Nat) :
    Follows p bound (.going (m.load p).memory (m.load p).frames) (fun _ mem => .done mem)
      (p.value bound m.globals m.memory) := by
  obtain ⟨first, others, hcons⟩ := List.exists_cons_of_ne_nil hbody
  have hdepth : ([] : List Frame).length + 1 = 1 := rfl
  have hactivation : Follows p bound _ _ (p.value bound m.globals m.memory) :=
    follows_activation (callsFollow_call p bound 1) p.body m.memory
      (.ofBody first.id m.globals none p.body) hdepth
  have hload : Progress.going (m.load p).memory (m.load p).frames =
      standing m.memory ((Frame.ofBody first.id m.globals none p.body).doing
        (p.body.map (Task.exec · [])) []) [] := by
    simp [load, hcons, standing, arrive, Frame.doing, Frame.ofBody]
  rw [hload]
  exact hactivation.done

/-- Stepping a loaded program to its end, in terms of the structural semantics. -/
theorem runFor_load_iff (m : Machine) (p : Program) (mem : Memory) :
    ((∃ fuel m', (m.load p).runFor fuel = some (m', .finished) ∧ m'.memory = mem) ↔
      ∃ bound value, p.value bound m.globals m.memory = some (.ok value, mem)) ∧
    ∀ f, (∃ fuel m', (m.load p).runFor fuel = some (m', .failed f) ∧ m'.memory = mem) ↔
      ∃ bound, p.value bound m.globals m.memory = some (.error f, mem) := by
  by_cases hbody : p.body = []
  · have hvalue (bound : Nat) :
        p.value bound m.globals m.memory = some (.ok .undefined, m.memory) := by
      rw [Program.value, hbody]
      rfl
    have hstep : (m.load p).step = (m.load p, .finished) := by simp [step, load, hbody]
    have hrun {fuel : Nat} {r : Machine × StepOutcome} (h : (m.load p).runFor fuel = some r) :
        r = (m.load p, .finished) := by
      cases fuel <;> simp_all [runFor]
    refine ⟨⟨?_, ?_⟩, fun f => ⟨?_, ?_⟩⟩
    · rintro ⟨fuel, m', h, rfl⟩
      cases hrun h
      exact ⟨0, .undefined, by rw [hvalue, memory_load]⟩
    · rintro ⟨bound, value, h⟩
      rw [hvalue] at h
      cases h
      exact ⟨1, m.load p, by rw [runFor, hstep], memory_load m p⟩
    · rintro ⟨fuel, m', h, -⟩
      cases hrun h
    · rintro ⟨bound, h⟩
      rw [hvalue] at h
      cases h
  · have hpaused := paused_load m hbody
    obtain ⟨hdone, hfailed⟩ := Follows.ends_iff (follows_load m hbody) mem
    refine ⟨?_, fun f => ?_⟩
    · rw [← hdone, Reaches, ← hpaused.ends_iff rfl]
      constructor
      · rintro ⟨fuel, m', hrun, rfl⟩
        exact ⟨fuel, _, hrun, rfl⟩
      · rintro ⟨fuel, ⟨m', outcome⟩, hrun, hprogress⟩
        cases outcome with
        | finished => exact ⟨fuel, m', hrun, by simpa [progress] using hprogress⟩
        | paused | failed => cases hprogress
    · rw [← hfailed]
      simp only [Reaches]
      constructor
      · rintro ⟨fuel, m', hrun, rfl⟩
        exact ⟨m'.frames, (hpaused.ends_iff rfl).1 ⟨fuel, _, hrun, rfl⟩⟩
      · rintro ⟨frames, hreaches⟩
        obtain ⟨fuel, ⟨m', outcome⟩, hrun, hprogress⟩ := (hpaused.ends_iff rfl).2 hreaches
        cases outcome with
        | failed f' =>
          cases hprogress
          exact ⟨fuel, m', hrun, rfl⟩
        | paused | finished => cases hprogress

/-- The variables of the outermost scope with their values. -/
def globalEntries (m : Machine) : List (String × Value) :=
  (m.memory.store.scope m.globals.scopeId).entries

/-- A program that is loaded over a new outermost scope and stepped to its end finishes, or fails
with a fault, exactly when the structural semantics gives it a value, or that fault, and with the
same variables in the outermost scope. -/
theorem run_eq_evaluation (memory : Memory) (p : Program) (entries : List (String × Value)) :
    ((∃ fuel m', ((start memory).load p).runFor fuel = some (m', .finished) ∧
        m'.globalEntries = entries) ↔
      ∃ bound value mem,
        p.value bound (start memory).globals (start memory).memory = some (.ok value, mem) ∧
          (mem.store.scope (start memory).globals.scopeId).entries = entries) ∧
    ∀ f, (∃ fuel m', ((start memory).load p).runFor fuel = some (m', .failed f) ∧
        m'.globalEntries = entries) ↔
      ∃ bound mem,
        p.value bound (start memory).globals (start memory).memory = some (.error f, mem) ∧
          (mem.store.scope (start memory).globals.scopeId).entries = entries := by
  generalize start memory = m
  have hglobals {fuel : Nat} {r : Machine × StepOutcome}
      (h : (m.load p).runFor fuel = some r) : r.1.globals = m.globals := by
    rw [globals_runFor h, globals_load]
  refine ⟨⟨?_, ?_⟩, fun f => ⟨?_, ?_⟩⟩
  · rintro ⟨fuel, m', hrun, rfl⟩
    obtain ⟨bound, value, hvalue⟩ := (runFor_load_iff m p _).1.1 ⟨fuel, m', hrun, rfl⟩
    exact ⟨bound, value, _, hvalue, by rw [globalEntries, hglobals hrun]⟩
  · rintro ⟨bound, value, mem, hvalue, rfl⟩
    obtain ⟨fuel, m', hrun, rfl⟩ := (runFor_load_iff m p _).1.2 ⟨bound, value, hvalue⟩
    exact ⟨fuel, m', hrun, by rw [globalEntries, hglobals hrun]⟩
  · rintro ⟨fuel, m', hrun, rfl⟩
    obtain ⟨bound, hvalue⟩ := ((runFor_load_iff m p _).2 f).1 ⟨fuel, m', hrun, rfl⟩
    exact ⟨bound, _, hvalue, by rw [globalEntries, hglobals hrun]⟩
  · rintro ⟨bound, mem, hvalue, rfl⟩
    obtain ⟨fuel, m', hrun, rfl⟩ := ((runFor_load_iff m p _).2 f).2 ⟨bound, hvalue⟩
    exact ⟨fuel, m', hrun, by rw [globalEntries, hglobals hrun]⟩

end Machine

end LWorkbench
