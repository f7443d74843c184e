import LWorkbench.Proofs.Machine.Holding
import LWorkbench.Proofs.Machine.Runs

/-!
# Functions across programs

A machine that loads another program keeps its variables, and with them the functions that earlier
programs have made. A function tells its expression by the number of a node, and a call looks the
number up in the program that is loaded. So a function runs the body with which it was made as long
as the program stays loaded, or another program has the same expression at its number. Under any
other program the call runs whatever function expression has the number there, and if there is
none, the call fails as if the machine were broken.

## Main definitions

* `Machine.Lived` — a machine that has loaded and stepped programs
* `Machine.Life` — the moments of such a machine, task by task
* `MadeAmong` — a function was made at one of the moments
* `Progress.InBody` — a function has just been entered

## Main results

* `Machine.Life.holds` — all functions that a machine holds were made at one of its moments
* `Machine.Lived.exists_life` — stepping goes through these moments
* `Machine.calls_use_loaded_program` — what a call runs
-/

namespace LWorkbench

namespace Machine

/-- A machine with a new outermost scope that has loaded programs that were parsed, and has stepped,
in any order. -/
inductive Lived (memory : Memory) : Machine → Prop
  | started : Lived memory (start memory)
  | loaded {m : Machine} {text : String} {p : Program} (h : Lived memory m)
    (hparse : Program.parse text = .ok p) : Lived memory (m.load p)
  | stepped {m : Machine} (h : Lived memory m) : Lived memory m.step.1

/-- The moments of a machine with a new outermost scope, each with the program that is loaded, and
the latest first. From one moment to the next a task is performed, or another program is loaded,
which keeps the memory and the outermost scope. -/
inductive Life (memory : Memory) : List (Program × Progress) → Prop
  | first {text : String} {p : Program} (hparse : Program.parse text = .ok p) :
    Life memory [(p, .going ((start memory).load p).memory ((start memory).load p).frames)]
  | tick {p : Program} {now : Progress} {past : List (Program × Progress)}
    (h : Life memory ((p, now) :: past)) : Life memory ((p, now.next p) :: (p, now) :: past)
  | load {text : String} {p q : Program} {now : Progress} {past : List (Program × Progress)}
    {m : Machine} (h : Life memory ((p, now) :: past)) (hmemory : m.memory = now.memory)
    (hglobals : m.globals = (start memory).globals) (hparse : Program.parse text = .ok q) :
    Life memory ((q, .going (m.load q).memory (m.load q).frames) :: (p, now) :: past)

end Machine

/-- The function was made at one of the moments, by evaluating a function expression. -/
def MadeAmong (moments : List (Program × Progress)) (c : Closure) : Prop :=
  ∃ moment ∈ moments, ∃ site params body, moment.2.Makes site params body c

/-- The next task calls a function with arguments. The caller is what is left of the frame when the
task, the function and the arguments have been taken off. -/
def Progress.Calls (now : Progress) (mem : Memory) (caller : Frame) (callers : List Frame)
    (c : Closure) (args : List Value) : Prop :=
  ∃ frame count rest values, now = .going mem (frame :: callers) ∧
    frame.tasks = .call count :: rest ∧ frame.values.drop count = .function c :: values ∧
    caller = { frame with tasks := rest, values } ∧ args = (frame.values.take count).reverse

/-- A frame stands at the beginning of a body, in a new scope in front of the chain of a function,
in which parameters are bound to arguments. -/
def Progress.InBody (now : Progress) (mem : Memory) (callers : List Frame) (c : Closure)
    (params : List Name) (body : List Stmt) (args : List Value) : Prop :=
  ∃ callee, callee.environment = (mem.store.extend c.environment .variable).1 ∧
    callee.function = some c.node ∧ callee.values = [] ∧
    callee.tasks = body.map (Task.exec · []) ∧
    now = .going { mem with
      store := Memory.bindParams (mem.store.extend c.environment .variable).2
        (mem.store.extend c.environment .variable).1 params args } (callee :: callers)

variable {p q : Program} {memory mem : Memory} {now : Progress}
  {past moments : List (Program × Progress)} {c : Closure} {caller : Frame} {callers : List Frame}
  {site : Site} {params : List Name} {body : List Stmt} {args : List Value} {m : Machine}

theorem MadeAmong.mono {moments' : List (Program × Progress)} (h : MadeAmong moments c)
    (hsubset : moments ⊆ moments') : MadeAmong moments' c := by
  obtain ⟨moment, hmoment, hmakes⟩ := h
  exact ⟨moment, hsubset hmoment, hmakes⟩

namespace Machine

namespace Life

/-- At every moment all functions that the machine holds were made at a moment before, or are being
made now. -/
theorem holds (h : Life memory ((p, now) :: past)) :
    p.Formed ∧ now.Holds p memory.store.scopes.size fun c =>
      MadeAmong ((p, now) :: past) c ∧ c.environment.Above memory.store.scopes.size := by
  generalize hmoments : (p, now) :: past = moments at h
  induction h generalizing p now past with
  | first hparse =>
    cases hmoments
    obtain ⟨hmem, hglobals⟩ := holds_start memory fun c => MadeAmong _ c ∧ _
    refine ⟨Program.formed_of_parse hparse, holds_load hmem hglobals _⟩
  | @tick p now past h ih =>
    cases hmoments
    obtain ⟨hp, hholds⟩ := ih rfl
    -- A function that this tick makes is made at the moment that is now the latest past one.
    refine ⟨hp, (hholds.next hp (fun c hc => hc.2) ?_).mono ?_⟩
    · rintro site params body c ⟨mem, frame, callers, rest, rfl, htasks, rfl⟩
      have hframe := hholds.frames mem _ rfl frame List.mem_cons_self
      refine ⟨⟨_, List.mem_cons_self, site, params, body, ?_⟩, hframe.environment⟩
      exact ⟨mem, frame, callers, rest, rfl, htasks, rfl⟩
    · intro c hc
      exact ⟨hc.1.mono (List.subset_cons_self _ _), hc.2⟩
  | @load text p q now past m h hmemory hglobals hparse ih =>
    cases hmoments
    obtain ⟨-, hholds⟩ := ih rfl
    obtain ⟨-, habove⟩ := holds_start memory fun _ => True
    refine ⟨Program.formed_of_parse hparse, ?_⟩
    -- The tasks of the program before are gone: only the memory goes on.
    refine (holds_load (hmemory ▸ hholds.memory) (hglobals ▸ habove) q).mono ?_
    intro c hc
    exact ⟨hc.1.mono (List.subset_cons_self _ _), hc.2⟩

/-- Every moment was once the latest one. -/
theorem of_mem (h : Life memory moments) (hmem : (q, now) ∈ moments) :
    ∃ past, Life memory ((q, now) :: past) := by
  induction h with
  | first hparse =>
    cases List.mem_singleton.1 hmem
    exact ⟨[], .first hparse⟩
  | tick h ih =>
    rcases List.mem_cons.1 hmem with heq | hmem
    · cases heq
      exact ⟨_, h.tick⟩
    · exact ih hmem
  | load h hmemory hglobals hparse ih =>
    rcases List.mem_cons.1 hmem with heq | hmem
    · cases heq
      exact ⟨_, h.load hmemory hglobals hparse⟩
    · exact ih hmem

/-- A function tells the number of the expression that it was made from, in the program that was
loaded then. -/
theorem node?_of_makes (h : Life memory moments) (hmem : (q, now) ∈ moments)
    (hmakes : now.Makes site params body c) :
    q.node? c.node = some (.expr (.function site params body)) := by
  obtain ⟨past, hlife⟩ := h.of_mem hmem
  obtain ⟨hq, hholds⟩ := hlife.holds
  obtain ⟨mem, frame, callers, rest, rfl, htasks, rfl⟩ := hmakes
  have hframe := hholds.frames mem _ rfl frame List.mem_cons_self
  have hcontains : q.Contains (.expr (.function site params body)) :=
    hframe.tasks (.eval (.function site params body)) (htasks ▸ List.mem_cons_self)
  exact hq.indexed _ hcontains

/-- A function that is called was made before. -/
theorem made_of_calls (h : Life memory ((p, now) :: past))
    (hcalls : now.Calls mem caller callers c args) : MadeAmong past c := by
  obtain ⟨frame, count, rest, values, rfl, htasks, hvalues, -, -⟩ := hcalls
  obtain ⟨-, hholds⟩ := h.holds
  have hframe := hholds.frames mem _ rfl frame List.mem_cons_self
  have hmem : Value.function c ∈ frame.values :=
    List.mem_of_mem_drop (hvalues ▸ List.mem_cons_self)
  have hmade : MadeAmong ((p, .going mem (frame :: callers)) :: past) c := by
    cases hframe.values _ hmem with
    | function hc => exact hc.1
  obtain ⟨moment, hmoment, site, params, body, hmakes⟩ := hmade
  rcases List.mem_cons.1 hmoment with rfl | hmoment
  · -- At this moment no function is made: the next task is a call.
    obtain ⟨mem', frame', callers', rest', hgoing, htasks', -⟩ := hmakes
    cases hgoing
    rw [htasks] at htasks'
    cases htasks'
  · exact ⟨moment, hmoment, site, params, body, hmakes⟩

/-- Any number of tasks may be performed, and what has been stays in the past. -/
theorem ticks (h : Life memory ((p, now) :: past)) (n : Nat) :
    ∃ past', Life memory ((p, (Progress.next p)^[n] now) :: past') ∧ past ⊆ past' ∧
      (p, now) ∈ (p, (Progress.next p)^[n] now) :: past' := by
  induction n with
  | zero => exact ⟨past, h, List.Subset.refl _, List.mem_cons_self⟩
  | succ n ih =>
    obtain ⟨past', h, hsubset, hmem⟩ := ih
    rw [Function.iterate_succ_apply']
    exact ⟨_, h.tick, List.subset_cons_of_subset _ hsubset, List.mem_cons_of_mem _ hmem⟩

end Life

/-! ### Steps -/

/-- A machine is where its latest moment is: between two steps, or its run is over. -/
structure At (p : Program) (now : Progress) (m : Machine) : Prop where
  program : m.program = some p
  memory : now.memory = m.memory
  paused : m.terminated = false → m.fault = none → Paused p m ∧ now = .going m.memory m.frames

theorem at_load (m : Machine) (p : Program) :
    At p (.going (m.load p).memory (m.load p).frames) (m.load p) := by
  refine ⟨?_, rfl, fun hterminated _ => ?_⟩
  · unfold load
    split <;> rfl
  · by_cases hbody : p.body = []
    · simp [load, hbody] at hterminated
    · exact ⟨paused_load m hbody, rfl⟩

theorem At.step (h : At p now m) : ∃ n, At p ((Progress.next p)^[n] now) m.step.1 := by
  -- A machine that has ended or failed performs no task.
  by_cases hterminated : m.terminated = true
  · refine ⟨0, ?_⟩
    rw [Machine.step, if_pos hterminated]
    exact h
  · by_cases hfault : m.fault.isSome = true
    · refine ⟨0, ?_⟩
      rw [Machine.step, if_neg hterminated, if_pos hfault]
      exact ⟨h.program, h.memory, fun hgoing => by cases hgoing⟩
    · obtain ⟨hpaused, rfl⟩ := h.paused (by simpa using hterminated) (by simpa using hfault)
      obtain ⟨n, hn⟩ := hpaused.ticks_step
      refine ⟨n + 1, ?_⟩
      have hnext := hpaused.paused_step
      rw [hn]
      rw [hpaused.step_eq] at hnext ⊢
      generalize advance p m.memory m.frames = settled at hnext ⊢
      obtain ⟨mem, settled⟩ := settled
      cases settled with
      | ready => exact ⟨rfl, rfl, fun _ _ => ⟨hnext rfl, rfl⟩⟩
      | done => exact ⟨rfl, rfl, fun hgoing => by cases hgoing⟩
      | failed => exact ⟨rfl, rfl, fun _ hnone => by cases hnone⟩

/-- A machine goes through the moments of a life, however it loads and steps. -/
theorem Lived.exists_life (h : Lived memory m) :
    m.globals = (start memory).globals ∧ (m = start memory ∨
      ∃ p now past, Life memory ((p, now) :: past) ∧ At p now m) := by
  induction h with
  | started => exact ⟨rfl, .inl rfl⟩
  | @loaded m text p h hparse ih =>
    obtain ⟨hglobals, hm⟩ := ih
    refine ⟨(globals_load m p).trans hglobals, .inr ?_⟩
    rcases hm with rfl | ⟨q, now, past, hlife, hat⟩
    · exact ⟨p, _, [], .first hparse, at_load _ p⟩
    · exact ⟨p, _, _, hlife.load hat.memory.symm hglobals hparse, at_load m p⟩
  | @stepped m h ih =>
    obtain ⟨hglobals, hm⟩ := ih
    refine ⟨(globals_step m).trans hglobals, ?_⟩
    rcases hm with rfl | ⟨p, now, past, hlife, hat⟩
    · exact .inl rfl
    · obtain ⟨n, hn⟩ := hat.step
      obtain ⟨past', hlife', -⟩ := hlife.ticks n
      exact .inr ⟨p, _, past', hlife', hn⟩

/-! ### Calls -/

/-- A call looks its function up in the program that is loaded. -/
theorem next_of_calls (h : now.Calls mem caller callers c args) (p : Program) :
    now.next p = follow callers (mem.callClosure p callers caller c args) := by
  obtain ⟨frame, count, rest, values, rfl, htasks, hvalues, rfl, rfl⟩ := h
  have hcount : count ≤ frame.values.length := by
    by_contra hlt
    rw [List.drop_eq_nil_of_le (Nat.le_of_not_le hlt)] at hvalues
    cases hvalues
  rw [Progress.next, tick_of_tasks htasks, Memory.perform, Memory.call, if_pos hcount]
  simp only [hvalues]

/-- Where the program that is loaded has a function expression, its body is run. -/
theorem inBody_of_calls (h : now.Calls mem caller callers c args)
    (hnode : p.node? c.node = some (.expr (.function site params body)))
    (hlimit : callers.length + 1 < frameLimit) :
    (now.next p).InBody mem (caller :: callers) c params body args := by
  rw [next_of_calls h]
  unfold Memory.callClosure
  simp only [hnode, if_neg (Nat.not_le_of_lt hlimit), follow]
  obtain ⟨current, harrive⟩ := arrive_cons (.ofBody ((body.head?.map (·.id)).getD c.node)
    (mem.store.extend c.environment .variable).1 (some c.node) body) (caller :: callers)
  rw [harrive]
  exact ⟨_, rfl, rfl, rfl, rfl, rfl⟩

/-- Functions across programs. A machine starts with a new outermost scope, and loads and steps
programs that were parsed; what it goes through are the moments of a life. Whenever the next task
at a moment calls a function, the function was made at an earlier moment, and its number is that of
the function expression that was evaluated then, in the program that was loaded then. If the
program that is loaded now has a function expression at this number, then the call runs its body
with its parameters bound, unless it reaches the limit of frames. If it has none, then the call
fails. So a function runs the body that it was made with under every program that has the same
expression at its number, and under no other. -/
theorem calls_use_loaded_program (memory : Memory) :
    (∀ m p, Lived memory m → m.program = some p →
      ∃ now past, Life memory ((p, now) :: past) ∧ now.memory = m.memory ∧
        (m.terminated = false → m.fault = none → now = .going m.memory m.frames)) ∧
    ∀ (p : Program) (now : Progress) (past : List (Program × Progress)) (mem : Memory)
      (caller : Frame) (callers : List Frame) (c : Closure) (args : List Value),
      Life memory ((p, now) :: past) → now.Calls mem caller callers c args →
      MadeAmong past c ∧
      (∀ moment ∈ past, ∀ site params body, moment.2.Makes site params body c →
        moment.1.node? c.node = some (.expr (.function site params body))) ∧
      (∀ site params body, p.node? c.node = some (.expr (.function site params body)) →
        if callers.length + 1 < frameLimit then
          (now.next p).InBody mem (caller :: callers) c params body args
        else now.next p = .failed .tooManyFrames mem (caller :: callers)) ∧
      ((∀ site params body, p.node? c.node ≠ some (.expr (.function site params body))) →
        now.next p = .failed (.notAFunction c.node) mem (caller :: callers)) := by
  refine ⟨fun m p hlived hprogram => ?_, ?_⟩
  · obtain ⟨-, rfl | ⟨q, now, past, hlife, hat⟩⟩ := hlived.exists_life
    · cases hprogram
    · obtain rfl := Option.some.inj (hat.program.symm.trans hprogram)
      exact ⟨now, past, hlife, hat.memory, fun hterminated hfault =>
        (hat.paused hterminated hfault).2⟩
  · intro p now past mem caller callers c args hlife hcalls
    refine ⟨hlife.made_of_calls hcalls, ?_, ?_, ?_⟩
    · intro moment hmoment site params body hmakes
      exact hlife.node?_of_makes (List.mem_cons_of_mem _ hmoment) hmakes
    · intro site params body hnode
      split
      · exact inBody_of_calls hcalls hnode ‹_›
      · rename_i hlimit
        rw [next_of_calls hcalls]
        unfold Memory.callClosure
        simp only [hnode, if_pos (Nat.le_of_not_lt hlimit), follow]
    · intro hnone
      rw [next_of_calls hcalls]
      unfold Memory.callClosure
      split
      · exact absurd ‹_› (hnone _ _ _)
      · rfl

/-! ### A function that runs another body -/

/-- The body of a function that returns `true`. -/
def returningTrue : Stmt :=
  .returnWith ⟨2, ⟨17, 29⟩⟩ (some (.literal ⟨1, ⟨24, 28⟩⟩ (.boolean true)))

/-- The program that makes this function. -/
def makingTrue : Stmt :=
  .declare ⟨4, ⟨0, 31⟩⟩ ⟨⟨0, ⟨4, 5⟩⟩, "f", .variable⟩
    (some (.function ⟨3, ⟨6, 30⟩⟩ [] [returningTrue]))

/-- The body of a function that returns `false`. -/
def returningFalse : Stmt :=
  .returnWith ⟨2, ⟨17, 30⟩⟩ (some (.literal ⟨1, ⟨24, 29⟩⟩ (.boolean false)))

/-- The other program makes a function at the same number. -/
def makingFalse : Stmt :=
  .declare ⟨4, ⟨0, 32⟩⟩ ⟨⟨0, ⟨4, 5⟩⟩, "g", .variable⟩
    (some (.function ⟨3, ⟨6, 31⟩⟩ [] [returningFalse]))

/-- The other program calls the function of the first one. -/
def callingFirst : Stmt :=
  .declare ⟨8, ⟨32, 42⟩⟩ ⟨⟨5, ⟨36, 37⟩⟩, "r", .variable⟩
    (some (.call ⟨7, ⟨38, 41⟩⟩ (.name ⟨⟨6, ⟨38, 39⟩⟩, "f", .variable⟩) []))

theorem scan_makingTrue : Lexeme.scan "var f=function()\x7breturn true;\x7d;" = .ok
    [⟨.keyword .varWord, ⟨0, 3⟩⟩, ⟨.identifier "f", ⟨4, 5⟩⟩, ⟨.symbol .assign, ⟨5, 6⟩⟩,
      ⟨.keyword .functionWord, ⟨6, 14⟩⟩, ⟨.symbol .leftParen, ⟨14, 15⟩⟩,
      ⟨.symbol .rightParen, ⟨15, 16⟩⟩, ⟨.symbol .leftBrace, ⟨16, 17⟩⟩,
      ⟨.keyword .returnWord, ⟨17, 23⟩⟩, ⟨.boolean true, ⟨24, 28⟩⟩, ⟨.symbol .semicolon, ⟨28, 29⟩⟩,
      ⟨.symbol .rightBrace, ⟨29, 30⟩⟩, ⟨.symbol .semicolon, ⟨30, 31⟩⟩] := by
  decide +kernel

theorem scan_callingFirst :
    Lexeme.scan "var g=function()\x7breturn false;\x7d;var r=f();" = .ok
      [⟨.keyword .varWord, ⟨0, 3⟩⟩, ⟨.identifier "g", ⟨4, 5⟩⟩, ⟨.symbol .assign, ⟨5, 6⟩⟩,
        ⟨.keyword .functionWord, ⟨6, 14⟩⟩, ⟨.symbol .leftParen, ⟨14, 15⟩⟩,
        ⟨.symbol .rightParen, ⟨15, 16⟩⟩, ⟨.symbol .leftBrace, ⟨16, 17⟩⟩,
        ⟨.keyword .returnWord, ⟨17, 23⟩⟩, ⟨.boolean false, ⟨24, 29⟩⟩,
        ⟨.symbol .semicolon, ⟨29, 30⟩⟩, ⟨.symbol .rightBrace, ⟨30, 31⟩⟩,
        ⟨.symbol .semicolon, ⟨31, 32⟩⟩, ⟨.keyword .varWord, ⟨32, 35⟩⟩,
        ⟨.identifier "r", ⟨36, 37⟩⟩, ⟨.symbol .assign, ⟨37, 38⟩⟩, ⟨.identifier "f", ⟨38, 39⟩⟩,
        ⟨.symbol .leftParen, ⟨39, 40⟩⟩, ⟨.symbol .rightParen, ⟨40, 41⟩⟩,
        ⟨.symbol .semicolon, ⟨41, 42⟩⟩] := by
  decide +kernel

set_option maxRecDepth 8000 in
theorem parse_makingTrue :
    (Program.parse "var f=function()\x7breturn true;\x7d;").toOption.map (·.body) =
      some [makingTrue] := by
  rw [Program.parse, scan_makingTrue]
  cbv

set_option maxRecDepth 8000 in
theorem parse_callingFirst :
    (Program.parse "var g=function()\x7breturn false;\x7d;var r=f();").toOption.map (·.body) =
      some [makingFalse, callingFirst] := by
  rw [Program.parse, scan_callingFirst]
  cbv

/-- The first program makes a function and ends, and the other one, which has another function at
its number, calls it. -/
theorem exists_reloading : ∃ p q,
    Program.parse "var f=function()\x7breturn true;\x7d;" = .ok p ∧
    Program.parse "var g=function()\x7breturn false;\x7d;var r=f();" = .ok q ∧
    ∃ past now mem caller c, Life ⟨.empty, 0⟩ ((q, now) :: past) ∧
      now.Calls mem caller [] c [] ∧
      q.node? c.node = some (.expr (.function ⟨3, ⟨6, 31⟩⟩ [] [returningFalse])) ∧
      ∃ moment ∈ past, moment.1 = p ∧ moment.2.Makes ⟨3, ⟨6, 30⟩⟩ [] [returningTrue] c := by
  obtain ⟨p, hp, hpbody⟩ := Program.exists_of_parse_body parse_makingTrue
  obtain ⟨q, hq, hqbody⟩ := Program.exists_of_parse_body parse_callingFirst
  have hcontains : q.Contains (.expr (.function ⟨3, ⟨6, 31⟩⟩ [] [returningFalse])) := by
    have htop : q.Contains (.stmt makingFalse) := .top (by simp [hqbody])
    exact htop.child (List.mem_cons_of_mem _ List.mem_cons_self)
  have hnode := Program.indexed_of_parse hq _ hcontains
  refine ⟨p, q, hp, hq, ?_⟩
  have hfirst : Life ⟨.empty, 0⟩ [(p, .going (fresh.load p).memory (fresh.load p).frames)] :=
    .first hp
  obtain ⟨pbody, pnodes, pparents⟩ := p
  obtain ⟨qbody, qnodes, qparents⟩ := q
  cases hpbody
  cases hqbody
  -- After one task the function is about to be made, and four more end the run. In the other
  -- program six come before the call.
  obtain ⟨past, hmaking, -⟩ := hfirst.ticks 1
  obtain ⟨past₁, hdone, -, hmade⟩ := hmaking.ticks 4
  obtain ⟨past₂, hcalling, hsubset, -⟩ :=
    (hdone.load (m := ⟨_, fresh.globals, none, [], none, false⟩) rfl rfl hq).ticks 6
  exact ⟨past₂, _, _, _, ⟨0, 3, fresh.globals⟩, hcalling, ⟨_, _, _, _, rfl, rfl, rfl, rfl, rfl⟩,
    hnode, (_, _), hsubset hmade, rfl, _, _, _, _, rfl, rfl, rfl⟩

/-- The function that the first program has made runs the body of the other program's function. -/
theorem calls_use_loaded_program_reloading : ∃ p q,
    Program.parse "var f=function()\x7breturn true;\x7d;" = .ok p ∧
    Program.parse "var g=function()\x7breturn false;\x7d;var r=f();" = .ok q ∧
    ∃ past now mem caller c, Life ⟨.empty, 0⟩ ((q, now) :: past) ∧
      now.Calls mem caller [] c [] ∧ MadeAmong past c ∧
      (now.next q).InBody mem [caller] c [] [returningFalse] [] := by
  obtain ⟨p, q, hp, hq, past, now, mem, caller, c, hlife, hcalls, hnode, -⟩ := exists_reloading
  obtain ⟨-, hcall⟩ := calls_use_loaded_program ⟨.empty, 0⟩
  obtain ⟨hmade, -, hruns, -⟩ := hcall q now past mem caller [] c [] hlife hcalls
  have hbegins := hruns _ _ _ hnode
  rw [if_pos (by decide)] at hbegins
  exact ⟨p, q, hp, hq, past, now, mem, caller, c, hlife, hcalls, hmade, hbegins⟩

/-- It is not true of every call that the function runs the body that it was made with. -/
theorem reloaded_function_runs_another_body : ∃ p q,
    Program.parse "var f=function()\x7breturn true;\x7d;" = .ok p ∧
    Program.parse "var g=function()\x7breturn false;\x7d;var r=f();" = .ok q ∧
    ∃ past now mem caller c, Life ⟨.empty, 0⟩ ((q, now) :: past) ∧
      now.Calls mem caller [] c [] ∧
      (∃ moment ∈ past, moment.1 = p ∧ moment.2.Makes ⟨3, ⟨6, 30⟩⟩ [] [returningTrue] c) ∧
      ¬ (now.next q).InBody mem [caller] c [] [returningTrue] [] := by
  obtain ⟨p, q, hp, hq, past, now, mem, caller, c, hlife, hcalls, hnode, hmade⟩ :=
    exists_reloading
  refine ⟨p, q, hp, hq, past, now, mem, caller, c, hlife, hcalls, hmade, fun hbegins => ?_⟩
  obtain ⟨callee, -, -, -, htasks, hgoing⟩ := hbegins
  obtain ⟨callee', -, -, -, htasks', hgoing'⟩ := inBody_of_calls hcalls hnode (by decide)
  rw [hgoing, Progress.going.injEq, List.cons.injEq] at hgoing'
  obtain ⟨-, rfl, -⟩ := hgoing'
  rw [htasks] at htasks'
  cases htasks'

end Machine

end LWorkbench
