import LWorkbench.Proofs.Machine.Slots
import LWorkbench.Proofs.Machine.Steps

/-!
# Runs stay in place

A run starts at the first statement of the program, with one scope for the whole program. Tick by
tick its frames move from place to place: the innermost frame is at work at its place, and each
frame below waits for a call that stands at a place of the program. The history of the run tells
what has begun and what has been declared, and the scopes of the run go along with it.

## Main definitions

* `Waiting` — frames wait for calls at their places
* `InPlace` — all frames and scopes of a run are in place at a tick

## Main results

* `executes_declare_iff`, `executes_call_iff` — the bindings that a tick carries out
* `InPlace.next`, `Machine.inPlace_load` — ticks keep a run in place, and so does loading a program
* `Machine.exists_inPlace` — runs stay in place
* `Machine.Sound.exists_run`, `Machine.Sound.exists_failed` — the pauses of a machine are moments of
  its run, and the faults that it reports are how the run fails
-/

namespace LWorkbench

/-- The frames wait for calls that stand at places of the program. -/
def Waiting (p : Program) (chart : Chart) (run : Nat → Progress) (n : Nat) : List Frame → Prop
  | [] => True
  | frame :: callers =>
    frame.Charted p chart (Begun run n callers) ∧
      (∃ e around, p.Located around (.expr e) ∧ frame.environment.Mirrors chart around ∧
        Waits run n callers frame e) ∧
      Waiting p chart run n callers

/-- At a tick the run goes on, the scopes hold what has been declared in them, the innermost frame
is at work at its place, and the others wait. -/
structure InPlace (p : Program) (run : Nat → Progress) (n : Nat) (chart : Chart) (mem : Memory)
    (frames : List Frame) : Prop where
  going : run n = .going mem frames
  memory : mem.Charted p chart (Declared p run n)
  front : ∀ frame ∈ frames.head?, frame.Charted p chart (Begun run n frames.tail)
  waiting : Waiting p chart run n frames.tail

variable {p : Program} {run : Nat → Progress} {n : Nat} {chart chart' : Chart} {mem mem' : Memory}
  {frame caller callee : Frame} {callers frames : List Frame} {task : Task} {rest : List Task}
  {env : Environment} {id : ScopeId} {b c : Name} {v : Value}

/-! ### Bindings that a tick carries out -/

/-- Only declarations and calls carry out bindings. -/
theorem not_executes (hrun : run n = .going mem (frame :: callers))
    (htask : ∀ task ∈ frame.tasks.head?, (∀ x, task ≠ .declare x) ∧ ∀ count, task ≠ .call count) :
    ¬ Executes p run n id b := by
  intro h
  cases h with
  | declaration hrun' htasks =>
    rw [hrun] at hrun'
    cases hrun'
    exact (htask _ (by rw [htasks]; rfl)).1 _ rfl
  | parameter hrun' htasks =>
    rw [hrun] at hrun'
    cases hrun'
    exact (htask _ (by rw [htasks]; rfl)).2 _ rfl

/-- A declaration carries out the binding of the statement that it has begun with. -/
theorem executes_declare_iff {site : Site} {init : Option Expr} {labels : List String}
    (hrun : run n = .going mem (frame :: callers))
    (htasks : frame.tasks = .declare b.identifier :: rest)
    (hbegun : Begun run n callers (.exec (.declare site b init) labels) env rest
      (.declare b.identifier :: rest))
    (hvalues : frame.values ≠ []) :
    Executes p run n id c ↔ id = frame.environment.scopeId ∧ c = b := by
  constructor
  · intro h
    cases h with
    | declaration hrun' htasks' hbegun' _ hid =>
      rw [hrun] at hrun'
      cases hrun'
      rw [htasks] at htasks'
      obtain ⟨hident, rfl⟩ := List.cons.inj htasks'
      rw [← hident] at hbegun'
      -- The same frame has begun with both statements, so they are the same.
      have hsame := (hbegun.unique hbegun' nofun nofun).1
      cases hsame
      exact ⟨hid.symm, rfl⟩
    | parameter hrun' htasks' =>
      rw [hrun] at hrun'
      cases hrun'
      rw [htasks] at htasks'
      cases htasks'
  · intro h
    obtain ⟨rfl, rfl⟩ := h
    exact .declaration hrun htasks hbegun hvalues rfl

/-- A call carries out the parameters of the function that is called. -/
theorem executes_call_iff {count : Nat} {k : NodeId} {site : Site} {params : List Name}
    {body : List Stmt} (hrun : run n = .going mem (frame :: callers))
    (htasks : frame.tasks = .call count :: rest)
    (hnext : run (n + 1) = .going mem' (callee :: caller :: callers))
    (hfunction : callee.function = some k)
    (hnode : p.node? k = some (.expr (.function site params body))) :
    Executes p run n id b ↔ id = callee.environment.scopeId ∧ b ∈ params := by
  constructor
  · intro h
    cases h with
    | declaration hrun' htasks' =>
      rw [hrun] at hrun'
      cases hrun'
      rw [htasks] at htasks'
      cases htasks'
    | parameter hrun' _ hnext' hfunction' hnode' hb hid =>
      rw [hnext] at hnext'
      cases hnext'
      rw [hfunction] at hfunction'
      cases hfunction'
      rw [hnode] at hnode'
      cases hnode'
      exact ⟨hid.symm, hb⟩
  · intro h
    obtain ⟨rfl, hb⟩ := h
    exact .parameter hrun htasks hnext hfunction hnode hb rfl

/-! ### Frames after a tick -/

theorem Machine.arrive_cons (frame : Frame) (callers : List Frame) :
    ∃ current, Machine.arrive (frame :: callers) = { frame with current } :: callers := by
  rw [Machine.arrive]
  split
  · exact ⟨_, rfl⟩
  · exact ⟨frame.current, rfl⟩

/-- Each of the frames waits for a call. -/
theorem Waiting.of_suffix (h : Waiting p chart run n callers) {below : List Frame}
    (hsuffix : caller :: below <:+ callers) :
    ∃ e around, p.Located around (.expr e) ∧ caller.environment.Mirrors chart around ∧
      Waits run n below caller e := by
  induction callers with
  | nil => cases List.eq_nil_of_suffix_nil hsuffix
  | cons frame callers ih =>
    obtain ⟨-, hwaits, hbelow⟩ := h
    rcases List.suffix_cons_iff.1 hsuffix with heq | hsuffix
    · cases heq
      exact hwaits
    · exact ih hbelow hsuffix

/-- Frames that wait go on waiting while other frames are at work in front of them. -/
theorem Waiting.succ (h : Waiting p chart run n callers) (hgrows : chart.Grows chart')
    (hrun : run (n + 1) = .going mem frames) (hsuffix : callers <:+ frames) :
    Waiting p chart' run (n + 1) callers := by
  induction callers with
  | nil => trivial
  | cons frame callers ih =>
    obtain ⟨inner, hinner⟩ := hsuffix
    obtain ⟨hframe, ⟨e, around, he, hmirrors, hcall, hbegun⟩, hbelow⟩ := h
    have hstands : ∀ {kept}, kept <:+ frame.tasks → Stands run (n + 1) callers kept :=
      fun hkept => ⟨mem, inner, frame, hinner ▸ hrun, hkept⟩
    refine ⟨?_, ⟨e, around, he, hmirrors.grow hgrows, hcall, ?_⟩, ?_⟩
    · exact hframe.mono hgrows fun hkept hbegun => hbegun.succ (hstands hkept)
    · exact hbegun.succ (hstands List.suffix_rfl)
    · exact ih hbelow ((List.suffix_cons _ _).trans ⟨inner, hinner⟩)

/-- The innermost frame goes on after its task. -/
theorem inPlace_stay (hbegins : Begins run n callers task env rest) (hgrows : chart.Grows chart')
    (hmem : mem.Charted p chart' (Declared p run (n + 1)))
    (hframe : frame.Charted p chart' (Beginnings.add (Begun run n callers) task env rest))
    (hwaiting : Waiting p chart run n callers)
    (hrun : run (n + 1) = .going mem (Machine.arrive (frame :: callers))) :
    InPlace p run (n + 1) chart' mem (Machine.arrive (frame :: callers)) := by
  obtain ⟨current, harrive⟩ := Machine.arrive_cons frame callers
  rw [harrive] at hrun ⊢
  refine ⟨hrun, hmem, ?_, hwaiting.succ hgrows hrun (List.suffix_cons _ _)⟩
  have hkept : frame.Charted p chart' (Begun run (n + 1) callers) := by
    refine hframe.mono (.refl _) fun {first env' rest' kept} hkept hbegun => ?_
    have hstands : Stands run (n + 1) callers kept := ⟨mem, [], _, hrun, hkept⟩
    rcases hbegun with hbegun | ⟨rfl, rfl, rfl⟩
    · exact hbegun.succ hstands
    · exact hbegins.begun hstands
  intro frame' hframe'
  cases hframe'
  exact ⟨hkept.values, hkept.place⟩

/-- The innermost frame is left with a value for its caller. -/
theorem inPlace_leave (hmem : mem.Charted p chart (Declared p run (n + 1)))
    (hwaiting : Waiting p chart run n callers) (hv : v.Every (Closure.Charted p chart))
    (hrun : run (n + 1) = .going mem (Machine.arrive (Machine.resume v callers))) :
    InPlace p run (n + 1) chart mem (Machine.arrive (Machine.resume v callers)) := by
  cases callers with
  | nil => exact ⟨hrun, hmem, nofun, trivial⟩
  | cons caller callers =>
    obtain ⟨hcaller, -, hbelow⟩ := hwaiting
    obtain ⟨current, harrive⟩ := Machine.arrive_cons (caller.pushValue v) callers
    rw [Machine.resume, harrive] at hrun ⊢
    refine ⟨hrun, hmem, ?_, hbelow.succ (.refl _) hrun (List.suffix_cons _ _)⟩
    have hkept : (caller.pushValue v).Charted p chart (Begun run (n + 1) callers) := by
      refine (hcaller.pushValue hv).mono (.refl _) fun hkept hbegun => ?_
      exact hbegun.succ ⟨mem, [], _, hrun, hkept⟩
    intro frame hframe
    cases hframe
    exact ⟨hkept.values, hkept.place⟩

/-- The innermost frame calls a function and waits for it. -/
theorem inPlace_enter {e : Expr} {around : List Node} (hgrows : chart.Grows chart')
    (hmem : mem.Charted p chart' (Declared p run (n + 1)))
    (hcallee : callee.Charted p chart' (Begun run (n + 1) (caller :: callers)))
    (hcaller : caller.Charted p chart (Begun run n callers))
    (hwaiting : Waiting p chart run n callers) (he : p.Located around (.expr e))
    (hmirrors : caller.environment.Mirrors chart around)
    (hcall : ∃ site callee args, e = .call site callee args)
    (hbegun : Begun run n callers (.eval e) caller.environment caller.tasks caller.tasks)
    (hrun : run (n + 1) = .going mem (Machine.arrive (callee :: caller :: callers))) :
    InPlace p run (n + 1) chart' mem (Machine.arrive (callee :: caller :: callers)) := by
  obtain ⟨current, harrive⟩ := Machine.arrive_cons callee (caller :: callers)
  rw [harrive] at hrun ⊢
  have hbelow : Waiting p chart run n (caller :: callers) :=
    ⟨hcaller, ⟨e, around, he, hmirrors, hcall, hbegun⟩, hwaiting⟩
  refine ⟨hrun, hmem, ?_, hbelow.succ hgrows hrun (List.suffix_cons _ _)⟩
  intro frame hframe
  cases hframe
  exact ⟨hcallee.values, hcallee.place⟩

/-! ### Calls -/

/-- Apart from bindings, blocks and calls, tasks leave the scopes as they are. -/
theorem Memory.store_perform (hdeclare : ∀ x, task ≠ .declare x) (hassign : ∀ x, task ≠ .assign x)
    (hblock : ∀ site body labels, task ≠ .exec (.block site body) labels)
    (hcall : ∀ count, task ≠ .call count) :
    (mem.perform p callers frame task).1.store = mem.store := by
  cases task with
  | exec s labels =>
    cases s with
    | declare site name init => cases init <;> rfl
    | block site body => exact absurd rfl (hblock site body labels)
    | returnWith site value => cases value <;> rfl
    | _ => rfl
  | eval e =>
    cases e with
    | name r =>
      simp only [Memory.perform, Memory.eval]
      split <;> rfl
    | _ => rfl
  | declare x => exact absurd rfl (hdeclare x)
  | assign x => exact absurd rfl (hassign x)
  | call count => exact absurd rfl (hcall count)
  | _ => rfl

/-! ### Ticks -/

namespace InPlace

theorem not_declares (hrun : run n = .going mem (frame :: callers))
    (htask : ∀ task ∈ frame.tasks.head?, (∀ x, task ≠ .declare x) ∧ ∀ count, task ≠ .call count) :
    Declared p run (n + 1) id b ↔ Declared p run n id b := by
  rw [declared_succ_iff, or_iff_left (not_executes hrun htask)]

theorem of_going (h : InPlace p run n chart mem frames) {frames' : List Frame}
    (hgoing : run n = .going mem' frames') : InPlace p run n chart mem' frames' := by
  have hsame := h.going.symm.trans hgoing
  cases hsame
  exact h

section

variable (h : InPlace p run n chart mem (frame :: callers)) (htasks : frame.tasks = task :: rest)
  (hnext : run (n + 1) =
    Machine.follow callers (mem.perform p callers { frame with tasks := rest } task))
  (hgoing : run (n + 1) = .going mem' frames)

include h

theorem frame_charted : frame.Charted p chart (Begun run n callers) := h.front frame rfl

include htasks hnext hgoing

/-- After a task that opens no scope, if the scopes hold what has been declared in them. -/
theorem next_same (hblock : ∀ site body labels, task ≠ .exec (.block site body) labels)
    (hcall : ∀ count, task ≠ .call count)
    (hmem : (mem.perform p callers { frame with tasks := rest } task).1.Charted p chart
      (Declared p run (n + 1))) :
    ∃ chart', InPlace p run (n + 1) chart' mem' frames := by
  obtain ⟨around, hmirrors, htrail⟩ := h.frame_charted.place
  rw [htasks] at htrail
  have hbegins : Begins run n callers task frame.environment rest :=
    ⟨mem, frame, h.going, htasks, rfl⟩
  have heffect : (mem.perform p callers { frame with tasks := rest } task).2.Charted p chart
      (Beginnings.add (Begun run n callers) task frame.environment rest) :=
    Frame.charted_perform h.frame_charted.values hmirrors htrail
      (fun x v hv => h.memory.lookup hmirrors hv) hblock hcall
  generalize mem.perform p callers { frame with tasks := rest } task = result at *
  obtain ⟨mem'', effect⟩ := result
  cases effect with
  | stay frame' =>
    have hstay := inPlace_stay hbegins (.refl _) hmem heffect h.waiting hnext
    exact ⟨chart, hstay.of_going hgoing⟩
  | enter => cases heffect
  | leave v =>
    have hleave := inPlace_leave hmem h.waiting heffect hnext
    exact ⟨chart, hleave.of_going hgoing⟩
  | fail fault frame' =>
    rw [hgoing] at hnext
    cases hnext

/-- After a task that leaves the scopes as they are. -/
theorem next_plain (hdeclare : ∀ x, task ≠ .declare x) (hassign : ∀ x, task ≠ .assign x)
    (hblock : ∀ site body labels, task ≠ .exec (.block site body) labels)
    (hcall : ∀ count, task ≠ .call count) :
    ∃ chart', InPlace p run (n + 1) chart' mem' frames := by
  refine h.next_same htasks hnext hgoing hblock hcall ?_
  refine h.memory.congr (Memory.store_perform hdeclare hassign hblock hcall) fun id b => ?_
  refine not_declares h.going fun first hfirst => ?_
  rw [htasks] at hfirst
  cases hfirst
  exact ⟨hdeclare, hcall⟩

end

/-- After a declaration. -/
theorem next_declare (h : InPlace p run n chart mem (frame :: callers)) {x : String}
    (htasks : frame.tasks = .declare x :: rest)
    (hnext : run (n + 1) =
      Machine.follow callers (mem.perform p callers { frame with tasks := rest } (.declare x)))
    (hgoing : run (n + 1) = .going mem' frames) :
    ∃ chart', InPlace p run (n + 1) chart' mem' frames := by
  refine h.next_same htasks hnext hgoing nofun nofun ?_
  obtain ⟨around, hmirrors, htrail⟩ := h.frame_charted.place
  rw [htasks] at htrail
  cases htrail with
  | @declare site b init labels _ _ _ _ hs hbegun _ _ =>
    cases hvalues : frame.values with
    | nil =>
      simp only [Memory.perform, hvalues, Machine.follow, hgoing] at hnext
      cases hnext
    | cons v values =>
      simp only [Memory.perform]
      have hexecutes : ∀ id c, Executes p run n id c ↔
          id = frame.environment.scopeId ∧ c = b := fun id c =>
        executes_declare_iff h.going htasks hbegun (by rw [hvalues]; exact List.cons_ne_nil _ _)
      -- The nearest scope around the declaration is the innermost one of the chain.
      obtain ⟨scope, outer, hscopes, hbindings⟩ := Node.exists_scopesAround p around
      have howner : chart.owner frame.environment.scopeId = scope := by
        have howners := hmirrors.owners
        rw [hscopes] at howners
        exact (List.cons.inj howners).1
      have hb : b ∈ p.bindingsOf (chart.owner frame.environment.scopeId) := by
        rw [howner, ← hbindings]
        exact hs.vars_subset List.mem_cons_self
      refine h.memory.declareIn (hmirrors.known _ List.mem_cons_self) ?_ ?_ ?_ ?_
      · exact h.frame_charted.values v (hvalues ▸ List.mem_cons_self)
      · exact ⟨b, declared_succ_iff.2 (.inr ((hexecutes _ b).2 ⟨rfl, rfl⟩)), rfl⟩
      · exact fun _ _ hdeclared => hdeclared.succ
      · intro other c hc
        refine (declared_succ_iff.1 hc).imp_right fun hc => ?_
        obtain ⟨rfl, rfl⟩ := (hexecutes other c).1 hc
        exact ⟨rfl, rfl, hb⟩
  | plain htask => cases htask

/-- After an assignment. -/
theorem next_assign (h : InPlace p run n chart mem (frame :: callers)) {x : String}
    (htasks : frame.tasks = .assign x :: rest)
    (hnext : run (n + 1) =
      Machine.follow callers (mem.perform p callers { frame with tasks := rest } (.assign x)))
    (hgoing : run (n + 1) = .going mem' frames) :
    ∃ chart', InPlace p run (n + 1) chart' mem' frames := by
  refine h.next_same htasks hnext hgoing nofun nofun ?_
  have hsame : ∀ id b, Declared p run (n + 1) id b ↔ Declared p run n id b := by
    refine fun id b => not_declares h.going fun first hfirst => ?_
    rw [htasks] at hfirst
    cases hfirst
    exact ⟨nofun, nofun⟩
  obtain ⟨around, hmirrors, -⟩ := h.frame_charted.place
  rcases Memory.assign_cases p mem callers { frame with tasks := rest } x with
    ⟨fault, hfail⟩ | ⟨v, id, hv, hid, hassign⟩
  · rw [hfail]
    exact h.memory.congr rfl hsame
  · rw [hassign]
    exact (h.memory.assign hmirrors hid (h.frame_charted.values v hv)).congr rfl hsame

/-- After entering a block. -/
theorem next_block (h : InPlace p run n chart mem (frame :: callers)) {site : Site}
    {body : List Stmt} {labels : List String}
    (htasks : frame.tasks = .exec (.block site body) labels :: rest)
    (hnext : run (n + 1) = Machine.follow callers
      (mem.perform p callers { frame with tasks := rest } (.exec (.block site body) labels)))
    (hgoing : run (n + 1) = .going mem' frames) :
    ∃ chart', InPlace p run (n + 1) chart' mem' frames := by
  have hsame : ∀ id b, Declared p run (n + 1) id b ↔ Declared p run n id b := by
    refine fun id b => not_declares h.going fun first hfirst => ?_
    rw [htasks] at hfirst
    cases hfirst
    exact ⟨nofun, nofun⟩
  obtain ⟨around, hmirrors, htrail⟩ := h.frame_charted.place
  rw [htasks] at htrail
  have hinner : (mem.store.extend frame.environment .variable).1.scopeIds =
      chart.size :: frame.environment.scopeIds := by
    rw [Store.scopeIds_extend, h.memory.size]
  obtain ⟨node, rfl, hnode, hframe⟩ := Frame.charted_block { frame with tasks := rest }
    h.frame_charted.values hmirrors htrail (Nat.le_of_lt h.memory.base) hinner
  have hbegins : Begins run n callers (.exec (.block site body) labels) frame.environment rest :=
    ⟨mem, frame, h.going, htasks, rfl⟩
  have hmem := (h.memory.extend hnode rfl frame.environment).congr rfl hsame
  have hstay := inPlace_stay hbegins (chart.grows_push _) hmem
    (hframe.mono (.refl _) fun _ => .inl) h.waiting hnext
  exact ⟨_, hstay.of_going hgoing⟩

/-- After a call. -/
theorem next_call (hp : p.Indexed) (h : InPlace p run n chart mem (frame :: callers)) {count : Nat}
    (htasks : frame.tasks = .call count :: rest)
    (hnext : run (n + 1) =
      Machine.follow callers (mem.perform p callers { frame with tasks := rest } (.call count)))
    (hgoing : run (n + 1) = .going mem' frames) :
    ∃ chart', InPlace p run (n + 1) chart' mem' frames := by
  simp only [Memory.perform] at hnext
  rcases Memory.call_cases p mem callers { frame with tasks := rest } count with
    ⟨fault, values, -, hfail⟩ |
    ⟨closure, values, site, params, body, current, hvalues, hnode, hcall⟩
  · -- A call that fails ends the run.
    rw [hgoing, hfail] at hnext
    cases hnext
  · rw [hcall, Machine.follow] at hnext
    obtain ⟨around, hmirrors, htrail⟩ := h.frame_charted.place
    rw [htasks] at htrail
    have hframe := h.frame_charted.values
    have hdrop : ∀ v ∈ Value.function closure :: values, v ∈ frame.values := fun v hv =>
      List.mem_of_mem_drop (hvalues ▸ hv)
    -- The function stands at a place, and its frame starts there.
    have hclosure := hframe _ (hdrop _ List.mem_cons_self)
    cases hclosure with
    | function hclosure =>
      obtain ⟨place, site', params', body', hlocated, hid, hplace⟩ := hclosure
      have hfound : p.node? closure.node = some (.expr (.function site' params' body')) := by
        rw [hid]
        exact hp _ hlocated.contains
      rw [hnode] at hfound
      cases hfound
      have hinner : (mem.store.extend closure.environment .variable).1.scopeIds =
          chart.size :: closure.environment.scopeIds := by
        rw [Store.scopeIds_extend, h.memory.size]
      have hargs : ∀ v ∈ (frame.values.take count).reverse, v.Every (Closure.Charted p chart) :=
        fun v hv => hframe v (List.mem_of_mem_take (List.mem_reverse.1 hv))
      have hmem := h.memory.enter hlocated.contains closure.environment hargs
      obtain ⟨current', harrive⟩ := Machine.arrive_cons (Frame.ofBody current
        (mem.store.extend closure.environment .variable).1 (some closure.node) body)
        ({ frame with tasks := rest, values } :: callers)
      have hdeclared : ∀ id b, Declared p run (n + 1) id b ↔ Declared p run n id b ∨
          id = (mem.store.extend closure.environment .variable).1.scopeId ∧ b ∈ params := by
        intro id b
        rw [declared_succ_iff]
        exact or_congr_right (executes_call_iff h.going htasks (harrive ▸ hnext) rfl hnode)
      cases htrail with
      | call he hbegun hshed hrest =>
        have hcaller : ({ frame with tasks := rest, values } : Frame).Charted p chart
            (Begun run n callers) :=
          ⟨fun v hv => hframe v (hdrop v (List.mem_cons_of_mem _ hv)), _, hmirrors.shed hshed,
            hrest⟩
        have henter := inPlace_enter (chart.grows_push _) (hmem.congr rfl hdeclared)
          (Frame.charted_callee hlocated hplace (Nat.le_of_lt h.memory.base) hinner current _)
          hcaller h.waiting he hmirrors ⟨_, _, _, rfl⟩ (hbegun.suffix (List.suffix_cons _ _)) hnext
        exact ⟨_, henter.of_going hgoing⟩
      | plain htask => cases htask

/-- A tick keeps a run in place. -/
theorem next (hp : p.Indexed) {frames' : List Frame} (h : InPlace p run n chart mem frames)
    (hnext : run (n + 1) = (run n).next p) (hgoing : run (n + 1) = .going mem' frames') :
    ∃ chart', InPlace p run (n + 1) chart' mem' frames' := by
  rw [h.going, Progress.next] at hnext
  cases frames with
  | nil =>
    rw [hgoing] at hnext
    cases hnext
  | cons frame callers =>
    cases htasks : frame.tasks with
    | nil =>
      -- The frame is left with nothing, and nothing is declared.
      rw [Machine.tick, htasks] at hnext
      have hsame : ∀ id b, Declared p run (n + 1) id b ↔ Declared p run n id b := by
        refine fun id b => not_declares h.going fun first hfirst => ?_
        rw [htasks] at hfirst
        cases hfirst
      have hleave := inPlace_leave (h.memory.congr rfl hsame) h.waiting .undefined hnext
      exact ⟨chart, hleave.of_going hgoing⟩
    | cons task rest =>
      rw [Machine.tick_of_tasks htasks] at hnext
      cases task with
      | declare x => exact h.next_declare htasks hnext hgoing
      | assign x => exact h.next_assign htasks hnext hgoing
      | call count => exact h.next_call hp htasks hnext hgoing
      | exec s labels =>
        cases s with
        | block site body => exact h.next_block htasks hnext hgoing
        | _ => apply h.next_plain htasks hnext hgoing <;> simp
      | _ => apply h.next_plain htasks hnext hgoing <;> simp

end InPlace

/-! ### Whole runs -/

namespace Machine

/-- A program is loaded at its first statement, in a new scope for the whole program. -/
theorem inPlace_load (memory : Memory) (p : Program) :
    ∃ chart, InPlace p (((start memory).load p).run p) 0 chart ((start memory).load p).memory
      ((start memory).load p).frames := by
  let chart : Chart := ⟨fun _ => none, memory.store.scopes.size, memory.store.scopes.size + 1⟩
  have hnothing : ∀ id b, ¬ Declared p (((start memory).load p).run p) 0 id b := by
    intro id b h
    obtain ⟨j, hj, -⟩ := h
    exact Nat.not_lt_zero j hj
  have hmemory : ((start memory).load p).memory = (start memory).memory := memory_load _ p
  have hmem : (start memory).memory.Charted p chart
      (Declared p (((start memory).load p).run p) 0) := by
    refine ⟨?_, Nat.lt_succ_self _, fun id b h => absurd h (hnothing id b), ?_⟩
    · rw [store_start, Array.size_push]
    · intro id hbase hsize
      obtain rfl : id = memory.store.scopes.size := Nat.le_antisymm (Nat.le_of_lt_succ hsize) hbase
      have hscope : (start memory).memory.store.scope memory.store.scopes.size =
          .empty .variable := by
        rw [Store.scope, store_start, Array.getElem?_push_size]
        rfl
      rw [hscope]
      apply Scope.charted_empty (hnothing _)
      intro n hn
      cases hn
  refine ⟨chart, rfl, hmemory ▸ hmem, ?_, ?_⟩
  -- The first frame, if the program has a statement to run.
  · unfold load
    split
    · rename_i first others hbody
      intro frame hframe
      cases hframe
      refine ⟨List.forall_mem_nil _, [], ⟨rfl, fun id hid => ?_⟩, ?_⟩
      · obtain rfl := List.mem_singleton.1 hid
        exact ⟨Nat.le_refl _, Nat.lt_succ_self _⟩
      · have htrail : ∀ {H}, Trail p chart H (p.body.map (Task.exec · []) ++ []) []
            (start memory).globals :=
          .execs (fun s hs => ⟨s, hs, .root⟩) rfl (.done rfl)
        rw [List.append_nil] at htrail
        exact htrail
    · intro frame hframe
      cases hframe
  · unfold load
    split <;> trivial

/-- Runs stay in place. -/
theorem exists_inPlace (hp : p.Indexed) (memory : Memory) {frames : List Frame}
    (hgoing : ((start memory).load p).run p n = .going mem frames) :
    ∃ chart, InPlace p (((start memory).load p).run p) n chart mem frames := by
  induction n generalizing mem frames with
  | zero =>
    obtain ⟨chart, h⟩ := inPlace_load memory p
    exact ⟨chart, h.of_going hgoing⟩
  | succ n ih =>
    have hnext := run_succ p ((start memory).load p) n
    cases hrun : ((start memory).load p).run p n with
    | going mem' frames' =>
      obtain ⟨chart, h⟩ := ih hrun
      exact h.next hp hnext hgoing
    | done | failed =>
      -- A run that has ended does not go on.
      rw [hrun, hgoing] at hnext
      cases hnext

/-- A step from one pause to the next is a number of ticks. -/
theorem Paused.exists_ticks {m : Machine} (h : Paused p m) (hpaused : Paused p m.step.1) :
    ∃ n, (Progress.next p)^[n] (.going m.memory m.frames) =
      .going m.step.1.memory m.step.1.frames := by
  obtain ⟨n, hn⟩ := h.ticks_step
  refine ⟨n + 1, hn.trans ?_⟩
  rw [h.step_eq] at hpaused ⊢
  generalize advance p m.memory m.frames = settled at hpaused ⊢
  obtain ⟨mem, settled⟩ := settled
  cases settled with
  | ready => rfl
  | done => exact absurd hpaused.terminated nofun
  | failed => exact absurd hpaused.fault nofun

/-- The pauses of a machine are moments of its run. -/
theorem Sound.exists_run {base : ScopeId} {m : Machine} (hp : p.Indexed) (h : Sound p base m)
    {k : Nat} (hpaused : Paused p (m.after k)) :
    ∃ n, m.run p n = .going (m.after k).memory (m.after k).frames := by
  induction k with
  | zero => exact ⟨0, rfl⟩
  | succ k ih =>
    rw [after_succ] at hpaused ⊢
    cases h.steps hp k with
    | running hbefore hsound =>
      obtain ⟨n, hn⟩ := ih hbefore
      obtain ⟨i, hi⟩ := hbefore.exists_ticks hpaused
      refine ⟨i + n, ?_⟩
      rw [run, Function.iterate_add_apply]
      exact (congrArg _ hn).trans hi
    | ended hended _ =>
      -- A machine whose run is over does not pause again.
      have hterminated : (m.after k).step.1.terminated = true := by
        unfold Machine.step
        split
        · assumption
        · rename_i hrunning
          rw [if_pos (hended.resolve_left hrunning)]
          rfl
      rw [hpaused.terminated] at hterminated
      cases hterminated

/-- Ticks that get to a statement come past the one that settling stops at. -/
theorem exists_ticks_settle {s : Stmt} {labels : List String}
    (hn : (Progress.next p)^[n] (.going mem (arrive frames)) = .going mem' (frame :: callers))
    (htasks : frame.tasks = .exec s labels :: rest) :
    ∃ i ≤ n, (Progress.next p)^[i] (.going mem (arrive frames)) =
        Settled.progress (settle p mem frames) ∧
      (Settled.progress (settle p mem frames)).isEnd = false := by
  -- Without a tick the statement would have come next already.
  have hzero : ∀ {mem : Memory} {first : Frame} {others : List Frame},
      first.tasks.head?.bind Task.statement? = none →
      Progress.going mem (first :: others) ≠ .going mem' (frame :: callers) := by
    intro mem first others hfirst heq
    cases heq
    rw [htasks] at hfirst
    cases hfirst
  fun_induction settle p mem frames generalizing n with
  | case1 mem =>
    cases n with
    | zero => cases hn
    | succ n =>
      rw [Function.iterate_succ_apply] at hn
      have hend := (Progress.iterate_next_of_isEnd rfl n).symm.trans hn
      cases hend
  | case2 mem first others hfirst ih =>
    have harrive : arrive (first :: others) = first :: others := by simp [arrive, hfirst]
    rw [harrive] at hn ⊢
    cases n with
    | zero => exact absurd hn (hzero (by rw [hfirst]; rfl))
    | succ n =>
      rw [Function.iterate_succ_apply, Progress.next, tick, hfirst] at hn
      obtain ⟨i, hi, hticks, hgoing⟩ := ih hn
      refine ⟨i + 1, Nat.succ_le_succ hi, ?_, hgoing⟩
      rw [Function.iterate_succ_apply, Progress.next, tick, hfirst]
      exact hticks
  | case3 mem first others task tasks hfirst s labels hstmt =>
    obtain rfl := statement?_eq_some hstmt
    refine ⟨0, Nat.zero_le n, ?_, rfl⟩
    simp [arrive_of_statement hfirst, Settled.progress, Frame.schedule, ← hfirst]
  | case4 mem first others task tasks hfirst hstmt mem' frame' heffect ih
  | case5 mem first others task tasks hfirst hstmt mem' caller callee heffect ih
  | case6 mem first others task tasks hfirst hstmt mem' value heffect ih =>
    rw [arrive_of_other hfirst hstmt] at hn ⊢
    cases n with
    | zero => exact absurd hn (hzero (by rw [hfirst]; exact hstmt))
    | succ n =>
      rw [Function.iterate_succ_apply, Progress.next, tick_of_tasks hfirst, heffect] at hn
      obtain ⟨i, hi, hticks, hgoing⟩ := ih hn
      refine ⟨i + 1, Nat.succ_le_succ hi, ?_, hgoing⟩
      rw [Function.iterate_succ_apply, Progress.next, tick_of_tasks hfirst, heffect]
      exact hticks
  | case7 mem first others task tasks hfirst hstmt mem' fault frame' heffect =>
    rw [arrive_of_other hfirst hstmt] at hn
    cases n with
    | zero => exact absurd hn (hzero (by rw [hfirst]; exact hstmt))
    | succ n =>
      rw [Function.iterate_succ_apply, Progress.next, tick_of_tasks hfirst, heffect] at hn
      have hend := (Progress.iterate_next_of_isEnd rfl n).symm.trans hn
      cases hend

/-- Ticks that get from a pause to a statement come past the next pause. -/
theorem Paused.exists_ticks_step {m : Machine} {s : Stmt} {labels : List String} (h : Paused p m)
    (hn : m.run p (n + 1) = .going mem (frame :: callers))
    (htasks : frame.tasks = .exec s labels :: rest) :
    ∃ i ≤ n, m.run p (i + 1) = progress m.step ∧ (progress m.step).isEnd = false := by
  obtain ⟨first, others, s', labels', tasks, hframes, hfirst, -⟩ := h.front
  have hrun : ∀ i, m.run p (i + 1) = (Progress.next p)^[i] (follow others
      (m.memory.exec { first with tasks } labels' s')) := by
    intro i
    rw [run, Function.iterate_succ_apply, hframes, Progress.next, tick_of_tasks hfirst]
    rfl
  rw [h.step_eq, progress_conclude, advance, hframes, settle_of_statement hfirst]
  rw [hrun] at hn
  simp only [hrun, runStatement]
  cases hexec : m.memory.exec { first with tasks } labels' s' with
  | mk mem' effect =>
    rw [hexec] at hn
    cases effect with
    | fail =>
      have hend := (Progress.iterate_next_of_isEnd rfl n).symm.trans hn
      cases hend
    | _ => exact exists_ticks_settle hn htasks

/-- A tick at which a statement comes next is a pause. -/
theorem Paused.exists_after {m : Machine} {s : Stmt} {labels : List String} (h : Paused p m)
    (hn : m.run p n = .going mem (frame :: callers))
    (htasks : frame.tasks = .exec s labels :: rest) :
    ∃ k, Paused p (m.after k) ∧ (m.after k).memory = mem ∧
      (m.after k).frames = frame :: callers := by
  -- Every step takes a tick at least, so that fewer ticks are left behind it.
  induction n using Nat.strongRecOn generalizing m with
  | ind n ih =>
    cases n with
    | zero => exact ⟨0, h, Progress.going.inj hn⟩
    | succ n =>
      obtain ⟨i, hi, hticks, hgoing⟩ := h.exists_ticks_step hn htasks
      have hpaused : m.step.2 = .paused := by simpa [isEnd_progress] using hgoing
      have hprogress : progress m.step = .going m.step.1.memory m.step.1.frames := by
        rw [← Prod.mk.eta (p := m.step), hpaused]
        rfl
      have hrest : m.step.1.run p (n - i) = .going mem (frame :: callers) := by
        rw [← hn, ← Nat.sub_add_cancel hi, Nat.add_assoc, run, run, Function.iterate_add_apply]
        rw [run] at hticks
        rw [hticks, hprogress, Nat.sub_add_cancel hi]
      obtain ⟨k, hk⟩ := ih _ (by omega) (h.paused_step hpaused) hrest
      refine ⟨k + 1, ?_⟩
      rw [after, Function.iterate_succ_apply]
      exact hk

/-- A run that fails is reported by stepping. -/
theorem exists_runFor_of_failed {memory : Memory} {frames : List Frame} {fault : Fault}
    (h : ((start memory).load p).run p n = .failed fault mem frames) :
    ∃ fuel m, ((start memory).load p).runFor fuel = some (m, .failed fault) := by
  have hbody : p.body ≠ [] := by
    intro hbody
    -- Without statements the run ends at once.
    have hload : ((start memory).load p).run p 1 = .done ((start memory).load p).memory := by
      rw [run, load, hbody]
      rfl
    have hsame := Progress.end_unique h hload rfl rfl
    cases hsame
  obtain ⟨fuel, ⟨m, outcome⟩, hrun, hprogress⟩ :=
    ((paused_load (start memory) hbody).ends_iff rfl).2 ⟨n, h⟩
  cases outcome with
  | paused | finished => cases hprogress
  | failed fault' =>
    cases hprogress
    exact ⟨fuel, m, hrun⟩

/-- A run fails by its last tick. -/
theorem exists_last_tick {m : Machine} {fault : Fault} {frames : List Frame}
    (h : m.run p n = .failed fault mem frames) : ∃ i mem' frames',
      m.run p i = .going mem' frames' ∧ m.run p (i + 1) = .failed fault mem frames := by
  induction n with
  | zero => cases h
  | succ n ih =>
    have hnext := run_succ p m n
    cases hrun : m.run p n with
    | going mem' frames' => exact ⟨n, mem', frames', hrun, h⟩
    | done mem' =>
      rw [hrun, h] at hnext
      cases hnext
    | failed fault' mem' frames' =>
      rw [hrun, h] at hnext
      cases hnext
      exact ih hrun

/-- What a step that fails leaves is how the run fails. -/
theorem Sound.exists_run_failed {base : ScopeId} {m : Machine} {k : Nat} {fault : Fault}
    (hp : p.Indexed) (h : Sound p base m) (hfailed : (m.after k).step.2 = .failed fault) :
    ∃ n, m.run p n = .failed fault (m.after (k + 1)).memory (m.after (k + 1)).frames := by
  rw [after_succ]
  cases h.steps hp k with
  | running hpaused hsound =>
    obtain ⟨n, hn⟩ := h.exists_run hp hpaused
    obtain ⟨i, hi⟩ := hpaused.ticks_step
    refine ⟨i + 1 + n, ?_⟩
    have hprogress : progress (m.after k).step =
        .failed fault (m.after k).step.1.memory (m.after k).step.1.frames := by
      generalize (m.after k).step = result at hfailed
      obtain ⟨m', outcome⟩ := result
      cases hfailed
      rfl
    rw [run, Function.iterate_add_apply, ← hprogress, ← hi]
    exact congrArg _ hn
  | ended hended _ =>
    rw [Machine.step] at hfailed
    split at hfailed
    · cases hfailed
    · rename_i hrunning
      rw [if_pos (hended.resolve_left hrunning)] at hfailed
      cases hfailed

/-- What a step reports is how the run fails. -/
theorem Sound.exists_failed {base : ScopeId} {m : Machine} {k : Nat} {fault : Fault}
    (hp : p.Indexed) (h : Sound p base m) (hfailed : (m.after k).step.2 = .failed fault) :
    ∃ n mem frames, m.run p n = .failed fault mem frames := by
  obtain ⟨n, hn⟩ := h.exists_run_failed hp hfailed
  exact ⟨n, _, _, hn⟩

end Machine

end LWorkbench
