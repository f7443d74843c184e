import LWorkbench.Proofs.Machine.Chains

/-!
# Jumps find their targets

Analysis tells from the tree which loops and labels a jump can reach, and marks the jumps that reach
none. A run looks for the targets among its tasks. Where analysis has marked nothing, the run finds
what analysis has found: no jump fails, and a jump to a label stops at the marker of the statement
that has the label, or of the loop behind it, in the chain in which that statement began.

## Main definitions

* `JumpMessage` — the wordings of the faults of jumps
* `Program.CleanJumps` — analysis marks no jump and no label
* `StopsAt` — a jump stops at the marker of a statement

## Main results

* `Memory.spares_perform` — other tasks do not fail like jumps
* `InPlace.break_stops`, `InPlace.continue_stops` — jumps to labels
* `Machine.jumps_reach_definitions` — analysis and runs agree on jumps
-/

namespace LWorkbench

/-- The fault of a jump without a target. -/
def Fault.isJump : Fault → Bool
  | .illegalBreak | .illegalContinue | .undefinedLabel _ => true
  | _ => false

/-- What a machine reports about a jump without a target. -/
inductive JumpMessage : String → Prop
  | illegalBreak : JumpMessage "Illegal break statement"
  | illegalContinue : JumpMessage "Illegal continue statement"
  | undefinedLabel (x : String) : JumpMessage s!"Undefined label '{x}'"

/-- Whether the statement is a jump to a loop or a label. -/
def Stmt.isJump : Stmt → Bool
  | .breakTo .. | .continueTo .. => true
  | _ => false

/-- Whether the node is a jump to a loop or a label, or the name of a label. -/
def Node.isJump : Node → Bool
  | stmt s => s.isJump
  | expr (.name x) => x.kind == .label
  | _ => false

/-- Analysis marks no jump and no name of a label. -/
def Program.CleanJumps (p : Program) : Prop :=
  ∀ n, p.Contains n → n.isJump = true → (p.annotate.note n.id).violation = none

/-- Among the tasks behind a jump the marker of a statement is found. It has stood in front of the
tasks that are left ever since the frame began with the statement, in the chain that is put back. -/
structure StopsAt (run : Nat → Progress) (n : Nat) (callers : List Frame) (wanted : Task → Bool)
    (frame : Frame) (marker : Task) (s : Stmt) (rest : List Task) (env : Environment) : Prop where
  found : Frame.unwindTasks wanted frame.tasks frame.environment = (some (marker, rest), env)
  begun : ∃ labels, Begun run n callers (.exec s labels) env rest (marker :: rest)

variable {p : Program} {owner : ScopeId → Option Node} {run : Nat → Progress} {n : Nat}
  {chart : Chart} {mem : Memory} {frame : Frame} {callers frames : List Frame} {task : Task}
  {tasks : List Task} {around : List Node} {node : Node} {site : Site} {labels : List String}
  {l found : Name} {body s : Stmt} {fault : Fault} {v : Violation}

/-- The wording of another fault is none of a jump. -/
theorem not_jumpMessage (h : fault.isJump = false) : ¬ JumpMessage fault.message := by
  intro hmessage
  generalize hm : fault.message = message at hmessage
  rw [← String.toList_inj] at hm
  -- The first letters differ.
  obtain _ | _ | x := hmessage <;>
    cases fault with
    | notCallable type =>
      unfold Fault.message at hm
      cases type <;> simp [toString, ValueType.word] at hm
    | illegalBreak | illegalContinue | undefinedLabel => cases h
    | _ =>
      unfold Fault.message at hm
      simp [toString] at hm

/-! ### Faults of other tasks -/

/-- The effect is not the fault of a jump. -/
def Effect.Spares : Effect → Prop
  | .fail fault _ => fault.isJump = false
  | _ => True

namespace Effect

theorem spares_withValue {next : Value → Frame → Effect} (h : ∀ v frame, (next v frame).Spares) :
    (withValue frame next).Spares := by
  unfold withValue
  split
  · exact h _ _
  · rfl

/-- Operators fail because of their operands. -/
theorem spares_result {r : Except Fault Value} (h : Except.Every (fun _ => True) r) :
    (result frame r).Spares := by
  cases r with
  | ok value => trivial
  | error fault =>
    cases fault with
    | illegalBreak | illegalContinue | undefinedLabel => cases h
    | _ => rfl

end Effect

namespace Memory

theorem spares_exec (hs : s.isJump = false) : (mem.exec frame labels s).2.Spares := by
  cases s with
  | declare site name init => cases init <;> trivial
  | returnWith site value => cases value <;> trivial
  | breakTo | continueTo => cases hs
  | _ => trivial

theorem spares_eval (e : Expr) : (mem.eval frame e).2.Spares := by
  cases e with
  | name r =>
    simp only [eval]
    split
    · trivial
    · rfl
  | _ => trivial

theorem spares_call (count : Nat) : (mem.call p callers frame count).2.Spares := by
  unfold call
  split
  · split
    · unfold callClosure
      split
      · split
        · rfl
        · trivial
      · rfl
    · rfl
    · rfl
  · rfl

/-- Only jumps fail like jumps. -/
theorem spares_perform (htask : ∀ s labels, task = .exec s labels → s.isJump = false) :
    (mem.perform p callers frame task).2.Spares := by
  -- An operator fails like no jump, whatever its operands are.
  cases hoperator : task.operands? with
  | some count =>
    rcases operator_cases p mem callers frame hoperator with
      ⟨values, -, hmissing⟩ | ⟨values, result, -, hresult, hperform⟩
    · rw [hmissing]
      rfl
    · rw [hperform]
      exact Effect.spares_result (hresult _ fun v _ => v.every_true)
  | none =>
    cases task with
    | unary | binary | array | tuple | object | member | index => cases hoperator
    | exec s labels => exact spares_exec (htask s labels rfl)
    | eval e => exact spares_eval e
    | call count => exact spares_call count
    | restore | loop | label => trivial
    | discard | returnValue =>
      simp only [perform]
      exact Effect.spares_withValue fun _ _ => trivial
    | branch | loopTest | logical =>
      simp only [perform]
      refine Effect.spares_withValue fun v frame => ?_
      split <;> trivial
    | declare name =>
      simp only [perform]
      split
      · trivial
      · rfl
    | assign name =>
      simp only [perform]
      split
      · split
        · trivial
        · rfl
      · rfl

end Memory

/-! ### Jumps that are not marked -/

namespace Program

/-- A jump that is not marked breaks no rule. -/
theorem CleanJumps.not_violates (hp : p.Formed) (h : p.CleanJumps) (hn : p.Located around node)
    (hjump : node.isJump = true) : ¬ p.Violates around node v := by
  intro hviolates
  have hmark := hp.mark_annotate_iff.2 ⟨around, node, hn, rfl, hviolates⟩
  obtain ⟨note, hnote, hv⟩ := Option.bind_eq_some_iff.1 hmark
  have hclean := h node hn.contains hjump
  rw [Annotated.note, hnote, Option.getD_some, hv] at hclean
  cases hclean

theorem CleanJumps.exists_loop (hp : p.Formed) (h : p.CleanJumps)
    (hs : p.Located around (.stmt s))
    (hjump : s = .breakTo site none ∨ s = .continueTo site none) :
    ∃ n ∈ Node.sameFunction around, n.isLoop = true := by
  by_contra hnone
  have hloop : ∀ n ∈ Node.sameFunction around, n.isLoop = false := by
    intro n hn
    by_contra hn'
    exact hnone ⟨n, hn, Bool.not_eq_false _ ▸ hn'⟩
  rcases hjump with rfl | rfl
  · exact h.not_violates hp hs rfl (.illegalBreak hloop)
  · exact h.not_violates hp hs rfl (.illegalContinue hloop)

/-- The label of a jump that is not marked breaks no rule. -/
theorem CleanJumps.not_violates_label (hp : p.Formed) (h : p.CleanJumps)
    (hs : p.Located around node) (hjump : node.jumpLabel? = some l) :
    ¬ p.Violates (node :: around) (.ofName l) v := by
  refine h.not_violates hp (hs.child (Node.mem_children_of_jumpLabel? hjump)) ?_
  rw [Node.ofName, Node.isJump, hp.kind_of_label hs.contains (.inr hjump)]
  rfl

/-- The label of a `break` that is not marked stands around it. -/
theorem CleanJumps.exists_target (hp : p.Formed) (h : p.CleanJumps)
    (hs : p.Located around (.stmt (.breakTo site (some l)))) :
    ∃ found body, Node.target? around l.identifier = some (found, body) := by
  cases htarget : Node.target? around l.identifier with
  | none => exact absurd (.undefinedBreakLabel htarget) (h.not_violates_label hp hs rfl)
  | some target => exact ⟨target.1, target.2, rfl⟩

/-- The label of a `continue` that is not marked stands in front of a loop around it. -/
theorem CleanJumps.exists_loop_target (hp : p.Formed) (h : p.CleanJumps)
    (hs : p.Located around (.stmt (.continueTo site (some l)))) :
    ∃ found body, Node.target? around l.identifier = some (found, body) ∧ body.isLoop = true := by
  cases htarget : Node.target? around l.identifier with
  | none => exact absurd (.undefinedContinueLabel htarget) (h.not_violates_label hp hs rfl)
  | some target =>
    refine ⟨target.1, target.2, rfl, ?_⟩
    by_contra hloop
    rw [Bool.not_eq_true] at hloop
    exact h.not_violates_label hp hs rfl (.notALoop htarget hloop)

/-- The parent of a label is the statement that has the label. -/
theorem Formed.parentNode?_label (hp : p.Formed)
    (h : p.Contains (.stmt (.labeled site found body))) :
    p.parentNode? found.id = some (.stmt (.labeled site found body)) := by
  have hparent : p.parent? found.id = some site.id :=
    hp.parent?_eq (c := .ofName found) h List.mem_cons_self
  rw [parentNode?, hparent, Option.bind_some]
  exact hp.indexed _ h

/-- The definition of the label of a jump is the label of the statement that it reaches. -/
theorem CleanJumps.definition_eq (hp : p.Formed) (ho : p.Owners owner) (h : p.CleanJumps)
    (hs : p.Located around node) (hjump : node.jumpLabel? = some l)
    (htarget : Node.target? around l.identifier = some (found, body)) :
    (p.annotate.note l.id).definition = some found.id ∧
      ∃ site, p.Contains (.stmt (.labeled site found body)) := by
  have hname := hs.child (Node.mem_children_of_jumpLabel? hjump)
  have hkind := hp.kind_of_label hs.contains (.inr hjump)
  -- What is found inside the function is what is found among all nodes around the jump.
  have hfound : around.findSome? (Node.labeled? l.identifier) = some (found, body) :=
    (List.takeWhile_prefix _).findSome?_eq_some htarget
  refine ⟨?_, ?_⟩
  · obtain ⟨b, rest, env, hleads, hruns, hnoted, hmarked⟩ := ho.noted_jump hp hname hjump
    rw [hnoted.definition]
    cases hreach : b.reachableLabel? l env with
    | none =>
      obtain ⟨v, hv⟩ := Option.ne_none_iff_exists'.1 (hmarked hreach)
      obtain ⟨outer, m, hm, hid, hviolates⟩ := hp.mark_annotate_iff.1 hv
      obtain rfl := hp.indexed.eq_of_id hm.contains hname.contains hid
      obtain rfl := hm.unique hp hname
      exact absurd hviolates (h.not_violates_label hp hs hjump)
    | some d =>
      rw [← Analysis.definition?_of_reachable hreach, Analysis.definition?, hkind,
        (ho b _ hleads).1.lookup_label hruns, List.findSome?_cons,
        Node.labeled?_of_jumpLabel? hjump, hfound]
      rfl
  · obtain ⟨m, hm, hlabeled⟩ := List.exists_of_findSome?_eq_some hfound
    obtain ⟨site, rfl, -⟩ := Node.exists_of_labeled? hlabeled
    exact ⟨site, hs.contains_around _ hm⟩

end Program

/-! ### Jumps in a run -/

theorem Memory.breakOut_eq {label : Option Name} {marker : Task} {rest : List Task}
    {env : Environment} (h : Frame.unwindTasks (breaksAt label) frame.tasks frame.environment =
      (some (marker, rest), env)) :
    breakOut frame label = .stay { frame with tasks := rest, environment := env } := by
  rw [breakOut, Frame.unwind, h]

theorem Memory.continueLoop_eq {label : Option Name} {loop : Loop} {rest : List Task}
    {env : Environment} (h : Frame.unwindTasks (continuesAt label) frame.tasks frame.environment =
      (some (.loop loop, rest), env)) :
    continueLoop frame label =
      .stay (({ frame with tasks := rest, environment := env } : Frame).schedule
        (roundTasks loop)) := by
  rw [continueLoop, Frame.unwind, h]

namespace InPlace

section

variable (h : InPlace p run n chart mem (frame :: callers))

include h

/-- A statement that runs next stands at a place, and the tasks behind it lead outwards from
there. -/
theorem exec_place (htasks : frame.tasks = .exec s labels :: tasks) :
    ∃ around outer, p.Located around (.stmt s) ∧ Node.Sheds around outer ∧
      frame.environment.Mirrors chart outer ∧
      Trail p chart (Begun run n callers) tasks outer frame.environment := by
  obtain ⟨around, hmirrors, htrail⟩ := h.frame_charted.place
  rw [htasks] at htrail
  cases htrail with
  | exec hs _ hshed hrest => exact ⟨around, _, hs, hshed, hmirrors.shed hshed, hrest⟩
  | plain htask => cases htask

/-- A `break` to a label stops at the marker of the statement that has the label. -/
theorem break_stops (hp : p.Formed) (ho : p.Owners owner) (hclean : p.CleanJumps)
    (htasks : frame.tasks = .exec (.breakTo site (some l)) labels :: tasks) :
    ∃ found body site' rest env, (p.annotate.note l.id).definition = some found.id ∧
      p.parentNode? found.id = some (.stmt (.labeled site' found body)) ∧
      StopsAt run n callers (Memory.breaksAt (some l)) { frame with tasks } (.label l.identifier)
        (.labeled site' found body) rest env := by
  obtain ⟨around, outer, hs, hshed, hmirrors, htrail⟩ := h.exec_place htasks
  obtain ⟨found, body, htarget⟩ := hclean.exists_target hp hs
  obtain ⟨hdefinition, -⟩ := hclean.definition_eq hp ho hs rfl htarget
  rw [hshed.target?_eq] at htarget
  obtain ⟨site', labels', rest, env, place, hfound, hplace, hbegun⟩ :=
    htrail.unwind_label hmirrors htarget
  exact ⟨found, body, site', rest, env, hdefinition, hp.parentNode?_label hplace.contains, hfound,
    labels', hbegun⟩

/-- A `continue` to a label stops at the marker of the loop behind the label. -/
theorem continue_stops (hp : p.Formed) (ho : p.Owners owner) (hclean : p.CleanJumps)
    (htasks : frame.tasks = .exec (.continueTo site (some l)) labels :: tasks) :
    ∃ found body site' site'' loop rest env, (p.annotate.note l.id).definition = some found.id ∧
      p.parentNode? found.id = some (.stmt (.labeled site' found body)) ∧
      body.loop? = some (.loop site'' loop.condition loop.body) ∧
      StopsAt run n callers (Memory.continuesAt (some l)) { frame with tasks } (.loop loop)
        (.loop site'' loop.condition loop.body) rest env := by
  obtain ⟨around, outer, hs, hshed, hmirrors, htrail⟩ := h.exec_place htasks
  obtain ⟨found, body, htarget, hisLoop⟩ := hclean.exists_loop_target hp hs
  obtain ⟨hdefinition, site', hlabeled⟩ := hclean.definition_eq hp ho hs rfl htarget
  obtain ⟨l', place, hloop, hbody⟩ := hs.loopFor?_eq rfl htarget hisLoop
  rw [hshed.loopFor?_eq] at hloop
  obtain ⟨site'', loop, rest, env, hfound, rfl, -, hbegun⟩ :=
    htrail.unwind_loopFor hmirrors hloop
  exact ⟨found, body, site', site'', loop, rest, env, hdefinition, hp.parentNode?_label hlabeled,
    hbody, hfound, _, hbegun⟩

/-- A jump without a label stops at the marker of a loop. -/
theorem unlabeled_stops (hp : p.Formed) (hclean : p.CleanJumps) {wanted : Task → Bool}
    (htasks : frame.tasks = .exec s labels :: tasks)
    (hjump : s = .breakTo site none ∨ s = .continueTo site none)
    (hwanted : ∀ task, wanted task = true ↔ ∃ loop, task = .loop loop) :
    ∃ loop rest env,
      Frame.unwindTasks wanted tasks frame.environment = (some (.loop loop, rest), env) := by
  obtain ⟨around, outer, hs, hshed, hmirrors, htrail⟩ := h.exec_place htasks
  have hloop := hshed.exists_loop (hclean.exists_loop hp hs hjump)
  exact htrail.unwind_loop hmirrors hwanted hloop

/-- No task fails like a jump without a target. -/
theorem spares (hp : p.Formed) (ho : p.Owners owner) (hclean : p.CleanJumps)
    (htasks : frame.tasks = task :: tasks) :
    (mem.perform p callers { frame with tasks } task).2.Spares := by
  -- A jump of a program with clean jumps finds its target.
  by_cases hjump : ∃ s labels, task = .exec s labels ∧ s.isJump = true
  · obtain ⟨s, labels, rfl, hs⟩ := hjump
    cases s with
    | breakTo site label =>
      cases label with
      | none =>
        have hwanted : ∀ task, Memory.breaksAt none task = true ↔ ∃ loop, task = .loop loop := by
          intro task
          cases task <;> simp [Memory.breaksAt]
        obtain ⟨loop, rest, env, hfound⟩ := h.unlabeled_stops hp hclean htasks (.inl rfl) hwanted
        have hbreak : Memory.breakOut { frame with tasks } none = _ := Memory.breakOut_eq hfound
        simp only [Memory.perform, Memory.exec, hbreak]
        trivial
      | some l =>
        obtain ⟨_, _, _, _, _, -, -, hstops⟩ := h.break_stops hp ho hclean htasks
        simp only [Memory.perform, Memory.exec, Memory.breakOut_eq hstops.found]
        trivial
    | continueTo site label =>
      cases label with
      | none =>
        have hwanted : ∀ task, Memory.continuesAt none task = true ↔
            ∃ loop, task = .loop loop := by
          intro task
          cases task <;> simp [Memory.continuesAt]
        obtain ⟨loop, rest, env, hfound⟩ := h.unlabeled_stops hp hclean htasks (.inr rfl) hwanted
        have hcontinue : Memory.continueLoop { frame with tasks } none = _ :=
          Memory.continueLoop_eq hfound
        simp only [Memory.perform, Memory.exec, hcontinue]
        trivial
      | some l =>
        obtain ⟨_, _, _, _, _, _, _, -, -, -, hstops⟩ := h.continue_stops hp ho hclean htasks
        simp only [Memory.perform, Memory.exec, Memory.continueLoop_eq hstops.found]
        trivial
    | _ => cases hs
  · refine Memory.spares_perform fun s labels htask => ?_
    by_contra hs
    exact hjump ⟨s, labels, htask, Bool.not_eq_false _ ▸ hs⟩

end

end InPlace

namespace Machine

/-- The jumps of a text that parses and whose jumps and labels analysis does not mark. No step of
the machine reports a jump without a target. When it runs a `break` to a label, it stops at the
marker of the statement whose label is the definition of that label, and goes on behind the
statement in the chain in which the statement began. When it runs a `continue` to a label, it stops
at the marker of the loop behind that label, and goes on with the loop in the chain in which the
loop began. -/
theorem jumps_reach_definitions {text : String} {p : Program} (hparse : Program.parse text = .ok p)
    (hclean : p.CleanJumps) (memory : Memory) :
    (∀ k fault, (((start memory).load p).after k).step.2 = .failed fault →
      ¬ JumpMessage fault.message) ∧
    (∀ n mem frame callers site l labels tasks,
      ((start memory).load p).run p n = .going mem (frame :: callers) →
      frame.tasks = .exec (.breakTo site (some l)) labels :: tasks →
      ∃ d site' found body rest env, (p.annotate.note l.id).definition = some d ∧
        p.parentNode? d = some (.stmt (.labeled site' found body)) ∧
        StopsAt (((start memory).load p).run p) n callers (Memory.breaksAt (some l))
          { frame with tasks } (.label l.identifier) (.labeled site' found body) rest env ∧
        ((start memory).load p).run p (n + 1) =
          .going mem (arrive ({ frame with tasks := rest, environment := env } :: callers))) ∧
    ∀ n mem frame callers site l labels tasks,
      ((start memory).load p).run p n = .going mem (frame :: callers) →
      frame.tasks = .exec (.continueTo site (some l)) labels :: tasks →
      ∃ d site' found body site'' loop rest env, (p.annotate.note l.id).definition = some d ∧
        p.parentNode? d = some (.stmt (.labeled site' found body)) ∧
        body.loop? = some (.loop site'' loop.condition loop.body) ∧
        StopsAt (((start memory).load p).run p) n callers (Memory.continuesAt (some l))
          { frame with tasks } (.loop loop) (.loop site'' loop.condition loop.body) rest env ∧
        ((start memory).load p).run p (n + 1) =
          .going mem (arrive (({ frame with tasks := rest, environment := env } : Frame).schedule
            (Memory.roundTasks loop) :: callers)) := by
  have hp := Program.formed_of_parse hparse
  obtain ⟨owner, ho⟩ := Program.exists_owners hp (Program.laidOut_of_parse hparse)
  refine ⟨fun k fault hfailed => ?_, ?_, ?_⟩
  · obtain ⟨n, mem, frames, hrun⟩ := (sound_load memory p).exists_failed hp.indexed hfailed
    obtain ⟨i, mem', frames', hgoing, hlast⟩ := exists_last_tick hrun
    refine not_jumpMessage ?_
    -- The last tick performs a task of the innermost frame, and no task fails like a jump.
    obtain ⟨chart, h⟩ := exists_inPlace hp.indexed memory hgoing
    rw [run_succ, hgoing, Progress.next] at hlast
    cases frames' with
    | nil => cases hlast
    | cons frame callers =>
      cases htasks : frame.tasks with
      | nil =>
        rw [tick, htasks] at hlast
        cases hlast
      | cons task tasks =>
        have hspares := h.spares hp ho hclean htasks
        rw [tick_of_tasks htasks] at hlast
        generalize mem'.perform p callers { frame with tasks } task = result at hlast hspares
        obtain ⟨mem'', effect⟩ := result
        cases effect with
        | fail fault' frame' =>
          cases hlast
          exact hspares
        | _ => cases hlast
  · intro n mem frame callers site l labels tasks hgoing htasks
    obtain ⟨chart, h⟩ := exists_inPlace hp.indexed memory hgoing
    obtain ⟨found, body, site', rest, env, hdefinition, hparent, hstops⟩ :=
      h.break_stops hp ho hclean htasks
    refine ⟨_, site', found, body, rest, env, hdefinition, hparent, hstops, ?_⟩
    rw [run_succ, hgoing, Progress.next, tick_of_tasks htasks]
    simp only [Memory.perform, Memory.exec, Memory.breakOut_eq hstops.found]
    rfl
  · intro n mem frame callers site l labels tasks hgoing htasks
    obtain ⟨chart, h⟩ := exists_inPlace hp.indexed memory hgoing
    obtain ⟨found, body, site', site'', loop, rest, env, hdefinition, hparent, hbody, hstops⟩ :=
      h.continue_stops hp ho hclean htasks
    refine ⟨_, site', found, body, site'', loop, rest, env, hdefinition, hparent, hbody, hstops, ?_⟩
    rw [run_succ, hgoing, Progress.next, tick_of_tasks htasks]
    simp only [Memory.perform, Memory.exec, Memory.continueLoop_eq hstops.found]
    rfl

theorem scan_labeled_break : Lexeme.scan "a:break a;" = .ok
    [⟨.identifier "a", ⟨0, 1⟩⟩, ⟨.symbol .colon, ⟨1, 2⟩⟩, ⟨.keyword .breakWord, ⟨2, 7⟩⟩,
      ⟨.identifier "a", ⟨8, 9⟩⟩, ⟨.symbol .semicolon, ⟨9, 10⟩⟩] := by
  decide +kernel

set_option maxRecDepth 4000 in
/-- A program that leaves a labeled statement. -/
theorem parse_labeled_break : (Program.parse "a:break a;").toOption.map (fun p =>
    (p.body, p.annotate.notes.all (·.violation.isNone))) = some
      ([.labeled ⟨3, ⟨0, 10⟩⟩ ⟨⟨0, ⟨0, 1⟩⟩, "a", .label⟩
        (.breakTo ⟨2, ⟨2, 10⟩⟩ (some ⟨⟨1, ⟨8, 9⟩⟩, "a", .label⟩))], true) := by
  rw [Program.parse, scan_labeled_break]
  cbv

/-- The label that the program leaves is the one of its only statement. -/
theorem jumps_reach_definitions_break : ∃ p, Program.parse "a:break a;" = .ok p ∧
    (∀ k fault, ((fresh.load p).after k).step.2 = .failed fault → ¬ JumpMessage fault.message) ∧
    ∃ d site found body, (p.annotate.note 1).definition = some d ∧
      p.parentNode? d = some (.stmt (.labeled site found body)) := by
  have hsome := parse_labeled_break
  cases hparse : Program.parse "a:break a;" with
  | error e =>
    rw [hparse] at hsome
    cases hsome
  | ok p =>
    rw [hparse] at hsome
    obtain ⟨hbody, hnotes⟩ := Prod.mk.inj (Option.some.inj hsome)
    have hclean : p.CleanJumps := by
      intro n _ _
      rw [Annotated.note]
      cases hnote : p.annotate.notes[n.id]? with
      | none => rfl
      | some note =>
        have hall := Array.all_eq_true'.1 hnotes note (Array.mem_of_getElem? hnote)
        exact Option.isNone_iff_eq_none.1 hall
    obtain ⟨hfaults, hbreaks, -⟩ := jumps_reach_definitions hparse hclean ⟨.empty, 0⟩
    have hrun : ∃ mem frame, (fresh.load p).run p 1 = .going mem [frame] ∧ frame.tasks =
        [.exec (.breakTo ⟨2, ⟨2, 10⟩⟩ (some ⟨⟨1, ⟨8, 9⟩⟩, "a", .label⟩)) ["a"], .label "a"] := by
      rw [run, load, hbody]
      exact ⟨_, _, rfl, rfl⟩
    obtain ⟨mem, frame, hgoing, htasks⟩ := hrun
    obtain ⟨d, site, found, body, -, -, hdefinition, hparent, -⟩ :=
      hbreaks 1 mem frame [] _ _ _ _ hgoing htasks
    exact ⟨p, rfl, hfaults, d, site, found, body, hdefinition, hparent⟩

end Machine

end LWorkbench
