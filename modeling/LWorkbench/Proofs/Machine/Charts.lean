import LWorkbench.Proofs.Machine.Operations
import LWorkbench.Proofs.Machine.Trails

/-!
# Frames at their places

Every frame of a run is at work at a place of the program: its tasks lead outwards from there, and
its chain runs through scopes that were opened for the scopes around the place. The same is true of
the functions that it computes with. Performing a task moves a frame from one place to another.

## Main definitions

* `Closure.Charted` — a function stands at a place, with a chain through the scopes around it
* `Frame.Charted` — a frame is at work at a place
* `Beginnings.add` — beginning with a task

## Main results

* `Frame.charted_exec`, `Frame.charted_eval` — running a statement and evaluating an expression
* `Frame.charted_perform` — performing a task
* `Frame.charted_block`, `Frame.charted_callee` — entering a block and a function
-/

namespace LWorkbench

/-- The function stands at a place of the program, and its chain runs through the scopes around the
place. -/
def Closure.Charted (p : Program) (chart : Chart) (c : Closure) : Prop :=
  ∃ around site params body, p.Located around (.expr (.function site params body)) ∧
    c.node = site.id ∧ c.environment.Mirrors chart around

/-- The frame is at work at a place, and computes with functions that stand at theirs. -/
structure Frame.Charted (p : Program) (chart : Chart) (H : Beginnings) (frame : Frame) : Prop where
  values : ∀ v ∈ frame.values, v.Every (Closure.Charted p chart)
  place : ∃ around, frame.environment.Mirrors chart around ∧
    Trail p chart H frame.tasks around frame.environment

/-- Beginning with a task: everything that has begun, and the task. -/
def Beginnings.add (H : Beginnings) (task : Task) (env : Environment) (rest : List Task) :
    Beginnings :=
  fun first env' rest' kept => H first env' rest' kept ∨ first = task ∧ env' = env ∧ rest' = rest

/-- The effect keeps the frame at work at a place, or leaves it with a value. -/
def Effect.Charted (p : Program) (chart : Chart) (H : Beginnings) : Effect → Prop
  | .stay frame => frame.Charted p chart H
  | .enter .. => False
  | .leave value => value.Every (Closure.Charted p chart)
  | .fail .. => True

/-- A chart with one more scope, which is opened for a node. -/
def Chart.push (chart : Chart) (n : Node) : Chart :=
  { chart with
    owner := Function.update chart.owner chart.size (some n)
    size := chart.size + 1 }

variable {p : Program} {chart chart' : Chart} {H : Beginnings} {mem : Memory} {frame : Frame}
  {around outer : List Node} {env : Environment} {task : Task} {tasks rest : List Task} {s : Stmt}
  {e : Expr} {n : Node} {labels : List String} {site : Site} {callers : List Frame}

theorem Chart.grows_push (chart : Chart) (n : Node) : chart.Grows (chart.push n) := by
  refine ⟨fun id hid => ?_, rfl, Nat.le_succ _⟩
  exact Function.update_of_ne (Nat.ne_of_lt hid) ..

theorem Closure.Charted.grow {c : Closure} (h : c.Charted p chart) (hgrows : chart.Grows chart') :
    c.Charted p chart' := by
  obtain ⟨around, site, params, body, hlocated, hnode, hmirrors⟩ := h
  exact ⟨around, site, params, body, hlocated, hnode, hmirrors.grow hgrows⟩

/-- In front of a chain a new scope is opened for a node with a scope of its own. -/
theorem Environment.Mirrors.push (h : env.Mirrors chart around) (hbase : chart.base ≤ chart.size)
    {bindings : List Name} (hn : n.bindings? = some bindings) {inner : Environment}
    (hinner : inner.scopeIds = chart.size :: env.scopeIds) :
    inner.Mirrors (chart.push n) (n :: around) := by
  have hgrown := h.grow (chart.grows_push n)
  refine ⟨?_, ?_⟩
  · rw [hinner, List.map_cons, hgrown.owners, Node.scopesAround_cons_of_some hn]
    exact congrArg (· :: _) (Function.update_self ..)
  · rw [hinner]
    exact List.forall_mem_cons.2 ⟨⟨hbase, Nat.lt_succ_self _⟩, hgrown.known⟩

namespace Trail

/-- What has begun stays begun. -/
theorem add (h : Trail p chart H tasks around env) (task : Task) (env' : Environment)
    (rest : List Task) : Trail p chart (H.add task env' rest) tasks around env :=
  h.mono (.refl chart) fun _ hbegun => .inl hbegun

/-- Statements of a body one after another. -/
theorem execs {body : List Stmt} (hbody : ∀ s ∈ body, p.Located around (.stmt s))
    (hlabels : Node.labelsInFront around = []) (h : Trail p chart H tasks around env) :
    Trail p chart H (body.map (Task.exec · []) ++ tasks) around env := by
  induction body with
  | nil => exact h
  | cons s body ih =>
    obtain ⟨hs, hbody⟩ := List.forall_mem_cons.1 hbody
    exact .exec hs hlabels.symm .refl (ih hbody)

/-- Expressions inside a node one after another; behind the last one the tasks lead out of the
node. -/
theorem evals {α : Type} {node : α → Expr} {items : List α}
    (hitems : ∀ x ∈ items, p.Evaluated around (node x)) (hmirrors : env.Mirrors chart around)
    (hshed : Node.Sheds around outer) (h : Trail p chart H tasks outer env) :
    ∃ place, env.Mirrors chart place ∧
      Trail p chart H (items.map (fun x => Task.eval (node x)) ++ tasks) place env := by
  cases items with
  | nil => exact ⟨outer, hmirrors.shed hshed, h⟩
  | cons first items =>
    refine ⟨around, hmirrors, ?_⟩
    induction items generalizing first with
    | nil => exact .eval (hitems first List.mem_cons_self) hshed h
    | cons second items ih =>
      obtain ⟨hfirst, hitems⟩ := List.forall_mem_cons.1 hitems
      exact .eval hfirst .refl (ih second hitems)

end Trail

namespace Frame.Charted

theorem mono {H' : Beginnings} (h : frame.Charted p chart H) (hgrows : chart.Grows chart')
    (hH : ∀ {first env rest kept}, kept <:+ frame.tasks → H first env rest kept →
      H' first env rest kept) : frame.Charted p chart' H' := by
  obtain ⟨around, hmirrors, htrail⟩ := h.place
  refine ⟨fun v hv => ?_, around, hmirrors.grow hgrows, htrail.mono hgrows hH⟩
  exact (h.values v hv).mono fun _ hc => hc.grow hgrows

/-- A value that stands at its place may be put on the stack. -/
theorem pushValue (h : frame.Charted p chart H) {v : Value}
    (hv : v.Every (Closure.Charted p chart)) : (frame.pushValue v).Charted p chart H :=
  ⟨List.forall_mem_cons.2 ⟨hv, h.values⟩, h.place⟩

/-- Values may be dropped. -/
theorem dropValues (h : frame.Charted p chart H) {values : List Value}
    (hvalues : values ⊆ frame.values) : ({ frame with values } : Frame).Charted p chart H :=
  ⟨fun v hv => h.values v (hvalues hv), h.place⟩

/-- Scheduling tasks that lead outwards to the tasks that are there. -/
theorem schedule {ts : List Task} (hvalues : ∀ v ∈ frame.values, v.Every (Closure.Charted p chart))
    (hmirrors : frame.environment.Mirrors chart around)
    (h : Trail p chart H (ts ++ frame.tasks) around frame.environment) :
    (frame.schedule ts).Charted p chart H :=
  ⟨hvalues, around, hmirrors, h⟩

end Frame.Charted

/-! ### Statements -/

section

variable (hvalues : ∀ v ∈ frame.values, v.Every (Closure.Charted p chart))
  (hmirrors : frame.environment.Mirrors chart around)

include hvalues hmirrors

/-- Leaving a loop or a labeled statement by a jump. -/
theorem Frame.charted_breakOut
    (h : Trail p chart H frame.tasks around frame.environment) (label : Option Name) :
    (Memory.breakOut frame label).Charted p chart H := by
  unfold Memory.breakOut Frame.unwind
  split
  · rename_i task frame' hfound
    split at hfound
    · rename_i task' rest env hunwind
      cases hfound
      obtain ⟨place, hplace, htrail⟩ := h.unwind hmirrors hunwind
      obtain ⟨outer, houter, hrest, -⟩ := htrail.tail hplace
      -- The marker of a jump is no block, so the chain behind it is the same.
      have hbehind : task.behind env = env := by
        have hwanted := Frame.wanted_of_unwindTasks hunwind
        cases task <;> first | rfl | cases hwanted
      rw [hbehind] at houter hrest
      exact ⟨hvalues, outer, houter, hrest⟩
    · cases hfound
  · trivial

/-- Going on with a loop by a jump. -/
theorem Frame.charted_continueLoop
    (h : Trail p chart H frame.tasks around frame.environment) (label : Option Name) :
    (Memory.continueLoop frame label).Charted p chart H := by
  unfold Memory.continueLoop Frame.unwind
  split
  · rename_i l frame' hfound
    split at hfound
    · rename_i task' rest env hunwind
      cases hfound
      obtain ⟨place, hplace, htrail⟩ := h.unwind hmirrors hunwind
      -- The tasks of a round go in front of the marker, which stays where it is.
      cases htrail with
      | loop hs hlabels hbegun hshed hrest =>
        refine .schedule hvalues hplace (.eval (hs.evaluated ?_) .refl (.loopTest hs ?_))
        · exact List.mem_cons_self
        · exact .loop hs hlabels hbegun hshed hrest
      | plain htask => cases htask
    · cases hfound
  · trivial

/-- Running a statement that is no block. -/
theorem Frame.charted_exec (hs : p.Located around (.stmt s))
    (hlabels : labels = Node.labelsInFront around) (hshed : Node.Sheds around outer)
    (hrest : Trail p chart H frame.tasks outer frame.environment)
    (hblock : ∀ site body, s ≠ .block site body) :
    (mem.exec frame labels s).2.Charted p chart
      (H.add (.exec s labels) frame.environment frame.tasks) := by
  have hadd := hrest.add (.exec s labels) frame.environment frame.tasks
  have hnow : ∀ kept, (H.add (.exec s labels) frame.environment frame.tasks) (.exec s labels)
      frame.environment frame.tasks kept := fun _ => .inr ⟨rfl, rfl, rfl⟩
  have hundefined : ∀ v ∈ (frame.pushValue .undefined).values,
      v.Every (Closure.Charted p chart) := List.forall_mem_cons.2 ⟨.undefined, hvalues⟩
  have houter := hmirrors.shed hshed
  cases s with
  | declare site b init =>
    cases init with
    | none => exact .schedule hundefined hmirrors (.declare hs (hnow _) hshed hadd)
    | some init =>
      refine .schedule hvalues (hmirrors.enter rfl) (.eval (hs.evaluated ?_) (.drop rfl .refl) ?_)
      · exact List.mem_cons_self
      · exact .declare hs (hnow _) hshed hadd
  | evaluate site e =>
    refine .schedule hvalues (hmirrors.enter rfl) (.eval (hs.evaluated ?_) (.drop rfl hshed) ?_)
    · exact List.mem_cons_self
    · exact .plain rfl hadd
  | block site body => exact absurd rfl (hblock site body)
  | labeled site label body =>
    refine .schedule hvalues (hmirrors.enter rfl) (.exec (hs.child ?_) ?_ .refl ?_)
    · exact List.mem_cons_of_mem _ List.mem_cons_self
    · rw [hlabels, Node.labelsInFront]
    · exact .label hs (hnow _) hshed hadd
  | branch site condition thenBranch elseBranch =>
    refine .schedule hvalues (hmirrors.enter rfl) (.eval (hs.evaluated ?_) (.drop rfl .refl) ?_)
    · exact List.mem_cons_self
    · exact .branch hs hshed hadd
  | loop site condition body =>
    refine .schedule hvalues (hmirrors.enter rfl) (.eval (hs.evaluated ?_) .refl (.loopTest hs ?_))
    · exact List.mem_cons_self
    · exact .loop hs hlabels (hnow _) hshed hadd
  | breakTo site label => exact charted_breakOut hvalues houter hadd label
  | continueTo site label => exact charted_continueLoop hvalues houter hadd label
  | returnWith site value =>
    cases value with
    | none => exact .schedule hundefined houter (.plain rfl hadd)
    | some value =>
      refine .schedule hvalues (hmirrors.enter rfl) (.eval (hs.evaluated ?_) (.drop rfl hshed) ?_)
      · exact List.mem_cons_self
      · exact .plain rfl hadd

/-- Most expressions evaluate expressions inside them for a task that takes the values. -/
theorem Frame.charted_operands (he : p.Located around (.expr e)) (hshed : Node.Sheds around outer)
    (hrest : Trail p chart H frame.tasks outer frame.environment) {α : Type} (node : α → Expr)
    (items : List α) (htask : task.isPlain = true) (hpasses : (Node.expr e).passes = true)
    (hitems : ∀ x ∈ items, node x ∈ (Node.expr e).exprs) :
    (frame.schedule (items.map (fun x => Task.eval (node x)) ++ [task])).Charted p chart H := by
  have henter := hmirrors.enter (Node.bindings?_of_passes hpasses)
  obtain ⟨place, hplace, htrail⟩ := Trail.evals (fun x hx => he.evaluated (hitems x hx)) henter
    (.drop hpasses hshed) (.plain htask hrest)
  refine .schedule hvalues hplace ?_
  rw [List.append_assoc]
  exact htrail

/-- Evaluating an expression, where variables hold functions that stand at their places. -/
theorem Frame.charted_eval (he : p.Located around (.expr e)) (hshed : Node.Sheds around outer)
    (hrest : Trail p chart H frame.tasks outer frame.environment)
    (hlookup : ∀ x v, mem.store.lookup? frame.environment x = some v →
      v.Every (Closure.Charted p chart)) :
    (mem.eval frame e).2.Charted p chart
      (H.add (.eval e) frame.environment frame.tasks) := by
  have hadd := hrest.add (.eval e) frame.environment frame.tasks
  have hnow : ∀ kept, (H.add (.eval e) frame.environment frame.tasks) (.eval e)
      frame.environment frame.tasks kept := fun _ => .inr ⟨rfl, rfl, rfl⟩
  have houter := hmirrors.shed hshed
  have hframe : frame.Charted p chart (H.add (.eval e) frame.environment frame.tasks) :=
    ⟨hvalues, outer, houter, hadd⟩
  cases e with
  | literal site value => exact hframe.pushValue (Value.every_ofLiteral value)
  | name r =>
    simp only [Memory.eval]
    split
    · rename_i v hv
      exact hframe.pushValue (hlookup _ v hv)
    · trivial
  | array site items =>
    exact charted_operands hvalues hmirrors he hshed hadd (fun x => x) items rfl rfl
      fun x hx => hx
  | tuple site items =>
    exact charted_operands hvalues hmirrors he hshed hadd (fun x => x) items rfl rfl
      fun x hx => hx
  | object site properties =>
    refine charted_operands hvalues hmirrors he hshed hadd (fun q : String × Expr => q.2) properties
      rfl rfl fun q hq => ?_
    exact List.mem_map.2 ⟨q, hq, rfl⟩
  | function site params body =>
    exact hframe.pushValue (.function ⟨around, site, params, body, he, rfl, hmirrors⟩)
  | unary site op operand =>
    exact charted_operands hvalues hmirrors he hshed hadd (fun x => x) [operand] rfl rfl
      fun x hx => hx
  | binary site op left right =>
    exact charted_operands hvalues hmirrors he hshed hadd (fun x => x) [left, right] rfl rfl
      fun x hx => hx
  | logical site op left right =>
    refine .schedule hvalues (hmirrors.enter rfl) (.eval (he.evaluated ?_) (.drop rfl .refl) ?_)
    · exact List.mem_cons_self
    · exact .logical he hshed hadd
  | assign site target value =>
    refine .schedule hvalues (hmirrors.enter rfl) (.eval (he.evaluated ?_) (.drop rfl .refl) ?_)
    · exact List.mem_cons_of_mem _ List.mem_cons_self
    · exact .assign he (hnow _) hshed hadd
  | call site callee args =>
    have hitems : ∀ x ∈ callee :: args, p.Evaluated (.expr (.call site callee args) :: around) x :=
      fun x hx => he.evaluated hx
    obtain ⟨place, hplace, htrail⟩ := Trail.evals hitems (hmirrors.enter rfl) (.drop rfl .refl)
      (.call he (hnow _) hshed hadd)
    refine .schedule hvalues hplace ?_
    rw [List.append_assoc]
    exact htrail
  | member site object property =>
    exact charted_operands hvalues hmirrors he hshed hadd (fun x => x) [object] rfl rfl
      fun x hx => hx
  | index site object index =>
    exact charted_operands hvalues hmirrors he hshed hadd (fun x => x) [object, index] rfl rfl
      fun x hx => hx

end

/-! ### Tasks -/

/-- A task may take a value from the stack. -/
theorem Effect.charted_withValue (hframe : frame.Charted p chart H) {next : Value → Frame → Effect}
    (h : ∀ v values, v.Every (Closure.Charted p chart) →
      ({ frame with values } : Frame).Charted p chart H →
      (next v { frame with values }).Charted p chart H) :
    (Effect.withValue frame next).Charted p chart H := by
  unfold Effect.withValue
  split
  · rename_i v values heq
    apply h v values
    · exact hframe.values v (heq ▸ List.mem_cons_self)
    · exact hframe.dropValues (heq ▸ List.subset_cons_self v values)
  · trivial

theorem Effect.charted_result (hframe : frame.Charted p chart H) {r : Except Fault Value}
    (h : Except.Every (Closure.Charted p chart) r) :
    (Effect.result frame r).Charted p chart H := by
  cases r with
  | ok value => exact hframe.pushValue h
  | error fault => trivial

section

variable (hvalues : ∀ v ∈ frame.values, v.Every (Closure.Charted p chart))
  (hmirrors : frame.environment.Mirrors chart around)

include hvalues hmirrors

/-- Where a task keeps the chain, the frame without the task leads outwards as it is. -/
theorem Frame.charted_behind (h : Trail p chart H (task :: frame.tasks) around frame.environment)
    (hbehind : task.behind frame.environment = frame.environment) :
    frame.Charted p chart (H.add task frame.environment frame.tasks) := by
  obtain ⟨outer, houter, htail, -⟩ := h.tail hmirrors
  rw [hbehind] at houter htail
  exact ⟨hvalues, outer, houter, htail.add task frame.environment frame.tasks⟩

/-- Choosing a branch. -/
theorem Frame.charted_branch {thenBranch : Stmt} {elseBranch : Option Stmt}
    (h : Trail p chart H (.branch thenBranch elseBranch :: frame.tasks) around frame.environment) :
    (mem.perform p callers frame (.branch thenBranch elseBranch)).2.Charted p chart
      (H.add (.branch thenBranch elseBranch) frame.environment frame.tasks) := by
  simp only [Memory.perform]
  apply Effect.charted_withValue (charted_behind hvalues hmirrors h rfl)
  intro v values _ hpopped
  cases h with
  | @branch site condition _ _ _ _ place _ hs hshed hrest =>
    have hrest := hrest.add (.branch thenBranch elseBranch) frame.environment frame.tasks
    split
    · refine .schedule hpopped.values (hmirrors.enter rfl)
        (.exec (hs.child ?_) rfl (.drop rfl hshed) hrest)
      exact List.mem_cons_of_mem _ List.mem_cons_self
    · cases elseBranch with
      | none => exact hpopped
      | some elseBranch =>
        refine .schedule hpopped.values (hmirrors.enter rfl)
          (.exec (hs.child ?_) rfl (.drop rfl hshed) hrest)
        exact List.mem_cons_of_mem _ (List.mem_cons_of_mem _ List.mem_cons_self)
  | plain htask => cases htask

/-- Beginning a round of a loop, or leaving the loop. -/
theorem Frame.charted_loopTest {l : Loop}
    (h : Trail p chart H (.loopTest l :: frame.tasks) around frame.environment) :
    (mem.perform p callers frame (.loopTest l)).2.Charted p chart
      (H.add (.loopTest l) frame.environment frame.tasks) := by
  simp only [Memory.perform]
  apply Effect.charted_withValue (charted_behind hvalues hmirrors h rfl)
  intro v values _ hpopped
  cases h with
  | @loopTest site _ _ place _ hs hrest =>
    have hrest := hrest.add (.loopTest l) frame.environment frame.tasks
    split
    · refine .schedule hpopped.values hmirrors (.exec (hs.child ?_) rfl .refl
        (.eval (hs.evaluated ?_) .refl (.loopTest hs hrest)))
      · exact List.mem_cons_of_mem _ List.mem_cons_self
      · exact List.mem_cons_self
    · exact hpopped
  | plain htask => cases htask

/-- Keeping the left operand, or evaluating the right one in its place. -/
theorem Frame.charted_logical {op : LogicalOp} {right : Expr}
    (h : Trail p chart H (.logical op right :: frame.tasks) around frame.environment) :
    (mem.perform p callers frame (.logical op right)).2.Charted p chart
      (H.add (.logical op right) frame.environment frame.tasks) := by
  simp only [Memory.perform]
  apply Effect.charted_withValue (charted_behind hvalues hmirrors h rfl)
  intro v values hv hpopped
  cases h with
  | @logical site _ left _ _ place _ _ he hshed hrest =>
    have hrest := hrest.add (.logical op right) frame.environment frame.tasks
    split
    · exact hpopped.pushValue hv
    · refine .schedule hpopped.values (hmirrors.enter rfl)
        (.eval (he.evaluated ?_) (.drop rfl hshed) hrest)
      exact List.mem_cons_of_mem _ List.mem_cons_self
  | plain htask => cases htask

/-- Performing a task that opens no scope. -/
theorem Frame.charted_perform
    (h : Trail p chart H (task :: frame.tasks) around frame.environment)
    (hlookup : ∀ x v, mem.store.lookup? frame.environment x = some v →
      v.Every (Closure.Charted p chart))
    (hblock : ∀ site body labels, task ≠ .exec (.block site body) labels)
    (hcall : ∀ count, task ≠ .call count) :
    (mem.perform p callers frame task).2.Charted p chart
      (H.add task frame.environment frame.tasks) := by
  have hframe := charted_behind hvalues hmirrors h
  cases hoperator : task.operands? with
  | some count =>
    rcases Memory.operator_cases p mem callers frame hoperator with
      ⟨values, -, hmissing⟩ | ⟨values, result, hrest, hresult, hperform⟩
    · rw [hmissing]
      trivial
    · have hbehind : task.behind frame.environment = frame.environment :=
        Task.behind_eq fun outer heq => by
          subst heq
          cases hoperator
      rw [hperform]
      exact Effect.charted_result ((hframe hbehind).dropValues hrest) (hresult _ hvalues)
  | none =>
    cases task with
    | unary | binary | array | tuple | object | member | index => cases hoperator
    | exec s labels =>
      cases h with
      | exec hs hlabels hshed hrest =>
        refine charted_exec hvalues hmirrors hs hlabels hshed hrest fun site body heq => ?_
        exact hblock site body labels (congrArg (Task.exec · labels) heq)
      | plain htask => cases htask
    | eval e =>
      cases h with
      | eval he hshed hrest => exact charted_eval hvalues hmirrors he.located hshed hrest hlookup
      | plain htask => cases htask
    | branch thenBranch elseBranch => exact charted_branch hvalues hmirrors h
    | loopTest l => exact charted_loopTest hvalues hmirrors h
    | logical op right => exact charted_logical hvalues hmirrors h
    -- The one task that changes the chain: it goes back to the chain outside the block.
    | restore env =>
      obtain ⟨outer, houter, htail, -⟩ := h.tail hmirrors
      exact ⟨hvalues, outer, houter, htail.add _ _ _⟩
    | discard => exact Effect.charted_withValue (hframe rfl) fun _ _ _ hpopped => hpopped
    | declare name =>
      rcases Memory.declare_cases p mem callers frame name with
        hmissing | ⟨v, values, heq, hdeclare⟩
      · rw [hmissing]
        trivial
      · rw [hdeclare]
        exact (hframe rfl).dropValues (heq ▸ List.subset_cons_self v values)
    | assign name =>
      rcases Memory.assign_cases p mem callers frame name with
        ⟨fault, hfail⟩ | ⟨_, _, -, -, hassign⟩
      · rw [hfail]
        trivial
      · rw [hassign]
        exact hframe rfl
    | loop l => exact hframe rfl
    | label name => exact hframe rfl
    | call count => exact absurd rfl (hcall count)
    | returnValue =>
      simp only [Memory.perform]
      exact Effect.charted_withValue (hframe rfl) fun _ _ hv _ => hv

end

/-! ### Opening scopes -/

/-- Entering a block. -/
theorem Frame.charted_block (frame : Frame) {body : List Stmt}
    (hvalues : ∀ v ∈ frame.values, v.Every (Closure.Charted p chart))
    (hmirrors : frame.environment.Mirrors chart around)
    (h : Trail p chart H (.exec (.block site body) labels :: frame.tasks) around frame.environment)
    (hbase : chart.base ≤ chart.size) {inner : Environment}
    (hinner : inner.scopeIds = chart.size :: frame.environment.scopeIds) :
    ∃ n : Node, n = .stmt (.block site body) ∧ p.Contains n ∧
      (({ frame with environment := inner } : Frame).schedule
        (body.map (Task.exec · []) ++ [.restore frame.environment])).Charted p (chart.push n)
          H := by
  cases h with
  | @exec _ _ _ place outer _ hs _ hshed hrest =>
    refine ⟨_, rfl, hs.contains, ?_⟩
    have hgrows := chart.grows_push (.stmt (.block site body))
    have hrest := hrest.mono hgrows fun _ hbegun => hbegun
    refine .schedule (fun v hv => (hvalues v hv).mono fun _ hc => hc.grow hgrows)
      (hmirrors.push hbase rfl hinner) ?_
    rw [List.append_assoc]
    refine .execs (fun s hs' => hs.child (List.mem_map_of_mem hs')) rfl ?_
    exact .restore hs (hmirrors.grow hgrows) hshed hrest
  | plain htask => cases htask

/-- The frame of a function that is called. -/
theorem Frame.charted_callee {around : List Node} {site : Site} {params : List Name}
    {body : List Stmt} (hfunction : p.Located around (.expr (.function site params body)))
    (hmirrors : env.Mirrors chart around) (hbase : chart.base ≤ chart.size) {inner : Environment}
    (hinner : inner.scopeIds = chart.size :: env.scopeIds) (current : NodeId)
    (function : Option NodeId) :
    (Frame.ofBody current inner function body).Charted p
      (chart.push (.expr (.function site params body))) H := by
  refine ⟨List.forall_mem_nil _, _, hmirrors.push hbase rfl hinner, ?_⟩
  have hbody : ∀ s ∈ body,
      p.Located (.expr (.function site params body) :: around) (.stmt s) := fun s hs =>
    hfunction.child (List.mem_append_right _ (List.mem_map_of_mem hs))
  have hend : Trail p (chart.push (.expr (.function site params body))) H []
      (.expr (.function site params body) :: around) inner := .done rfl
  have htrail := Trail.execs hbody rfl hend
  rw [List.append_nil] at htrail
  exact htrail

end LWorkbench
