import LWorkbench.Proofs.Analysis.Outcome

/-!
# The walk of analysis

At every place of a program the state of the walk says what the place is like: how the counts stand
to the loops and functions around it, which names are bound so far in the scope around it, and which
labels a jump there can name. Entering a node keeps it so for the places inside the node, and
walking a part keeps it so for the place behind the part. By induction over the tree the walk then
marks the nodes that break a rule and no other ones.

## Main definitions

* `Analysis.Stands` — the state of the walk at a place
* `Analysis.walk` — the item of work that walks a node
* `Analysis.Faithful` — walking a node marks the nodes inside it that break a rule

## Main results

* `Analysis.Stands.behind` — the state behind a part that was walked
* `Analysis.outcome_walks` — walking one node after another
* `Analysis.faithful` — every node is walked faithfully
-/

namespace LWorkbench

namespace Analysis

/-- The state of the walk at a place: with the given nodes around it, the chain `env`, and the given
names bound so far in the nearest scope for variables, which is `here`. -/
structure Stands (a : Analysis) (env : Environment) (around : List Node) (here : ScopeId)
    (before : List Name) : Prop where
  holds : a.store.Holds env here before
  loops : a.loopDepth = 0 ↔ ∀ n ∈ Node.sameFunction around, n.isLoop = false
  functions : a.functionDepth = 0 ↔ ∀ n ∈ around, n.isFunction = false
  base_le : a.functionBase ≤ env.size
  labels : ∀ x, a.store.label? env a.functionBase x = (Node.target? around x).map (·.1.id)

variable {p : Program} {a a' : Analysis} {env : Environment} {around : List Node} {n : Node}
  {here : ScopeId} {before after names params : List Name} {places : List Node → Node → Prop}
  {site : Site} {name label : Name} {condition : Expr} {body : Stmt} {statements : List Stmt}

/-! ### The state at a place -/

theorem sameFunction_cons (h : n.isFunction = false) :
    Node.sameFunction (n :: around) = n :: Node.sameFunction around := by
  rw [Node.sameFunction, List.takeWhile_cons, h]
  rfl

theorem target?_cons (h : n.isFunction = false) (x : String) :
    Node.target? (n :: around) x = (n.labeled? x).or (Node.target? around x) := by
  rw [Node.target?, sameFunction_cons h, List.findSome?_cons]
  cases n.labeled? x <;> rfl

namespace Stands

/-- The state behind a part that was walked. -/
theorem behind (h : a.Stands env around here before) (ho : a.Outcome p a' here names places) :
    a'.Stands env around here (before ++ names) where
  holds := h.holds.grow ho.grows
  loops := by rw [ho.loopDepth, h.loops]
  functions := by rw [ho.functionDepth, h.functions]
  base_le := ho.functionBase.symm ▸ h.base_le
  labels x := by rw [ho.functionBase, Store.label?_grow h.holds ho.grows, h.labels]

/-- Most nodes look from inside as from outside. -/
theorem enter (h : a.Stands env around here before) (hfunction : n.isFunction = false)
    (hloop : n.isLoop = false) (hlabel : ∀ x, n.labeled? x = none) :
    a.Stands env (n :: around) here before where
  holds := h.holds
  loops := by
    rw [h.loops, sameFunction_cons hfunction, List.forall_mem_cons, hloop, eq_self_iff_true,
      true_and]
  functions := by rw [h.functions, List.forall_mem_cons, hfunction, eq_self_iff_true, true_and]
  base_le := h.base_le
  labels x := by rw [h.labels, target?_cons hfunction, hlabel, Option.none_or]

/-- Inside a scope of its own nothing is bound yet. -/
theorem enter_scope (h : a.Stands env around here before) :
    ({ a with store := (a.store.extend env .variable).2 } : Analysis).Stands
      (a.store.extend env .variable).1 around a.store.scopes.size [] where
  holds := h.holds.extend_variable
  loops := h.loops
  functions := h.functions
  base_le := Nat.le_succ_of_le h.base_le
  labels x := (Store.label?_extend_variable h.holds h.base_le).trans (h.labels x)

/-- Inside a loop there is a loop around. -/
theorem enter_loop (h : a.Stands env around here before) (site : Site) (condition : Expr)
    (body : Stmt) :
    ({ a with loopDepth := a.loopDepth + 1 } : Analysis).Stands env
      (.stmt (.loop site condition body) :: around) here before where
  holds := h.holds
  loops := by
    rw [sameFunction_cons rfl]
    simp [Node.isLoop]
  functions := by
    rw [List.forall_mem_cons]
    exact h.functions.trans (iff_and_self.2 fun _ => rfl)
  base_le := h.base_le
  labels x := by
    rw [target?_cons rfl]
    exact h.labels x

/-- Behind a label that label can be reached too. -/
theorem enter_label (h : a.Stands env around here before) (notes : Array Note) :
    ({ a with
      notes
      store := (a.store.extend env .label).2.declareIn a.store.scopes.size label.identifier
        label.id } : Analysis).Stands (a.store.extend env .label).1
      (.stmt (.labeled site label body) :: around) here before where
  holds := h.holds.extend_label
  loops := by
    rw [sameFunction_cons rfl, List.forall_mem_cons]
    exact h.loops.trans (iff_and_self.2 fun _ => rfl)
  functions := by
    rw [List.forall_mem_cons]
    exact h.functions.trans (iff_and_self.2 fun _ => rfl)
  base_le := Nat.le_succ_of_le h.base_le
  labels x := by
    rw [target?_cons rfl, Node.labeled?]
    refine (Store.label?_extend_label h.holds h.base_le).trans ?_
    split
    · rfl
    · exact h.labels x

/-- Inside a function there are its parameters, but no loop and no label. -/
theorem enter_function (h : a.Stands env around here before)
    (hgrows : (a.store.extend env .variable).2.Grows a'.store a.store.scopes.size params)
    (site : Site) (statements : List Stmt) :
    ({ a' with
      loopDepth := 0
      functionDepth := a.functionDepth + 1
      functionBase := (a.store.extend env .variable).1.size } : Analysis).Stands
      (a.store.extend env .variable).1 (.expr (.function site params statements) :: around)
      a.store.scopes.size params where
  holds := h.holds.extend_variable.grow hgrows
  loops := by simp [Node.sameFunction, Node.isFunction]
  functions := by simp [Node.isFunction]
  base_le := Nat.le_refl _
  labels x := (Store.label?_grow h.holds.extend_variable hgrows).trans Store.label?_extend_function

end Stands

/-! ### Walking nodes -/

/-- The item of work that walks a node. -/
def walk (env : Environment) : Node → Work
  | .expr e => .expr e env
  | .stmt s => .stmt s env

theorem exprs_eq (items : List Expr) (env : Environment) :
    exprs items env = (items.map Node.expr).map (walk env) := by
  rw [List.map_map]
  rfl

theorem stmts_eq (items : List Stmt) (env : Environment) :
    stmts items env = (items.map Node.stmt).map (walk env) := by
  rw [List.map_map]
  rfl

@[simp] theorem drain_nil (p : Program) (a : Analysis) : a.drain p [] = a := by
  rw [drain]

theorem drain_cons (p : Program) (a : Analysis) (item : Work) (items : List Work) :
    a.drain p (item :: items) = (a.perform p item).1.drain p ((a.perform p item).2 ++ items) := by
  rw [drain]

theorem drain_append (p : Program) (a : Analysis) (xs ys : List Work) :
    a.drain p (xs ++ ys) = (a.drain p xs).drain p ys := by
  fun_induction drain p a xs with
  | case1 a => rfl
  | case2 a item items ih => rw [List.cons_append, drain_cons, ← List.append_assoc, ih]

/-- What an item calls for is done at once. -/
theorem drain_singleton (p : Program) (a : Analysis) (item : Work) :
    a.drain p [item] = (a.perform p item).1.drain p (a.perform p item).2 := by
  rw [drain_cons, List.append_nil]

/-- Wherever the walk comes to the node, walking the node marks the nodes inside it that break a
rule. A name is walked only where it is a reference, which breaks no rule. -/
def Faithful (p : Program) (n : Node) : Prop :=
  ∀ ⦃a env around here before after⦄, p.Located around n →
    (∀ x, n = .ofName x → ∀ v, ¬ p.Violates around n v) →
    Stands a env around here before → p.bindings around = before ++ n.vars ++ after →
    a.Outcome p (a.drain p [walk env n]) here n.vars (Node.Inside around n)

/-- Walking one node after another, in a scope where `before` is bound so far. -/
theorem outcome_walks {cs : List Node} (hcs : ∀ c ∈ cs, Faithful p c)
    (hlocated : ∀ c ∈ cs, p.Located around c)
    (hname : ∀ c ∈ cs, ∀ x, c = .ofName x → ∀ v, ¬ p.Violates around c v)
    (h : a.Stands env around here before)
    (hscope : p.bindings around = before ++ cs.flatMap Node.vars ++ after) :
    a.Outcome p (a.drain p (cs.map (walk env))) here (cs.flatMap Node.vars)
      fun outer m => ∃ c ∈ cs, Node.Inside around c outer m := by
  induction cs generalizing a before with
  | nil =>
    rw [List.map_nil, drain_nil]
    exact (Outcome.refl a here).congr fun _ _ _ _ => by simp
  | cons c cs ih =>
    rw [List.forall_mem_cons] at hcs hlocated hname
    rw [List.flatMap_cons] at hscope ⊢
    -- What the first node binds is bound when the second one is walked.
    have hscope' : p.bindings around = before ++ c.vars ++ (cs.flatMap Node.vars ++ after) := by
      simpa using hscope
    have hfirst := hcs.1 hlocated.1 hname.1 h hscope'
    have hrest := ih hcs.2 hlocated.2 hname.2 (h.behind hfirst) (by simpa using hscope)
    rw [List.map_cons, ← List.singleton_append, drain_append]
    exact (hfirst.trans hrest).congr fun _ _ _ _ => by simp

/-! ### Plain nodes -/

/-- The node only holds others: it opens no scope, binds no name, and neither is a loop nor names a
label. -/
structure Plain (n : Node) : Prop where
  isFunction : n.isFunction = false
  isLoop : n.isLoop = false
  labeled? : ∀ x, n.labeled? x = none
  bindings? : n.bindings? = none
  marksNames : n.marksNames = false
  vars : n.vars = n.children.flatMap Node.vars

/-- Every expression but a function is plain. -/
theorem plain_expr {e : Expr} (h : (Node.expr e).isFunction = false) : Plain (.expr e) where
  isFunction := h
  isLoop := rfl
  labeled? _ := rfl
  bindings? := by
    cases e with
    | function => cases h
    | _ => rfl
  marksNames := by
    cases e with
    | function => cases h
    | _ => rfl
  vars := by
    cases e with
    | function => cases h
    | _ => simp [Node.children, Node.vars, Node.ofName, List.flatMap_map]

theorem plain_evaluate {e : Expr} : Plain (.stmt (.evaluate site e)) :=
  ⟨rfl, rfl, fun _ => rfl, rfl, rfl, rfl⟩

theorem plain_branch {thenBranch : Stmt} {elseBranch : Option Stmt} :
    Plain (.stmt (.branch site condition thenBranch elseBranch)) where
  isFunction := rfl
  isLoop := rfl
  labeled? _ := rfl
  bindings? := rfl
  marksNames := rfl
  vars := by cases elseBranch <;> simp [Node.children, Node.vars, Stmt.vars]

theorem plain_return {value : Option Expr} : Plain (.stmt (.returnWith site value)) where
  isFunction := rfl
  isLoop := rfl
  labeled? _ := rfl
  bindings? := rfl
  marksNames := rfl
  vars := by cases value <;> rfl

theorem bindings_cons (h : n.bindings? = none) : p.bindings (n :: around) = p.bindings around := by
  rw [Program.bindings, List.findSome?_cons, h, Program.bindings]

/-- What was found out about a node and its children is all about the nodes inside it. -/
theorem Outcome.node (h : a.Outcome p a' here names fun outer m =>
    At around n outer m ∨ ∃ c ∈ n.children, Node.Inside (n :: around) c outer m) :
    a.Outcome p a' here names (Node.Inside around n) :=
  h.congr fun _ _ _ _ => Node.inside_iff.symm

/-- A plain node is walked faithfully if it is tested first and its children are walked
faithfully. -/
theorem faithful_of_plain (hplain : Plain n) (hchildren : ∀ c ∈ n.children, Faithful p c)
    (hstep : ∀ ⦃a env around here before⦄, (∀ x, n = .ofName x → ∀ v, ¬ p.Violates around n v) →
      Stands a env around here before → ∃ a', a.perform p (walk env n) =
        (a', n.children.map (walk env)) ∧ a.Outcome p a' here [] (At around n)) :
    Faithful p n := by
  intro a env around here before after hlocated hname hstands hscope
  obtain ⟨a', hperform, hself⟩ := hstep hname hstands
  -- A plain node changes nothing for the places inside it, and testing it binds nothing.
  have hinside : Stands a' env (n :: around) here before := by
    have h := (hstands.enter hplain.isFunction hplain.isLoop hplain.labeled?).behind hself
    rwa [List.append_nil] at h
  have hscope' : p.bindings (n :: around) =
      before ++ n.children.flatMap Node.vars ++ after := by
    rw [bindings_cons hplain.bindings?, hscope, hplain.vars]
  have hwalks := outcome_walks hchildren (fun c hc => hlocated.child hc) ?_ hinside hscope'
  · rw [drain_singleton, hperform, hplain.vars]
    exact (hself.trans hwalks).node
  -- A name among the children is a reference, since a plain node marks no names.
  · rintro c hc x rfl v hv
    have hmarks := hv.of_name
    rw [hplain.marksNames] at hmarks
    cases hmarks

/-! ### Nodes that bind names or open scopes -/

/-- A node that breaks no rule itself is walked faithfully if its children are. -/
theorem Outcome.children (h : a.Outcome p a' here names fun outer m =>
    ∃ c ∈ n.children, Node.Inside (n :: around) c outer m)
    (hself : ∀ v, ¬ p.Violates around n v) :
    a.Outcome p a' here names (Node.Inside around n) := by
  refine h.congr fun outer m v hv => ?_
  rw [Node.inside_iff]
  constructor
  · exact .inr
  · rintro (⟨rfl, rfl⟩ | hinside)
    · exact absurd hv (hself v)
    · exact hinside

theorem inside_name {outer : List Node} {m : Node} :
    Node.Inside around (.ofName name) outer m ↔ At around (.ofName name) outer m := by
  rw [Node.inside_iff]
  constructor
  · rintro (h | ⟨c, hc, -⟩)
    · exact h
    · cases hc
  · exact .inl

/-- The initial value of a declaration is another node than the name in front of it. -/
theorem not_violates_init (hp : p.Formed) {init : Option Expr} {c : Node} {x : Name}
    {v : Violation} (hn : p.Contains (.stmt (.declare site name init)))
    (hc : c ∈ (init.map Node.expr).toList) (hx : c = .ofName x) :
    ¬ p.Violates (.stmt (.declare site name init) :: around) c v := by
  subst hx
  intro hv
  have hnodup := hp.nodup_children hn
  rw [Node.children, List.nodup_cons] at hnodup
  cases hv
  exact hnodup.1 hc

theorem faithful_declare (hp : p.Formed) {init : Option Expr}
    (hinit : ∀ c ∈ (init.map Node.expr).toList, Faithful p c) :
    Faithful p (.stmt (.declare site name init)) := by
  intro a env around here before after hlocated _ hstands hscope
  have hname : p.bindings around = before ++ name :: after := by
    rw [hscope, Node.vars, Stmt.vars, List.append_assoc]
    rfl
  have hvars : (init.map Node.expr).toList.flatMap Node.vars = [] := by cases init <;> rfl
  have hitems : exprs init.toList env = (init.map Node.expr).toList.map (walk env) := by
    cases init <;> rfl
  have hinside : Stands a env (.stmt (.declare site name init) :: around) here before :=
    hstands.enter rfl rfl fun _ => rfl
  have hscope' : p.bindings (.stmt (.declare site name init) :: around) =
      before ++ (init.map Node.expr).toList.flatMap Node.vars ++ name :: after := by
    rw [bindings_cons rfl, hname, hvars, List.append_nil]
  have hwalks := outcome_walks hinit (fun c hc => hlocated.child (List.mem_cons_of_mem _ hc))
    (fun c hc x hx v => not_violates_init hp hlocated.contains hc hx) hinside hscope'
  have hbehind := hinside.behind hwalks
  rw [hvars, List.append_nil] at hbehind
  have hrule : ∀ v, p.Violates (.stmt (.declare site name init) :: around) (.ofName name) v ↔
      v = .duplicateDeclaration name.identifier ∧
        ∃ earlier ∈ before, earlier.identifier = name.identifier :=
    fun v => Program.violates_declare_iff (hp.nodup_bindings hlocated) hname
  have hbind : Outcome p _ (Analysis.bind _ name env .duplicateDeclaration) here [name]
      (At (.stmt (.declare site name init) :: around) (.ofName name)) :=
    .bind hbehind.holds (hp.kinds _ hlocated.contains) hrule
  -- The initial value comes before the name, although it stands behind it in the text.
  have hboth := hwalks.trans hbind
  rw [hvars, List.nil_append] at hboth
  rw [drain_singleton, walk, perform, performStmt, hitems, drain_append, drain_singleton, perform,
    drain_nil]
  refine .children (hboth.congr fun outer m v _ => ?_) fun v hv => by cases hv
  rw [Node.children, List.exists_mem_cons_iff, inside_name, or_comm]

theorem bindings_cons_of_some {bindings : List Name} (h : n.bindings? = some bindings) :
    p.bindings (n :: around) = bindings := by
  rw [Program.bindings, List.findSome?_cons, h]
  rfl

theorem flatMap_vars_stmt (items : List Stmt) :
    (items.map Node.stmt).flatMap Node.vars = items.flatMap Stmt.vars :=
  List.flatMap_map ..

/-- Statements are no names. -/
theorem stmt_ne_name {items : List Stmt} {c : Node} (hc : c ∈ items.map Node.stmt) (x : Name)
    (hx : c = .ofName x) (v : Violation) : ¬ p.Violates around c v := by
  subst hx
  obtain ⟨s, -, hs⟩ := List.mem_map.1 hc
  cases hs

theorem perform_block (p : Program) (a : Analysis) (env : Environment) (site : Site)
    (statements : List Stmt) :
    a.perform p (walk env (.stmt (.block site statements))) =
      ({ a with store := (a.store.extend env .variable).2 },
        (statements.map Node.stmt).map (walk (a.store.extend env .variable).1)) := by
  rw [← stmts_eq]
  rfl

theorem faithful_block (hbody : ∀ c ∈ statements.map Node.stmt, Faithful p c) :
    Faithful p (.stmt (.block site statements)) := by
  intro a env around here before after hlocated _ hstands hscope
  have hinside : Stands a env (.stmt (.block site statements) :: around) here before :=
    hstands.enter rfl rfl fun _ => rfl
  have hbindings : p.bindings (.stmt (.block site statements) :: around) =
      [] ++ (statements.map Node.stmt).flatMap Node.vars ++ [] := by
    rw [bindings_cons_of_some rfl, flatMap_vars_stmt, List.nil_append, List.append_nil]
  have hwalks := outcome_walks hbody (fun c hc => hlocated.child hc)
    (fun c hc => stmt_ne_name hc) hinside.enter_scope hbindings
  rw [drain_singleton, perform_block]
  -- What the statements bind is bound in the scope of the block.
  refine .children ⟨hwalks.toChanges.inner hstands.holds.lt, ?_, ?_, ?_⟩ fun v hv => by cases hv
  · exact hwalks.loopDepth
  · exact hwalks.functionDepth
  · exact hwalks.functionBase

/-- A label is the first binding of its scope. -/
theorem bind_label (hkind : label.kind = .label) (a : Analysis) (env : Environment)
    (duplicate : String → Violation) :
    ({ a with store := (a.store.extend env .label).2 } : Analysis).bind label
      (a.store.extend env .label).1 duplicate =
      { a with
        notes := (a.note label (a.store.extend env .label).1 none).notes
        store := (a.store.extend env .label).2.declareIn a.store.scopes.size label.identifier
          label.id } := by
  have hnearest : (a.store.extend env .label).2.nearest? (a.store.extend env .label).1 .label =
      some a.store.scopes.size := by
    rw [Store.nearest?_eq, Store.scopeIds_extend, List.find?_cons, Store.scope_extend_self]
    rfl
  simp only [Analysis.bind, Analysis.note, hkind, hnearest, Store.scope_extend_self]
  rfl

theorem faithful_labeled (hp : p.Formed) (hbody : Faithful p (.stmt body)) :
    Faithful p (.stmt (.labeled site label body)) := by
  intro a env around here before after hlocated _ hstands hscope
  have hkind : label.kind = .label := hp.kinds _ hlocated.contains
  have hbind := bind_label hkind a env .duplicateLabel
  have hnote := Reports.note a label (a.store.extend env .label).1 none
  -- Making the scope of the label and binding the label in it is no outcome to speak of: the scope
  -- is new, and labels are never marked where they are bound.
  have hfirst : a.Outcome p (({ a with store := (a.store.extend env .label).2 } : Analysis).bind
      label (a.store.extend env .label).1 .duplicateLabel) here [] fun _ _ => False := by
    rw [hbind]
    exact ⟨⟨.label hstands.holds.lt, [], hnote, by simp⟩, rfl, rfl, rfl⟩
  have hinside : Stands (({ a with store := (a.store.extend env .label).2 } : Analysis).bind
      label (a.store.extend env .label).1 .duplicateLabel) (a.store.extend env .label).1
      (.stmt (.labeled site label body) :: around) here before := by
    rw [hbind]
    exact hstands.enter_label _
  have hscope' : p.bindings (.stmt (.labeled site label body) :: around) =
      before ++ body.vars ++ after := by
    rw [bindings_cons rfl]
    exact hscope
  have hname : ∀ x, Node.stmt body = .ofName x →
      ∀ v, ¬ p.Violates (.stmt (.labeled site label body) :: around) (.stmt body) v := by
    intro x hx
    cases hx
  have hwalk := hbody (hlocated.child (List.mem_cons_of_mem _ List.mem_cons_self)) hname hinside
    hscope'
  have hboth := hfirst.trans hwalk
  rw [drain_singleton]
  refine .children (hboth.congr fun outer m v hv => ?_) fun v hv => by cases hv
  rw [Node.children, List.exists_mem_cons_iff, inside_name, false_or]
  simp only [List.mem_singleton, exists_eq_left]
  constructor
  · exact .inr
  · rintro (⟨rfl, rfl⟩ | hinside)
    · cases hv
    · exact hinside

theorem faithful_loop (hchildren : ∀ c ∈ [Node.expr condition, .stmt body], Faithful p c) :
    Faithful p (.stmt (.loop site condition body)) := by
  intro a env around here before after hlocated _ hstands hscope
  have hvars : (Node.stmt (.loop site condition body)).vars =
      [Node.expr condition, .stmt body].flatMap Node.vars := by
    simp [Node.vars, Stmt.vars]
  have hscope' : p.bindings (.stmt (.loop site condition body) :: around) =
      before ++ [Node.expr condition, .stmt body].flatMap Node.vars ++ after := by
    rw [bindings_cons rfl, hscope, hvars]
  have hname : ∀ c ∈ [Node.expr condition, .stmt body], ∀ x, c = .ofName x →
      ∀ v, ¬ p.Violates (.stmt (.loop site condition body) :: around) c v := by
    rintro c hc x rfl v hv
    cases hv.of_name
  have hwalks := outcome_walks hchildren (fun c hc => hlocated.child hc) hname
    (hstands.enter_loop site condition body) hscope'
  have hitems : a.drain p [walk env (.stmt (.loop site condition body))] =
      (({ a with loopDepth := a.loopDepth + 1 } : Analysis).drain p
        ([Node.expr condition, .stmt body].map (walk env))).drain p [.leaveLoop] := by
    rw [drain_singleton, ← drain_append]
    rfl
  rw [hitems, drain_singleton, perform, drain_nil, hvars]
  -- Leaving the loop takes back what entering it has counted.
  refine .children ⟨⟨hwalks.grows, hwalks.reports⟩, ?_, ?_, ?_⟩ fun v hv => by cases hv
  · show _ - 1 = _
    rw [hwalks.loopDepth, Nat.add_sub_cancel]
  · exact hwalks.functionDepth
  · exact hwalks.functionBase

/-! ### Jumps -/

theorem faithful_breakNone : Faithful p (.stmt (.breakTo site none)) := by
  refine faithful_of_plain ⟨rfl, rfl, fun _ => rfl, rfl, rfl, rfl⟩ (List.forall_mem_nil _) ?_
  intro a env around here before _ hstands
  refine ⟨_, rfl, .check a here rfl fun v => ?_⟩
  rw [Program.violates_break_iff, hstands.loops]

theorem faithful_continueNone : Faithful p (.stmt (.continueTo site none)) := by
  refine faithful_of_plain ⟨rfl, rfl, fun _ => rfl, rfl, rfl, rfl⟩ (List.forall_mem_nil _) ?_
  intro a env around here before _ hstands
  refine ⟨_, rfl, .check a here rfl fun v => ?_⟩
  rw [Program.violates_continue_iff, hstands.loops]

theorem faithful_return {value : Option Expr}
    (hvalue : ∀ c ∈ (value.map Node.expr).toList, Faithful p c) :
    Faithful p (.stmt (.returnWith site value)) := by
  refine faithful_of_plain plain_return hvalue ?_
  intro a env around here before _ hstands
  refine ⟨if a.functionDepth = 0 then a.report site.id .illegalReturn else a, ?_,
    .check a here rfl fun v => ?_⟩
  · cases value <;> rfl
  · rw [Program.violates_return_iff, hstands.functions]

/-- A jump to a label is walked faithfully if it is the label that is tested. -/
theorem faithful_jump (hchildren : n.children = [.ofName label]) (hvars : n.vars = [])
    (hself : ∀ around v, ¬ p.Violates around n v)
    (hstep : ∀ ⦃a env around here before⦄, p.Located around n → Stands a env around here before →
      ∃ a', a.perform p (walk env n) = (a', []) ∧
        a.Outcome p a' here [] (At (n :: around) (.ofName label))) : Faithful p n := by
  intro a env around here before after hlocated _ hstands _
  obtain ⟨a', hperform, hlabel⟩ := hstep hlocated hstands
  rw [drain_singleton, hperform, drain_nil, hvars]
  refine .children (hlabel.congr fun outer m v _ => ?_) (hself around)
  simp only [hchildren, List.mem_singleton, exists_eq_left, inside_name]

/-- Noting a name and marking it. -/
theorem Outcome.note_report (a : Analysis) (here : ScopeId) (env : Environment)
    (definition : Option NodeId) {v : Violation} (hv : p.Violates around (.ofName name) v) :
    a.Outcome p ((a.note name env definition).report name.id v) here []
      (At around (.ofName name)) :=
  ((Outcome.note a here name env definition).trans (.report _ here hv)).congr fun _ _ _ _ => by
    rw [false_or]

theorem reachableLabel?_eq_target? (hstands : Stands a env around here before)
    (hkind : label.kind = .label) :
    a.reachableLabel? label env = (Node.target? around label.identifier).map (·.1.id) := by
  rw [reachableLabel?_eq a hkind, hstands.labels]

theorem faithful_breakSome (hp : p.Formed) :
    Faithful p (.stmt (.breakTo site (some label))) := by
  refine faithful_jump rfl rfl (fun _ v hv => by cases hv) ?_
  intro a env around here before hlocated hstands
  refine ⟨a.referLabel label env, rfl, ?_⟩
  rw [referLabel, reachableLabel?_eq_target? hstands (hp.kinds _ hlocated.contains)]
  cases htarget : Node.target? around label.identifier with
  | none => exact .note_report a here env none (Program.violates_breakLabel_iff.2 ⟨rfl, htarget⟩)
  | some found =>
    refine .skip (.note a here label env _) fun v hv => ?_
    rw [Program.violates_breakLabel_iff, htarget] at hv
    cases hv.2

/-- A label stands directly inside its statement, which tells whether it labels a loop. -/
theorem labelsLoop_eq (hp : p.Formed) (hlocated : p.Located around n) {x : String}
    (htarget : Node.target? around x = some (label, body)) :
    p.labelsLoop label.id = body.isLoop := by
  obtain ⟨m, hm, hlabeled⟩ := List.exists_of_findSome?_eq_some htarget
  -- The label is bound at its own node, whose parent is the labeled statement.
  have hcontains : p.Contains m := hlocated.contains_around m (List.takeWhile_subset _ hm)
  unfold Node.labeled? at hlabeled
  split at hlabeled
  · rename_i site found s
    split at hlabeled
    · cases hlabeled
      have hparent : p.parent? label.id = some (Node.stmt (.labeled site label body)).id :=
        hp.parent?_eq (c := .ofName label) hcontains List.mem_cons_self
      rw [Program.labelsLoop, Program.parentNode?, hparent, Option.bind_some,
        hp.indexed _ hcontains]
      rfl
    · cases hlabeled
  · cases hlabeled

theorem faithful_continueSome (hp : p.Formed) :
    Faithful p (.stmt (.continueTo site (some label))) := by
  refine faithful_jump rfl rfl (fun _ v hv => by cases hv) ?_
  intro a env around here before hlocated hstands
  refine ⟨a.continueLabel p label env, rfl, ?_⟩
  have hreach := reachableLabel?_eq_target? hstands (hp.kinds _ hlocated.contains)
  rw [continueLabel, referLabel, hreach]
  cases htarget : Node.target? around label.identifier with
  | none =>
    exact .note_report a here env none (Program.violates_continueLabel_iff.2 (.inl ⟨rfl, htarget⟩))
  | some target =>
    obtain ⟨found, body⟩ := target
    simp only [Option.map_some, labelsLoop_eq hp hlocated htarget]
    split
    · rename_i hloop
      refine .skip (.note a here label env _) fun v hv => ?_
      rw [Program.violates_continueLabel_iff, htarget] at hv
      obtain ⟨-, h⟩ | ⟨-, _, _, h, hnotALoop⟩ := hv
      · cases h
      · cases h
        rw [hloop] at hnotALoop
        cases hnotALoop
    · rename_i hloop
      exact .note_report a here env _ (Program.violates_continueLabel_iff.2
        (.inr ⟨rfl, found, body, htarget, Bool.eq_false_iff.2 hloop⟩))

/-! ### Functions and assignments -/

/-- Binding parameters one after another, where `bound` are bound already. -/
theorem outcome_params {bound rest : List Name} (hnodup : params.Nodup)
    (hparams : params = bound ++ rest) (hkinds : ∀ x ∈ rest, x.kind = .variable)
    (hholds : a.store.Holds env here bound) :
    a.Outcome p (rest.foldl (fun a param => a.bind param env .duplicateParameter) a) here rest
      fun outer m => ∃ x ∈ rest,
        At (.expr (.function site params statements) :: around) (.ofName x) outer m := by
  induction rest generalizing a bound with
  | nil => exact (Outcome.refl a here).congr fun _ _ _ _ => by simp
  | cons param rest ih =>
    rw [List.forall_mem_cons] at hkinds
    have hfirst : a.Outcome p (a.bind param env .duplicateParameter) here [param]
        (At (.expr (.function site params statements) :: around) (.ofName param)) :=
      .bind hholds hkinds.1 fun v => Program.violates_param_iff hnodup hparams
    have hparams' : params = (bound ++ [param]) ++ rest := by
      rw [hparams, List.append_assoc]
      rfl
    have hrest := ih hparams' hkinds.2 (hholds.grow hfirst.grows)
    exact (hfirst.trans hrest).congr fun _ _ _ _ => by simp

/-- The state after binding the parameters of a function in a scope of its own. -/
def bindParams (a : Analysis) (env : Environment) (params : List Name) : Analysis :=
  params.foldl (fun b param => b.bind param (a.store.extend env .variable).1 .duplicateParameter)
    { a with store := (a.store.extend env .variable).2 }

theorem perform_function (p : Program) (a : Analysis) (env : Environment) (site : Site)
    (params : List Name) (statements : List Stmt) :
    a.perform p (walk env (.expr (.function site params statements))) =
      ({ a.bindParams env params with
        loopDepth := 0
        functionDepth := a.functionDepth + 1
        functionBase := (a.store.extend env .variable).1.size },
        (statements.map Node.stmt).map (walk (a.store.extend env .variable).1) ++
          [.leaveFunction a.loopDepth a.functionBase]) := by
  rw [← stmts_eq]
  rfl

theorem nodup_params (hp : p.Formed) (h : p.Contains (.expr (.function site params statements))) :
    params.Nodup := by
  have hnodup := hp.nodup_children h
  rw [Node.children, List.nodup_append] at hnodup
  exact List.Nodup.of_map _ hnodup.1

theorem faithful_function (hp : p.Formed)
    (hbody : ∀ c ∈ statements.map Node.stmt, Faithful p c) :
    Faithful p (.expr (.function site params statements)) := by
  intro a env around here before after hlocated _ hstands hscope
  have hparams : Outcome p { a with store := (a.store.extend env .variable).2 }
      (a.bindParams env params) a.store.scopes.size params fun outer m => ∃ x ∈ params,
        At (.expr (.function site params statements) :: around) (.ofName x) outer m :=
    outcome_params (nodup_params hp hlocated.contains) rfl (hp.kinds _ hlocated.contains)
      hstands.holds.extend_variable
  have hinside := hstands.enter_function hparams.grows site statements
  have hbindings : p.bindings (.expr (.function site params statements) :: around) =
      params ++ (statements.map Node.stmt).flatMap Node.vars ++ [] := by
    rw [bindings_cons_of_some rfl, flatMap_vars_stmt, List.append_nil]
  have hwalks := outcome_walks hbody
    (fun c hc => hlocated.child (List.mem_append_right _ hc)) (fun c hc => stmt_ne_name hc)
    hinside hbindings
  -- Parameters and statements share one scope, which is new and so not the one around the
  -- function.
  have hchanges := (hparams.toChanges.trans ⟨hwalks.grows, hwalks.reports⟩).inner
    hstands.holds.lt
  rw [drain_singleton, perform_function, drain_append, drain_singleton, perform, drain_nil]
  refine .children (Outcome.congr ⟨⟨hchanges.grows, hchanges.reports⟩, rfl, ?_, rfl⟩
    fun outer m v _ => ?_) fun v hv => by cases hv
  · show _ - 1 = _
    rw [hwalks.functionDepth, Nat.add_sub_cancel]
  · rw [Node.children]
    constructor
    · rintro (⟨x, hx, h⟩ | ⟨c, hc, h⟩)
      · exact ⟨.ofName x, List.mem_append_left _ (List.mem_map_of_mem hx), inside_name.2 h⟩
      · exact ⟨c, List.mem_append_right _ hc, h⟩
    · rintro ⟨c, hc, h⟩
      obtain hc | hc := List.mem_append.1 hc
      · obtain ⟨x, hx, rfl⟩ := List.mem_map.1 hc
        exact .inl ⟨x, hx, inside_name.1 h⟩
      · exact .inr ⟨c, hc, h⟩

/-- The target of an assignment is looked up after the value. -/
theorem faithful_assign {value : Expr} (hvalue : Faithful p (.expr value)) :
    Faithful p (.expr (.assign site name value)) := by
  intro a env around here before after hlocated _ hstands hscope
  have hplain : Plain (.expr (.assign site name value)) := plain_expr rfl
  have hname : ∀ x, Node.expr value = .ofName x →
      ∀ v, ¬ p.Violates (.expr (.assign site name value) :: around) (.expr value) v := by
    rintro x hx v hv
    rw [hx] at hv
    cases hv.of_name
  have hscope' : p.bindings (.expr (.assign site name value) :: around) =
      before ++ (Node.expr value).vars ++ after := by
    rw [bindings_cons rfl]
    exact hscope
  have hwalk := hvalue (hlocated.child (List.mem_cons_of_mem _ List.mem_cons_self)) hname
    (hstands.enter hplain.isFunction hplain.isLoop hplain.labeled?) hscope'
  -- First the value is walked, then the target is looked up.
  have hboth : a.Outcome p ((a.drain p [walk env (.expr value)]).refer name env) here _ _ :=
    hwalk.trans (.note _ here name env _)
  have hitems : a.drain p [walk env (.expr (.assign site name value))] =
      (a.drain p [walk env (.expr value)]).refer name env := by
    rw [drain_singleton, walk, perform, performExpr, ← List.singleton_append, drain_append,
      drain_singleton _ _ (.reference name env), perform, drain_nil]
    rfl
  rw [hitems]
  refine .children (hboth.congr fun outer m v hv => ?_) fun v hv => by cases hv
  rw [Node.children, List.exists_mem_cons_iff, inside_name, or_false]
  simp only [List.mem_singleton, exists_eq_left]
  constructor
  · exact .inr
  · rintro (⟨rfl, rfl⟩ | hinside)
    · cases hv.of_name
    · exact hinside

/-! ### All nodes -/

/-- A plain node that breaks no rule itself is walked faithfully if its children are. -/
theorem faithful_of_children (hplain : Plain n) (hchildren : ∀ c ∈ n.children, Faithful p c)
    (hself : ∀ around v, ¬ p.Violates around n v)
    (hperform : ∀ a env, perform p a (walk env n) = (a, n.children.map (walk env))) :
    Faithful p n :=
  faithful_of_plain hplain hchildren fun a env around here _ _ _ =>
    ⟨a, hperform a env, .skip (.refl a here) (hself around)⟩

theorem faithful_expr (hp : p.Formed) (e : Expr)
    (hchildren : ∀ c ∈ (Node.expr e).children, Faithful p c) : Faithful p (.expr e) := by
  cases e with
  | name x =>
    exact faithful_of_plain (plain_expr rfl) hchildren fun a env around here _ hname _ =>
      ⟨a.refer x env, rfl, .skip (.note a here x env _) (hname x rfl)⟩
  | array | tuple | object =>
    refine faithful_of_children (plain_expr rfl) hchildren (fun _ v hv => by cases hv)
      fun a env => ?_
    rw [walk, perform, performExpr, exprs_eq]
    simp [Node.children]
  | call =>
    refine faithful_of_children (plain_expr rfl) hchildren (fun _ v hv => by cases hv)
      fun a env => ?_
    rw [walk, perform, performExpr, exprs_eq]
    rfl
  | literal | unary | binary | logical | member | index =>
    exact faithful_of_children (plain_expr rfl) hchildren (fun _ v hv => by cases hv)
      fun _ _ => rfl
  | assign _ _ value =>
    exact faithful_assign (hchildren _ (List.mem_cons_of_mem _ List.mem_cons_self))
  | function =>
    exact faithful_function hp fun c hc => hchildren c (List.mem_append_right _ hc)

theorem faithful_stmt (hp : p.Formed) (s : Stmt)
    (hchildren : ∀ c ∈ (Node.stmt s).children, Faithful p c) : Faithful p (.stmt s) := by
  cases s with
  | declare => exact faithful_declare hp fun c hc => hchildren c (List.mem_cons_of_mem _ hc)
  | evaluate =>
    exact faithful_of_children plain_evaluate hchildren (fun _ v hv => by cases hv)
      fun _ _ => rfl
  | block => exact faithful_block hchildren
  | labeled => exact faithful_labeled hp (hchildren _ (List.mem_cons_of_mem _ List.mem_cons_self))
  | branch _ _ _ elseBranch =>
    refine faithful_of_children plain_branch hchildren (fun _ v hv => by cases hv) fun a env => ?_
    cases elseBranch <;> rfl
  | loop => exact faithful_loop hchildren
  | breakTo _ label =>
    cases label with
    | none => exact faithful_breakNone
    | some => exact faithful_breakSome hp
  | continueTo _ label =>
    cases label with
    | none => exact faithful_continueNone
    | some => exact faithful_continueSome hp
  | returnWith => exact faithful_return hchildren

/-- Walking any node of a program marks the nodes inside it that break a rule. -/
theorem faithful (hp : p.Formed) (n : Node) : Faithful p n := by
  induction hsize : sizeOf n using Nat.strongRecOn generalizing n with
  | ind size ih =>
    subst hsize
    have hchildren : ∀ c ∈ n.children, Faithful p c :=
      fun c hc => ih _ (Node.sizeOf_lt_of_mem_children hc) c rfl
    cases n with
    | expr e => exact faithful_expr hp e hchildren
    | stmt s => exact faithful_stmt hp s hchildren

end Analysis

end LWorkbench
