import LWorkbench.Proofs.Analysis.Diagnostics

/-!
# The course of analysis

Analysis does one pending item after another. Walking a node calls for walking most of its children;
the names that it binds and the labels that jumps name are dealt with at once, and the name of
a declaration and the target of an assignment after everything else of their node. So every node of
a program is dealt with once: it comes up in the course of analysis, and what is noted about it
then stays until the end.

## Main definitions

* `Node.walked`, `Node.unwalked` — the children of a node that are walked, and the others, which are
  names
* `Analysis.inner`, `Analysis.closing` — the chain with which children are walked, and what is done
  behind them
* `Analysis.Leads` — doing items one by one
* `Work.nodes`, `Work.written` — the nodes that an item stands for, and those that it writes notes
  about at once

## Main results

* `Analysis.items_walk` — what walking a node calls for
* `Analysis.leads_of_mem`, `Analysis.Leads.called` — every item comes up
* `Analysis.Leads.notes_eq`, `Analysis.Leads.note_written` — notes are written once
* `Program.Located.comes_up` — every node comes up
-/

namespace LWorkbench

namespace Node

/-- The names directly inside a node that are not walked as nodes of their own: those that it binds,
the target of an assignment, and the label of a jump. -/
def unwalked : Node → List Name
  | expr (.function _ params _) => params
  | expr (.assign _ target _) => [target]
  | stmt (.declare _ name _) => [name]
  | stmt (.labeled _ label _) => [label]
  | stmt (.breakTo _ label) => label.toList
  | stmt (.continueTo _ label) => label.toList
  | _ => []

/-- The other children of a node. -/
def walked : Node → List Node
  | expr (.function _ _ body) => body.map stmt
  | expr (.assign _ _ value) => [expr value]
  | stmt (.declare _ _ init) => (init.map expr).toList
  | stmt (.labeled _ _ body) => [stmt body]
  | stmt (.breakTo ..) => []
  | stmt (.continueTo ..) => []
  | n => n.children

theorem children_eq (n : Node) : n.children = n.unwalked.map ofName ++ n.walked := by
  cases n with
  | expr e => cases e <;> rfl
  | stmt s =>
    cases s with
    | breakTo _ label | continueTo _ label => cases label <;> rfl
    | _ => rfl

theorem walked_subset (n : Node) : n.walked ⊆ n.children := by
  rw [children_eq]
  exact List.subset_append_right _ _

theorem postorder_eq_flatMap (ns : List Node) :
    postorder ns = ns.flatMap fun n => postorder [n] := by
  induction ns with
  | nil => rfl
  | cons n ns ih => rw [← List.singleton_append, postorder_append, List.flatMap_append, ih,
      List.flatMap_singleton]

/-- A name has no nodes inside it. -/
theorem postorder_names (names : List Name) : postorder (names.map ofName) = names.map ofName := by
  induction names with
  | nil => rfl
  | cons x names ih =>
    rw [List.map_cons, postorder_cons, ih]
    rfl

end Node

namespace Work

/-- The nodes that an item stands for. -/
def nodes : Work → List Node
  | .stmt s _ => Node.postorder [.stmt s]
  | .expr e _ => Node.postorder [.expr e]
  | .declare n _ => [.ofName n]
  | .reference n _ => [.ofName n]
  | .leaveLoop => []
  | .leaveFunction .. => []

/-- The nodes about which doing an item writes notes at once. -/
def written : Work → List Node
  | .expr (.name x) _ => [.ofName x]
  | .expr (.function _ params _) _ => params.map .ofName
  | .stmt (.labeled _ label _) _ => [.ofName label]
  | .stmt (.breakTo _ (some label)) _ => [.ofName label]
  | .stmt (.breakTo site none) _ => [.stmt (.breakTo site none)]
  | .stmt (.continueTo _ (some label)) _ => [.ofName label]
  | .stmt (.continueTo site none) _ => [.stmt (.continueTo site none)]
  | .stmt (.returnWith site value) _ => [.stmt (.returnWith site value)]
  | .declare n _ => [.ofName n]
  | .reference n _ => [.ofName n]
  | _ => []

end Work

namespace Analysis

variable {p : Program} {a b c : Analysis} {env : Environment} {n m : Node} {w w' : Work}
  {items items' items'' rest : List Work} {k : NodeId} {around outer : List Node}

/-- The chain with which the children of a node are walked. -/
def inner (a : Analysis) (env : Environment) : Node → Environment
  | .stmt (.block ..) => (a.store.extend env .variable).1
  | .expr (.function ..) => (a.store.extend env .variable).1
  | .stmt (.labeled ..) => (a.store.extend env .label).1
  | _ => env

/-- What is done after the children of a node have been walked. -/
def closing (a : Analysis) (env : Environment) : Node → List Work
  | .expr (.function ..) => [.leaveFunction a.loopDepth a.functionBase]
  | .expr (.assign _ target _) => [.reference target env]
  | .stmt (.declare _ name _) => [.declare name env]
  | .stmt (.loop ..) => [.leaveLoop]
  | _ => []

/-- Walking a node calls for walking its children, and for what is done behind them. -/
theorem items_walk (p : Program) (a : Analysis) (env : Environment) (n : Node) :
    (a.perform p (walk env n)).2 = n.walked.map (walk (a.inner env n)) ++ a.closing env n := by
  cases n with
  | expr e =>
    cases e <;> simp [walk, perform, performExpr, Node.walked, Node.children, inner, closing,
      exprs, stmts]
  | stmt s =>
    cases s with
    | breakTo _ label | continueTo _ label => cases label <;> rfl
    | declare _ _ part | branch _ _ _ part | returnWith _ part => cases part <;> rfl
    | _ => simp [walk, perform, performStmt, Node.walked, Node.children, inner, closing, stmts]

/-! ### Doing items one by one -/

/-- Doing items one by one leads from a state with pending items to another one. -/
inductive Leads (p : Program) (a : Analysis) (items : List Work) : Analysis → List Work → Prop
  | refl : Leads p a items a items
  | step {b : Analysis} {w : Work} {rest : List Work} (h : Leads p a items b (w :: rest)) :
    Leads p a items (b.perform p w).1 ((b.perform p w).2 ++ rest)

namespace Leads

theorem trans (h : Leads p a items b items') (h' : Leads p b items' c items'') :
    Leads p a items c items'' := by
  induction h' with
  | refl => exact h
  | step _ ih => exact ih.step

/-- Further items may wait behind. -/
theorem append (h : Leads p a items b items') (rest : List Work) :
    Leads p a (items ++ rest) b (items' ++ rest) := by
  induction h with
  | refl => exact .refl
  | step _ ih =>
    rw [List.append_assoc]
    exact ih.step

theorem drain_eq (h : Leads p a items b items') : b.drain p items' = a.drain p items := by
  induction h with
  | refl => rfl
  | step _ ih => rw [← ih, drain_cons]

end Leads

theorem leads_drain (p : Program) (a : Analysis) (items : List Work) :
    Leads p a items (a.drain p items) [] := by
  fun_induction drain p a items with
  | case1 a => exact .refl
  | case2 a item items ih => exact Leads.trans (.step .refl) ih

/-- Every item comes up. -/
theorem leads_of_mem (p : Program) (a : Analysis) (hw : w ∈ items) :
    ∃ b rest, Leads p a items b (w :: rest) := by
  obtain ⟨before, after, rfl⟩ := List.append_of_mem hw
  exact ⟨a.drain p before, after, (leads_drain p a before).append (w :: after)⟩

/-- What an item calls for comes up. -/
theorem Leads.called (h : Leads p a items b (w :: rest)) (hw : w' ∈ (b.perform p w).2) :
    ∃ c rest', Leads p a items c (w' :: rest') := by
  obtain ⟨c, rest', h'⟩ := leads_of_mem p (b.perform p w).1 (List.mem_append_left rest hw)
  exact ⟨c, rest', h.step.trans h'⟩

/-! ### Notes are written once -/

theorem notes_report (a : Analysis) (v : Violation) {i : NodeId} (h : k ≠ i) :
    (a.report i v).notes[k]? = a.notes[k]? := by
  rw [report, Array.getElem?_modify, if_neg (Ne.symm h)]

theorem notes_note (a : Analysis) (x : Name) (env : Environment) (definition : Option NodeId)
    (h : k ≠ x.id) : (a.note x env definition).notes[k]? = a.notes[k]? := by
  rw [note, Array.getElem?_modify, if_neg (Ne.symm h)]

theorem notes_bind (a : Analysis) (x : Name) (env : Environment) (duplicate : String → Violation)
    (h : k ≠ x.id) : (a.bind x env duplicate).notes[k]? = a.notes[k]? := by
  have hnote := notes_note a x env none h
  simp only [bind]
  split
  · exact hnote
  · split
    · rw [notes_report _ _ h, hnote]
    · exact hnote

theorem notes_foldl_bind {params : List Name} (a : Analysis) (env : Environment)
    (duplicate : String → Violation) (h : ∀ x ∈ params, k ≠ x.id) :
    (params.foldl (fun a param => a.bind param env duplicate) a).notes[k]? = a.notes[k]? := by
  induction params generalizing a with
  | nil => rfl
  | cons x params ih =>
    obtain ⟨hx, hparams⟩ := List.forall_mem_cons.1 h
    rw [List.foldl_cons, ih _ hparams, notes_bind _ _ _ _ hx]

theorem notes_referLabel (a : Analysis) (x : Name) (env : Environment) (h : k ≠ x.id) :
    (a.referLabel x env).notes[k]? = a.notes[k]? := by
  unfold referLabel
  split
  · exact notes_note _ _ _ _ h
  · rw [notes_report _ _ h, notes_note _ _ _ _ h]

theorem notes_continueLabel (p : Program) (a : Analysis) (x : Name) (env : Environment)
    (h : k ≠ x.id) : (a.continueLabel p x env).notes[k]? = a.notes[k]? := by
  have hrefer := notes_referLabel a x env h
  unfold continueLabel
  split
  · split
    · exact hrefer
    · rw [notes_report _ _ h, hrefer]
  · exact hrefer

/-- Doing an item writes notes about certain nodes only. -/
theorem notes_perform (p : Program) (a : Analysis) (h : k ∉ w.written.map Node.id) :
    (a.perform p w).1.notes[k]? = a.notes[k]? := by
  -- Jumps and returns without a target are marked at their own node.
  have hif : ∀ {q : Prop} [Decidable q] {i : NodeId} {v : Violation}, k ≠ i →
      (if q then a.report i v else a).notes[k]? = a.notes[k]? := by
    intro q _ i v hi
    split
    · exact notes_report a v hi
    · rfl
  cases w with
  | stmt s env =>
    cases s with
    | labeled => exact notes_bind _ _ _ _ (List.ne_of_not_mem_cons h)
    | breakTo _ label =>
      cases label with
      | none => exact hif (List.ne_of_not_mem_cons h)
      | some label => exact notes_referLabel _ _ _ (List.ne_of_not_mem_cons h)
    | continueTo _ label =>
      cases label with
      | none => exact hif (List.ne_of_not_mem_cons h)
      | some label => exact notes_continueLabel _ _ _ _ (List.ne_of_not_mem_cons h)
    | returnWith => exact hif (List.ne_of_not_mem_cons h)
    | _ => rfl
  | expr e env =>
    cases e with
    | name x => exact notes_note _ _ _ _ (List.ne_of_not_mem_cons h)
    | function site params body =>
      refine notes_foldl_bind _ _ _ fun x hx hk => h ?_
      rw [Work.written, List.map_map]
      exact List.mem_map.2 ⟨x, hx, hk.symm⟩
    | _ => rfl
  | declare x env => exact notes_bind _ _ _ _ (List.ne_of_not_mem_cons h)
  | reference x env => exact notes_note _ _ _ _ (List.ne_of_not_mem_cons h)
  | leaveLoop | leaveFunction => rfl

theorem nodes_walk (env : Environment) (n : Node) :
    (walk env n).nodes = Node.postorder n.children ++ [n] := by
  rw [← Node.postorder_singleton]
  cases n <;> rfl

theorem nodes_walks (env : Environment) (ns : List Node) :
    (ns.map (walk env)).flatMap Work.nodes = Node.postorder ns := by
  rw [List.flatMap_map, Node.postorder_eq_flatMap]
  congr
  funext n
  cases n <;> rfl

/-- Walking a node writes at once about names that are not walked, or about the node itself. -/
theorem written_sublist (a : Analysis) (env : Environment) (n : Node) :
    ((walk env n).written ++ (a.closing env n).flatMap Work.nodes).Sublist
      (n.unwalked.map .ofName ++ [n]) := by
  cases n with
  | expr e =>
    cases e <;> simp [walk, Work.written, closing, Work.nodes, Node.unwalked, Node.ofName]
  | stmt s =>
    cases s with
    | breakTo _ label | continueTo _ label =>
      cases label <;> simp [walk, Work.written, closing, Node.unwalked]
    | _ => simp [walk, Work.written, closing, Work.nodes, Node.unwalked]

/-- What is done behind the children is about names that are not walked. -/
theorem closing_subset (a : Analysis) (env : Environment) (n : Node) :
    (a.closing env n).flatMap Work.nodes ⊆ n.unwalked.map .ofName := by
  cases n with
  | expr e => cases e <;> simp [closing, Work.nodes, Node.unwalked]
  | stmt s => cases s <;> simp [closing, Work.nodes, Node.unwalked]

/-- The nodes that an item writes about at once and those that it calls for are different nodes
among those that it stands for. -/
theorem nodes_perform (p : Program) (a : Analysis) (w : Work) :
    (w.written ++ (a.perform p w).2.flatMap Work.nodes).Subperm w.nodes := by
  have hwalk : ∀ env n, ((walk env n).written ++
      (a.perform p (walk env n)).2.flatMap Work.nodes).Subperm (walk env n).nodes := by
    intro env n
    rw [items_walk, List.flatMap_append, nodes_walks, nodes_walk, Node.children_eq,
      Node.postorder_append, Node.postorder_names]
    -- What is done behind the children is about names that are not walked, so it may change places
    -- with the nodes inside the children.
    have hfirst : ((walk env n).written ++ (Node.postorder n.walked ++
        (a.closing env n).flatMap Work.nodes)).Perm
        ((walk env n).written ++ (a.closing env n).flatMap Work.nodes ++
          Node.postorder n.walked) := by
      rw [List.append_assoc]
      exact .append_left _ List.perm_append_comm
    have hlast : (n.unwalked.map Node.ofName ++ [n] ++ Node.postorder n.walked).Perm
        (n.unwalked.map Node.ofName ++ Node.postorder n.walked ++ [n]) := by
      rw [List.append_assoc, List.append_assoc]
      exact .append_left _ List.perm_append_comm
    have hsub := (List.subperm_append_right (Node.postorder n.walked)).2
      (written_sublist a env n).subperm
    exact (hfirst.subperm.trans hsub).trans hlast.subperm
  cases w with
  | stmt s env => exact hwalk env (.stmt s)
  | expr e env => exact hwalk env (.expr e)
  | declare | reference | leaveLoop | leaveFunction => exact .refl _

/-- The items stand for different nodes. -/
def Distinct (items : List Work) : Prop :=
  ((items.flatMap Work.nodes).map Node.id).Nodup

theorem Distinct.step (h : Distinct (w :: rest)) (p : Program) (a : Analysis) :
    ((w.written ++ ((a.perform p w).2 ++ rest).flatMap Work.nodes).map Node.id).Nodup := by
  obtain ⟨nodes, hperm, hsub⟩ := nodes_perform p a w
  rw [List.flatMap_append, ← List.append_assoc]
  refine ((hperm.append_right _).map Node.id).nodup ?_
  refine h.sublist (List.Sublist.map _ ?_)
  rw [List.flatMap_cons]
  exact hsub.append_right _

/-- A node is neither inside itself nor among the nodes that the other items stand for. -/
theorem Distinct.not_mem_called (h : Distinct (walk env n :: rest)) (p : Program) (a : Analysis) :
    n ∉ ((a.perform p (walk env n)).2 ++ rest).flatMap Work.nodes := by
  rw [Distinct, List.flatMap_cons, nodes_walk, List.map_append, List.map_append,
    List.nodup_append, List.nodup_append] at h
  obtain ⟨⟨-, -, hinside⟩, -, houtside⟩ := h
  have hself : n.id ∈ (Node.postorder n.children).map Node.id ++ [n].map Node.id :=
    List.mem_append_right _ List.mem_cons_self
  have hchildren : n ∉ Node.postorder n.children := fun hm =>
    hinside _ (List.mem_map_of_mem hm) _ List.mem_cons_self rfl
  rw [Node.children_eq, Node.postorder_append, Node.postorder_names] at hchildren
  rw [List.flatMap_append, items_walk, List.flatMap_append, nodes_walks]
  intro hmem
  rcases List.mem_append.1 hmem with hmem | hmem
  · rcases List.mem_append.1 hmem with hmem | hmem
    · exact hchildren (List.mem_append_right _ hmem)
    · exact hchildren (List.mem_append_left _ (closing_subset a env n hmem))
  · exact houtside _ hself _ (List.mem_map_of_mem hmem) rfl

theorem nodes_perform_subset (p : Program) (a : Analysis) (w : Work) :
    w.written ⊆ w.nodes ∧ (a.perform p w).2.flatMap Work.nodes ⊆ w.nodes :=
  List.append_subset.1 (nodes_perform p a w).subset

namespace Leads

theorem distinct (h : Leads p a items b items') (hitems : Distinct items) : Distinct items' := by
  induction h with
  | refl => exact hitems
  | @step b w rest _ ih =>
    have hnodup := ih.step p b
    rw [List.map_append] at hnodup
    exact (List.nodup_append.1 hnodup).2.1

theorem nodes_subset (h : Leads p a items b items') :
    items'.flatMap Work.nodes ⊆ items.flatMap Work.nodes := by
  induction h with
  | refl => exact List.Subset.refl _
  | @step b w rest _ ih =>
    rw [List.flatMap_cons, List.append_subset] at ih
    rw [List.flatMap_append]
    exact List.append_subset.2 ⟨List.Subset.trans (nodes_perform_subset p b w).2 ih.1, ih.2⟩

/-- Notes about other nodes than those that the items stand for stay as they are. -/
theorem notes_eq (h : Leads p a items b items') (hk : k ∉ (items.flatMap Work.nodes).map Node.id) :
    b.notes[k]? = a.notes[k]? := by
  induction h with
  | refl => rfl
  | @step b w rest h ih =>
    have hsubset := h.nodes_subset
    rw [List.flatMap_cons, List.append_subset] at hsubset
    have hwritten := List.Subset.trans (nodes_perform_subset p b w).1 hsubset.1
    rw [notes_perform, ih]
    exact fun hmem => hk (List.map_subset _ hwritten hmem)

/-- What is noted about a node stays until the end. -/
theorem note_written (h : Leads p a items b (w :: rest)) (hitems : Distinct items)
    (hm : m ∈ w.written) :
    (a.drain p items).notes[m.id]? = (b.perform p w).1.notes[m.id]? := by
  have hnodup := (h.distinct hitems).step p b
  rw [List.map_append, List.nodup_append] at hnodup
  rw [← h.drain_eq, drain_cons]
  refine (leads_drain p _ _).notes_eq fun hk => ?_
  exact hnodup.2.2 _ (List.mem_map_of_mem hm) _ hk rfl

/-- The first step of a course. -/
theorem cons_cases (h : Leads p a (w :: rest) b items') :
    (b = a ∧ items' = w :: rest) ∨
      Leads p (a.perform p w).1 ((a.perform p w).2 ++ rest) b items' := by
  induction h with
  | refl => exact .inl ⟨rfl, rfl⟩
  | step _ ih =>
    rcases ih with ⟨rfl, hitems⟩ | h
    · cases hitems
      exact .inr .refl
    · exact .inr h.step

/-- There is only one course, so of two states one comes before the other. -/
theorem linear (h : Leads p a items b items') (h' : Leads p a items c items'') :
    Leads p b items' c items'' ∨ Leads p c items'' b items' := by
  induction h with
  | refl => exact .inl h'
  | step _ ih =>
    rcases ih with ih | ih
    · rcases ih.cons_cases with ⟨rfl, rfl⟩ | ih
      · exact .inr (.step .refl)
      · exact .inl ih
    · exact .inr ih.step

/-- A node that is being walked does not come up again. -/
theorem eq_of_walk {env' : Environment} {rest' : List Work}
    (h : Leads p a (walk env n :: rest) b (walk env' n :: rest'))
    (hitems : Distinct (walk env n :: rest)) : env = env' := by
  rcases h.cons_cases with ⟨-, heq⟩ | h
  · cases n <;> · cases heq; rfl
  · have hn : n ∈ (walk env' n).nodes := by
      rw [nodes_walk]
      exact List.mem_append_right _ List.mem_cons_self
    refine absurd (h.nodes_subset ?_) (hitems.not_mem_called p a)
    rw [List.flatMap_cons]
    exact List.mem_append_left _ hn

/-- A node is walked once. -/
theorem walk_unique {env' : Environment} {rest' : List Work}
    (h : Leads p a items b (walk env n :: rest)) (h' : Leads p a items c (walk env' n :: rest'))
    (hitems : Distinct items) : env = env' := by
  rcases h.linear h' with hnext | hnext
  · exact hnext.eq_of_walk (h.distinct hitems)
  · exact (hnext.eq_of_walk (h'.distinct hitems)).symm

end Leads

end Analysis

/-! ### Every node comes up -/

namespace Program

open Analysis

variable {p : Program} {around outer : List Node} {n m : Node} {x : Name} {env : Environment}

/-- The items that analysis of a program starts with. -/
def items (p : Program) : List Work := (roots p.body).map (walk rootChain)

/-- In the course of analysis the node is walked with the chain. -/
def WalkedWith (p : Program) (n : Node) (env : Environment) : Prop :=
  ∃ b rest, Leads p (start p) p.items b (walk env n :: rest)

theorem Formed.distinct_items (hp : p.Formed) : Distinct p.items := by
  rw [Distinct, items, nodes_walks]
  exact hp.nodup_ids

/-- Every node is walked, or is a name directly inside a node that is walked. -/
theorem Located.comes_up (h : p.Located around n) : (∃ env, p.WalkedWith n env) ∨
    ∃ m outer x env, around = m :: outer ∧ n = .ofName x ∧ x ∈ m.unwalked ∧
      p.WalkedWith m env := by
  obtain ⟨s, hs, h⟩ := h
  induction h with
  | root =>
    have hmem : walk rootChain (.stmt s) ∈ p.items :=
      List.mem_map_of_mem (List.mem_map_of_mem hs)
    exact .inl ⟨rootChain, leads_of_mem p (start p) hmem⟩
  | @child outer m c _ hc ih =>
    rcases ih with ⟨env, b, rest, hwalk⟩ | ⟨_, _, x, _, _, rfl, _, _⟩
    · rw [Node.children_eq, List.mem_append] at hc
      rcases hc with hc | hc
      · obtain ⟨x, hx, rfl⟩ := List.mem_map.1 hc
        exact .inr ⟨m, outer, x, env, rfl, rfl, hx, b, rest, hwalk⟩
      · left
        refine ⟨b.inner env m, hwalk.called ?_⟩
        rw [items_walk]
        exact List.mem_append_left _ (List.mem_map_of_mem hc)
    -- A name has no children.
    · cases hc

end Program

end LWorkbench
