import LWorkbench.Proofs.Layout

/-!
# Walking a program

Seen through its numbers, a program is a tree: every number but those of the top statements has
one parent, which is larger. A walk keeps the numbers that are still to come on a stack. It takes
the first one and puts the nodes directly inside that node in its place, so it meets a node before
the nodes inside it, and those before the next sibling.

In the text this is the order in which nodes begin, and of two nodes that begin at the same byte
the longer one comes first. No two nodes have the same span, so the order tells all of them apart.

## Main definitions

* `Program.walk` — the walk over a stack of numbers
* `Span.Precedes` — the order of nodes in the text
* `Program.IsTree`, `Program.WalksInOrder` — numbers make a tree, and the walk lists it in order

## Main results

* `Program.Formed.walk_eq` — the walk ends when every node was met, and lists the nodes parents
  first
* `Node.pairwise_preorder` — listing nodes parents first is listing them in the order of the text
* `Program.tree_in_text_order` — programs that are parsed
-/

namespace LWorkbench

namespace Span

variable {a b inner outer : Span}

/-- The span begins before another one, or begins with it and ends behind it. -/
def Precedes (a b : Span) : Prop :=
  a.start < b.start ∨ a.start = b.start ∧ b.stop < a.stop

theorem ProperlyWithin.precedes (h : inner.ProperlyWithin outer) : outer.Precedes inner := by
  obtain ⟨hstart, hstop, hne⟩ := h
  rcases Nat.lt_or_eq_of_le hstart with hlt | heq
  · exact .inl hlt
  · refine .inr ⟨heq, Nat.lt_of_le_of_ne hstop fun hsame => hne ?_⟩
    cases inner
    cases outer
    cases heq
    cases hsame
    rfl

/-- What lies inside a part of a span lies inside the span. -/
theorem ProperlyWithin.of_within (h : inner.ProperlyWithin outer) (hstart : inner.start ≤ a.start)
    (hstop : a.stop ≤ inner.stop) : a.ProperlyWithin outer := by
  obtain ⟨houterStart, houterStop, hne⟩ := h
  refine ⟨Nat.le_trans houterStart hstart, Nat.le_trans hstop houterStop, ?_⟩
  rintro rfl
  -- A part that holds the whole span is no proper part of it.
  apply hne
  cases inner
  cases a
  congr
  · exact Nat.le_antisymm hstart houterStart
  · exact Nat.le_antisymm houterStop hstop

end Span

namespace Node

variable {ns : List Node} {n d : Node}

/-! ### The order of the text -/

theorem forall_postorder_cons {P : Node → Prop} : (∀ m ∈ postorder (n :: ns), P m) ↔
    (∀ m ∈ postorder n.children, P m) ∧ P n ∧ ∀ m ∈ postorder ns, P m := by
  rw [postorder_cons, List.forall_mem_append, List.forall_mem_cons]

/-- What is listed lies inside a root. -/
theorem exists_root_around (h : ∀ m ∈ postorder ns, m.LaidOut) :
    ∀ d ∈ preorder ns, ∃ r ∈ ns, r.span.start ≤ d.span.start ∧ d.span.stop ≤ r.span.stop := by
  induction ns using forest_induction with
  | nil => nofun
  | cons m ms ihchildren ih =>
    obtain ⟨hchildren, hm, hms⟩ := forall_postorder_cons.1 h
    intro d hd
    rw [preorder_cons, List.mem_cons, List.mem_append] at hd
    obtain rfl | hd | hd := hd
    · exact ⟨d, List.mem_cons_self, Nat.le_refl _, Nat.le_refl _⟩
    · obtain ⟨c, hc, hstart, hstop⟩ := ihchildren hchildren d hd
      obtain ⟨hcstart, hcstop⟩ := hm.around c hc
      exact ⟨m, List.mem_cons_self, Nat.le_trans hcstart hstart, Nat.le_trans hstop hcstop⟩
    · obtain ⟨r, hr, haround⟩ := ih hms d hd
      exact ⟨r, List.mem_cons_of_mem _ hr, haround⟩

/-- What is inside a node is shorter than it, at any depth. -/
theorem LaidOut.properlyWithin_of_mem (hn : n.LaidOut) (h : ∀ m ∈ postorder n.children, m.LaidOut)
    (hd : d ∈ preorder n.children) : d.span.ProperlyWithin n.span := by
  obtain ⟨c, hc, hstart, hstop⟩ := exists_root_around h d hd
  exact (hn.properlyWithin hc).of_within hstart hstop

/-- Nodes that are laid out are listed in the order of the text. -/
theorem pairwise_preorder (h : ∀ m ∈ postorder ns, m.LaidOut)
    (hapart : ns.Pairwise fun n n' => n.span.stop ≤ n'.span.start) :
    (preorder ns).Pairwise fun n n' => n.span.Precedes n'.span := by
  induction ns using forest_induction with
  | nil => exact .nil
  | cons m ms ihchildren ih =>
    obtain ⟨hchildren, hm, hms⟩ := forall_postorder_cons.1 h
    obtain ⟨hbehind, hapart⟩ := List.pairwise_cons.1 hapart
    have hinside : ∀ d ∈ preorder m.children, d.span.ProperlyWithin m.span :=
      fun d hd => hm.properlyWithin_of_mem hchildren hd
    -- What ends inside the first tree begins before all that is in the others.
    have hlater : ∀ d : Node, d.LaidOut → d.span.stop ≤ m.span.stop →
        ∀ d' ∈ preorder ms, d.span.Precedes d'.span := by
      intro d hd hstop d' hd'
      obtain ⟨r, hr, hstart, -⟩ := exists_root_around hms d' hd'
      have hnonempty := hd.nonempty
      have hnext := hbehind r hr
      exact .inl (by omega)
    rw [preorder_cons, List.pairwise_cons, List.pairwise_append, List.forall_mem_append]
    refine ⟨⟨fun d hd => (hinside d hd).precedes, hlater m hm (Nat.le_refl _)⟩,
      ihchildren hchildren hm.apart, ih hms hapart, fun d hd => ?_⟩
    have hlaidOut := hchildren d ((preorder_perm _).mem_iff.1 hd)
    exact hlater d hlaidOut (hinside d hd).2.1

/-- Roots are listed one after another. -/
theorem sublist_preorder (ns : List Node) : ns.Sublist (preorder ns) := by
  induction ns with
  | nil => exact .slnil
  | cons n ns ih =>
    rw [preorder_cons]
    exact (ih.trans (List.sublist_append_right _ _)).cons_cons n

/-- A node is listed before its children, and these are listed one after another. -/
theorem cons_children_sublist_preorder :
    ∀ n ∈ postorder ns, (n :: n.children).Sublist (preorder ns) := by
  induction ns using forest_induction with
  | nil => nofun
  | cons m ms ihchildren ih =>
    intro n hn
    rw [postorder_cons, List.mem_append, List.mem_cons] at hn
    rw [preorder_cons]
    obtain hn | rfl | hn := hn
    · exact ((ihchildren n hn).trans (List.sublist_append_left _ _)).cons m
    · exact ((sublist_preorder _).trans (List.sublist_append_left _ _)).cons_cons n
    · exact ((ih n hn).trans (List.sublist_append_right _ _)).cons m

end Node

namespace Program

variable {p : Program} {n c : Node} {text : String}

/-! ### Numbers -/

/-- Walks over the nodes whose numbers are on a stack: takes the first number and puts the numbers
of the nodes directly inside that node in its place. None if numbers are left after `fuel` nodes. -/
def walk (p : Program) : (fuel : Nat) → (stack : List NodeId) → Option (List NodeId)
  | _, [] => some []
  | 0, _ :: _ => none
  | fuel + 1, id :: stack => (p.walk fuel (p.children id ++ stack)).map (id :: ·)

/-- The numbers of the nodes make a tree. -/
structure IsTree (p : Program) : Prop where
  /-- A node has a larger number than the nodes directly inside it. -/
  child_lt : ∀ i, ∀ k ∈ p.children i, k < i
  /-- Every node is a top statement or stands directly inside one node, and that only once. -/
  once : (p.body.map Stmt.id ++ (List.range p.size).flatMap p.children).Perm (List.range p.size)
  /-- The parent of a node is the one that it stands directly inside of. -/
  parent_iff : ∀ k i, p.parent? k = some i ↔ k ∈ p.children i
  /-- Top statements have no parent. -/
  top_parent : ∀ s ∈ p.body, p.parent? s.id = none

/-- The walk from the top statements ends and lists all nodes in the order of the text. -/
structure WalksInOrder (p : Program) : Prop where
  /-- The walk ends when it has met as many nodes as there are. -/
  walk_eq : ∀ fuel, p.walk fuel (p.body.map Stmt.id) =
    if fuel < p.size then none else some (p.preorder.map Node.id)
  /-- Every number comes up once. -/
  each : (p.preorder.map Node.id).Perm (List.range p.size)
  /-- The nodes that come up are those of the index. -/
  node_eq : ∀ n ∈ p.preorder, p.node? n.id = some n
  /-- A node begins before all later ones, or begins with them and ends behind them. -/
  ordered : p.preorder.Pairwise fun n m => n.span.Precedes m.span
  /-- Top statements come up one after another. -/
  top : (roots p.body).Sublist p.preorder
  /-- A node comes up before the nodes directly inside it, and these one after another. -/
  children : ∀ n ∈ p.nodes, (n :: n.children).Sublist p.preorder

namespace Formed

variable (hp : p.Formed)
include hp

theorem children_eq (hn : p.Contains n) : p.children n.id = n.children.map Node.id := by
  rw [children, hp.indexed n hn]
  rfl

theorem mem_children_iff {i k : NodeId} :
    k ∈ p.children i ↔ ∃ n, p.Contains n ∧ n.id = i ∧ ∃ c ∈ n.children, c.id = k := by
  constructor
  · intro hk
    rw [children] at hk
    cases hnode : p.node? i with
    | none =>
      rw [hnode] at hk
      cases hk
    | some n =>
      rw [hnode] at hk
      have hn : p.Contains n := hp.mem_nodes_iff.1 (Array.mem_of_getElem? hnode)
      exact ⟨n, hn, hp.id_eq hnode, List.mem_map.1 hk⟩
  · rintro ⟨n, hn, rfl, c, hc, rfl⟩
    rw [hp.children_eq hn]
    exact List.mem_map_of_mem hc

/-- Nodes are numbered after the nodes inside them. -/
theorem child_lt (hn : p.Contains n) (hc : c ∈ n.children) : c.id < n.id := by
  have hsub := (Node.postorder_singleton_sublist n (contains_iff_mem.1 hn)).map Node.id
  rw [hp.ids, Node.postorder_singleton, List.map_append] at hsub
  have hincreasing := List.pairwise_append.1 (List.pairwise_lt_range.sublist hsub)
  exact hincreasing.2.2 _ (List.mem_map_of_mem (Node.mem_postorder hc)) _ List.mem_cons_self

theorem top_ne_child {s : Stmt} (hs : s ∈ p.body) (hn : p.Contains n) (hc : c ∈ n.children) :
    c.id ≠ s.id := by
  intro hid
  have heq : c = .stmt s := hp.indexed.eq_of_id (.child hn hc) (.top hs) hid
  exact hp.top_not_mem_children hs hn (heq ▸ hc)

theorem parent?_iff {i k : NodeId} : p.parent? k = some i ↔ k ∈ p.children i := by
  rw [hp.mem_children_iff]
  constructor
  · intro hk
    by_contra hnone
    -- A number that stands directly inside no node has no parent at all.
    by_cases hinside : ∃ n, p.Contains n ∧ ∃ c ∈ n.children, c.id = k
    · obtain ⟨n, hn, c, hc, rfl⟩ := hinside
      rw [hp.parent?_eq hn hc, Option.some.injEq] at hk
      exact hnone ⟨n, hn, hk, c, hc, rfl⟩
    · rw [hp.parent?_eq_none fun n hn c hc hid => hinside ⟨n, hn, c, hc, hid⟩] at hk
      cases hk
  · rintro ⟨n, hn, rfl, c, hc, rfl⟩
    exact hp.parent?_eq hn hc

theorem perm_range :
    (p.body.map Stmt.id ++ (List.range p.size).flatMap p.children).Perm (List.range p.size) := by
  have hchildren : (List.range p.size).flatMap p.children =
      ((Node.postorder (roots p.body)).flatMap Node.children).map Node.id := by
    rw [← hp.ids, List.flatMap_map, List.map_flatMap]
    exact List.flatMap_congr fun n hn => hp.children_eq (contains_iff_mem.2 hn)
  have hroots : p.body.map Stmt.id = (roots p.body).map Node.id := by
    rw [roots, List.map_map]
    rfl
  rw [hchildren, hroots, ← List.map_append, ← hp.ids]
  exact ((Node.postorder_perm _).map Node.id).symm

theorem isTree : p.IsTree where
  child_lt i k hk := by
    obtain ⟨n, hn, rfl, c, hc, rfl⟩ := hp.mem_children_iff.1 hk
    exact hp.child_lt hn hc
  once := hp.perm_range
  parent_iff k i := hp.parent?_iff
  top_parent s hs := hp.parent?_eq_none fun n hn c hc => hp.top_ne_child hs hn hc

/-! ### The walk -/

/-- The walk from some nodes ends when it has met all nodes inside them, and lists them parents
first. -/
theorem walk_eq {ns : List Node} (hns : ∀ n ∈ ns, p.Contains n) (fuel : Nat) :
    p.walk fuel (ns.map Node.id) =
      if fuel < (Node.postorder ns).length then none
      else some ((Node.preorder ns).map Node.id) := by
  induction fuel generalizing ns with
  | zero =>
    cases ns with
    | nil => rfl
    | cons n ns => simp [walk, Node.postorder_cons]
  | succ fuel ih =>
    cases ns with
    | nil => rfl
    | cons n ns =>
      obtain ⟨hn, hns⟩ := List.forall_mem_cons.1 hns
      have hstack : ∀ m ∈ n.children ++ ns, p.Contains m :=
        List.forall_mem_append.2 ⟨fun c hc => .child hn hc, hns⟩
      have hlength : (Node.postorder (n :: ns)).length =
          (Node.postorder (n.children ++ ns)).length + 1 := by
        simp only [Node.postorder_cons, Node.postorder_append, List.length_append,
          List.length_cons]
        omega
      rw [List.map_cons, walk, hp.children_eq hn, ← List.map_append, ih hstack, hlength,
        Node.preorder_cons, ← Node.preorder_append]
      simp only [Nat.add_lt_add_iff_right]
      split <;> rfl

theorem walksInOrder (hl : p.LaidOut) : p.WalksInOrder where
  walk_eq fuel := by
    have hroots : ∀ n ∈ roots p.body, p.Contains n := by
      intro n hn
      obtain ⟨s, hs, rfl⟩ := List.mem_map.1 hn
      exact .top hs
    have hwalk := hp.walk_eq hroots fuel
    rw [roots, List.map_map] at hwalk
    rw [size, hp.nodes_eq, List.size_toArray]
    exact hwalk
  each := hp.ids ▸ (Node.preorder_perm _).map Node.id
  node_eq n hn := hp.indexed n (mem_preorder_iff.1 hn)
  ordered := Node.pairwise_preorder (fun n hn => hl.nodes n (contains_iff_mem.2 hn))
    (List.pairwise_map.2 hl.apart)
  top := Node.sublist_preorder _
  children n hn :=
    Node.cons_children_sublist_preorder n (contains_iff_mem.1 (hp.mem_nodes_iff.1 hn))

end Formed

/-- The nodes of a program that is parsed make a tree, and the walk lists them in the order of the
text. -/
theorem tree_in_text_order (hparse : parse text = .ok p) : p.IsTree ∧ p.WalksInOrder :=
  have hp := formed_of_parse hparse
  ⟨hp.isTree, hp.walksInOrder (laidOut_of_parse hparse)⟩

/-- The walk over a call and a property of its result. -/
theorem tree_in_text_order_postfix : ∃ p, parse "(a)(()).b;" = .ok p ∧
    p.walk 5 [4] = some [4, 3, 2, 0, 1] ∧ p.IsTree ∧ p.WalksInOrder := by
  obtain ⟨p, hparse, hbody⟩ := exists_of_parse_body parse_postfix
  obtain ⟨htree, hwalks⟩ := tree_in_text_order hparse
  have hpreorder : p.preorder.map Node.id = [4, 3, 2, 0, 1] := by
    rw [preorder, hbody]
    simp only [roots, List.map_cons, List.map_nil, Node.preorder_cons, Node.children]
    rfl
  have hsize : p.size = 5 := by
    have hlength := hwalks.each.length_eq
    rw [hpreorder, List.length_range] at hlength
    exact hlength.symm
  have hwalk := hwalks.walk_eq 5
  rw [hbody, hpreorder, hsize] at hwalk
  exact ⟨p, hparse, hwalk, htree, hwalks⟩

end Program

end LWorkbench
