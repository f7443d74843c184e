import LWorkbench.Proofs.Numbering
import Mathlib.Data.List.Nodup
import Mathlib.Data.List.Pairwise

/-!
# Places of nodes

The place of a node in a program is told by the nodes around it, innermost first. In a program that
is formed no node stands at two places: a node is a top statement or stands directly inside one
other node, and never both. So the table of parents is right, and walking a program meets every
node once.

## Main definitions

* `Node.Inside` — the nodes inside a node, with the nodes around them
* `Program.Located` — the nodes of a program, with the nodes around them

## Main results

* `Node.postorder_perm` — a node is a root or stands directly inside a node
* `Program.Located.unique` — a node has one place
* `Program.Formed.parent?_eq` — the parent of a node is the node directly around it
* `Program.Formed.parent?_eq_none` — other nodes have no parent
-/

namespace LWorkbench

variable {p : Program} {around outer outer' : List Node} {n m c root : Node}

/-- A node that is `root` or stands inside it, with the nodes around it, innermost first. -/
inductive Node.Inside (around : List Node) (root : Node) : List Node → Node → Prop
  | root : Inside around root around root
  | child {outer : List Node} {n c : Node} (hn : Inside around root outer n)
      (hc : c ∈ n.children) : Inside around root (n :: outer) c

/-- A node of the program, with the nodes around it, innermost first. -/
def Program.Located (p : Program) (around : List Node) (n : Node) : Prop :=
  ∃ s ∈ p.body, Node.Inside [] (.stmt s) around n

namespace Node

theorem Inside.of_child (hc : c ∈ n.children) (h : Inside (n :: around) c outer m) :
    Inside around n outer m := by
  induction h with
  | root => exact .child .root hc
  | child _ hd ih => exact .child ih hd

/-- What is inside a node is the node or inside one of its children. -/
theorem inside_iff : Inside around n outer m ↔
    (outer = around ∧ m = n) ∨ ∃ c ∈ n.children, Inside (n :: around) c outer m := by
  constructor
  · intro h
    induction h with
    | root => exact .inl ⟨rfl, rfl⟩
    | @child outer m d _ hd ih =>
      right
      obtain ⟨rfl, rfl⟩ | ⟨c, hc, h⟩ := ih
      · exact ⟨d, hd, .root⟩
      · exact ⟨c, hc, .child h hd⟩
  · rintro (⟨rfl, rfl⟩ | ⟨c, hc, h⟩)
    · exact .root
    · exact .of_child hc h

/-! ### Each node once -/

/-- Of some trees, every node is a root or stands directly inside a node. -/
theorem postorder_perm (ns : List Node) :
    (postorder ns).Perm (ns ++ (postorder ns).flatMap children) := by
  induction ns using forest_induction with
  | nil => exact .refl _
  | cons n ns ihchildren ih =>
    -- The children of the first tree are found twice, once as roots of their own list and once as
    -- what stands directly inside the tree, and the second time is what counts.
    rw [postorder_cons, List.flatMap_append, List.flatMap_cons]
    calc (postorder n.children ++ n :: postorder ns).Perm
          (n :: (postorder n.children ++ postorder ns)) := List.perm_middle
      List.Perm _ (n :: ((n.children ++ (postorder n.children).flatMap children) ++
          (ns ++ (postorder ns).flatMap children))) := .cons n (ihchildren.append ih)
      List.Perm _ (n :: (ns ++ ((n.children ++ (postorder n.children).flatMap children) ++
          (postorder ns).flatMap children))) := .cons n (List.perm_append_comm_assoc _ _ _)
      List.Perm _ (n :: (ns ++ ((postorder n.children).flatMap children ++
          (n.children ++ (postorder ns).flatMap children)))) := by
        rw [List.append_assoc n.children]
        exact .cons n (.append_left ns (List.perm_append_comm_assoc _ _ _))

/-- The nodes inside a node end one after another and then the node itself, wherever it is
listed. -/
theorem postorder_singleton_sublist {ns : List Node} :
    ∀ n ∈ postorder ns, (postorder [n]).Sublist (postorder ns) := by
  induction ns using forest_induction with
  | nil => nofun
  | cons m ms ihchildren ih =>
    intro n hn
    rw [postorder_cons, List.mem_append, List.mem_cons] at hn
    rw [postorder_cons m ms]
    obtain hn | rfl | hn := hn
    · exact (ihchildren n hn).trans (List.sublist_append_left _ _)
    · rw [postorder_singleton]
      exact .append (.refl _) (List.singleton_sublist.2 List.mem_cons_self)
    · exact (ih n hn).trans ((List.sublist_cons_self _ _).trans (List.sublist_append_right _ _))

theorem foldr_preorderOnto (ns : List Node) (rest : List Node)
    (h : ∀ n ∈ ns, ∀ rest, n.preorderOnto rest = n.preorderOnto [] ++ rest) :
    ns.foldr preorderOnto rest = ns.foldr preorderOnto [] ++ rest := by
  induction ns with
  | nil => rfl
  | cons n ns ih =>
    rw [List.foldr_cons, List.foldr_cons, ih fun m hm => h m (List.mem_cons_of_mem _ hm),
      h n List.mem_cons_self, h n List.mem_cons_self (ns.foldr preorderOnto []),
      List.append_assoc]

theorem preorderOnto_append (n : Node) (rest : List Node) :
    n.preorderOnto rest = n.preorderOnto [] ++ rest := by
  induction hsize : sizeOf n using Nat.strongRecOn generalizing n rest with
  | ind size ih =>
    subst hsize
    have hchildren : ∀ c ∈ n.children, ∀ rest,
        c.preorderOnto rest = c.preorderOnto [] ++ rest :=
      fun c hc rest => ih _ (sizeOf_lt_of_mem_children hc) c rest rfl
    rw [preorderOnto_eq, preorderOnto_eq, foldr_preorderOnto _ _ hchildren]
    rfl

theorem preorder_cons (n : Node) (ns : List Node) :
    preorder (n :: ns) = n :: (preorder n.children ++ preorder ns) := by
  have h : preorder (n :: ns) = n :: n.children.foldr preorderOnto (preorder ns) :=
    preorderOnto_eq n _
  rw [h, foldr_preorderOnto _ _ fun c _ => preorderOnto_append c]
  rfl

theorem preorder_append (ns ms : List Node) :
    preorder (ns ++ ms) = preorder ns ++ preorder ms := by
  rw [preorder, List.foldr_append]
  exact foldr_preorderOnto _ _ fun n _ => preorderOnto_append n

/-- Both orders list the same nodes. -/
theorem preorder_perm (ns : List Node) : (preorder ns).Perm (postorder ns) := by
  induction ns using forest_induction with
  | nil => exact .refl _
  | cons n ns ihchildren ih =>
    rw [preorder_cons, postorder_cons]
    exact (List.Perm.cons n (ihchildren.append ih)).trans List.perm_middle.symm

end Node

namespace Program

theorem mem_preorder_iff : n ∈ p.preorder ↔ p.Contains n := by
  rw [preorder, (Node.preorder_perm _).mem_iff, contains_iff_mem]

namespace Located

theorem child (h : p.Located around n) (hc : c ∈ n.children) : p.Located (n :: around) c := by
  obtain ⟨s, hs, h⟩ := h
  exact ⟨s, hs, .child h hc⟩

theorem contains (h : p.Located around n) : p.Contains n := by
  obtain ⟨s, hs, h⟩ := h
  induction h with
  | root => exact .top hs
  | child _ hc ih => exact .child ih hc

theorem contains_around (h : p.Located around n) : ∀ m ∈ around, p.Contains m := by
  obtain ⟨s, hs, h⟩ := h
  induction h with
  | root => nofun
  | child hn _ ih => exact List.forall_mem_cons.2 ⟨contains ⟨s, hs, hn⟩, ih⟩

end Located

namespace Formed

variable (hp : p.Formed)
include hp

theorem nodup_ids : ((Node.postorder (roots p.body)).map Node.id).Nodup :=
  hp.ids ▸ List.nodup_range

theorem nodup_ids_places :
    ((roots p.body ++ (Node.postorder (roots p.body)).flatMap Node.children).map
      Node.id).Nodup :=
  ((Node.postorder_perm _).map Node.id).nodup hp.nodup_ids

theorem id_lt (hn : p.Contains n) : n.id < p.size :=
  (Array.getElem?_eq_some_iff.1 (hp.indexed n hn)).1

/-- Top statements stand inside no node. -/
theorem top_not_mem_children {s : Stmt} (hs : s ∈ p.body) (hn : p.Contains n) :
    Node.stmt s ∉ n.children := by
  have hnodup := List.Nodup.of_map _ hp.nodup_ids_places
  intro hc
  exact (List.nodup_append.1 hnodup).2.2 _ (List.mem_map_of_mem hs) _
    (List.mem_flatMap.2 ⟨n, contains_iff_mem.1 hn, hc⟩) rfl

/-- A node stands directly inside one node at most. -/
theorem eq_of_mem_children (hn : p.Contains n) (hm : p.Contains m) (hc : c ∈ n.children)
    (hc' : c ∈ m.children) : n = m := by
  -- The lists of children make up one list without repetitions, so two of them share nothing.
  have hnodup := (List.nodup_append.1 (List.Nodup.of_map _ hp.nodup_ids_places)).2.1
  have hdisjoint := (List.nodup_flatMap.1 hnodup).2
  have hsymm : Std.Symm (Function.onFun List.Disjoint Node.children) :=
    ⟨fun _ _ h _ hd hd' => h hd' hd⟩
  by_contra hne
  exact hdisjoint.forall (contains_iff_mem.1 hn) (contains_iff_mem.1 hm) hne hc hc'

theorem nodup_children (hn : p.Contains n) : n.children.Nodup :=
  (List.nodup_flatMap.1 (List.nodup_append.1 (List.Nodup.of_map _ hp.nodup_ids_places)).2.1).1 n
    (contains_iff_mem.1 hn)

end Formed

/-- A node has one place. -/
theorem Located.unique (hp : p.Formed) (h : p.Located outer n) (h' : p.Located outer' n) :
    outer = outer' := by
  obtain ⟨s, hs, h⟩ := h
  obtain ⟨s', hs', h'⟩ := h'
  -- The place is found from inside out: at each node the one around it is determined.
  induction h generalizing outer' with
  | root =>
    cases h' with
    | root => rfl
    | child hm hc =>
      exact absurd hc (hp.top_not_mem_children hs (Located.contains ⟨s', hs', hm⟩))
  | child hn hc ih =>
    have hcontains := Located.contains ⟨s, hs, hn⟩
    cases h' with
    | root => exact absurd hc (hp.top_not_mem_children hs' hcontains)
    | child hm hc' =>
      obtain rfl := hp.eq_of_mem_children hcontains (Located.contains ⟨s', hs', hm⟩) hc hc'
      rw [ih hm]

/-! ### The table of parents -/

/-- The pairs that the table of parents is made of. -/
def edges (ns : List Node) : List (NodeId × NodeId) :=
  ns.flatMap fun n => n.children.map fun c => (c.id, n.id)

theorem foldl_enterParent (ns : List Node) (parents : Array (Option NodeId)) :
    ns.foldl enterParent parents =
      (edges ns).foldl (fun parents e => parents.setIfInBounds e.1 (some e.2)) parents := by
  rw [edges, List.foldl_flatMap]
  simp only [List.foldl_map]
  rfl

theorem getElem?_foldl_of_notMem {es : List (NodeId × NodeId)} {parents : Array (Option NodeId)}
    {k : Nat} (h : k ∉ es.map Prod.fst) :
    (es.foldl (fun parents e => parents.setIfInBounds e.1 (some e.2)) parents)[k]? =
      parents[k]? := by
  induction es generalizing parents with
  | nil => rfl
  | cons e es ih =>
    rw [List.map_cons, List.mem_cons, not_or] at h
    rw [List.foldl_cons, ih h.2, Array.getElem?_setIfInBounds_ne (Ne.symm h.1)]

theorem getElem?_foldl_of_mem {es : List (NodeId × NodeId)} {parents : Array (Option NodeId)}
    {k i : Nat} (hnodup : (es.map Prod.fst).Nodup) (h : (k, i) ∈ es) (hk : k < parents.size) :
    (es.foldl (fun parents e => parents.setIfInBounds e.1 (some e.2)) parents)[k]? =
      some (some i) := by
  induction es generalizing parents with
  | nil => cases h
  | cons e es ih =>
    rw [List.map_cons, List.nodup_cons] at hnodup
    obtain rfl | h := List.mem_cons.1 h
    -- What is entered first stays, because no later pair has the same key.
    · rw [List.foldl_cons, getElem?_foldl_of_notMem hnodup.1]
      simp [hk]
    · rw [List.foldl_cons]
      exact ih hnodup.2 h (by simpa using hk)

theorem map_fst_edges (ns : List Node) :
    (edges ns).map Prod.fst = (ns.flatMap Node.children).map Node.id := by
  simp only [edges, List.map_flatMap, List.map_map]
  rfl

theorem mem_edges_iff {ns : List Node} {k i : NodeId} :
    (k, i) ∈ edges ns ↔ ∃ n ∈ ns, ∃ c ∈ n.children, c.id = k ∧ n.id = i := by
  simp only [edges, List.mem_flatMap, List.mem_map, Prod.mk.injEq]

theorem Formed.parents_eq (hp : p.Formed) :
    p.parents = (edges (Node.postorder (roots p.body))).foldl
      (fun parents e => parents.setIfInBounds e.1 (some e.2))
      (Array.replicate (Node.postorder (roots p.body)).length none) := by
  rw [← foldl_enterParent, hp.index]
  rfl

/-- The parent of a node is the node directly around it. -/
theorem Formed.parent?_eq (hp : p.Formed) (hn : p.Contains n) (hc : c ∈ n.children) :
    p.parent? c.id = some n.id := by
  -- Every node but the top statements is the key of one pair.
  have hnodup : ((edges (Node.postorder (roots p.body))).map Prod.fst).Nodup := by
    have hplaces := hp.nodup_ids_places
    rw [List.map_append, ← map_fst_edges] at hplaces
    exact (List.nodup_append.1 hplaces).2.1
  have hmem : (c.id, n.id) ∈ edges (Node.postorder (roots p.body)) :=
    mem_edges_iff.2 ⟨n, contains_iff_mem.1 hn, c, hc, rfl, rfl⟩
  have hlt : c.id < (Node.postorder (roots p.body)).length := by
    have hlt := hp.id_lt (.child hn hc)
    rwa [size, hp.nodes_eq, List.size_toArray] at hlt
  rw [parent?, hp.parents_eq, getElem?_foldl_of_mem hnodup hmem (by rwa [Array.size_replicate])]
  rfl

/-- A node that stands directly inside no node has no parent. -/
theorem Formed.parent?_eq_none (hp : p.Formed) {k : NodeId}
    (hk : ∀ n, p.Contains n → ∀ c ∈ n.children, c.id ≠ k) : p.parent? k = none := by
  have hnotMem : k ∉ (edges (Node.postorder (roots p.body))).map Prod.fst := by
    intro hmem
    obtain ⟨⟨_, i⟩, he, rfl⟩ := List.mem_map.1 hmem
    obtain ⟨n, hn, c, hc, hid, -⟩ := mem_edges_iff.1 he
    exact hk n (contains_iff_mem.2 hn) c hc hid
  rw [parent?, hp.parents_eq, getElem?_foldl_of_notMem hnotMem, Array.getElem?_replicate]
  split <;> rfl

end Program

end LWorkbench
