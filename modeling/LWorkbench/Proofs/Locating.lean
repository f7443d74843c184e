import LWorkbench.Proofs.Traversal

/-!
# The nodes around an offset

The path to an offset goes from the top statement around it inwards and takes, inside each node,
the first child around the offset. Siblings lie one after another, so this child is the only one,
and a node that is not around the offset has nothing inside it that is. So no node is missed: the
path holds all nodes around the offset, and its last node is the innermost of them.

## Main definitions

* `Node.pathAmong` — the path to an offset that begins with one of some trees
* `Node.IsInnermost` — a node is around an offset, and nothing inside it is

## Main results

* `Node.filter_preorder_eq` — the path holds all nodes around the offset
* `Node.getLast?_pathAmong_iff` — the path ends with the innermost node around the offset
* `Program.locates_innermost` — the path and the innermost node in programs that are parsed
-/

namespace LWorkbench

namespace Node

variable {ns : List Node} {n : Node} {offset : Nat}

/-- The nodes around an offset, outermost first, from the first of some trees that is around it. -/
def pathAmong (offset : Nat) (ns : List Node) : List Node :=
  match ns.find? (·.span.contains offset) with
  | some n => n.pathInside offset
  | none => []

/-- The node is around the offset, and none of its children is. -/
def IsInnermost (offset : Nat) (n : Node) : Prop :=
  n.span.contains offset ∧ ∀ c ∈ n.children, ¬ c.span.contains offset

theorem pathInside_eq (offset : Nat) (n : Node) :
    n.pathInside offset = n :: pathAmong offset n.children := by
  have hfind : n.children.find? (·.span.contains offset) =
      (n.children.attach.find? (·.1.span.contains offset)).map Subtype.val := by
    conv_lhs => rw [← n.children.attach_map_subtype_val, List.find?_map]
    rfl
  rw [pathInside, pathAmong, hfind]
  cases n.children.attach.find? (·.1.span.contains offset) with
  | none => rfl
  | some c => rfl

theorem pathAmong_cons (offset : Nat) (n : Node) (ns : List Node) :
    pathAmong offset (n :: ns) =
      if n.span.contains offset then n :: pathAmong offset n.children else pathAmong offset ns := by
  rw [pathAmong, List.find?_cons]
  cases n.span.contains offset with
  | true => exact pathInside_eq offset n
  | false => rfl

/-- A path begins with one of the trees. -/
theorem mem_of_head?_pathAmong (h : n ∈ (pathAmong offset ns).head?) : n ∈ ns := by
  induction ns with
  | nil => cases h
  | cons m ms ih =>
    rw [pathAmong_cons] at h
    split at h
    · obtain rfl : m = n := by simpa using h
      exact List.mem_cons_self
    · exact List.mem_cons_of_mem _ (ih h)

/-! ### All nodes around the offset -/

/-- What is inside trees that are not around an offset is not around it either. -/
theorem not_contains_of_roots (h : ∀ m ∈ postorder ns, m.LaidOut)
    (hroots : ∀ r ∈ ns, ¬ r.span.contains offset) :
    ∀ d ∈ preorder ns, ¬ d.span.contains offset := by
  intro d hd hcontains
  obtain ⟨r, hr, hstart, hstop⟩ := exists_root_around h d hd
  rw [Span.contains_iff] at hcontains
  refine hroots r hr (Span.contains_iff.2 ⟨?_, ?_⟩)
  · exact Nat.le_trans hstart hcontains.1
  · exact Nat.lt_of_lt_of_le hcontains.2 hstop

/-- Nothing in a tree is around an offset that the tree is not around. -/
theorem LaidOut.not_contains_of_mem (hn : n.LaidOut) (h : ∀ m ∈ postorder n.children, m.LaidOut)
    (hcontains : ¬ n.span.contains offset) : ∀ d ∈ preorder [n], ¬ d.span.contains offset := by
  refine not_contains_of_roots ?_ (List.forall_mem_singleton.2 hcontains)
  rw [postorder_singleton]
  exact List.forall_mem_append.2 ⟨h, List.forall_mem_singleton.2 hn⟩

/-- What lies behind a tree around an offset is not around it. -/
theorem not_contains_of_behind (hbehind : ∀ r ∈ ns, n.span.stop ≤ r.span.start)
    (hn : n.span.contains offset) : ∀ r ∈ ns, ¬ r.span.contains offset := by
  intro r hr hcontains
  rw [Span.contains_iff] at hn hcontains
  have hnext := hbehind r hr
  omega

/-- The path to an offset holds all nodes around it. -/
theorem filter_preorder_eq (offset : Nat) (h : ∀ m ∈ postorder ns, m.LaidOut)
    (hapart : ns.Pairwise fun n n' => n.span.stop ≤ n'.span.start) :
    (preorder ns).filter (·.span.contains offset) = pathAmong offset ns := by
  induction ns using forest_induction with
  | nil => rfl
  | cons m ms ihchildren ih =>
    obtain ⟨hchildren, hm, hms⟩ := forall_postorder_cons.1 h
    obtain ⟨hbehind, hapart⟩ := List.pairwise_cons.1 hapart
    rw [pathAmong_cons]
    split
    -- The other trees lie behind the first one.
    · rename_i hcontains
      have hothers := not_contains_of_roots hms (not_contains_of_behind hbehind hcontains)
      rw [preorder_cons, List.filter_cons, if_pos hcontains, List.filter_append,
        ihchildren hchildren hm.apart, List.filter_eq_nil_iff.2 hothers, List.append_nil]
    · rename_i hcontains
      have hfirst := hm.not_contains_of_mem hchildren hcontains
      have hsplit : preorder (m :: ms) = preorder [m] ++ preorder ms := preorder_append [m] ms
      rw [hsplit, List.filter_append, List.filter_eq_nil_iff.2 hfirst, List.nil_append,
        ih hms hapart]

/-! ### The innermost node -/

/-- There is no path exactly if no tree is around the offset. -/
theorem pathAmong_eq_nil_iff :
    pathAmong offset ns = [] ↔ ∀ r ∈ ns, ¬ r.span.contains offset := by
  induction ns with
  | nil => exact ⟨nofun, fun _ => rfl⟩
  | cons m ms ih =>
    rw [pathAmong_cons, List.forall_mem_cons]
    split
    · rename_i hcontains
      exact ⟨nofun, fun h => absurd hcontains h.1⟩
    · rename_i hcontains
      rw [ih]
      exact ⟨fun h => ⟨hcontains, h⟩, And.right⟩

/-- In a tree around an offset, the path ends with the innermost node if it does so among the
children of the tree. -/
theorem getLast?_cons_pathAmong_iff {m : Node} (h : ∀ d ∈ postorder m.children, d.LaidOut)
    (hm : m.span.contains offset)
    (hchildren : (pathAmong offset m.children).getLast? = some n ↔
      n ∈ postorder m.children ∧ n.IsInnermost offset) :
    (m :: pathAmong offset m.children).getLast? = some n ↔
      n ∈ postorder [m] ∧ n.IsInnermost offset := by
  rw [postorder_singleton, List.mem_append, List.mem_singleton]
  cases hpath : pathAmong offset m.children with
  -- No child is around the offset, so the tree itself is innermost.
  | nil =>
    have houtside := pathAmong_eq_nil_iff.1 hpath
    constructor
    · intro heq
      obtain rfl : m = n := Option.some.inj heq
      exact ⟨.inr rfl, hm, houtside⟩
    · rintro ⟨hn | rfl, hinner⟩
      · have hn := (preorder_perm _).mem_iff.2 hn
        exact absurd hinner.1 (not_contains_of_roots h houtside n hn)
      · rfl
  -- A child is around the offset, so the tree is not innermost.
  | cons d rest =>
    rw [List.getLast?_cons_cons, ← hpath, hchildren]
    constructor
    · rintro ⟨hn, hinner⟩
      exact ⟨.inl hn, hinner⟩
    · rintro ⟨hn | rfl, hinner⟩
      · exact ⟨hn, hinner⟩
      · rw [pathAmong_eq_nil_iff.2 hinner.2] at hpath
        cases hpath

/-- The path to an offset ends with the innermost node around it. -/
theorem getLast?_pathAmong_iff (h : ∀ m ∈ postorder ns, m.LaidOut)
    (hapart : ns.Pairwise fun n n' => n.span.stop ≤ n'.span.start) :
    (pathAmong offset ns).getLast? = some n ↔ n ∈ postorder ns ∧ n.IsInnermost offset := by
  induction ns using forest_induction with
  | nil => exact ⟨nofun, nofun⟩
  | cons m ms ihchildren ih =>
    obtain ⟨hchildren, hm, hms⟩ := forall_postorder_cons.1 h
    obtain ⟨hbehind, hapart⟩ := List.pairwise_cons.1 hapart
    have hsplit : postorder (m :: ms) = postorder [m] ++ postorder ms := postorder_append [m] ms
    rw [pathAmong_cons, hsplit, List.mem_append]
    -- Of the first tree and the others, only the side that the path is on is around the offset.
    split
    · rename_i hcontains
      have hothers := not_contains_of_roots hms (not_contains_of_behind hbehind hcontains)
      rw [getLast?_cons_pathAmong_iff hchildren hcontains (ihchildren hchildren hm.apart)]
      constructor
      · rintro ⟨hn, hinner⟩
        exact ⟨.inl hn, hinner⟩
      · rintro ⟨hn | hn, hinner⟩
        · exact ⟨hn, hinner⟩
        · exact absurd hinner.1 (hothers n ((preorder_perm _).mem_iff.2 hn))
    · rename_i hcontains
      have hfirst := hm.not_contains_of_mem hchildren hcontains
      rw [ih hms hapart]
      constructor
      · rintro ⟨hn, hinner⟩
        exact ⟨.inr hn, hinner⟩
      · rintro ⟨hn | hn, hinner⟩
        · exact absurd hinner.1 (hfirst n ((preorder_perm _).mem_iff.2 hn))
        · exact ⟨hn, hinner⟩

end Node

namespace Program

variable {p : Program} {text : String} {offset : Nat}

/-- Each node of a path is the parent of the next one. -/
theorem Formed.isChain_pathAmong (hp : p.Formed) {ns : List Node}
    (hns : ∀ n ∈ ns, p.Contains n) :
    (Node.pathAmong offset ns).IsChain fun n c => p.parent? c.id = some n.id := by
  induction ns using Node.forest_induction with
  | nil => exact .nil
  | cons m ms ihchildren ih =>
    obtain ⟨hm, hms⟩ := List.forall_mem_cons.1 hns
    rw [Node.pathAmong_cons]
    split
    · refine (ihchildren fun c hc => .child hm hc).cons fun c hc => ?_
      exact hp.parent?_eq hm (Node.mem_of_head?_pathAmong hc)
    · exact ih hms

/-- A text that is parsed, and an offset: the path holds all nodes around the offset, each of them
the parent of the next one. The node that is located is the one around the offset none of whose
children is around it, and no node is located if none is around the offset. Names have no children,
so a name is located from all of its bytes. -/
theorem locates_innermost (hparse : parse text = .ok p) (offset : Nat) :
    (p.path offset).Perm (p.nodes.toList.filter (·.span.contains offset)) ∧
    (p.path offset).IsChain (fun n c => p.parent? c.id = some n.id) ∧
    (∀ n, p.locate? offset = some n ↔ n ∈ p.nodes ∧ n.IsInnermost offset) ∧
    (p.locate? offset = none ↔ ∀ n ∈ p.nodes, ¬ n.span.contains offset) ∧
    ∀ name, Node.ofName name ∈ p.nodes → name.site.span.contains offset →
      p.locate? offset = some (.ofName name) := by
  have hp := formed_of_parse hparse
  have hl := laidOut_of_parse hparse
  have hnodes : ∀ n ∈ Node.postorder (roots p.body), n.LaidOut :=
    fun n hn => hl.nodes n (contains_iff_mem.2 hn)
  have hapart : (roots p.body).Pairwise fun n n' => n.span.stop ≤ n'.span.start :=
    List.pairwise_map.2 hl.apart
  have hpath : p.path offset = p.preorder.filter (·.span.contains offset) :=
    (Node.filter_preorder_eq offset hnodes hapart).symm
  have hlocate : ∀ n, p.locate? offset = some n ↔ n ∈ p.nodes ∧ n.IsInnermost offset := by
    intro n
    rw [hp.mem_nodes_iff, contains_iff_mem]
    exact Node.getLast?_pathAmong_iff hnodes hapart
  refine ⟨?_, ?_, hlocate, ?_, fun name hname hcontains => ?_⟩
  · rw [hpath, hp.nodes_eq]
    exact (Node.preorder_perm _).filter _
  · exact hp.isChain_pathAmong fun n hn => contains_iff_mem.2 (Node.mem_postorder hn)
  · simp only [locate?, List.getLast?_eq_none_iff, hpath, List.filter_eq_nil_iff,
      mem_preorder_iff, hp.mem_nodes_iff]
  · exact (hlocate _).2 ⟨hname, hcontains, nofun⟩

/-- The name in parentheses is located from its only byte. -/
theorem locates_innermost_postfix : ∃ p, parse "(a)(()).b;" = .ok p ∧
    p.locate? 1 = some (.ofName ⟨⟨0, ⟨1, 2⟩⟩, "a", .variable⟩) := by
  obtain ⟨p, hparse, hbody⟩ := Program.exists_of_parse_body Program.parse_postfix
  have hp := formed_of_parse hparse
  obtain ⟨-, -, -, -, hnames⟩ := locates_innermost hparse 1
  refine ⟨p, hparse, hnames _ (hp.mem_nodes_iff.2 ?_) rfl⟩
  have htop : p.Contains (.stmt _) := .top (hbody ▸ List.mem_cons_self)
  exact ((htop.child List.mem_cons_self).child List.mem_cons_self).child List.mem_cons_self

end Program

end LWorkbench
