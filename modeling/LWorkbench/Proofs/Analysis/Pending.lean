import LWorkbench.Proofs.Analysis.Course
import LWorkbench.Proofs.Analysis.Lexical

/-!
# Pending work and open scopes

Analysis opens a scope for every block, function and labeled statement, and each scope is opened for
one node, its owner. At any moment of the course of analysis the chain of a pending item runs
through the scopes whose owners are around the item. Of the names that are bound in a scope for
variables some are done, and these are what the scope holds; the others are pending, and belong to
the items that are still to be done. Items are done in the order of the text as far as it matters:
what is done is in force for all items that can see it, and what is pending is not.

## Main definitions

* `Node.openers` — the nodes around a place for which scopes are open
* `Environment.Runs` — a chain runs through the scopes of these nodes
* `Work.Placed` — an item stands at a place of the program, with a chain that goes with it
* `pendingIn` — the names that pending items bind in a scope
* `Tracks` — scopes and pending items go together
* `Unfolds` — items that can take the place of an item

## Main results

* `Tracks.unfold` — scopes and items stay together when items take the place of an item
* `Tracks.walk_plain`, `Tracks.walk_scope`, `Tracks.walk_labeled` — walking a node without a scope
  of its own, a block or a function, and a labeled statement
-/

namespace LWorkbench

namespace Node

/-- Whether the node is a labeled statement. -/
def isLabeled : Node → Bool
  | stmt (.labeled ..) => true
  | _ => false

/-- Whether a scope is opened for the node. -/
def opens (n : Node) : Bool := n.bindings?.isSome || n.isLabeled

/-- The nodes around a place for which scopes are open, innermost first. `none` is the whole
program. -/
def openers (around : List Node) : List (Option Node) :=
  (around.filter opens).map some ++ [none]

end Node

namespace Work

/-- The scopes of the chain with which an item is done. -/
def ids : Work → List ScopeId
  | .stmt _ env => env.scopeIds
  | .expr _ env => env.scopeIds
  | .declare _ env => env.scopeIds
  | .reference _ env => env.scopeIds
  | _ => []

/-- The names that doing an item binds in the nearest scope for variables. -/
def binds : Work → List Name
  | .stmt s _ => s.vars
  | .declare x _ => [x]
  | _ => []

/-- The bytes that an item is about. -/
def span : Work → Span
  | .stmt s _ => s.site.span
  | .expr e _ => e.site.span
  | .declare x _ => x.site.span
  | .reference x _ => x.site.span
  | _ => ⟨0, 0⟩

end Work

/-- The scope with a number is one of a label. -/
def OfLabel (owner : ScopeId → Option Node) (id : ScopeId) : Bool :=
  (owner id).any Node.isLabeled

/-- The nearest scope for variables of an item. -/
def home? (owner : ScopeId → Option Node) (w : Work) : Option ScopeId :=
  w.ids.find? fun id => !OfLabel owner id

/-- The names that pending items bind in a scope. -/
def pendingIn (owner : ScopeId → Option Node) (id : ScopeId) (items : List Work) : List Name :=
  items.flatMap fun w => if home? owner w = some id then w.binds else []

/-- The chain runs through the scopes that are open around a place. -/
structure Environment.Runs (owner : ScopeId → Option Node) (size : Nat) (env : Environment)
    (around : List Node) : Prop where
  owners : env.scopeIds.map owner = Node.openers around
  known : ∀ id ∈ env.scopeIds, id < size

/-- The item stands at a place of the program, with a chain through the scopes around it. -/
def Work.Placed (p : Program) (owner : ScopeId → Option Node) (size : Nat) : Work → Prop
  | .stmt s env => ∃ around, p.Located around (.stmt s) ∧ env.Runs owner size around
  | .expr e env => ∃ around, p.Located around (.expr e) ∧ env.Runs owner size around
  | .declare x env => ∃ site init around,
      p.Located around (.stmt (.declare site x init)) ∧ env.Runs owner size around
  | .reference x env => ∃ site value around,
      p.Located around (.expr (.assign site x value)) ∧ env.Runs owner size around
  | _ => True

/-- What a later item binds is not in force at an earlier one, and what an earlier item binds is in
force at a later one that can see it. -/
structure Before (p : Program) (owner : ScopeId → Option Node) (v w : Work) : Prop where
  pending : ∀ x ∈ w.binds, v.span.stop ≤ p.declarationEnd x
  done : ∀ x ∈ v.binds, ∀ id ∈ w.ids, home? owner v = some id →
    p.declarationEnd x ≤ w.span.start

/-- A scope for variables binds the given names, of which the first of each identifier counts. -/
structure Store.Reads (store : Store NodeId) (id : ScopeId) (names : List Name) : Prop where
  kind : (store.scope id).kind = .variable
  get? : ∀ x, (store.scope id).get? x = (names.find? (·.identifier == x)).map Name.id

/-- A scope holds what its owner binds, as far as it is not pending. -/
structure Tracked (p : Program) (owner : ScopeId → Option Node) (store : Store NodeId)
    (items : List Work) (id : ScopeId) : Prop where
  owned : ∀ n, owner id = some n → p.Contains n ∧ n.opens = true ∧ n ∉ items.flatMap Work.nodes
  label : ∀ site label body, owner id = some (.stmt (.labeled site label body)) →
    store.scope id = ⟨.label, [(label.identifier, label.id)]⟩
  bound : OfLabel owner id = false → ∃ done,
    p.bindingsOf (owner id) = done ++ pendingIn owner id items ∧ store.Reads id done ∧
      ∀ w ∈ items, id ∈ w.ids → ∀ b ∈ done, p.InForce w.span.start b

/-- Scopes and pending items go together. -/
structure Tracks (p : Program) (owner : ScopeId → Option Node) (store : Store NodeId)
    (items : List Work) : Prop where
  scopes : ∀ id < store.scopes.size, Tracked p owner store items id
  places : ∀ w ∈ items, w.Placed p owner store.scopes.size
  order : items.Pairwise (Before p owner)
  injective : ∀ id < store.scopes.size, ∀ id' < store.scopes.size, owner id = owner id' → id = id'

variable {p : Program} {owner owner' : ScopeId → Option Node} {store store' : Store NodeId}
  {env : Environment} {items ns rest : List Work} {v w : Work} {id : ScopeId} {size size' : Nat}
  {around : List Node} {n c : Node} {x : Name} {a : Analysis}

/-! ### Chains and places -/

namespace Node

theorem openers_cons_of_opens (h : n.opens = true) :
    openers (n :: around) = some n :: openers around := by
  rw [openers, List.filter_cons_of_pos h, openers]
  rfl

theorem openers_cons_of_not_opens (h : n.opens = false) :
    openers (n :: around) = openers around := by
  rw [openers, List.filter_cons_of_neg (by simp [h]), openers]

/-- Of the scopes that are open around a place those that are not for labels are for variables. -/
theorem filter_openers (around : List Node) :
    (openers around).filter (fun k => !k.any isLabeled) = scopesAround around := by
  have hnode : ∀ n : Node, (n.opens && !n.isLabeled) = n.bindings?.isSome := by
    intro n
    unfold opens isLabeled bindings?
    cases n with
    | expr => simp
    | stmt s => cases s <;> rfl
  rw [openers, scopesAround, List.filter_append, List.filter_map, List.filter_filter]
  congr 3
  funext n
  rw [← hnode, Bool.and_comm]
  rfl

end Node

namespace Environment.Runs

theorem congr (h : env.Runs owner size around) (howner : ∀ id < size, owner' id = owner id)
    (hsize : size ≤ size') : env.Runs owner' size' around := by
  refine ⟨?_, fun id hid => Nat.lt_of_lt_of_le (h.known id hid) hsize⟩
  rw [← h.owners]
  exact List.map_congr_left fun id hid => howner id (h.known id hid)

/-- A node without a scope of its own has the same scopes around it as inside it. -/
theorem enter (h : env.Runs owner size around) (hn : n.opens = false) :
    env.Runs owner size (n :: around) :=
  ⟨(Node.openers_cons_of_not_opens hn).symm ▸ h.owners, h.known⟩

/-- In front of the chain a scope with the next number is opened for a node. -/
theorem push (h : env.Runs owner size around) (hn : n.opens = true)
    (howner : ∀ id < size, owner' id = owner id) (hnew : owner' size = some n)
    {inner : Environment} (hinner : inner.scopeIds = size :: env.scopeIds) :
    inner.Runs owner' (size + 1) (n :: around) := by
  have hgrown := h.congr howner (Nat.le_succ size)
  refine ⟨?_, ?_⟩
  · rw [hinner, List.map_cons, hnew, hgrown.owners, Node.openers_cons_of_opens hn]
  · rw [hinner]
    exact List.forall_mem_cons.2 ⟨Nat.lt_succ_self size, hgrown.known⟩

/-- The scopes for variables along the chain are those around the place. -/
theorem scopes (h : env.Runs owner size around) :
    (env.scopeIds.filter fun id => !OfLabel owner id).map owner = Node.scopesAround around := by
  rw [← Node.filter_openers, ← h.owners, List.filter_map]
  rfl

end Environment.Runs

namespace Work

@[simp] theorem binds_walk : (Analysis.walk env n).binds = n.vars := by cases n <;> rfl

@[simp] theorem ids_walk : (Analysis.walk env n).ids = env.scopeIds := by cases n <;> rfl

@[simp] theorem span_walk : (Analysis.walk env n).span = n.span := by cases n <;> rfl

theorem placed_walk : (Analysis.walk env n).Placed p owner size ↔
    ∃ around, p.Located around n ∧ env.Runs owner size around := by
  cases n <;> rfl

theorem Placed.congr (h : w.Placed p owner size) (howner : ∀ id < size, owner' id = owner id)
    (hsize : size ≤ size') : w.Placed p owner' size' := by
  cases w with
  | stmt | expr =>
    obtain ⟨around, hlocated, hruns⟩ := h
    exact ⟨around, hlocated, hruns.congr howner hsize⟩
  | declare | reference =>
    obtain ⟨site, part, around, hlocated, hruns⟩ := h
    exact ⟨site, part, around, hlocated, hruns.congr howner hsize⟩
  | leaveLoop | leaveFunction => trivial

theorem Placed.known (h : w.Placed p owner size) : ∀ id ∈ w.ids, id < size := by
  cases w with
  | stmt | expr =>
    obtain ⟨around, -, hruns⟩ := h
    exact hruns.known
  | declare | reference =>
    obtain ⟨_, _, around, -, hruns⟩ := h
    exact hruns.known
  | leaveLoop | leaveFunction => exact List.forall_mem_nil _

end Work

/-! ### Names that are pending -/

theorem home?_congr (h : ∀ id ∈ w.ids, owner' id = owner id) : home? owner' w = home? owner w := by
  refine List.find?_congr fun id hid => ?_
  rw [OfLabel, OfLabel, h id hid]

theorem mem_ids_of_home? (h : home? owner w = some id) : id ∈ w.ids := List.mem_of_find?_eq_some h

theorem home?_walk : home? owner (Analysis.walk env n) =
    env.scopeIds.find? fun id => !OfLabel owner id := by
  rw [home?, Work.ids_walk]

theorem pendingIn_append (id : ScopeId) (items items' : List Work) :
    pendingIn owner id (items ++ items') = pendingIn owner id items ++ pendingIn owner id items' :=
  List.flatMap_append

theorem pendingIn_cons (id : ScopeId) (w : Work) (items : List Work) :
    pendingIn owner id (w :: items) =
      (if home? owner w = some id then w.binds else []) ++ pendingIn owner id items :=
  List.flatMap_cons

theorem pendingIn_congr (h : ∀ w ∈ items, ∀ id ∈ w.ids, owner' id = owner id) (id : ScopeId) :
    pendingIn owner' id items = pendingIn owner id items := by
  induction items with
  | nil => rfl
  | cons w items ih =>
    obtain ⟨hw, hitems⟩ := List.forall_mem_cons.1 h
    rw [pendingIn_cons, pendingIn_cons, home?_congr hw, ih hitems]

/-- Items that cannot see a scope bind nothing in it. -/
theorem pendingIn_eq_nil (h : ∀ w ∈ items, id ∉ w.ids) : pendingIn owner id items = [] := by
  rw [pendingIn, List.flatMap_eq_nil_iff]
  intro w hw
  rw [if_neg]
  exact fun hhome => h w hw (mem_ids_of_home? hhome)

/-- Items with the same nearest scope bind their names in it. -/
theorem pendingIn_eq (home : Option ScopeId)
    (h : ∀ w ∈ items, home? owner w = home ∨ w.binds = []) :
    pendingIn owner id items = if home = some id then items.flatMap Work.binds else [] := by
  induction items with
  | nil => simp [pendingIn]
  | cons w items ih =>
    obtain ⟨hw, hitems⟩ := List.forall_mem_cons.1 h
    rw [pendingIn_cons, ih hitems, List.flatMap_cons]
    rcases hw with rfl | hw
    · split <;> rfl
    · rw [hw]
      simp

/-! ### Replacing an item by what it calls for -/

theorem Program.InForce.mono {b : Name} {offset offset' : Nat} (h : p.InForce offset b)
    (hle : offset ≤ offset') : p.InForce offset' b := by
  rcases h with h | ⟨site, init, hdeclare, hstop⟩
  · exact .inl h
  · exact .inr ⟨site, init, hdeclare, Nat.le_trans hstop hle⟩

/-- Items can take the place of an item: they stand inside it in the text, and bind in the scopes
that it can see what it binds. -/
structure Unfolds (p : Program) (owner owner' : ScopeId → Option Node) (size size' : Nat) (w : Work)
    (ns : List Work) : Prop where
  agrees : ∀ id < size, owner' id = owner id
  grows : size ≤ size'
  places : ∀ v ∈ ns, v.Placed p owner' size'
  nodes : ns.flatMap Work.nodes ⊆ w.nodes
  stop : ∀ v ∈ ns, v.span.stop ≤ w.span.stop
  start : ∀ v ∈ ns, ∀ id ∈ v.ids, id < size → id ∈ w.ids ∧ w.span.start ≤ v.span.start
  pending : ∀ id < size, pendingIn owner' id ns = if home? owner w = some id then w.binds else []
  order : ns.Pairwise (Before p owner')

namespace Before

theorem congr (h : Before p owner v w) (howner : ∀ id ∈ v.ids, owner' id = owner id) :
    Before p owner' v w := by
  refine ⟨h.pending, fun x hx id hid hhome => ?_⟩
  rw [home?_congr howner] at hhome
  exact h.done x hx id hid hhome

/-- What takes the place of an earlier item is earlier. -/
theorem unfold (h : Before p owner v w) (hu : Unfolds p owner owner' size size' v ns)
    (hw : ∀ id ∈ w.ids, id < size) : ∀ u ∈ ns, Before p owner' u w := by
  intro u hu'
  refine ⟨fun x hx => Nat.le_trans (hu.stop u hu') (h.pending x hx), fun x hx id hid hhome => ?_⟩
  have hlt := hw id hid
  -- The name is bound by the earlier item in the same scope.
  have hmem : x ∈ pendingIn owner' id ns := by
    refine List.mem_flatMap.2 ⟨u, hu', ?_⟩
    rw [if_pos hhome]
    exact hx
  rw [hu.pending id hlt] at hmem
  by_cases hv : home? owner v = some id
  · rw [if_pos hv] at hmem
    exact h.done x hmem id hid hv
  · rw [if_neg hv] at hmem
    cases hmem

end Before

/-- A scope that is not touched stays tracked when items take the place of an item. -/
theorem Tracked.unfold (h : Tracked p owner store (w :: rest) id)
    (hu : Unfolds p owner owner' size size' w ns) (hid : id < size)
    (hrest : ∀ u ∈ rest, ∀ id ∈ u.ids, id < size) (hscope : store'.scope id = store.scope id) :
    Tracked p owner' store' (ns ++ rest) id := by
  have howner := hu.agrees id hid
  refine ⟨fun n hn => ?_, fun site label body hlabel => ?_, fun hlabel => ?_⟩
  · rw [howner] at hn
    obtain ⟨hcontains, hopens, hnotMem⟩ := h.owned n hn
    refine ⟨hcontains, hopens, fun hmem => hnotMem ?_⟩
    rw [List.flatMap_append, List.mem_append] at hmem
    rw [List.flatMap_cons, List.mem_append]
    exact hmem.imp_left fun hmem => hu.nodes hmem
  · rw [howner] at hlabel
    rw [hscope]
    exact h.label site label body hlabel
  · rw [OfLabel, howner] at hlabel
    obtain ⟨done, hsplit, hreads, hforce⟩ := h.bound hlabel
    -- The items behind see the scopes that were there before.
    have hothers : pendingIn owner' id rest = pendingIn owner id rest :=
      pendingIn_congr (fun u hu' id hid => hu.agrees id (hrest u hu' id hid)) id
    refine ⟨done, ?_, ⟨hscope ▸ hreads.kind, hscope ▸ hreads.get?⟩, ?_⟩
    · rw [howner, hsplit, pendingIn_cons, pendingIn_append, hu.pending id hid, hothers]
    · intro v hv hmem b hb
      rcases List.mem_append.1 hv with hv | hv
      · obtain ⟨hids, hstart⟩ := hu.start v hv id hmem hid
        exact (hforce w List.mem_cons_self hids b hb).mono hstart
      · exact hforce v (List.mem_cons_of_mem _ hv) hmem b hb

/-- Scopes and pending items stay together when items take the place of an item, and a scope is
opened for a node of it. -/
theorem Tracks.unfold (h : Tracks p owner store (w :: rest))
    (hu : Unfolds p owner owner' store.scopes.size store'.scopes.size w ns)
    (hscope : ∀ id < store.scopes.size, store'.scope id = store.scope id)
    (hfresh : ∀ id, store.scopes.size ≤ id → id < store'.scopes.size →
      Tracked p owner' store' (ns ++ rest) id ∧ id = store.scopes.size ∧
        ∃ n ∈ w.nodes, owner' id = some n) :
    Tracks p owner' store' (ns ++ rest) := by
  have hrest : ∀ u ∈ rest, ∀ id ∈ u.ids, id < store.scopes.size :=
    fun u hu => (h.places u (List.mem_cons_of_mem _ hu)).known
  -- The owner of a new scope was pending, so no other scope has it.
  have hnew : ∀ id, store.scopes.size ≤ id → id < store'.scopes.size →
      ∀ id' < store.scopes.size, owner' id ≠ owner' id' := by
    intro id hle hlt id' hid' heq
    obtain ⟨-, -, n, hn, howner⟩ := hfresh id hle hlt
    rw [howner, hu.agrees id' hid'] at heq
    refine ((h.scopes id' hid').owned n heq.symm).2.2 ?_
    rw [List.flatMap_cons]
    exact List.mem_append_left _ hn
  refine ⟨fun id hid => ?_, fun v hv => ?_, ?_, fun id hid id' hid' heq => ?_⟩
  · by_cases hlt : id < store.scopes.size
    · exact (h.scopes id hlt).unfold hu hlt hrest (hscope id hlt)
    · exact (hfresh id (Nat.le_of_not_lt hlt) hid).1
  · rcases List.mem_append.1 hv with hv | hv
    · exact hu.places v hv
    · exact (h.places v (List.mem_cons_of_mem _ hv)).congr hu.agrees hu.grows
  · obtain ⟨hfirst, hothers⟩ := List.pairwise_cons.1 h.order
    refine List.pairwise_append.2 ⟨hu.order, ?_, ?_⟩
    · exact hothers.imp_of_mem fun hv _ hbefore =>
        hbefore.congr fun id hid => hu.agrees id (hrest _ hv id hid)
    · exact fun v hv u hu' => (hfirst u hu').unfold hu (hrest u hu') v hv
  · by_cases hlt : id < store.scopes.size
    · by_cases hlt' : id' < store.scopes.size
      · rw [hu.agrees id hlt, hu.agrees id' hlt'] at heq
        exact h.injective id hlt id' hlt' heq
      · exact absurd heq.symm (hnew id' (Nat.le_of_not_lt hlt') hid' id hlt)
    · by_cases hlt' : id' < store.scopes.size
      · exact absurd heq (hnew id (Nat.le_of_not_lt hlt) hid id' hlt')
      · rw [(hfresh id (Nat.le_of_not_lt hlt) hid).2.1,
          (hfresh id' (Nat.le_of_not_lt hlt') hid').2.1]

/-! ### Walking nodes -/

/-- What a node binds is declared between its ends. -/
theorem declarationEnd_within (hp : p.Formed) (hl : p.LaidOut) (hn : p.Contains n)
    (hx : x ∈ n.vars) : n.span.start ≤ p.declarationEnd x ∧ p.declarationEnd x ≤ n.span.stop := by
  cases n with
  | expr => cases hx
  | stmt s =>
    obtain ⟨site, init, hdeclare, hstart, hstop⟩ := hl.declares hn hx
    have hnonempty := (hl.nodes _ hdeclare).nonempty
    rw [hp.declarationEnd_eq hdeclare]
    exact ⟨Nat.le_of_lt (Nat.lt_of_le_of_lt hstart hnonempty), hstop⟩

/-- Nodes one after another in the text are walked one after another. -/
theorem before_walks (hp : p.Formed) (hl : p.LaidOut) {cs : List Node}
    (hcs : ∀ c ∈ cs, p.Contains c) (hapart : cs.Pairwise fun c c' => c.span.stop ≤ c'.span.start) :
    (cs.map (Analysis.walk env)).Pairwise (Before p owner) := by
  refine List.pairwise_map.2 (hapart.imp_of_mem fun {c c'} hc hc' hstop => ⟨?_, ?_⟩)
  · intro x hx
    rw [Work.binds_walk] at hx
    rw [Work.span_walk]
    exact Nat.le_trans hstop (declarationEnd_within hp hl (hcs c' hc') hx).1
  · intro x hx _ _ _
    rw [Work.binds_walk] at hx
    rw [Work.span_walk]
    exact Nat.le_trans (declarationEnd_within hp hl (hcs c hc) hx).2 hstop

/-- What is done behind the children of a node. -/
theorem closing_cases (h : v ∈ a.closing env n) :
    (v.ids = [] ∧ v.binds = [] ∧ v.span.stop = 0 ∧ ∀ owner size, v.Placed p owner size) ∨
      (∃ site x init, n = .stmt (.declare site x init) ∧ v = .declare x env) ∨
        ∃ site x value, n = .expr (.assign site x value) ∧ v = .reference x env := by
  unfold Analysis.closing at h
  split at h
  · obtain rfl := List.mem_singleton.1 h
    exact .inl ⟨rfl, rfl, rfl, fun _ _ => trivial⟩
  · obtain rfl := List.mem_singleton.1 h
    exact .inr (.inr ⟨_, _, _, rfl, rfl⟩)
  · obtain rfl := List.mem_singleton.1 h
    exact .inr (.inl ⟨_, _, _, rfl, rfl⟩)
  · obtain rfl := List.mem_singleton.1 h
    exact .inl ⟨rfl, rfl, rfl, fun _ _ => trivial⟩
  · cases h

/-- What is done behind the children of a node comes after them in the text, as far as it
matters. -/
theorem before_closing (hp : p.Formed) (hl : p.LaidOut) (hn : p.Contains n) {inner : Environment}
    (hc : c ∈ n.walked) (hv : v ∈ a.closing env n) :
    Before p owner (Analysis.walk inner c) v := by
  have haround := (hl.nodes n hn).around c (n.walked_subset hc)
  rcases closing_cases (p := p) hv with ⟨hids, hbinds, -⟩ | ⟨site, x, init, rfl, rfl⟩ |
    ⟨site, x, value, rfl, rfl⟩
  · refine ⟨?_, ?_⟩
    · rw [hbinds]
      exact List.forall_mem_nil _
    · rw [hids]
      exact fun _ _ => List.forall_mem_nil _
  · refine ⟨fun y hy => ?_, fun y hy => ?_⟩
    · obtain rfl := List.mem_singleton.1 hy
      rw [Work.span_walk, hp.declarationEnd_eq hn]
      exact haround.2
    -- The initial value is an expression, which binds nothing.
    · obtain ⟨e, -, rfl⟩ : ∃ e, e ∈ init ∧ Node.expr e = c := by simpa [Node.walked] using hc
      cases hy
  · refine ⟨List.forall_mem_nil _, fun y hy => ?_⟩
    obtain rfl := List.mem_singleton.1 hc
    cases hy

/-- What walking a node calls for can take its place. -/
theorem unfolds_walk (hp : p.Formed) (hl : p.LaidOut) {inner : Environment}
    (hplaced : (Analysis.walk env n).Placed p owner size)
    (hagrees : ∀ id < size, owner' id = owner id) (hgrows : size ≤ size')
    (hruns : ∀ around, env.Runs owner size around → inner.Runs owner' size' (n :: around))
    (hseen : ∀ id ∈ inner.scopeIds, id < size → id ∈ env.scopeIds)
    (hpending : ∀ id < size, pendingIn owner' id (n.walked.map (Analysis.walk inner) ++
      a.closing env n) = if home? owner (Analysis.walk env n) = some id then n.vars else []) :
    Unfolds p owner owner' size size' (Analysis.walk env n)
      (n.walked.map (Analysis.walk inner) ++ a.closing env n) := by
  obtain ⟨around, hlocated, henv⟩ := Work.placed_walk.1 hplaced
  have hn := hlocated.contains
  have hlaid := hl.nodes n hn
  have hchild : ∀ c ∈ n.walked, n.span.start ≤ c.span.start ∧ c.span.stop ≤ n.span.stop :=
    fun c hc => hlaid.around c (n.walked_subset hc)
  refine ⟨hagrees, hgrows, ?places, ?nodes, ?stop, ?start, ?pending, ?order⟩
  case places =>
    intro v hv
    rcases List.mem_append.1 hv with hv | hv
    · obtain ⟨c, hc, rfl⟩ := List.mem_map.1 hv
      exact Work.placed_walk.2
        ⟨n :: around, hlocated.child (n.walked_subset hc), hruns around henv⟩
    · rcases closing_cases hv with ⟨-, -, -, hplaced⟩ | ⟨site, x, init, rfl, rfl⟩ |
        ⟨site, x, value, rfl, rfl⟩
      · exact hplaced owner' size'
      · exact ⟨site, init, around, hlocated, henv.congr hagrees hgrows⟩
      · exact ⟨site, value, around, hlocated, henv.congr hagrees hgrows⟩
  case nodes =>
    have hnodes := (Analysis.nodes_perform_subset p a (Analysis.walk env n)).2
    rw [Analysis.items_walk, List.flatMap_append, Analysis.nodes_walks] at hnodes
    rw [List.flatMap_append, Analysis.nodes_walks]
    exact hnodes
  case stop =>
    intro v hv
    rw [Work.span_walk]
    rcases List.mem_append.1 hv with hv | hv
    · obtain ⟨c, hc, rfl⟩ := List.mem_map.1 hv
      rw [Work.span_walk]
      exact (hchild c hc).2
    · rcases closing_cases (p := p) hv with ⟨-, -, hstop, -⟩ | ⟨site, x, init, rfl, rfl⟩ |
        ⟨site, x, value, rfl, rfl⟩
      · rw [hstop]
        exact Nat.zero_le _
      · exact (hlaid.around (.ofName x) List.mem_cons_self).2
      · exact (hlaid.around (.ofName x) List.mem_cons_self).2
  case start =>
    intro v hv id hid hlt
    rw [Work.ids_walk, Work.span_walk]
    rcases List.mem_append.1 hv with hv | hv
    · obtain ⟨c, hc, rfl⟩ := List.mem_map.1 hv
      rw [Work.ids_walk] at hid
      rw [Work.span_walk]
      exact ⟨hseen id hid hlt, (hchild c hc).1⟩
    · rcases closing_cases (p := p) hv with ⟨hids, -⟩ | ⟨site, x, init, rfl, rfl⟩ |
        ⟨site, x, value, rfl, rfl⟩
      · rw [hids] at hid
        cases hid
      · exact ⟨hid, (hlaid.around (.ofName x) List.mem_cons_self).1⟩
      · exact ⟨hid, (hlaid.around (.ofName x) List.mem_cons_self).1⟩
  case pending =>
    rw [Work.binds_walk]
    exact hpending
  case order =>
    have hapart : n.walked.Pairwise fun c c' => c.span.stop ≤ c'.span.start := by
      refine hlaid.apart.sublist ?_
      rw [n.children_eq]
      exact List.sublist_append_right _ _
    have hclosing : (a.closing env n).Pairwise (Before p owner') := by
      unfold Analysis.closing
      split <;> simp
    refine List.pairwise_append.2 ⟨?_, ?_, fun v hv u hu => ?_⟩
    · exact before_walks hp hl (fun c hc => .child hn (n.walked_subset hc)) hapart
    · exact hclosing
    · obtain ⟨c, hc, rfl⟩ := List.mem_map.1 hv
      exact before_closing hp hl hn hc hu

/-! ### One item -/

theorem store_referLabel (a : Analysis) (x : Name) (env : Environment) :
    (a.referLabel x env).store = a.store := by
  unfold Analysis.referLabel
  split <;> rfl

theorem store_continueLabel (p : Program) (a : Analysis) (x : Name) (env : Environment) :
    (a.continueLabel p x env).store = a.store := by
  simp only [Analysis.continueLabel]
  split
  · split
    · exact store_referLabel a x env
    · exact store_referLabel a x env
  · exact store_referLabel a x env

/-- Walking a node without a scope of its own leaves the scopes as they are. -/
theorem store_perform (p : Program) (a : Analysis) (env : Environment) (hn : n.opens = false) :
    (a.perform p (Analysis.walk env n)).1.store = a.store ∧ a.inner env n = env := by
  have hreport : ∀ {q : Prop} [Decidable q] {k : NodeId} {v : Violation},
      (if q then a.report k v else a).store = a.store := by
    intro q _ k v
    split <;> rfl
  cases n with
  | expr e =>
    cases e with
    | function => cases hn
    | _ => exact ⟨rfl, rfl⟩
  | stmt s =>
    cases s with
    | block => cases hn
    | labeled => cases hn
    | breakTo _ label =>
      cases label with
      | none => exact ⟨hreport, rfl⟩
      | some label => exact ⟨store_referLabel a label env, rfl⟩
    | continueTo _ label =>
      cases label with
      | none => exact ⟨hreport, rfl⟩
      | some label => exact ⟨store_continueLabel p a label env, rfl⟩
    | returnWith => exact ⟨hreport, rfl⟩
    | _ => exact ⟨rfl, rfl⟩

/-- A node without a scope of its own binds what the items that it calls for bind. -/
theorem vars_eq (a : Analysis) (env : Environment) (hn : n.opens = false) :
    (n.walked.map (Analysis.walk env) ++ a.closing env n).flatMap Work.binds = n.vars := by
  rw [List.flatMap_append, List.flatMap_map]
  simp only [Work.binds_walk]
  cases n with
  | expr e =>
    cases e <;> simp_all [Node.walked, Node.children, Analysis.closing, Node.vars, Work.binds,
      List.flatMap_map, Node.opens, Node.bindings?]
  | stmt s =>
    cases s with
    | declare _ _ init =>
      cases init <;> simp [Node.walked, Analysis.closing, Node.vars, Stmt.vars, Work.binds]
    | branch _ _ _ elseBranch =>
      cases elseBranch <;>
        simp [Node.walked, Node.children, Analysis.closing, Node.vars, Stmt.vars]
    | returnWith _ value =>
      cases value <;> simp [Node.walked, Node.children, Analysis.closing, Node.vars, Stmt.vars]
    | block => cases hn
    | labeled => cases hn
    | _ => simp [Node.walked, Node.children, Analysis.closing, Node.vars, Stmt.vars, Work.binds]

/-- Walking a node without a scope of its own. -/
theorem Tracks.walk_plain (hp : p.Formed) (hl : p.LaidOut) (hn : n.opens = false)
    (h : Tracks p owner store (Analysis.walk env n :: rest)) :
    Tracks p owner store (n.walked.map (Analysis.walk env) ++ a.closing env n ++ rest) := by
  have hplaced := h.places _ List.mem_cons_self
  refine h.unfold (unfolds_walk hp hl hplaced (fun _ _ => rfl) (Nat.le_refl _)
    (fun _ henv => henv.enter hn) (fun _ hid _ => hid) fun id _ => ?_) (fun _ _ => rfl)
    fun id hle hlt => absurd hlt (Nat.not_lt.2 hle)
  rw [pendingIn_eq (home? owner (Analysis.walk env n)), vars_eq a env hn]
  intro v hv
  rcases List.mem_append.1 hv with hv | hv
  · obtain ⟨c, -, rfl⟩ := List.mem_map.1 hv
    rw [home?_walk, home?_walk]
    exact .inl rfl
  · rcases closing_cases (p := p) hv with ⟨-, hbinds, -⟩ | ⟨site, x, init, rfl, rfl⟩ |
      ⟨site, x, value, rfl, rfl⟩
    · exact .inr hbinds
    · exact .inl rfl
    · exact .inr rfl

/-- What is done behind the children of a node with a scope of its own is not about scopes. -/
theorem closing_of_opens (hn : n.opens = true) :
    ∀ v ∈ a.closing env n, v.ids = [] ∧ v.binds = [] := by
  intro v hv
  rcases closing_cases (p := .empty) hv with ⟨hids, hbinds, -⟩ | ⟨site, x, init, rfl, rfl⟩ |
    ⟨site, x, value, rfl, rfl⟩
  · exact ⟨hids, hbinds⟩
  · cases hn
  · cases hn

/-- Walking a node with a scope of its own: the scope is opened with the next number. -/
theorem Tracks.walk_opens (hp : p.Formed) (hl : p.LaidOut) (hn : n.opens = true)
    (h : Tracks p owner store (Analysis.walk env n :: rest))
    (hd : Analysis.Distinct (Analysis.walk env n :: rest)) {inner : Environment}
    (hinner : inner.scopeIds = store.scopes.size :: env.scopeIds)
    (hsize : store'.scopes.size = store.scopes.size + 1)
    (hscope : ∀ id < store.scopes.size, store'.scope id = store.scope id)
    (hpending : ∀ owner', owner' store.scopes.size = some n →
      (∀ id < store.scopes.size, owner' id = owner id) → ∀ id < store.scopes.size,
      pendingIn owner' id (n.walked.map (Analysis.walk inner)) =
        if home? owner (Analysis.walk env n) = some id then n.vars else [])
    (hlabel : ∀ site label body, n = .stmt (.labeled site label body) →
      store'.scope store.scopes.size = ⟨.label, [(label.identifier, label.id)]⟩)
    (hbound : ∀ owner', owner' store.scopes.size = some n → n.isLabeled = false → ∃ done,
      p.bindingsOf (some n) = done ++ pendingIn owner' store.scopes.size
        (n.walked.map (Analysis.walk inner)) ∧ store'.Reads store.scopes.size done ∧
        ∀ b ∈ done, p.InForce 0 b) :
    ∃ owner', owner' store.scopes.size = some n ∧
      (∀ id < store.scopes.size, owner' id = owner id) ∧
      Tracks p owner' store' (n.walked.map (Analysis.walk inner) ++ a.closing env n ++ rest) := by
  have hnew : Function.update owner store.scopes.size (some n) store.scopes.size = some n :=
    Function.update_self ..
  have hold : ∀ id < store.scopes.size,
      Function.update owner store.scopes.size (some n) id = owner id :=
    fun id hid => Function.update_of_ne (Nat.ne_of_lt hid) ..
  have hgrows : store.scopes.size ≤ store'.scopes.size := by omega
  -- The other items cannot see the new scope.
  have hothers : ∀ {owner'}, pendingIn owner' store.scopes.size (a.closing env n ++ rest) = [] := by
    intro owner'
    refine pendingIn_eq_nil fun v hv hmem => ?_
    rcases List.mem_append.1 hv with hv | hv
    · rw [(closing_of_opens hn v hv).1] at hmem
      cases hmem
    · exact Nat.lt_irrefl _ ((h.places v (List.mem_cons_of_mem _ hv)).known _ hmem)
  refine ⟨Function.update owner store.scopes.size (some n), hnew, hold, ?_⟩
  refine h.unfold (unfolds_walk hp hl (h.places _ List.mem_cons_self) hold hgrows ?runs ?seen
    ?pending) hscope ?fresh
  case runs =>
    intro around henv
    rw [hsize]
    exact henv.push hn hold hnew hinner
  case seen =>
    intro id hid hlt
    rw [hinner] at hid
    exact (List.mem_cons.1 hid).resolve_left (Nat.ne_of_lt hlt)
  case pending =>
    intro id hid
    have hclosing : pendingIn (Function.update owner store.scopes.size (some n)) id
        (a.closing env n) = [] := by
      refine pendingIn_eq_nil fun v hv => ?_
      rw [(closing_of_opens hn v hv).1]
      exact List.not_mem_nil
    rw [pendingIn_append, hclosing, List.append_nil]
    exact hpending _ hnew hold id hid
  case fresh =>
    intro id hle hlt
    have hid : id = store.scopes.size := by omega
    subst hid
    refine ⟨⟨fun m hm => ?_, fun site label body heq => ?_, fun hvariable => ?_⟩, rfl, n, ?_, hnew⟩
    · obtain rfl := Option.some.inj (hnew.symm.trans hm)
      obtain ⟨around, hlocated, -⟩ := Work.placed_walk.1 (h.places _ List.mem_cons_self)
      have hnotMem := hd.not_mem_called p a
      rw [Analysis.items_walk, List.flatMap_append, List.flatMap_append, Analysis.nodes_walks]
        at hnotMem
      refine ⟨hlocated.contains, hn, ?_⟩
      rw [List.flatMap_append, List.flatMap_append, Analysis.nodes_walks]
      exact hnotMem
    · exact hlabel site label body (Option.some.inj (hnew.symm.trans heq))
    · rw [OfLabel, hnew] at hvariable
      obtain ⟨done, hsplit, hreads, hforce⟩ := hbound _ hnew hvariable
      refine ⟨done, ?_, hreads, fun w _ _ b hb => (hforce b hb).mono (Nat.zero_le _)⟩
      rw [hnew, hsplit, List.append_assoc, pendingIn_append, hothers, List.append_nil]
    · rw [Analysis.nodes_walk]
      exact List.mem_append_right _ List.mem_cons_self

theorem binds_walks (cs : List Node) :
    (cs.map (Analysis.walk env)).flatMap Work.binds = cs.flatMap Node.vars := by
  rw [List.flatMap_map]
  simp only [Work.binds_walk]

/-- Walking a block or a function, whose parameters are bound at once. -/
theorem Tracks.walk_scope (hp : p.Formed) (hl : p.LaidOut) {params : List Name}
    (hn : n.bindings? = some (params ++ n.walked.flatMap Node.vars)) (hvars : n.vars = [])
    (h : Tracks p owner store (Analysis.walk env n :: rest))
    (hd : Analysis.Distinct (Analysis.walk env n :: rest)) {inner : Environment}
    (hinner : inner.scopeIds = store.scopes.size :: env.scopeIds)
    (hsize : store'.scopes.size = store.scopes.size + 1)
    (hscope : ∀ id < store.scopes.size, store'.scope id = store.scope id)
    (hreads : store'.Reads store.scopes.size params) (hparams : ∀ b ∈ params, p.InForce 0 b) :
    ∃ owner', owner' store.scopes.size = some n ∧
      (∀ id < store.scopes.size, owner' id = owner id) ∧
      Tracks p owner' store' (n.walked.map (Analysis.walk inner) ++ a.closing env n ++ rest) := by
  have hopens : n.opens = true := by rw [Node.opens, hn]; rfl
  have hlabel : n.isLabeled = false := by
    unfold Node.bindings? at hn
    split at hn
    · rfl
    · rfl
    · cases hn
  -- What is bound inside is bound in the new scope.
  have hhome : ∀ owner', owner' store.scopes.size = some n →
      ∀ w ∈ n.walked.map (Analysis.walk inner), home? owner' w = some store.scopes.size := by
    intro owner' hnew w hw
    obtain ⟨c, -, rfl⟩ := List.mem_map.1 hw
    rw [home?_walk, hinner, List.find?_cons, OfLabel, hnew, Option.any_some, hlabel]
    rfl
  have hwalks : ∀ owner', owner' store.scopes.size = some n → ∀ id,
      pendingIn owner' id (n.walked.map (Analysis.walk inner)) =
        if some store.scopes.size = some id then n.walked.flatMap Node.vars else [] := by
    intro owner' hnew id
    rw [pendingIn_eq (some store.scopes.size) fun w hw => .inl (hhome owner' hnew w hw),
      binds_walks]
  refine h.walk_opens hp hl hopens hd hinner hsize hscope ?_ ?_ fun owner' hnew _ => ?_
  · intro owner' hnew _ id hid
    rw [hwalks owner' hnew, hvars, ite_self, if_neg fun heq => ?_]
    exact Nat.ne_of_lt hid (Option.some.inj heq).symm
  · rintro site label body rfl
    cases hlabel
  · refine ⟨params, ?_, hreads, hparams⟩
    rw [Program.bindingsOf, hn, hwalks owner' hnew, if_pos rfl]
    rfl

/-- Walking a labeled statement, whose label is bound at once. -/
theorem Tracks.walk_labeled (hp : p.Formed) (hl : p.LaidOut) (a : Analysis) {site : Site}
    {label : Name} {body : Stmt}
    (h : Tracks p owner store (Analysis.walk env (.stmt (.labeled site label body)) :: rest))
    (hd : Analysis.Distinct (Analysis.walk env (.stmt (.labeled site label body)) :: rest))
    {inner : Environment} (hinner : inner.scopeIds = store.scopes.size :: env.scopeIds)
    (hsize : store'.scopes.size = store.scopes.size + 1)
    (hscope : ∀ id < store.scopes.size, store'.scope id = store.scope id)
    (hlabel : store'.scope store.scopes.size = ⟨.label, [(label.identifier, label.id)]⟩) :
    ∃ owner', owner' store.scopes.size = some (.stmt (.labeled site label body)) ∧
      (∀ id < store.scopes.size, owner' id = owner id) ∧
      Tracks p owner' store' (Analysis.walk inner (.stmt body) :: rest) := by
  refine h.walk_opens (a := a) hp hl rfl hd hinner hsize hscope ?_ ?_ fun _ _ hvariable => ?_
  · intro owner' hnew hold id hid
    -- The scope of a label is passed over, so the nearest scope for variables stays the same.
    have hhome : home? owner' (Analysis.walk inner (.stmt body)) =
        home? owner (Analysis.walk env (.stmt (.labeled site label body))) := by
      have hknown := (h.places _ List.mem_cons_self).known
      rw [Work.ids_walk] at hknown
      rw [home?_walk, home?_walk, hinner, List.find?_cons, OfLabel, hnew]
      exact List.find?_congr fun id hid => by rw [OfLabel, OfLabel, hold id (hknown id hid)]
    rw [pendingIn_eq (home? owner' (Analysis.walk inner (.stmt body))), binds_walks, hhome]
    · simp [Node.walked, Node.vars, Stmt.vars]
    · intro w hw
      rw [List.mem_singleton.1 hw]
      exact .inl rfl
  · intro site' label' body' heq
    cases heq
    exact hlabel
  · cases hvariable

end LWorkbench
