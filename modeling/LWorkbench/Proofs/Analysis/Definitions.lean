import LWorkbench.Proofs.Analysis.Notes

/-!
# Definitions of names

Looking a name up along its chain asks one scope after another, and each scope answers with the
first binding that it has so far. When a reference comes up, a scope has exactly the bindings that
are in force there; in the end it has all. So a name has the definition that lexical scoping gives
it: the one in force, or else a later one of the innermost scope that binds the identifier.

## Main definitions

* `Answers` — what a scope has to say about an identifier
* `Node.Introduces` — a node binds a name, as a variable, a parameter or a label
* `Program.Resolves` — a name is defined by what it refers to

## Main results

* `Environment.Runs.lookup` — a chain answers with its innermost scope that can
* `Tracks.lookup_label` — labels are found among the labeled statements around a place
* `Program.Owners.resolves`, `Program.Owners.introduced` — names are defined by what they refer to,
  and definitions by themselves
* `Program.definitions_are_lexical` — the definitions that analysis gives to names
-/

namespace LWorkbench

variable {p : Program} {owner : ScopeId → Option Node} {store : Store NodeId} {env : Environment}
  {items rest : List Work} {w : Work} {id : ScopeId} {size : Nat} {around outer : List Node}
  {n : Node} {x : String} {r b d : Name} {scope scope' : Option Node} {P : Option Node → Prop}
  {k : NodeId}

/-! ### Innermost scopes -/

namespace Node

theorem Innermost.mem (h : Innermost around P scope) : scope ∈ scopesAround around := by
  obtain ⟨inner, outer, hsplit, -, -⟩ := h
  rw [hsplit]
  exact List.mem_append_right _ List.mem_cons_self

theorem Innermost.unique (h : Innermost around P scope) (h' : Innermost around P scope') :
    scope = scope' := by
  obtain ⟨inner, outer, hsplit, hscope, hinner⟩ := h
  obtain ⟨inner', outer', hsplit', hscope', hinner'⟩ := h'
  have happend : inner ++ scope :: outer = inner' ++ scope' :: outer' :=
    hsplit.symm.trans hsplit'
  -- Were one of the scopes further out, the other one would be in front of it.
  rcases List.append_eq_append_iff.1 happend with
    ⟨between, hfirst, hrest⟩ | ⟨between, hfirst, hrest⟩
  · cases between with
    | nil => exact (List.cons.inj hrest).1
    | cons between betweens =>
      cases hrest
      refine absurd hscope (hinner' scope ?_)
      rw [hfirst]
      exact List.mem_append_right _ List.mem_cons_self
  · cases between with
    | nil => exact (List.cons.inj hrest).1.symm
    | cons between betweens =>
      cases hrest
      refine absurd hscope' (hinner scope' ?_)
      rw [hfirst]
      exact List.mem_append_right _ List.mem_cons_self

/-- The nearest scope is the innermost one with a property that it has. -/
theorem Innermost.of_head (hhead : (scopesAround around).head? = some scope) (hscope : P scope) :
    Innermost around P scope := by
  obtain ⟨outer, hsplit⟩ := List.head?_eq_some_iff.1 hhead
  exact ⟨[], outer, hsplit, hscope, List.forall_mem_nil _⟩

end Node

namespace Program

theorem Located.contains_scope (h : p.Located around n)
    (hscope : scope ∈ Node.scopesAround around) :
    ∀ m, scope = some m → p.Contains m := by
  intro m hm
  rw [hm] at hscope
  exact h.contains_around m (Node.mem_of_mem_scopesAround hscope).1

theorem FirstBinding.bindsIn (h : p.FirstBinding scope x b) : p.BindsIn x scope :=
  ⟨b, h.mem, h.identifier⟩

theorem FirstBinding.unique (hl : p.LaidOut) (hscope : ∀ n, scope = some n → p.Contains n)
    (h : p.FirstBinding scope x b) (h' : p.FirstBinding scope x d) : b = d := by
  rw [hl.firstBinding_iff hscope] at h h'
  exact Option.some.inj (h.symm.trans h')

/-- What a name refers to is the first binding of its identifier in a scope around it. -/
theorem Refers.exists_scope (h : p.Refers around r b) :
    ∃ scope ∈ Node.scopesAround around, p.FirstBinding scope r.identifier b := by
  cases h with
  | binding _ hscope hfirst => exact ⟨_, List.mem_of_mem_head? hscope, hfirst⟩
  | inForce _ hscope hfirst => exact ⟨_, hscope.mem, hfirst⟩
  | later _ _ hscope hfirst => exact ⟨_, hscope.mem, hfirst⟩

/-- A name refers to one binding at most. -/
theorem Refers.unique (hl : p.LaidOut) (hr : p.Located around (.ofName r))
    (h : p.Refers around r b) (h' : p.Refers around r d) : b = d := by
  have hsame : ∀ {scope scope'}, scope ∈ Node.scopesAround around → scope = scope' →
      p.FirstBinding scope r.identifier b → p.FirstBinding scope' r.identifier d → b = d := by
    intro scope scope' hmem heq hb hd
    subst heq
    exact hb.unique hl (hr.contains_scope hmem) hd
  -- The three ways to refer exclude each other, so both must be the same one.
  cases h with
  | binding hbinds hscope hfirst =>
    cases h' with
    | binding _ hscope' hfirst' =>
      refine hsame (List.mem_of_mem_head? hscope) ?_ hfirst hfirst'
      exact Option.some.inj (hscope.symm.trans hscope')
    | inForce hnot => exact absurd hbinds (hnot _ rfl)
    | later hnot => exact absurd hbinds (hnot _ rfl)
  | inForce hnot hscope hfirst =>
    cases h' with
    | binding hbinds => exact absurd hbinds (hnot _ rfl)
    | inForce _ hscope' hfirst' => exact hsame hscope.mem (hscope.unique hscope') hfirst hfirst'
    | later _ hnone =>
      obtain ⟨inner, outer, hsplit, hbefore, -⟩ := hscope
      exact absurd hbefore (hnone _ (hsplit ▸ List.mem_append_right _ List.mem_cons_self))
  | later hnot hnone hscope hfirst =>
    cases h' with
    | binding hbinds => exact absurd hbinds (hnot _ rfl)
    | inForce _ hscope' =>
      obtain ⟨inner, outer, hsplit, hbefore, -⟩ := hscope'
      exact absurd hbefore (hnone _ (hsplit ▸ List.mem_append_right _ List.mem_cons_self))
    | later _ _ hscope' hfirst' => exact hsame hscope.mem (hscope.unique hscope') hfirst hfirst'

end Program

/-! ### What scopes answer -/

/-- The scope answers for its owner: it has the first binding of the identifier if the owner has a
property, and nothing otherwise. -/
structure Answers (p : Program) (owner : ScopeId → Option Node) (store : Store NodeId) (x : String)
    (P : Option Node → Prop) (id : ScopeId) : Prop where
  found : ∀ k, store.valueIn? .variable x id = some k →
    P (owner id) ∧ ∃ b, p.FirstBinding (owner id) x b ∧ b.id = k
  missing : store.valueIn? .variable x id = none → ¬ P (owner id)

/-- Looking up along a chain asks one scope for variables after another. -/
theorem Environment.Runs.lookup (hruns : env.Runs owner size around)
    (hlabels : ∀ id ∈ env.scopeIds, OfLabel owner id = true →
      store.valueIn? .variable x id = none)
    (hanswers : ∀ id ∈ env.scopeIds, OfLabel owner id = false → Answers p owner store x P id) :
    (∀ k, store.lookupKind? env x .variable = some k → ∃ scope b,
      Node.Innermost around P scope ∧ p.FirstBinding scope x b ∧ b.id = k) ∧
    (store.lookupKind? env x .variable = none → ∀ scope ∈ Node.scopesAround around, ¬ P scope) := by
  rw [Store.lookupKind?_eq]
  refine ⟨fun k hk => ?_, fun hnone scope hscope => ?_⟩
  · -- The chain splits at the scope that answers. Leaving out the scopes of labels, which hold no
    -- variables, splits the scopes around the place at the same scope.
    obtain ⟨before, id, after, hsplit, hvalue, hbefore⟩ := List.findSome?_eq_some_iff.1 hk
    have hmem : ∀ other ∈ before, other ∈ env.scopeIds := by
      intro other hother
      rw [hsplit]
      exact List.mem_append_left _ hother
    have hid : id ∈ env.scopeIds := by
      rw [hsplit]
      exact List.mem_append_right _ List.mem_cons_self
    have hvariable : OfLabel owner id = false := by
      cases hlabel : OfLabel owner id with
      | false => rfl
      | true =>
        rw [hlabels id hid hlabel] at hvalue
        cases hvalue
    obtain ⟨hP, b, hfirst, hb⟩ := (hanswers id hid hvariable).found k hvalue
    refine ⟨owner id, b, ⟨(before.filter fun id => !OfLabel owner id).map owner,
      (after.filter fun id => !OfLabel owner id).map owner, ?_, hP, ?_⟩, hfirst, hb⟩
    · rw [← hruns.scopes, hsplit, List.filter_append, List.filter_cons_of_pos (by simp [hvariable]),
        List.map_append, List.map_cons]
    · intro scope hscope
      obtain ⟨other, hother, rfl⟩ := List.mem_map.1 hscope
      rw [List.mem_filter, Bool.not_eq_true'] at hother
      exact (hanswers other (hmem other hother.1) hother.2).missing (hbefore other hother.1)
  · rw [← hruns.scopes] at hscope
    obtain ⟨id, hid, rfl⟩ := List.mem_map.1 hscope
    rw [List.mem_filter, Bool.not_eq_true'] at hid
    exact (hanswers id hid.1 hid.2).missing (List.findSome?_eq_none_iff.1 hnone id hid.1)

theorem Store.Reads.valueIn?_eq {done : List Name} (h : store.Reads id done) :
    store.valueIn? .variable x id = (done.find? (·.identifier == x)).map Name.id := by
  rw [Store.valueIn?, if_pos h.kind, h.get?]

/-- What an item binds is in force only where its declaration has ended. -/
theorem Work.Placed.declarationEnd_le (hp : p.Formed) (h : w.Placed p owner size) (hb : b ∈ w.binds)
    {offset : Nat} (hforce : p.InForce offset b) : p.declarationEnd b ≤ offset := by
  cases w with
  | stmt s env =>
    obtain ⟨around, hlocated, -⟩ := h
    exact (hp.inForce_iff hlocated.contains hb).1 hforce
  | declare y env =>
    obtain ⟨site, init, around, hlocated, -⟩ := h
    exact (hp.inForce_iff hlocated.contains hb).1 hforce
  | expr | reference | leaveLoop | leaveFunction => cases hb

/-- Scopes are open for all labeled statements around a place. -/
theorem Node.findSome?_openers (around : List Node) (x : String) :
    (Node.openers around).findSome? (fun k => (k.bind (Node.labeled? x)).map (·.1.id)) =
      (around.findSome? (Node.labeled? x)).map (·.1.id) := by
  induction around with
  | nil => rfl
  | cons n around ih =>
    rw [List.findSome?_cons]
    by_cases hn : n.opens = true
    · rw [Node.openers_cons_of_opens hn, List.findSome?_cons, Option.bind_some, ih]
      cases n.labeled? x <;> rfl
    · have hnone : n.labeled? x = none := by
        unfold Node.labeled?
        split
        · exact absurd rfl hn
        · rfl
      rw [Node.openers_cons_of_not_opens (Bool.not_eq_true _ ▸ hn), ih, hnone]

namespace Tracks

theorem valueIn?_label (h : Tracks p owner store items) (hid : id < store.scopes.size)
    (hlabel : OfLabel owner id = true) : store.valueIn? .variable x id = none := by
  have hkind := h.kind_eq hid
  rw [hlabel, Bool.not_true, beq_eq_false_iff_ne] at hkind
  rw [Store.valueIn?, if_neg hkind]

theorem contains_owner (h : Tracks p owner store items) (hid : id < store.scopes.size) :
    ∀ n, owner id = some n → p.Contains n :=
  fun n hn => ((h.scopes id hid).owned n hn).1

/-- What a scope has so far comes first among its bindings. -/
theorem firstBinding_of_done (hl : p.LaidOut) (h : Tracks p owner store items)
    (hid : id < store.scopes.size) {done pending : List Name}
    (hsplit : p.bindingsOf (owner id) = done ++ pending)
    (hfind : done.find? (·.identifier == x) = some b) : p.FirstBinding (owner id) x b := by
  rw [hl.firstBinding_iff (h.contains_owner hid), hsplit, List.find?_append, hfind]
  rfl

/-- When a reference comes up, a scope that it can see has the bindings that are in force. -/
theorem answers_reference (hp : p.Formed) (hl : p.LaidOut) (h : Tracks p owner store (w :: rest))
    (hid : id ∈ w.ids) (hvariable : OfLabel owner id = false) (hbinds : w.binds = [])
    (hnonempty : w.span.start < w.span.stop) :
    Answers p owner store x (p.BindsBefore x w.span.start) id := by
  have hlt := (h.places w List.mem_cons_self).known id hid
  obtain ⟨done, hsplit, hreads, hforce⟩ := (h.scopes id hlt).bound hvariable
  refine ⟨fun k hk => ?_, fun hnone hbefore => ?_⟩
  · rw [hreads.valueIn?_eq] at hk
    obtain ⟨b, hfind, hb⟩ := Option.map_eq_some_iff.1 hk
    have hfirst := h.firstBinding_of_done hl hlt hsplit hfind
    have hdone := hforce w List.mem_cons_self hid b (List.mem_of_find?_eq_some hfind)
    exact ⟨⟨b, hfirst.mem, hfirst.identifier, hdone⟩, b, hfirst, hb⟩
  · rw [hreads.valueIn?_eq, Option.map_eq_none_iff, List.find?_eq_none] at hnone
    obtain ⟨c, hc, hx, hinForce⟩ := hbefore
    rw [hsplit, List.mem_append] at hc
    rcases hc with hc | hc
    · exact hnone c hc (beq_iff_eq.2 hx)
    · -- A pending binding is declared by a later item, which ends behind the reference.
      obtain ⟨u, hu, hbound⟩ := List.mem_flatMap.1 hc
      split at hbound
      · rcases List.mem_cons.1 hu with rfl | hu
        · rw [hbinds] at hbound
          cases hbound
        · have hstop := (List.rel_of_pairwise_cons h.order hu).pending c hbound
          have hend := (h.places u (List.mem_cons_of_mem _ hu)).declarationEnd_le hp hbound hinForce
          omega
      · cases hbound

/-- In the end a scope has all its bindings. -/
theorem answers_end (hl : p.LaidOut) (h : Tracks p owner store []) (hid : id < store.scopes.size)
    (hvariable : OfLabel owner id = false) : Answers p owner store x (p.BindsIn x) id := by
  obtain ⟨done, hsplit, hreads, -⟩ := (h.scopes id hid).bound hvariable
  refine ⟨fun k hk => ?_, fun hnone hbinds => ?_⟩
  · rw [hreads.valueIn?_eq] at hk
    obtain ⟨b, hfind, hb⟩ := Option.map_eq_some_iff.1 hk
    have hfirst := h.firstBinding_of_done hl hid hsplit hfind
    exact ⟨hfirst.bindsIn, b, hfirst, hb⟩
  · rw [hreads.valueIn?_eq, Option.map_eq_none_iff, List.find?_eq_none] at hnone
    obtain ⟨c, hc, hx⟩ := hbinds
    rw [hsplit, List.mem_append] at hc
    rcases hc with hc | hc
    · exact hnone c hc (beq_iff_eq.2 hx)
    · cases hc

/-- The scope of a labeled statement has its label, and no other scope has one. -/
theorem valueIn?_of_label (h : Tracks p owner store items) (hid : id < store.scopes.size) :
    store.valueIn? .label x id = ((owner id).bind (Node.labeled? x)).map (·.1.id) := by
  -- A scope of another kind has no labels, and belongs to no labeled statement.
  cases hlabel : OfLabel owner id with
  | false =>
    obtain ⟨done, -, hreads, -⟩ := (h.scopes id hid).bound hlabel
    have hnone : (owner id).bind (Node.labeled? x) = none := by
      rw [Option.bind_eq_none_iff]
      intro n hn
      rw [OfLabel, hn, Option.any_some] at hlabel
      unfold Node.labeled?
      split
      · cases hlabel
      · rfl
    rw [Store.valueIn?_of_variable hreads.kind, hnone]
    rfl
  | true =>
    obtain ⟨n, howner, hn⟩ := (Option.any_eq_true _ _).1 hlabel
    unfold Node.isLabeled at hn
    split at hn
    · rename_i site label body
      rw [Store.valueIn?, (h.scopes id hid).label _ _ _ howner, if_pos rfl, howner,
        Option.bind_some, Node.labeled?, Scope.get?]
      by_cases hx : label.identifier = x
      · simp [hx]
      · simp [hx]
    · cases hn

/-- Labels are found among the labeled statements around a place, the innermost one first. -/
theorem lookup_label (h : Tracks p owner store items)
    (hruns : env.Runs owner store.scopes.size around) :
    store.lookupKind? env x .label = (around.findSome? (Node.labeled? x)).map (·.1.id) := by
  have hvalues : ∀ ids : List ScopeId, (∀ id ∈ ids, id < store.scopes.size) →
      ids.findSome? (store.valueIn? .label x) = (ids.map owner).findSome?
        fun k => (k.bind (Node.labeled? x)).map (·.1.id) := by
    intro ids hids
    induction ids with
    | nil => rfl
    | cons id ids ih =>
      obtain ⟨hid, hids⟩ := List.forall_mem_cons.1 hids
      rw [List.map_cons, List.findSome?_cons, List.findSome?_cons, h.valueIn?_of_label hid, ih hids]
  rw [Store.lookupKind?_eq, hvalues _ hruns.known, hruns.owners, Node.findSome?_openers]

end Tracks

/-! ### Definitions -/

/-- The node binds the name: as a variable, as a parameter or as a label. -/
def Node.Introduces (n : Node) (d : Name) : Prop := d ∈ n.binds ∨ n.label? = some d

namespace Program

theorem Formed.kind_of_binds (hp : p.Formed) (hn : p.Contains n) (hr : r ∈ n.binds) :
    r.kind = .variable := by
  have hkinds := hp.kinds n hn
  unfold Node.binds at hr
  split at hr
  · obtain rfl := List.mem_singleton.1 hr
    exact hkinds
  · exact hkinds r hr
  · cases hr

/-- The definition of a name is what it refers to, and it has none only if no scope around it binds
its identifier. -/
structure Resolves (p : Program) (around : List Node) (r : Name) : Prop where
  found : ∀ k, p.annotate.definitionOf? r.id = some k → ∃ b, p.Refers around r b ∧ b.id = k
  missing : p.annotate.definitionOf? r.id = none →
    ∀ scope ∈ Node.scopesAround around, ¬ p.BindsIn r.identifier scope

/-- The number belongs to a binding that agrees with a name and is its own definition. -/
def Introduced (p : Program) (r : Name) (k : NodeId) : Prop :=
  ∃ n outer d, p.Located (n :: outer) (.ofName d) ∧ n.Introduces d ∧
    d.identifier = r.identifier ∧ d.kind = r.kind ∧ d.id = k ∧
      p.annotate.definitionOf? d.id = some d.id

namespace Owners

/-- What a chain answers in the end. -/
theorem lookup_annotate (hl : p.LaidOut) (ho : p.Owners owner)
    (hruns : env.Runs owner p.annotate.store.scopes.size around) :
    (∀ k, p.annotate.store.lookupKind? env x .variable = some k → ∃ scope b,
      Node.Innermost around (p.BindsIn x) scope ∧ p.FirstBinding scope x b ∧ b.id = k) ∧
    (p.annotate.store.lookupKind? env x .variable = none →
      ∀ scope ∈ Node.scopesAround around, ¬ p.BindsIn x scope) := by
  have htracks := ho.tracks_annotate
  apply hruns.lookup
  · intro id hid
    exact htracks.valueIn?_label (hruns.known id hid)
  · intro id hid
    exact htracks.answers_end hl (hruns.known id hid)

/-- A name that binds is defined by the first binding of its own scope. -/
theorem resolves_binding (hp : p.Formed) (hl : p.LaidOut) (ho : p.Owners owner)
    (h : p.Located (n :: outer) (.ofName r)) (hr : r ∈ n.binds) :
    p.Resolves (n :: outer) r := by
  have hkind := hp.kind_of_binds (h.contains_around n List.mem_cons_self) hr
  obtain ⟨b, rest, env, hleads, hruns, hnoted⟩ := ho.noted_binding hp h hr
  have hend := ho.lookup_annotate hl (x := r.identifier)
    (hruns.congr (fun _ _ => rfl) (ho.size_le_annotate hp hl hleads))
  have hdefinition : p.annotate.definitionOf? r.id =
      p.annotate.store.lookupKind? env r.identifier .variable := by
    rw [hnoted.definitionOf? hp h.contains, Option.none_or, hkind]
  refine ⟨fun k hk => ?_, fun hnone => hend.2 (hdefinition ▸ hnone)⟩
  obtain ⟨scope, b, hscope, hfirst, hb⟩ := hend.1 k (hdefinition ▸ hk)
  -- The name itself is bound in the nearest scope, so the lookup ends there.
  obtain ⟨nearest, outer', hhead, -⟩ := Node.exists_scopesAround p (n :: outer)
  have hnearest : (Node.scopesAround (n :: outer)).head? = some nearest := by
    rw [hhead]
    rfl
  have hown : p.BindsIn r.identifier nearest := ⟨r, h.mem_bindingsOf hr hnearest, rfl⟩
  rw [hscope.unique (.of_head hnearest hown)] at hfirst
  exact ⟨b, .binding hr hnearest hfirst, hb⟩

/-- Any other name is defined by the innermost scope with a binding in force when the name comes up,
or else by the innermost scope with a binding in the end. -/
theorem resolves_reference (hp : p.Formed) (hl : p.LaidOut) (ho : p.Owners owner)
    (h : p.Located around (.ofName r)) (hkind : r.kind = .variable)
    (hr : ∀ n ∈ around.head?, r ∉ n.binds) : p.Resolves around r := by
  obtain ⟨b, w, rest, env, hleads, hids, hspan, hbinds, hruns, hnoted⟩ :=
    ho.noted_reference hp h hkind hr
  have hnonempty : w.span.start < w.span.stop := by
    rw [hspan]
    exact (hl.nodes _ h.contains).nonempty
  have htracks := (ho b _ hleads).1
  obtain ⟨hfound, hmissing⟩ := hruns.lookup
    (fun id hid => htracks.valueIn?_label (x := r.identifier) (hruns.known id hid))
    (fun id hid hvariable =>
      htracks.answers_reference hp hl (hids ▸ hid) hvariable hbinds hnonempty)
  rw [hspan] at hfound hmissing
  obtain ⟨hfound', hmissing'⟩ := ho.lookup_annotate hl (x := r.identifier)
    (hruns.congr (fun _ _ => rfl) (ho.size_le_annotate hp hl hleads))
  have hdefinition := hnoted.definitionOf? hp h.contains
  rw [hkind] at hdefinition
  -- What was found when the name came up is kept, and only else the lookup in the end decides.
  cases hlookup : b.store.lookupKind? env r.identifier .variable with
  | some k =>
    rw [hlookup, Option.some_or] at hdefinition
    obtain ⟨scope, d, hscope, hfirst, hd⟩ := hfound k hlookup
    refine ⟨fun k' hk' => ?_, fun hnone => ?_⟩
    · obtain rfl := Option.some.inj (hdefinition.symm.trans hk')
      exact ⟨d, .inForce hr hscope hfirst, hd⟩
    · cases hdefinition.symm.trans hnone
  | none =>
    rw [hlookup, Option.none_or] at hdefinition
    refine ⟨fun k hk => ?_, fun hnone => hmissing' (hdefinition ▸ hnone)⟩
    obtain ⟨scope, d, hscope, hfirst, hd⟩ := hfound' k (hdefinition ▸ hk)
    exact ⟨d, .later hr (hmissing hlookup) hscope hfirst, hd⟩

theorem resolves (hp : p.Formed) (hl : p.LaidOut) (ho : p.Owners owner)
    (h : p.Located around (.ofName r)) (hkind : r.kind = .variable) : p.Resolves around r := by
  rcases h.name_cases hl with ⟨n, outer, rfl, hr⟩ | ⟨n, outer, rfl, hlabel⟩ |
    ⟨n, outer, rfl, hjump⟩ | ⟨-, hr⟩
  · exact ho.resolves_binding hp hl h hr
  · exact absurd hkind
      (hp.kind_ne_variable (h.contains_around n List.mem_cons_self) (.inl hlabel))
  · exact absurd hkind
      (hp.kind_ne_variable (h.contains_around n List.mem_cons_self) (.inr hjump))
  · exact ho.resolves_reference hp hl h hkind hr

/-- Every name has a chain. -/
theorem exists_environment (hp : p.Formed) (hl : p.LaidOut) (ho : p.Owners owner)
    (h : p.Located around (.ofName r)) :
    ∃ env, (p.annotate.note r.id).environment = some env := by
  rcases h.name_cases hl with ⟨n, outer, rfl, hr⟩ | ⟨n, outer, rfl, hlabel⟩ |
    ⟨n, outer, rfl, hjump⟩ | ⟨hkind, hr⟩
  · obtain ⟨_, _, env, -, -, hnoted⟩ := ho.noted_binding hp h hr
    exact ⟨env, hnoted.environment⟩
  · obtain ⟨_, _, env, -, -, hnoted⟩ := ho.noted_label hp h hlabel
    exact ⟨env, hnoted.environment⟩
  · obtain ⟨_, _, env, -, -, hnoted, -⟩ := ho.noted_jump hp h hjump
    exact ⟨env, hnoted.environment⟩
  · obtain ⟨_, _, _, env, -, -, -, -, -, hnoted⟩ := ho.noted_reference hp h hkind hr
    exact ⟨env, hnoted.environment⟩

/-- The definition of a name is the binding that it refers to. -/
theorem definitionOf?_iff (hp : p.Formed) (hl : p.LaidOut) (ho : p.Owners owner)
    (h : p.Located around (.ofName r)) (hkind : r.kind = .variable) :
    p.annotate.definitionOf? r.id = some k ↔ ∃ b, p.Refers around r b ∧ b.id = k := by
  obtain ⟨hfound, hmissing⟩ := ho.resolves hp hl h hkind
  refine ⟨hfound k, fun hrefers => ?_⟩
  obtain ⟨b, hb, rfl⟩ := hrefers
  cases hdefinition : p.annotate.definitionOf? r.id with
  | none =>
    obtain ⟨scope, hscope, hfirst⟩ := hb.exists_scope
    exact absurd hfirst.bindsIn (hmissing hdefinition scope hscope)
  | some k =>
    obtain ⟨d, hd, rfl⟩ := hfound k hdefinition
    rw [hb.unique hl h hd]

/-- A name has no definition if and only if no scope around it binds its identifier. -/
theorem definitionOf?_eq_none_iff (hp : p.Formed) (hl : p.LaidOut) (ho : p.Owners owner)
    (h : p.Located around (.ofName r)) (hkind : r.kind = .variable) :
    p.annotate.definitionOf? r.id = none ↔
      ∀ scope ∈ Node.scopesAround around, ¬ p.BindsIn r.identifier scope := by
  obtain ⟨hfound, hmissing⟩ := ho.resolves hp hl h hkind
  refine ⟨hmissing, fun hnone => ?_⟩
  cases hdefinition : p.annotate.definitionOf? r.id with
  | none => rfl
  | some k =>
    obtain ⟨b, hb, -⟩ := hfound k hdefinition
    obtain ⟨scope, hscope, hfirst⟩ := hb.exists_scope
    exact absurd hfirst.bindsIn (hnone scope hscope)

/-- The definition of a label is the innermost label of the same identifier around it, whether or not
a function lies between them. -/
theorem definitionOf?_of_label (hp : p.Formed) (hl : p.LaidOut) (ho : p.Owners owner)
    (h : p.Located (n :: outer) (.ofName r)) (hr : n.label? = some r ∨ n.jumpLabel? = some r) :
    p.annotate.definitionOf? r.id =
      ((n :: outer).findSome? (Node.labeled? r.identifier)).map (·.1.id) := by
  have hkind := hp.kind_of_label (h.contains_around n List.mem_cons_self) hr
  -- At any time the same labels are found.
  have hend : ∀ {b items env}, Analysis.Leads p (Analysis.start p) p.items b items →
      env.Runs owner b.store.scopes.size (n :: outer) →
      p.annotate.store.lookupKind? env r.identifier .label =
        ((n :: outer).findSome? (Node.labeled? r.identifier)).map (·.1.id) := by
    intro b items env hleads hruns
    exact ho.tracks_annotate.lookup_label
      (hruns.congr (fun _ _ => rfl) (ho.size_le_annotate hp hl hleads))
  rcases hr with hr | hr
  · obtain ⟨b, rest, env, hleads, hruns, hnoted⟩ := ho.noted_label hp h hr
    rw [hnoted.definitionOf? hp h.contains, Option.none_or, hkind, hend hleads hruns]
  · obtain ⟨b, rest, env, hleads, hruns, hnoted, -⟩ := ho.noted_jump hp h hr
    rw [hnoted.definitionOf? hp h.contains, hkind, hend hleads hruns]
    cases hreach : b.reachableLabel? r env with
    | none => exact Option.none_or
    | some k =>
      rw [← Analysis.definition?_of_reachable hreach, Analysis.definition?, hkind,
        (ho b _ hleads).1.lookup_label hruns, Option.or_self]

/-- The label of a statement is its own definition. -/
theorem definitionOf?_label (hp : p.Formed) (hl : p.LaidOut) (ho : p.Owners owner)
    (h : p.Located (n :: outer) (.ofName d)) (hd : n.label? = some d) :
    p.annotate.definitionOf? d.id = some d.id := by
  rw [ho.definitionOf?_of_label hp hl h (.inl hd), List.findSome?_cons]
  unfold Node.label? at hd
  split at hd
  · cases hd
    rw [Node.labeled?, if_pos rfl]
    rfl
  · cases hd

theorem introduced_variable (hp : p.Formed) (hl : p.LaidOut) (ho : p.Owners owner)
    (h : p.Located around (.ofName r)) (hkind : r.kind = .variable)
    (hk : p.annotate.definitionOf? r.id = some k) : p.Introduced r k := by
  obtain ⟨d, hd, hid⟩ := (ho.definitionOf?_iff hp hl h hkind).1 hk
  obtain ⟨scope, hscope, hfirst⟩ := hd.exists_scope
  obtain ⟨n, outer, hlocated, hbinds, hhead⟩ :=
    exists_place_of_mem_bindingsOf (h.contains_scope hscope) hfirst.mem
  have hdkind := hp.kind_of_binds (hlocated.contains_around n List.mem_cons_self) hbinds
  refine ⟨n, outer, d, hlocated, .inl hbinds, hfirst.identifier, hdkind.trans hkind.symm, hid, ?_⟩
  -- The first binding of a scope refers to itself.
  rw [ho.definitionOf?_iff hp hl hlocated hdkind]
  exact ⟨d, .binding hbinds hhead (hfirst.identifier ▸ hfirst), rfl⟩

theorem introduced_label (hp : p.Formed) (hl : p.LaidOut) (ho : p.Owners owner)
    (h : p.Located (n :: outer) (.ofName r)) (hr : n.label? = some r ∨ n.jumpLabel? = some r)
    (hk : p.annotate.definitionOf? r.id = some k) : p.Introduced r k := by
  rw [ho.definitionOf?_of_label hp hl h hr] at hk
  obtain ⟨⟨found, body⟩, hfound, hid⟩ := Option.map_eq_some_iff.1 hk
  obtain ⟨m, hm, hlabeled⟩ := List.exists_of_findSome?_eq_some hfound
  obtain ⟨place, hplace⟩ := (h.contains_around m hm).located
  obtain ⟨site, rfl, hidentifier⟩ := Node.exists_of_labeled? hlabeled
  have hlocated := hplace.child (c := .ofName found) List.mem_cons_self
  have hkind := hp.kind_of_label (x := found) (h.contains_around _ hm) (.inl rfl)
  have hrkind := hp.kind_of_label (h.contains_around n List.mem_cons_self) hr
  exact ⟨_, place, found, hlocated, .inr rfl, hidentifier, hkind.trans hrkind.symm, hid,
    ho.definitionOf?_label hp hl hlocated rfl⟩

/-- The definition of a name is a binding of the same identifier, which is its own definition. -/
theorem introduced (hp : p.Formed) (hl : p.LaidOut) (ho : p.Owners owner)
    (h : p.Located around (.ofName r)) (hk : p.annotate.definitionOf? r.id = some k) :
    p.Introduced r k := by
  rcases h.name_cases hl with ⟨n, outer, rfl, hr⟩ | ⟨n, outer, rfl, hr⟩ | ⟨n, outer, rfl, hr⟩ |
    ⟨hkind, -⟩
  · have hkind := hp.kind_of_binds (h.contains_around n List.mem_cons_self) hr
    exact ho.introduced_variable hp hl h hkind hk
  · exact ho.introduced_label hp hl h (.inl hr) hk
  · exact ho.introduced_label hp hl h (.inr hr) hk
  · exact ho.introduced_variable hp hl h hkind hk

end Owners

/-- The definitions that analysis gives to the names of a text that parses. Every name has a chain.
The definition of the name of a variable is the binding that it refers to by lexical scoping, and it
has none exactly if no scope around it binds its identifier. The definition of any name is a binding
of the same identifier, which is its own definition. -/
theorem definitions_are_lexical {text : String} (hparse : parse text = .ok p) :
    (∀ around r, p.Located around (.ofName r) →
      ∃ env, (p.annotate.note r.id).environment = some env) ∧
    (∀ around r, p.Located around (.ofName r) → r.kind = .variable →
      (∀ k, p.annotate.definitionOf? r.id = some k ↔ ∃ b, p.Refers around r b ∧ b.id = k) ∧
      (p.annotate.definitionOf? r.id = none ↔
        ∀ scope ∈ Node.scopesAround around, ¬ p.BindsIn r.identifier scope)) ∧
    ∀ around r k, p.Located around (.ofName r) → p.annotate.definitionOf? r.id = some k →
      ∃ n outer d, p.Located (n :: outer) (.ofName d) ∧ n.Introduces d ∧
        d.identifier = r.identifier ∧ d.kind = r.kind ∧ d.id = k ∧
          p.annotate.definitionOf? d.id = some d.id := by
  have hp := formed_of_parse hparse
  have hl := laidOut_of_parse hparse
  obtain ⟨owner, ho⟩ := exists_owners hp hl
  refine ⟨fun around r h => ho.exists_environment hp hl h,
    fun around r h hkind => ⟨fun k => ?_, ?_⟩,
    fun around r k h hk => ho.introduced hp hl h hk⟩
  · exact ho.definitionOf?_iff hp hl h hkind
  · exact ho.definitionOf?_eq_none_iff hp hl h hkind

end Program

theorem scan_use : Lexeme.scan "var a;a;" = .ok
    [⟨.keyword .varWord, ⟨0, 3⟩⟩, ⟨.identifier "a", ⟨4, 5⟩⟩, ⟨.symbol .semicolon, ⟨5, 6⟩⟩,
      ⟨.identifier "a", ⟨6, 7⟩⟩, ⟨.symbol .semicolon, ⟨7, 8⟩⟩] := by
  decide +kernel

set_option maxRecDepth 4000 in
/-- A program that uses a variable after its declaration. -/
theorem parse_use : (Program.parse "var a;a;").toOption.map (·.body) = some
    [.declare ⟨1, ⟨0, 6⟩⟩ ⟨⟨0, ⟨4, 5⟩⟩, "a", .variable⟩ none,
      .evaluate ⟨3, ⟨6, 8⟩⟩ (.name ⟨⟨2, ⟨6, 7⟩⟩, "a", .variable⟩)] := by
  rw [Program.parse, scan_use]
  cbv

/-- The use of a variable is defined by its declaration. -/
theorem definitions_are_lexical_use :
    ∃ p, Program.parse "var a;a;" = .ok p ∧ p.annotate.definitionOf? 2 = some 0 := by
  have hbody := parse_use
  cases hparse : Program.parse "var a;a;" with
  | error e =>
    rw [hparse] at hbody
    cases hbody
  | ok p =>
    rw [hparse] at hbody
    have hbody : p.body = _ := Option.some.inj hbody
    have huse : p.Located [.stmt (.evaluate ⟨3, ⟨6, 8⟩⟩ (.name ⟨⟨2, ⟨6, 7⟩⟩, "a", .variable⟩))]
        (.ofName ⟨⟨2, ⟨6, 7⟩⟩, "a", .variable⟩) := by
      refine Program.Located.child ⟨_, ?_, .root⟩ List.mem_cons_self
      rw [hbody]
      exact List.mem_cons_of_mem _ List.mem_cons_self
    have hdeclare : p.Contains
        (.stmt (.declare ⟨1, ⟨0, 6⟩⟩ ⟨⟨0, ⟨4, 5⟩⟩, "a", .variable⟩ none)) := by
      apply Program.Contains.top
      rw [hbody]
      exact List.mem_cons_self
    have hbindings : p.bindingsOf none = [⟨⟨0, ⟨4, 5⟩⟩, "a", .variable⟩] := by
      rw [Program.bindingsOf, hbody]
      rfl
    have hinner : p.FirstBinding none "a" ⟨⟨0, ⟨4, 5⟩⟩, "a", .variable⟩ := by
      refine ⟨hbindings ▸ List.mem_cons_self, rfl, fun c hc _ => ?_⟩
      rw [hbindings, List.mem_singleton] at hc
      rw [hc]
    refine ⟨p, rfl, (((Program.definitions_are_lexical hparse).2.1 _ _ huse rfl).1 0).2
      ⟨_, .inForce ?_ ⟨[], [], rfl, ?_, List.forall_mem_nil _⟩ hinner, rfl⟩⟩
    · intro n hn
      cases hn
      exact List.not_mem_nil
    · exact ⟨_, hinner.mem, rfl, .inr ⟨_, _, hdeclare, Nat.le_refl 6⟩⟩

end LWorkbench
