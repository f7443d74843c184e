import LWorkbench.Proofs.Analysis.Pending

/-!
# Scopes and pending work in the course of analysis

Doing an item binds a name, opens a scope or leaves the scopes as they are, and each keeps scopes
and pending items together. So they are together at every moment of the course of analysis, and for
the same owners of scopes: a scope that has been opened for a node belongs to it for good.

## Main results

* `Store.Reads.bind` — binding a name adds it to the names of the nearest scope
* `Tracks.perform` — doing an item keeps scopes and pending items together
* `Program.exists_owners` — they stay together in the whole course of analysis
-/

namespace LWorkbench

variable {p : Program} {owner owner' : ScopeId → Option Node} {store store' : Store NodeId}
  {env : Environment} {items rest : List Work} {w : Work} {id : ScopeId} {size : Nat}
  {around : List Node} {n : Node} {x : Name} {a : Analysis}

/-! ### Binding names -/

theorem Store.nearest?_note (a : Analysis) (env : Environment) (definition : Option NodeId)
    (kind : ScopeKind) :
    (a.note x env definition).store.nearest? env kind = a.store.nearest? env kind := rfl

/-- A name whose identifier is bound already is one more name of the scope, and is never found. -/
theorem Store.Reads.append {done : List Name} (hreads : store.Reads id done)
    (hcontains : (store.scope id).contains x.identifier = true) :
    store.Reads id (done ++ [x]) := by
  refine ⟨hreads.kind, fun y => ?_⟩
  rw [hreads.get? y, List.find?_append]
  by_cases hy : x.identifier = y
  · have hsome := Scope.isSome_get? hcontains
    rw [hy, hreads.get? y, Option.isSome_map] at hsome
    rw [Option.or_of_isSome hsome]
  · simp [hy]

/-- A name whose identifier is not bound yet is found from now on. -/
theorem Store.Reads.declareIn {done : List Name} (hreads : store.Reads id done)
    (hid : id < store.scopes.size) (hcontains : (store.scope id).contains x.identifier = false) :
    (store.declareIn id x.identifier x.id).Reads id (done ++ [x]) := by
  have hself : (store.declareIn id x.identifier x.id).scope id =
      (store.scope id).declare x.identifier x.id := Store.scope_declareIn_self hid
  refine ⟨?_, fun y => ?_⟩
  · rw [hself, Scope.kind_declare, hreads.kind]
  · rw [hself, List.find?_append]
    by_cases hy : x.identifier = y
    · subst hy
      have hnone := (hreads.get? x.identifier).symm.trans (Scope.get?_eq_none hcontains)
      rw [Scope.get?_declare_self, Option.map_eq_none_iff.1 hnone]
      simp
    · rw [Scope.get?_declare_of_ne (Ne.symm hy), hreads.get? y]
      simp [hy]

/-- Binding a name adds it to the names of the nearest scope; of two names with the same identifier
the first one counts. -/
theorem Store.Reads.bind {done : List Name} (hreads : a.store.Reads id done)
    (hid : id < a.store.scopes.size) (hnearest : a.store.nearest? env x.kind = some id)
    (duplicate : String → Violation) :
    (a.bind x env duplicate).store.scopes.size = a.store.scopes.size ∧
      (a.bind x env duplicate).store.Reads id (done ++ [x]) ∧
      ∀ other, other ≠ id → (a.bind x env duplicate).store.scope other = a.store.scope other := by
  simp only [Analysis.bind, Store.nearest?_note, hnearest]
  split
  · rename_i hcontains
    exact ⟨rfl, hreads.append hcontains, fun _ _ => rfl⟩
  · rename_i hcontains
    exact ⟨Store.size_declareIn, hreads.declareIn hid (Bool.not_eq_true _ ▸ hcontains),
      fun _ => Store.scope_declareIn_of_ne⟩

/-- Binding names one after another. -/
theorem Store.Reads.bind_all {done params : List Name} (hreads : a.store.Reads id done)
    (hid : id < a.store.scopes.size)
    (hnearest : ∀ s : Store NodeId, s.scopes.size = a.store.scopes.size →
      (s.scope id).kind = .variable → s.nearest? env .variable = some id)
    (hkinds : ∀ x ∈ params, x.kind = .variable) (duplicate : String → Violation) :
    (params.foldl (fun a x => a.bind x env duplicate) a).store.scopes.size =
        a.store.scopes.size ∧
      (params.foldl (fun a x => a.bind x env duplicate) a).store.Reads id (done ++ params) ∧
      ∀ other, other ≠ id →
        (params.foldl (fun a x => a.bind x env duplicate) a).store.scope other =
          a.store.scope other := by
  induction params generalizing a done with
  | nil => exact ⟨rfl, by rwa [List.append_nil], fun _ _ => rfl⟩
  | cons x params ih =>
    obtain ⟨hx, hparams⟩ := List.forall_mem_cons.1 hkinds
    obtain ⟨hsize, hreads', hothers⟩ := hreads.bind hid
      (hx.symm ▸ hnearest a.store rfl hreads.kind) duplicate
    obtain ⟨hsize', hreads'', hothers'⟩ := ih hreads' (hsize.symm ▸ hid)
      (fun s hs => hnearest s (hs.trans hsize)) hparams
    refine ⟨hsize'.trans hsize, ?_, fun other hne => ?_⟩
    · rwa [List.append_assoc] at hreads''
    · rw [List.foldl_cons, hothers' other hne, hothers other hne]

namespace Tracks

/-- The kind of a scope is told by its owner. -/
theorem kind_eq (h : Tracks p owner store items) (hid : id < store.scopes.size) :
    ((store.scope id).kind == .variable) = !OfLabel owner id := by
  cases hlabel : OfLabel owner id with
  | false =>
    obtain ⟨done, -, hreads, -⟩ := (h.scopes id hid).bound hlabel
    rw [hreads.kind]
    rfl
  | true =>
    obtain ⟨n, howner, hn⟩ := (Option.any_eq_true _ _).1 hlabel
    unfold Node.isLabeled at hn
    split at hn
    · rw [(h.scopes id hid).label _ _ _ howner]
      rfl
    · cases hn

theorem nearest?_eq_home? (h : Tracks p owner store items)
    (hknown : ∀ id ∈ env.scopeIds, id < store.scopes.size) :
    store.nearest? env .variable = env.scopeIds.find? fun id => !OfLabel owner id := by
  rw [Store.nearest?_eq]
  exact List.find?_congr fun id hid => h.kind_eq (hknown id hid)

end Tracks

/-- Every chain has a scope for variables. -/
theorem Environment.Runs.exists_home (h : env.Runs owner size around) :
    ∃ id, env.scopeIds.find? (fun id => !OfLabel owner id) = some id := by
  rw [← Option.isSome_iff_exists, List.find?_isSome]
  have hroot : none ∈ env.scopeIds.map owner := by
    rw [h.owners]
    exact List.mem_append_right _ List.mem_cons_self
  obtain ⟨id, hid, howner⟩ := List.mem_map.1 hroot
  exact ⟨id, hid, by rw [OfLabel, howner]; rfl⟩

namespace Tracked

theorem owned_tail (h : Tracked p owner store (w :: rest) id) (hn : owner id = some n) :
    p.Contains n ∧ n.opens = true ∧ n ∉ rest.flatMap Work.nodes := by
  obtain ⟨hcontains, hopens, hnotMem⟩ := h.owned n hn
  rw [List.flatMap_cons, List.mem_append, not_or] at hnotMem
  exact ⟨hcontains, hopens, hnotMem.2⟩

/-- A scope stays tracked when an item is done that binds nothing in it. -/
theorem tail (h : Tracked p owner store (w :: rest) id) (hhome : home? owner w ≠ some id)
    (hscope : store'.scope id = store.scope id) : Tracked p owner store' rest id := by
  refine ⟨fun _ => h.owned_tail, fun site label body howner => ?_, fun hlabel => ?_⟩
  · rw [hscope]
    exact h.label site label body howner
  · obtain ⟨done, hsplit, hreads, hforce⟩ := h.bound hlabel
    refine ⟨done, ?_, ⟨hscope ▸ hreads.kind, hscope ▸ hreads.get?⟩, fun w hw => ?_⟩
    · rw [hsplit, pendingIn_cons, if_neg hhome, List.nil_append]
    · exact hforce w (List.mem_cons_of_mem _ hw)

/-- In the scope that it is declared in a variable is done, and no longer pending. -/
theorem declare (hp : p.Formed) (h : Tracked p owner store (.declare x env :: rest) id)
    {site : Site} {init : Option Expr} (hdeclare : p.Contains (.stmt (.declare site x init)))
    (hhome : home? owner (.declare x env) = some id) (hvariable : OfLabel owner id = false)
    (hreads : ∀ done, store.Reads id done → store'.Reads id (done ++ [x]))
    (hbefore : ∀ w ∈ rest, Before p owner (.declare x env) w) : Tracked p owner store' rest id := by
  refine ⟨fun _ => h.owned_tail, fun site label body howner => ?_, fun _ => ?_⟩
  · rw [OfLabel, howner] at hvariable
    cases hvariable
  · obtain ⟨done, hsplit, hdone, hforce⟩ := h.bound hvariable
    refine ⟨done ++ [x], ?_, hreads done hdone, fun w hw hmem b hb => ?_⟩
    · rw [hsplit, pendingIn_cons, if_pos hhome, List.append_assoc]
      rfl
    · rcases List.mem_append.1 hb with hb | hb
      · exact hforce w (List.mem_cons_of_mem _ hw) hmem b hb
      -- The items behind the declaration come after its end in the text.
      · obtain rfl := List.mem_singleton.1 hb
        have hend := (hbefore w hw).done b List.mem_cons_self id hmem hhome
        rw [hp.declarationEnd_eq hdeclare] at hend
        exact .inr ⟨site, init, hdeclare, hend⟩

end Tracked

/-- Declaring a variable: it is done, and no longer pending. -/
theorem Tracks.declare (hp : p.Formed) (h : Tracks p owner a.store (.declare x env :: rest)) :
    (a.bind x env .duplicateDeclaration).store.scopes.size = a.store.scopes.size ∧
      Tracks p owner (a.bind x env .duplicateDeclaration).store rest := by
  obtain ⟨site, init, around, hlocated, hruns⟩ := h.places _ List.mem_cons_self
  -- The variable goes to the innermost scope that is not one of a label.
  obtain ⟨here, hhere⟩ := hruns.exists_home
  have hkind : x.kind = .variable := hp.kinds _ hlocated.contains
  have hlt : here < a.store.scopes.size := hruns.known _ (List.mem_of_find?_eq_some hhere)
  have hnearest : a.store.nearest? env x.kind = some here := by
    rw [hkind, h.nearest?_eq_home? hruns.known, hhere]
  have hvariable : OfLabel owner here = false := by simpa using List.find?_some hhere
  have hbind := fun done (hreads : a.store.Reads here done) =>
    hreads.bind hlt hnearest .duplicateDeclaration
  obtain ⟨done, -, hreads, -⟩ := (h.scopes here hlt).bound hvariable
  obtain ⟨hsize, -, hothers⟩ := hbind done hreads
  obtain ⟨hfirst, horder⟩ := List.pairwise_cons.1 h.order
  have hhome : home? owner (.declare x env) = some here := hhere
  refine ⟨hsize, fun id hid => ?_, fun w hw => ?_, horder, fun id hid id' hid' => ?_⟩
  · rw [hsize] at hid
    by_cases hne : id = here
    · subst hne
      exact (h.scopes id hid).declare hp hlocated.contains hhome hvariable
        (fun done hreads => (hbind done hreads).2.1) hfirst
    · refine (h.scopes id hid).tail ?_ (hothers id hne)
      rw [hhome]
      exact fun heq => hne (Option.some.inj heq).symm
  · rw [hsize]
    exact h.places w (List.mem_cons_of_mem _ hw)
  · rw [hsize] at hid hid'
    exact h.injective id hid id' hid'

/-- An item that binds nothing and changes no scope. -/
theorem Tracks.drop (h : Tracks p owner store (w :: rest)) (hbinds : w.binds = []) :
    Tracks p owner store rest := by
  have hu : Unfolds p owner owner store.scopes.size store.scopes.size w [] := by
    refine ⟨fun _ _ => rfl, Nat.le_refl _, List.forall_mem_nil _, List.nil_subset _,
      List.forall_mem_nil _, List.forall_mem_nil _, fun id _ => ?_, .nil⟩
    rw [hbinds, ite_self]
    rfl
  exact h.unfold hu (fun _ _ => rfl) fun id hle hlt => absurd hlt (Nat.not_lt.2 hle)

/-- Only the owners of scopes that are there matter. -/
theorem Tracks.congr (h : Tracks p owner store (w :: rest))
    (howner : ∀ id < store.scopes.size, owner' id = owner id) :
    Tracks p owner' store (w :: rest) := by
  have hplaced := h.places w List.mem_cons_self
  have hhome : home? owner' w = home? owner w :=
    home?_congr fun id hid => howner id (hplaced.known id hid)
  have hu : Unfolds p owner owner' store.scopes.size store.scopes.size w [w] := by
    refine ⟨howner, Nat.le_refl _, ?_, ?_, ?_, ?_, fun id _ => ?_, List.pairwise_singleton _ _⟩
    · exact List.forall_mem_singleton.2 (hplaced.congr howner (Nat.le_refl _))
    · rw [List.flatMap_singleton]
      exact List.Subset.refl _
    · exact List.forall_mem_singleton.2 (Nat.le_refl _)
    · exact List.forall_mem_singleton.2 fun id hid _ => ⟨hid, Nat.le_refl _⟩
    · rw [pendingIn_cons, hhome]
      exact List.append_nil _
  exact h.unfold hu (fun _ _ => rfl) fun id hle hlt => absurd hlt (Nat.not_lt.2 hle)

/-- The nearest scope of a chain that begins with a scope for variables is that scope. -/
theorem Store.nearest?_of_front {inner : Environment} (h : inner.scopeIds = id :: env.scopeIds)
    (hkind : (store.scope id).kind = .variable) : store.nearest? inner .variable = some id := by
  rw [Store.nearest?_eq, h, List.find?_cons, hkind]
  rfl

theorem Store.reads_extend (store : Store NodeId) (env : Environment) :
    (store.extend env .variable).2.Reads store.scopes.size [] := by
  refine ⟨?_, fun x => ?_⟩
  · rw [Store.scope_extend_self]
    rfl
  · rw [Store.scope_extend_self]
    rfl

/-- The item opens a scope for the node that it walks, if the node has one of its own. -/
def Opened (p : Program) (owner : ScopeId → Option Node) (a : Analysis) (w : Work) : Prop :=
  ∀ env n, w = Analysis.walk env n → n.opens = true →
    owner a.store.scopes.size = some n ∧
      a.store.scopes.size < (a.perform p w).1.store.scopes.size

/-- The state after an item goes together with what the item calls for and the other items. -/
def Tracks.Next (p : Program) (owner : ScopeId → Option Node) (a : Analysis) (w : Work)
    (rest : List Work) : Prop :=
  ∃ owner', Opened p owner' a w ∧ (∀ id < a.store.scopes.size, owner' id = owner id) ∧
    a.store.scopes.size ≤ (a.perform p w).1.store.scopes.size ∧
    Tracks p owner' (a.perform p w).1.store ((a.perform p w).2 ++ rest)

theorem Analysis.walk_injective {env' : Environment} {n' : Node}
    (h : walk env n = walk env' n') : env = env' ∧ n = n' := by
  cases n <;> cases n' <;> cases h <;> exact ⟨rfl, rfl⟩

theorem Opened.of_walk (howner : owner a.store.scopes.size = some n)
    (hsize : a.store.scopes.size < (a.perform p (Analysis.walk env n)).1.store.scopes.size) :
    Opened p owner a (Analysis.walk env n) := by
  intro env' n' heq _
  obtain ⟨rfl, rfl⟩ := Analysis.walk_injective heq
  exact ⟨howner, hsize⟩

theorem Opened.of_not_opens (hn : n.opens = false) :
    Opened p owner a (Analysis.walk env n) := by
  intro env' n' heq hopens
  obtain ⟨rfl, rfl⟩ := Analysis.walk_injective heq
  rw [hn] at hopens
  cases hopens

theorem Opened.of_not_walk (hw : ∀ env n, w ≠ Analysis.walk env n) : Opened p owner a w :=
  fun env n heq => absurd heq (hw env n)

namespace Tracks

theorem perform_block (hp : p.Formed) (hl : p.LaidOut) {site : Site} {body : List Stmt}
    (h : Tracks p owner a.store (Analysis.walk env (.stmt (.block site body)) :: rest))
    (hd : Analysis.Distinct (Analysis.walk env (.stmt (.block site body)) :: rest)) :
    Next p owner a (Analysis.walk env (.stmt (.block site body))) rest := by
  have hbindings : (Node.stmt (.block site body)).bindings? =
      some ([] ++ (Node.stmt (.block site body)).walked.flatMap Node.vars) := by
    simp [Node.bindings?, Node.walked, Node.children, List.flatMap_map, Node.vars]
  have hsize : (a.store.extend env .variable).2.scopes.size = a.store.scopes.size + 1 :=
    Array.size_push _
  have hlt : a.store.scopes.size < (a.store.extend env .variable).2.scopes.size :=
    Store.size_lt_extend
  obtain ⟨owner', hnew, hagrees, htracks⟩ := h.walk_scope (a := a) hp hl hbindings rfl hd
    Store.scopeIds_extend hsize (fun id hid => Store.scope_extend_of_lt hid)
    (Store.reads_extend a.store env) (List.forall_mem_nil _)
  refine ⟨owner', .of_walk hnew hlt, hagrees, Nat.le_of_lt hlt, ?_⟩
  rw [Analysis.items_walk]
  exact htracks

theorem perform_function (hp : p.Formed) (hl : p.LaidOut) {site : Site} {params : List Name}
    {body : List Stmt}
    (h : Tracks p owner a.store (Analysis.walk env (.expr (.function site params body)) :: rest))
    (hd : Analysis.Distinct (Analysis.walk env (.expr (.function site params body)) :: rest)) :
    Next p owner a (Analysis.walk env (.expr (.function site params body))) rest := by
  obtain ⟨around, hlocated, -⟩ := Work.placed_walk.1 (h.places _ List.mem_cons_self)
  have hcontains := hlocated.contains
  have hbindings : (Node.expr (.function site params body)).bindings? =
      some (params ++ (Node.expr (.function site params body)).walked.flatMap Node.vars) := by
    simp [Node.bindings?, Node.walked, List.flatMap_map, Node.vars]
  have hsize : (a.store.extend env .variable).2.scopes.size = a.store.scopes.size + 1 :=
    Array.size_push _
  have hlt : a.store.scopes.size < (a.store.extend env .variable).2.scopes.size :=
    Store.size_lt_extend
  -- The parameters are bound one after another in the new scope.
  obtain ⟨hsize', hreads, hothers⟩ :=
    (Store.reads_extend a.store env).bind_all (a := { a with
        store := (a.store.extend env .variable).2 }) hlt
      (fun s _ hkind => Store.nearest?_of_front Store.scopeIds_extend hkind)
      (hp.kinds _ hcontains) .duplicateParameter
  have hscope : ∀ id < a.store.scopes.size, (params.foldl (fun b x =>
      b.bind x (a.store.extend env .variable).1 .duplicateParameter)
      ({ a with store := (a.store.extend env .variable).2 } : Analysis)).store.scope id =
        a.store.scope id := by
    intro id hid
    have hextend : (a.store.extend env .variable).2.scope id = a.store.scope id :=
      Store.scope_extend_of_lt hid
    rw [← hextend]
    exact hothers id (Nat.ne_of_lt hid)
  obtain ⟨owner', hnew, hagrees, htracks⟩ := h.walk_scope (a := a) hp hl hbindings rfl hd
    Store.scopeIds_extend (hsize'.trans hsize) hscope hreads
    fun b hb => .inl ⟨site, params, body, hcontains, hb⟩
  have hlt' : a.store.scopes.size <
      (a.perform p (Analysis.walk env (.expr (.function site params body)))).1.store.scopes.size :=
    hsize'.symm ▸ hlt
  refine ⟨owner', .of_walk hnew hlt', hagrees, Nat.le_of_lt hlt', ?_⟩
  rw [Analysis.items_walk]
  exact htracks

theorem perform_labeled (hp : p.Formed) (hl : p.LaidOut) {site : Site} {label : Name} {body : Stmt}
    (h : Tracks p owner a.store (Analysis.walk env (.stmt (.labeled site label body)) :: rest))
    (hd : Analysis.Distinct (Analysis.walk env (.stmt (.labeled site label body)) :: rest)) :
    Next p owner a (Analysis.walk env (.stmt (.labeled site label body))) rest := by
  obtain ⟨around, hlocated, -⟩ := Work.placed_walk.1 (h.places _ List.mem_cons_self)
  have hstore : (a.perform p (Analysis.walk env (.stmt (.labeled site label body)))).1.store =
      (a.store.extend env .label).2.declareIn a.store.scopes.size label.identifier label.id :=
    congrArg Analysis.store
      (Analysis.bind_label (hp.kinds _ hlocated.contains) a env .duplicateLabel)
  have hsize : ((a.store.extend env .label).2.declareIn a.store.scopes.size label.identifier
      label.id).scopes.size = a.store.scopes.size + 1 :=
    Store.size_declareIn.trans (Array.size_push _)
  have hscope : ∀ id < a.store.scopes.size, ((a.store.extend env .label).2.declareIn
      a.store.scopes.size label.identifier label.id).scope id = a.store.scope id := by
    intro id hid
    rw [Store.scope_declareIn_of_ne (Nat.ne_of_lt hid), Store.scope_extend_of_lt hid]
  have hlabel : ((a.store.extend env .label).2.declareIn a.store.scopes.size label.identifier
      label.id).scope a.store.scopes.size = ⟨.label, [(label.identifier, label.id)]⟩ := by
    rw [Store.scope_declareIn_self Store.size_lt_extend, Store.scope_extend_self]
    rfl
  -- The new scope belongs to the statement from now on.
  obtain ⟨owner', hnew, hagrees, htracks⟩ :=
    h.walk_labeled hp hl a hd Store.scopeIds_extend hsize hscope hlabel
  have hlt : a.store.scopes.size <
      (a.perform p (Analysis.walk env (.stmt (.labeled site label body)))).1.store.scopes.size := by
    rw [hstore, hsize]
    exact Nat.lt_succ_self _
  refine ⟨owner', .of_walk hnew hlt, hagrees, Nat.le_of_lt hlt, ?_⟩
  rw [hstore, Analysis.items_walk]
  exact htracks

/-- Doing an item keeps scopes and pending items together. -/
theorem perform (hp : p.Formed) (hl : p.LaidOut) (h : Tracks p owner a.store (w :: rest))
    (hd : Analysis.Distinct (w :: rest)) : Next p owner a w rest := by
  -- Only blocks, labeled statements and functions open scopes. No other node changes the store.
  have hplain : ∀ env n, n.opens = false → w = Analysis.walk env n → Next p owner a w rest := by
    rintro env n hn rfl
    obtain ⟨hstore, hinner⟩ := store_perform p a env hn
    rw [Next, hstore, Analysis.items_walk, hinner]
    exact ⟨owner, .of_not_opens hn, fun _ _ => rfl, Nat.le_refl _, h.walk_plain hp hl hn⟩
  cases w with
  | stmt s env =>
    cases s with
    | block => exact h.perform_block hp hl hd
    | labeled => exact h.perform_labeled hp hl hd
    | _ => exact hplain env (.stmt _) rfl rfl
  | expr e env =>
    cases e with
    | function => exact h.perform_function hp hl hd
    | _ => exact hplain env (.expr _) rfl rfl
  | declare x env =>
    obtain ⟨hsize, htracks⟩ := h.declare hp
    refine ⟨owner, .of_not_walk ?_, fun _ _ => rfl, Nat.le_of_eq hsize.symm, htracks⟩
    intro env n
    cases n <;> exact Work.noConfusion
  | reference | leaveLoop | leaveFunction =>
    refine ⟨owner, .of_not_walk ?_, fun _ _ => rfl, Nat.le_refl _, h.drop rfl⟩
    intro env n
    cases n <;> exact Work.noConfusion

end Tracks

/-! ### The whole course -/

theorem Analysis.Leads.of_nil {b : Analysis} (h : Leads p a [] b items) : b = a ∧ items = [] := by
  induction h with
  | refl => exact ⟨rfl, rfl⟩
  | step _ ih => cases ih.2

/-- Scopes and pending items stay together in the whole course, for the same owners of scopes. -/
theorem Tracks.course (hp : p.Formed) (hl : p.LaidOut) (h : Tracks p owner a.store items)
    (hd : Analysis.Distinct items) : ∃ owner', (∀ id < a.store.scopes.size, owner' id = owner id) ∧
      ∀ b items', Analysis.Leads p a items b items' → Tracks p owner' b.store items' ∧
        ∀ w ∈ items'.head?, Opened p owner' b w := by
  fun_induction Analysis.drain p a items generalizing owner with
  | case1 a =>
    refine ⟨owner, fun _ _ => rfl, fun b items' hleads => ?_⟩
    obtain ⟨rfl, rfl⟩ := hleads.of_nil
    exact ⟨h, by simp⟩
  | case2 a w rest ih =>
    -- The owners that the rest of the course needs agree with those of the scopes there are now.
    obtain ⟨owner', hopened, hagrees, hgrows, hnext⟩ := h.perform hp hl hd
    have hd' : Analysis.Distinct ((a.perform p w).2 ++ rest) :=
      (Analysis.Leads.step .refl).distinct hd
    obtain ⟨owner'', hagrees', hcourse⟩ := ih hnext hd'
    have hboth : ∀ id < a.store.scopes.size, owner'' id = owner id := fun id hid =>
      (hagrees' id (Nat.lt_of_lt_of_le hid hgrows)).trans (hagrees id hid)
    refine ⟨owner'', hboth, fun b items' hleads => ?_⟩
    rcases hleads.cons_cases with ⟨rfl, rfl⟩ | hleads
    · refine ⟨h.congr hboth, fun v hv env n heq hn => ?_⟩
      obtain rfl := Option.some.inj hv
      obtain ⟨hnew, hlt⟩ := hopened env n heq hn
      exact ⟨(hagrees' _ hlt).trans hnew, hlt⟩
    · exact hcourse b items' hleads

/-- At the beginning there is one scope, with nothing done. -/
theorem tracks_start (hp : p.Formed) (hl : p.LaidOut) :
    Tracks p (fun _ => none) (Analysis.start p).store p.items := by
  have hruns : Analysis.rootChain.Runs (fun _ => none) 1 [] :=
    ⟨rfl, List.forall_mem_singleton.2 Nat.zero_lt_one⟩
  have hroots : ∀ c ∈ Program.roots p.body, p.Located [] c := by
    intro c hc
    obtain ⟨s, hs, rfl⟩ := List.mem_map.1 hc
    exact ⟨s, hs, .root⟩
  refine ⟨fun id hid => ⟨nofun, nofun, fun _ => ⟨[], ?_, ⟨?_, fun x => ?_⟩, ?_⟩⟩, ?_, ?_, ?_⟩
  · obtain rfl : id = 0 := Nat.lt_one_iff.1 hid
    rw [Program.items, pendingIn_eq (some 0), binds_walks, if_pos rfl]
    · exact (Analysis.flatMap_vars_stmt p.body).symm
    · intro w hw
      obtain ⟨c, -, rfl⟩ := List.mem_map.1 hw
      rw [home?_walk]
      exact .inl rfl
  · obtain rfl : id = 0 := Nat.lt_one_iff.1 hid
    rfl
  · obtain rfl : id = 0 := Nat.lt_one_iff.1 hid
    rfl
  · intro _ _ _ b hb
    cases hb
  · intro w hw
    obtain ⟨c, hc, rfl⟩ := List.mem_map.1 hw
    exact Work.placed_walk.2 ⟨[], hroots c hc, hruns⟩
  · refine before_walks hp hl (fun c hc => (hroots c hc).contains) ?_
    exact List.pairwise_map.2 hl.apart
  · intro id hid id' hid' _
    exact (Nat.lt_one_iff.1 hid).trans (Nat.lt_one_iff.1 hid').symm

/-- In the whole course of analysis scopes and pending items go together, and every scope belongs to
the node for which it is opened. -/
def Program.Owners (p : Program) (owner : ScopeId → Option Node) : Prop :=
  ∀ b items, Analysis.Leads p (Analysis.start p) p.items b items → Tracks p owner b.store items ∧
    ∀ w ∈ items.head?, Opened p owner b w

theorem Program.exists_owners (hp : p.Formed) (hl : p.LaidOut) : ∃ owner, p.Owners owner := by
  obtain ⟨owner, -, hcourse⟩ := (tracks_start hp hl).course hp hl hp.distinct_items
  exact ⟨owner, hcourse⟩

namespace Program.Owners

variable {b : Analysis}

theorem size_le (hp : p.Formed) (hl : p.LaidOut) (ho : p.Owners owner)
    (h : Analysis.Leads p (Analysis.start p) p.items a items)
    (h' : Analysis.Leads p a items b rest) : a.store.scopes.size ≤ b.store.scopes.size := by
  induction h' with
  | refl => exact Nat.le_refl _
  | @step b w rest h' ih =>
    have hleads := h.trans h'
    obtain ⟨-, -, -, hgrows, -⟩ :=
      (ho b _ hleads).1.perform hp hl (hleads.distinct hp.distinct_items)
    exact Nat.le_trans ih hgrows

/-- An item that walks a node stands at the place of the node. -/
theorem runs (hp : p.Formed) (ho : p.Owners owner) (hn : p.Located around n)
    (h : Analysis.Leads p (Analysis.start p) p.items b (Analysis.walk env n :: rest)) :
    env.Runs owner b.store.scopes.size around := by
  obtain ⟨outer, hlocated, hruns⟩ := Work.placed_walk.1 ((ho b _ h).1.places _ List.mem_cons_self)
  rwa [hlocated.unique hp hn] at hruns

/-- Inside a node with a scope of its own the chain is longer by that scope. -/
theorem runs_inner (hp : p.Formed) (ho : p.Owners owner) (hn : p.Located around n)
    (h : Analysis.Leads p (Analysis.start p) p.items b (Analysis.walk env n :: rest))
    (hopens : n.opens = true) (hinner : (b.inner env n).scopeIds = b.store.scopes.size ::
      env.scopeIds) : (b.inner env n).Runs owner
        (b.perform p (Analysis.walk env n)).1.store.scopes.size (n :: around) := by
  have hruns := ho.runs hp hn h
  obtain ⟨hnew, hlt⟩ := (ho b _ h).2 _ rfl env n rfl hopens
  refine ⟨?_, ?_⟩
  · rw [hinner, List.map_cons, hnew, Node.openers_cons_of_opens hopens, hruns.owners]
  · rw [hinner]
    exact List.forall_mem_cons.2 ⟨hlt, fun id hid => Nat.lt_trans (hruns.known id hid) hlt⟩

end Program.Owners

end LWorkbench
