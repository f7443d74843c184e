import LWorkbench.Proofs.Environments.Finding
import LWorkbench.Proofs.Environments.Tables

/-!
# Histories of shared scopes

Whoever has an environment can make longer chains from it, step back to its parent, and change the
scopes that it runs through. A scope may stand in many chains, and more than once in the same chain.
Whatever is done in whatever order, every scope stays what its table keeps: the index of the table
fits the entries, and the entries stand in the order in which their identifiers have first been
declared.

## Main definitions

* `Sharing` — a store with all chains made so far, and a table for every scope
* `Operation` — what can be done with environments and scopes
* `Sharing.perform`, `Sharing.run` — doing it, once and many times
* `Sharing.Sound` — the tables keep the scopes of the store

## Main results

* `Sharing.Sound.perform` — no operation lets a table and its scope drift apart
* `Sharing.sound_run` — so they never do
* `Sharing.chains_share_tables` — what is found through chains after any history, and what an
  assignment changes
-/

namespace LWorkbench

variable {α : Type}

/-- A store with the chains that have been made, the table of each scope, and the declarations in
the order in which they have been made. -/
structure Sharing (α : Type) where
  store : Store α
  tables : Array (Table α)
  environments : List Environment
  declared : List (ScopeId × String)

/-- What can be done with environments and scopes, which are given by their numbers. -/
inductive Operation (α : Type) where
  | makeScope (kind : ScopeKind)
  | root
  | single (scope : ScopeId)
  | extend (env : Nat) (kind : ScopeKind)
  | push (env : Nat) (scope : ScopeId)
  | parent (env : Nat)
  | declare (env : Nat) (name : String) (value : α)
  | declareIn (scope : ScopeId) (name : String) (value : α)
  | set (scope : ScopeId) (name : String) (value : α)
  | assign (env : Nat) (name : String) (value : α)

theorem Environment.scopeIds_of_parent? {env outer : Environment} (h : env.parent? = some outer) :
    env.scopeIds = env.scopeId :: outer.scopeIds := by
  unfold parent? at h
  split at h
  · rename_i link links houter
    cases h
    rw [scopeIds, Environment.links, houter]
    rfl
  · cases h

/-! ### Changing what is bound -/

theorem Scope.set?_of_contains {s : Scope α} {name : String} {value : α}
    (h : s.contains name = true) : s.set? name value = some (s.declare name value) := by
  rw [set?, declare, if_pos h, if_pos h]

theorem Scope.names_getD_set? {s : Scope α} {name : String} {value : α} :
    ((s.set? name value).getD s).names = s.names := by
  rw [set?]
  split
  · exact names_replace s.entries
  · rfl

theorem Store.scopes_getD_setIn? (store : Store α) (id : ScopeId) (name : String) (value : α) :
    ((store.setIn? id name value).getD store).scopes = store.scopes.setIfInBounds id
      (((store.scope id).set? name value).getD (store.scope id)) := by
  rw [setIn?]
  cases (store.scope id).set? name value with
  | some s => rfl
  | none =>
    refine Array.ext_getElem? fun i => ?_
    rw [Array.getElem?_setIfInBounds]
    split
    · rename_i hi
      subst hi
      split
      · rename_i hid
        simp [scope, Array.getElem?_eq_getElem hid]
      · rename_i hid
        simp [Array.getElem?_eq_none (Nat.le_of_not_lt hid)]
    · rfl

namespace Sharing

variable {w : Sharing α} {id : ScopeId} {t : Table α} {kind : ScopeKind}

/-- Before anything has been made. -/
def start : Sharing α := ⟨.empty, #[], [], []⟩

/-- The identifiers that have been declared in a scope, in the order of their first declaration. -/
def declaredIn (declared : List (ScopeId × String)) (id : ScopeId) : List String :=
  ((declared.filter (·.1 == id)).map (·.2)).eraseDups

theorem declaredIn_append (declared : List (ScopeId × String)) (id : ScopeId) (name : String) :
    declaredIn (declared ++ [(id, name)]) id =
      if name ∈ declaredIn declared id then declaredIn declared id
      else declaredIn declared id ++ [name] := by
  have hown : [(id, name)].filter (·.1 == id) = [(id, name)] := by simp
  rw [declaredIn, List.filter_append, hown, List.map_append, List.eraseDups_append, declaredIn]
  simp only [List.map_cons, List.map_nil, List.mem_eraseDups]
  split
  · rename_i hmem
    rw [List.removeAll, List.filter_cons_of_neg (by simpa using hmem)]
    exact List.append_nil _
  · rename_i hmem
    rw [List.removeAll, List.filter_cons_of_pos (by simpa using hmem)]
    rfl

theorem declaredIn_append_of_ne (declared : List (ScopeId × String)) {id other : ScopeId}
    (name : String) (h : other ≠ id) :
    declaredIn (declared ++ [(id, name)]) other = declaredIn declared other := by
  have hother : [(id, name)].filter (·.1 == other) = [] := by simp [h.symm]
  rw [declaredIn, List.filter_append, hother, List.append_nil, declaredIn]

/-! ### Operations -/

/-- Holds a chain that has been made. -/
def hold (w : Sharing α) (made : Environment × Store α) : Sharing α :=
  { w with store := made.2, environments := w.environments ++ [made.1] }

/-- Keeps a scope that has been made in a table. -/
def keep (w : Sharing α) (kind : ScopeKind) : Sharing α :=
  { w with tables := w.tables.push (.empty kind) }

/-- Changes a scope in the store and in its table, which answers. -/
def change (w : Sharing α) (id : ScopeId) (store : Store α) (declared : List (ScopeId × String))
    (f : Table α → Bool × Table α) : Bool × Sharing α :=
  match w.tables[id]? with
  | some t => ((f t).1, { w with store, declared, tables := w.tables.setIfInBounds id (f t).2 })
  | none => (false, w)

/-- Performs an operation and answers it. What needs an environment or a scope that there is not is
refused. -/
def perform (w : Sharing α) : Operation α → Bool × Sharing α
  | .makeScope kind => (true, { w with store := (w.store.makeScope kind).2 }.keep kind)
  | .root => (true, (w.hold w.store.root).keep .variable)
  | .single id =>
    if id < w.tables.size then (true, w.hold (w.store.makeLink id [])) else (false, w)
  | .extend n kind =>
    match w.environments[n]? with
    | some env => (true, (w.hold (w.store.extend env kind)).keep kind)
    | none => (false, w)
  | .push n id =>
    match w.environments[n]? with
    | some env => if id < w.tables.size then (true, w.hold (w.store.push env id)) else (false, w)
    | none => (false, w)
  | .parent n =>
    match w.environments[n]?.bind Environment.parent? with
    | some env => (true, w.hold (env, w.store))
    | none => (false, w)
  | .declare n name value =>
    match w.environments[n]? with
    | some env => w.change env.scopeId (w.store.declare env name value)
        (w.declared ++ [(env.scopeId, name)]) (·.declare name value)
    | none => (false, w)
  | .declareIn id name value =>
    w.change id (w.store.declareIn id name value) (w.declared ++ [(id, name)])
      (·.declare name value)
  | .set id name value =>
    w.change id ((w.store.setIn? id name value).getD w.store) w.declared (·.set name value)
  | .assign n name value =>
    match w.environments[n]? with
    | some env =>
      -- The scope is looked up by its depth, and its table is asked to change the value.
      match (w.store.resolveKind? env name .variable).bind (env.ancestor? ·.depth) with
      | some id => w.change id ((w.store.assign? env name value).getD w.store) w.declared
          (·.set name value)
      | none => (false, w)
    | none => (false, w)

/-- Performs operations one after another. -/
def run (ops : List (Operation α)) : Sharing α :=
  ops.foldl (fun w op => (w.perform op).2) start

/-! ### Tables and scopes -/

/-- Every scope is what its table keeps, its identifiers are those that have been declared in it,
and all chains run through scopes that have been made. -/
structure Sound (w : Sharing α) : Prop where
  scopes : w.store.scopes = w.tables.map Table.scope
  known : ∀ env ∈ w.environments, ∀ id ∈ env.scopeIds, id < w.tables.size
  names : ∀ id, (w.store.scope id).names = declaredIn w.declared id

namespace Sound

theorem scope_eq (h : w.Sound) (ht : w.tables[id]? = some t) : w.store.scope id = t.scope := by
  rw [Store.scope, h.scopes, Array.getElem?_map, ht]
  rfl

theorem start : (start : Sharing α).Sound where
  scopes := by simp [Sharing.start, Store.empty]
  known := nofun
  names _ := rfl

/-- A chain through known scopes can be held. -/
theorem hold (h : w.Sound) {made : Environment × Store α}
    (hscopes : made.2.scopes = w.store.scopes)
    (hknown : ∀ id ∈ made.1.scopeIds, id < w.tables.size) : (w.hold made).Sound where
  scopes := hscopes.trans h.scopes
  known := List.forall_mem_append.2 ⟨h.known, List.forall_mem_singleton.2 hknown⟩
  names id := by
    have hscope : made.2.scope id = w.store.scope id := by rw [Store.scope, hscopes, Store.scope]
    exact (congrArg Scope.names hscope).trans (h.names id)

/-- A new scope is kept in a new table, and it may be used in chains at once. -/
theorem keep (h : w.Sound) {store : Store α} {environments : List Environment}
    (hscopes : store.scopes = w.store.scopes.push (.empty kind))
    (hknown : ∀ env ∈ environments, ∀ id ∈ env.scopeIds, id < w.tables.size + 1) :
    ({ w with store, environments }.keep kind).Sound where
  scopes := by
    rw [Sharing.keep, Array.map_push, ← h.scopes, hscopes]
    rfl
  known env henv id hid := by
    rw [Sharing.keep, Array.size_push]
    exact hknown env henv id hid
  names id := by
    have hnames : (store.scope id).names = (w.store.scope id).names := by
      rw [Store.scope, hscopes, Array.getElem?_push]
      split
      -- A scope that there is not yet counts as an empty one.
      · rename_i hid
        rw [Store.scope, hid, Array.getElem?_eq_none (Nat.le_refl _)]
        rfl
      · rfl
    exact hnames.trans (h.names id)

/-- A scope and its table are changed alike, and what is newly declared is declared in this
scope. -/
theorem change (h : w.Sound) {store : Store α} {declared : List (ScopeId × String)}
    {f : Table α → Bool × Table α}
    (hothers : ∀ other ≠ id, declaredIn declared other = declaredIn w.declared other)
    (hchange : ∀ t, w.tables[id]? = some t →
      store.scopes = w.store.scopes.setIfInBounds id (f t).2.scope ∧
        (f t).2.scope.names = declaredIn declared id) :
    (w.change id store declared f).2.Sound := by
  unfold Sharing.change
  split
  · rename_i t ht
    obtain ⟨hscopes, hnames⟩ := hchange t ht
    have hid : id < w.store.scopes.size := by
      rw [h.scopes, Array.size_map]
      exact (Array.getElem?_eq_some_iff.1 ht).1
    refine ⟨?_, fun env henv scope hscope => ?_, fun scope => ?_⟩
    · rw [hscopes, h.scopes, Array.map_setIfInBounds]
    · rw [Array.size_setIfInBounds]
      exact h.known env henv scope hscope
    · by_cases hscope : scope = id
      · subst hscope
        rw [Store.scope, hscopes, Array.getElem?_setIfInBounds_self_of_lt hid]
        exact hnames
      · rw [Store.scope, hscopes, Array.getElem?_setIfInBounds_ne (Ne.symm hscope)]
        exact (h.names scope).trans (hothers scope hscope).symm
  · exact h

theorem declareIn (h : w.Sound) (id : ScopeId) (name : String) (value : α) :
    (w.change id (w.store.declareIn id name value) (w.declared ++ [(id, name)])
      (·.declare name value)).2.Sound := by
  refine h.change (fun other hother => declaredIn_append_of_ne _ _ hother) fun t ht => ⟨?_, ?_⟩
  · rw [(t.scope_declare name value).2, ← h.scope_eq ht]
    rfl
  · rw [(t.scope_declare name value).2, Scope.names_declare, declaredIn_append, ← h.scope_eq ht]
    simp only [Scope.contains_iff_mem_names, h.names]

theorem set (h : w.Sound) (id : ScopeId) (name : String) (value : α) :
    (w.change id ((w.store.setIn? id name value).getD w.store) w.declared
      (·.set name value)).2.Sound := by
  refine h.change (fun _ _ => rfl) fun t ht => ?_
  rw [(t.scope_set name value).2, ← h.scope_eq ht]
  exact ⟨Store.scopes_getD_setIn? .., Scope.names_getD_set?.trans (h.names id)⟩

/-- Assigning asks the table to change the value, and binds the identifier again in the store. Both
do the same, since the scope binds it. -/
theorem assign (h : w.Sound) {env : Environment} {name : String}
    (hid : w.store.variableScope? env name = some id) (value : α) :
    (w.change id ((w.store.assign? env name value).getD w.store) w.declared
      (·.set name value)).2.Sound := by
  obtain ⟨depth, hinnermost⟩ := Store.variableScope?_eq_some_iff.1 hid
  have hset : w.store.setIn? id name value = some (w.store.declareIn id name value) := by
    rw [Store.setIn?, Scope.set?_of_contains hinnermost.contains]
    rfl
  have hsame := h.set id name value
  rwa [hset, ← Store.assign?_of_variableScope? hid value] at hsame

/-- No operation lets a table and its scope drift apart. -/
theorem perform (h : w.Sound) (op : Operation α) : (w.perform op).2.Sound := by
  have hheld {n : Nat} {env : Environment} (henv : w.environments[n]? = some env) :
      ∀ id ∈ env.scopeIds, id < w.tables.size :=
    h.known env (List.mem_of_getElem? henv)
  have hlater (env : Environment) (henv : env ∈ w.environments) (id : ScopeId)
      (hid : id ∈ env.scopeIds) : id < w.tables.size + 1 :=
    Nat.lt_succ_of_lt (h.known env henv id hid)
  have hsize : w.store.scopes.size = w.tables.size := by rw [h.scopes, Array.size_map]
  -- An operation makes a table, keeps a chain, changes one table, or does nothing.
  cases op with
  | makeScope kind => exact h.keep rfl hlater
  | root =>
    refine h.keep rfl (List.forall_mem_append.2 ⟨hlater, List.forall_mem_singleton.2 ?_⟩)
    exact List.forall_mem_singleton.2 (hsize ▸ Nat.lt_succ_self _)
  | single id =>
    simp only [Sharing.perform]
    split
    · rename_i hid
      exact h.hold rfl (List.forall_mem_singleton.2 hid)
    · exact h
  | extend n kind =>
    simp only [Sharing.perform]
    split
    · rename_i env henv
      refine h.keep rfl (List.forall_mem_append.2 ⟨hlater, List.forall_mem_singleton.2 ?_⟩)
      rw [Store.scopeIds_extend, hsize]
      exact List.forall_mem_cons.2 ⟨Nat.lt_succ_self _, hlater env (List.mem_of_getElem? henv)⟩
    · exact h
  | push n id =>
    simp only [Sharing.perform]
    split
    · rename_i env henv
      split
      · rename_i hid
        exact h.hold rfl (List.forall_mem_cons.2 ⟨hid, hheld henv⟩)
      · exact h
    · exact h
  | parent n =>
    simp only [Sharing.perform]
    split
    · rename_i outer houter
      obtain ⟨env, henv, hparent⟩ := Option.bind_eq_some_iff.1 houter
      refine h.hold rfl fun id hid => hheld henv id ?_
      rw [env.scopeIds_of_parent? hparent]
      exact List.mem_cons_of_mem _ hid
    · exact h
  | declare n name value =>
    simp only [Sharing.perform]
    split
    · exact h.declareIn _ name value
    · exact h
  | declareIn id name value => exact h.declareIn id name value
  | set id name value => exact h.set id name value
  | assign n name value =>
    simp only [Sharing.perform, Store.ancestor?_of_resolveKind?]
    split
    · split
      · rename_i id hid
        exact h.assign hid value
      · exact h
    · exact h

end Sound

theorem sound_run (ops : List (Operation α)) : (run ops).Sound := by
  suffices hrun : ∀ w : Sharing α, w.Sound →
      (ops.foldl (fun w op => (w.perform op).2) w).Sound from hrun start .start
  induction ops with
  | nil => exact fun w h => h
  | cons op ops ih => exact fun w h => ih _ (h.perform op)

/-! ### Answers -/

variable {n : Nat} {env : Environment} {name : String} {value : α}

theorem perform_assign_of_none (henv : w.environments[n]? = some env)
    (hid : w.store.variableScope? env name = none) :
    w.perform (.assign n name value) = (false, w) := by
  simp only [Sharing.perform, henv, Store.ancestor?_of_resolveKind?, hid]

/-- The table of the scope where the variable is found knows the variable, so that the assignment is
answered with `true`. -/
theorem Sound.perform_assign_of_some (h : w.Sound) (henv : w.environments[n]? = some env)
    (hid : w.store.variableScope? env name = some id) (value : α) :
    ∃ t, w.tables[id]? = some t ∧ w.perform (.assign n name value) =
      (true, { w with
        store := w.store.declareIn id name value
        tables := w.tables.setIfInBounds id (t.set name value).2 }) := by
  obtain ⟨depth, hinnermost⟩ := Store.variableScope?_eq_some_iff.1 hid
  have hlt : id < w.tables.size := by
    have hlt := Store.lt_size_of_contains hinnermost.contains
    rwa [h.scopes, Array.size_map] at hlt
  have ht : w.tables[id]? = some w.tables[id] := Array.getElem?_eq_getElem hlt
  have hanswer : (w.tables[id].set name value).1 = true := by
    rw [(Table.scope_set ..).1, ← h.scope_eq ht]
    exact hinnermost.contains
  refine ⟨w.tables[id], ht, ?_⟩
  simp only [Sharing.perform, henv, Store.ancestor?_of_resolveKind?, hid, Sharing.change, ht,
    hanswer, Store.assign?_of_variableScope? hid value, Option.getD_some]

/-- After any history every scope is what its table keeps. The index of the table and the entries
are in bijection, no identifier has two entries, they stand in the order of their first declaration,
and whatever is asked of the table is answered as by its entries.

Along any chain the innermost scope of a kind that binds an identifier decides, and of both kinds
the shallower one.

An assignment succeeds exactly if the variable is found. Then it changes the value in the one scope
where it is found, which is seen by all chains that find the variable there, and nothing else. When
it fails it changes nothing. -/
theorem chains_share_tables (ops : List (Operation α)) :
    let w := run ops
    (w.tables.size = w.store.scopes.size ∧ ∀ id t, w.tables[id]? = some t →
      (∀ (name : String) (i : Nat),
        t.index[name]? = some i ↔ t.entries[i]?.map Prod.fst = some name) ∧
      t.scope.names.Nodup ∧ t.scope.names = declaredIn w.declared id ∧
      w.store.scope id = t.scope ∧ (w.store.scope id).size = t.size ∧
      ∀ name, (w.store.scope id).contains name = t.contains name ∧
        (w.store.scope id).get? name = t.get? name) ∧
    (∀ env name,
      (∀ kind value, w.store.lookupKind? env name kind = some value ↔ ∃ depth id,
        w.store.InnermostAt env name kind depth id ∧ (w.store.scope id).get? name = some value) ∧
      (∀ kind r, w.store.resolveKind? env name kind = some r ↔
        r.kind = kind ∧ ∃ id, w.store.InnermostAt env name kind r.depth id) ∧
      (∀ id, w.store.variableScope? env name = some id ↔
        ∃ depth, w.store.InnermostAt env name .variable depth id) ∧
      w.store.resolve? env name = Resolution.shallower (w.store.resolveKind? env name .variable)
        (w.store.resolveKind? env name .label)) ∧
    ∀ n env name value, w.environments[n]? = some env →
      let answered := w.perform (.assign n name value)
      (answered.1 = true ↔ (w.store.lookup? env name).isSome = true) ∧
      (answered.1 = false → answered.2 = w) ∧
      (answered.1 = true → w.store.assign? env name value = some answered.2.store ∧
        answered.2.environments = w.environments ∧
        ∃ id, w.store.variableScope? env name = some id ∧
          w.store.Assigned answered.2.store id name value ∧
          (∀ env', answered.2.store.lookup? env' name =
            if w.store.variableScope? env' name = some id then some value
            else w.store.lookup? env' name) ∧
          (∀ env' other kind, other ≠ name ∨ kind = .label →
            answered.2.store.lookupKind? env' other kind = w.store.lookupKind? env' other kind) ∧
          ∀ env' other, answered.2.store.resolve? env' other = w.store.resolve? env' other ∧
            ∀ kind, answered.2.store.resolveKind? env' other kind =
              w.store.resolveKind? env' other kind) := by
  intro w
  have h : w.Sound := sound_run ops
  refine ⟨⟨?_, fun id t ht => ?_⟩, fun env name => ?_, fun n env name value henv => ?_⟩
  · rw [h.scopes, Array.size_map]
  · rw [h.scope_eq ht]
    refine ⟨t.indexed, t.nodup_names, ?_, rfl, t.size_scope, fun name => ?_⟩
    · rw [← h.scope_eq ht, h.names]
    · exact ⟨t.contains_scope name, t.get?_scope name⟩
  · exact ⟨fun _ _ => Store.lookupKind?_eq_some_iff, fun _ _ => Store.resolveKind?_eq_some_iff,
      fun _ => Store.variableScope?_eq_some_iff, Store.resolve?_eq_shallower⟩
  · dsimp only
    rw [Store.isSome_lookup?]
    cases hid : w.store.variableScope? env name with
    | none =>
      rw [perform_assign_of_none henv hid]
      exact ⟨by simp, fun _ => rfl, nofun⟩
    | some id =>
      obtain ⟨t, -, hperform⟩ := h.perform_assign_of_some henv hid value
      -- The scope that is written is the one where the chain finds the variable.
      obtain ⟨depth, hinnermost⟩ := Store.variableScope?_eq_some_iff.1 hid
      have hassigned := Store.assigned_declareIn hinnermost.contains value
      rw [hperform]
      have hassign := Store.assign?_of_variableScope? hid value
      refine ⟨by simp, nofun, fun _ => ⟨hassign, rfl, id, rfl, hassigned, hassigned.lookup?_eq, ?_,
        fun env' other => ⟨hassigned.resolve?_eq env' other, hassigned.resolveKind?_eq env' other⟩⟩⟩
      intro env' other kind hother
      refine hassigned.lookupKind?_eq env' (hother.imp_right fun hlabel => ?_)
      rw [hinnermost.kind_eq, hlabel]
      exact nofun

/-- A variable is assigned through a chain in which its scope stands twice. All chains that find the
variable in that scope see the new value, one with a variable of its own keeps its value, and so do
all chains with a label of that name. -/
theorem chains_share_tables_assigned :
    let w : Sharing Nat := run [.root, .declare 0 "x" 1, .extend 0 .label, .declare 1 "x" 7,
      .push 1 0, .extend 0 .variable, .declare 3 "x" 5]
    let answered := w.perform (.assign 2 "x" 2)
    w.environments.map Environment.scopeIds = [[0], [1, 0], [0, 1, 0], [2, 0]] ∧
    answered.1 = true ∧ answered.2.environments = w.environments ∧
    w.environments.map (w.store.lookup? · "x") = [some 1, some 1, some 1, some 5] ∧
    w.environments.map (answered.2.store.lookup? · "x") = [some 2, some 2, some 2, some 5] ∧
    w.environments.map (answered.2.store.lookupKind? · "x" .label) =
      [none, some 7, some 7, none] := by
  intro w answered
  obtain ⟨env, henv, hscope, hbound⟩ : ∃ env, w.environments[2]? = some env ∧
      w.store.variableScope? env "x" = some 0 ∧ (w.store.lookup? env "x").isSome = true :=
    ⟨_, rfl, by decide, by decide⟩
  obtain ⟨hiff, -, hchanged⟩ := (chains_share_tables _).2.2 2 env "x" 2 henv
  have htrue : answered.1 = true := hiff.2 hbound
  obtain ⟨-, hkept, id, hid, -, hlookup, hothers, -⟩ := hchanged htrue
  obtain rfl : id = 0 := Option.some.inj (hid.symm.trans hscope)
  have hlookup : (answered.2.store.lookup? · "x") = _ := funext hlookup
  have hlabels : (answered.2.store.lookupKind? · "x" .label) = _ :=
    funext fun env' => hothers env' "x" .label (.inr rfl)
  refine ⟨by decide, htrue, hkept, by decide, ?_, ?_⟩
  · rw [hlookup]
    decide
  · rw [hlabels]
    decide

end Sharing

end LWorkbench
