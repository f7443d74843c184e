import LWorkbench.Proofs.Store

/-!
# Finding and assigning along a chain

Variables and labels are looked up in scopes of their own kind only, as if the scopes of the other
kind were not there. The innermost scope that binds an identifier decides, and where it is, is told
by its depth. Without a kind the shallower of both scopes is found.

Assigning to a variable changes its value in the scope where it is found, and no scope anywhere
binds anything else than before. So everything is found where it was, through all chains, and the
new value is found by those that find the variable in this scope.

## Main definitions

* `Store.InnermostAt` — the innermost scope of a kind that binds an identifier
* `Resolution.shallower` — the nearer of two places
* `Store.Assigned` — one identifier of one scope has got a new value

## Main results

* `Store.resolveKind?_eq_some_iff`, `Store.lookupKind?_eq_some_iff` — the innermost scope decides
* `Store.resolve?_eq_shallower` — finding an identifier of any kind
* `Store.assigned_declareIn` — binding what a scope binds changes one value
* `Store.Assigned.lookup?_eq` — what is found after an assignment
-/

namespace LWorkbench

/-- The nearer of two places, of which each may be missing. -/
def Resolution.shallower : Option Resolution → Option Resolution → Option Resolution
  | some r, some r' => if r'.depth < r.depth then some r' else some r
  | some r, none => some r
  | none, r' => r'

theorem Resolution.shallower_eq_left {r : Resolution} {o : Option Resolution}
    (h : ∀ r', o = some r' → r.depth < r'.depth) : shallower (some r) o = some r := by
  cases o with
  | none => rfl
  | some r' => exact if_neg (Nat.not_lt_of_lt (h r' rfl))

theorem Resolution.shallower_eq_right {r : Resolution} {o : Option Resolution}
    (h : ∀ r', o = some r' → r.depth < r'.depth) : shallower o (some r) = some r := by
  cases o with
  | none => rfl
  | some r' => exact if_pos (h r' rfl)

namespace Store

variable {α : Type} {store store' : Store α} {env : Environment} {kind : ScopeKind}
  {id : ScopeId} {name other : String} {value : α}

/-! ### The innermost scope -/

/-- At a depth of a chain there is a scope of a kind that binds an identifier, and further inside
there is none. -/
structure InnermostAt (store : Store α) (env : Environment) (name : String) (kind : ScopeKind)
    (depth : Nat) (id : ScopeId) : Prop where
  ancestor : env.ancestor? depth = some id
  kind_eq : (store.scope id).kind = kind
  contains : (store.scope id).contains name = true
  nearer : ∀ i < depth, ∀ inner, env.ancestor? i = some inner →
    ¬ ((store.scope inner).kind = kind ∧ (store.scope inner).contains name = true)

/-- A search through scopes stops at the first one that satisfies the condition. -/
theorem findFrom_eq_some_iff {accept : Scope α → Bool} {ids : List ScopeId} {start depth : Nat} :
    store.findFrom accept ids start = some (start + depth, id) ↔
      ids[depth]? = some id ∧ accept (store.scope id) = true ∧
        ∀ i < depth, ∀ inner, ids[i]? = some inner → accept (store.scope inner) = false := by
  induction ids generalizing start depth with
  | nil => simp [findFrom]
  | cons first ids ih =>
    rw [findFrom]
    cases hfirst : accept (store.scope first) with
    -- The first scope is accepted, so that nothing further out is found.
    | true =>
      cases depth with
      | zero =>
        simp only [if_true, Option.some.injEq, Prod.mk.injEq, Nat.add_zero, true_and,
          List.getElem?_cons_zero, Nat.not_lt_zero, false_implies, implies_true, and_true]
        exact ⟨fun h => ⟨h, h ▸ hfirst⟩, And.left⟩
      | succ depth =>
        refine iff_of_false (by simp) ?_
        rintro ⟨-, -, hnearer⟩
        rw [hnearer 0 depth.succ_pos first rfl] at hfirst
        cases hfirst
    | false =>
      rw [if_neg Bool.false_ne_true]
      cases depth with
      | zero =>
        refine iff_of_false (fun h => ?_) ?_
        · exact absurd (mem_of_findFrom h).1 (Nat.not_succ_le_self _)
        · rintro ⟨hid, haccept, -⟩
          rw [← Option.some.inj hid, hfirst] at haccept
          cases haccept
      | succ depth =>
        -- The first scope is passed, and being nearer shifts by it.
        rw [← Nat.add_assoc, Nat.add_right_comm, ih, List.getElem?_cons_succ]
        refine and_congr_right fun _ => and_congr_right fun _ => ⟨fun h i hi inner hinner => ?_,
          fun h i hi inner hinner => h (i + 1) (Nat.succ_lt_succ hi) inner hinner⟩
        cases i with
        | zero => rwa [← Option.some.inj hinner]
        | succ i => exact h i (Nat.lt_of_succ_lt_succ hi) inner hinner

theorem binds_iff {s : Scope α} :
    binds kind name s = true ↔ s.kind = kind ∧ s.contains name = true := by
  simp [binds]

theorem find?_binds_iff {depth : Nat} :
    store.find? env (binds kind name) = some (depth, id) ↔
      store.InnermostAt env name kind depth id := by
  rw [find?, ← Nat.zero_add depth, findFrom_eq_some_iff, Nat.zero_add, binds_iff]
  constructor
  · rintro ⟨hancestor, ⟨hkind, hcontains⟩, hnearer⟩
    exact ⟨hancestor, hkind, hcontains, fun i hi inner hinner h => by
      rw [← binds_iff, hnearer i hi inner hinner] at h
      cases h⟩
  · rintro ⟨hancestor, hkind, hcontains, hnearer⟩
    exact ⟨hancestor, ⟨hkind, hcontains⟩, fun i hi inner hinner =>
      Bool.eq_false_iff.2 ((not_congr binds_iff).2 (hnearer i hi inner hinner))⟩

/-- Where an identifier is found among the scopes of one kind. -/
theorem resolveKind?_eq_some_iff {r : Resolution} :
    store.resolveKind? env name kind = some r ↔
      r.kind = kind ∧ ∃ id, store.InnermostAt env name kind r.depth id := by
  simp only [resolveKind?, Option.map_eq_some_iff, Prod.exists, find?_binds_iff]
  constructor
  · rintro ⟨depth, id, h, rfl⟩
    exact ⟨rfl, id, h⟩
  · rintro ⟨rfl, id, h⟩
    exact ⟨r.depth, id, h, rfl⟩

/-- The value of an identifier is the one in the scope where it is found. -/
theorem lookupKind?_eq_some_iff :
    store.lookupKind? env name kind = some value ↔
      ∃ depth id, store.InnermostAt env name kind depth id ∧
        (store.scope id).get? name = some value := by
  simp only [lookupKind?, Option.bind_eq_some_iff, Prod.exists, find?_binds_iff]

theorem variableScope?_eq_some_iff :
    store.variableScope? env name = some id ↔
      ∃ depth, store.InnermostAt env name .variable depth id := by
  simp only [variableScope?, Option.map_eq_some_iff, Prod.exists, find?_binds_iff]
  exact ⟨fun ⟨depth, id, h, hid⟩ => ⟨depth, hid ▸ h⟩, fun ⟨depth, h⟩ => ⟨depth, id, h, rfl⟩⟩

/-- The scope of a variable is the one at the depth where the variable is found. -/
theorem ancestor?_of_resolveKind? :
    (store.resolveKind? env name .variable).bind (env.ancestor? ·.depth) =
      store.variableScope? env name := by
  refine Option.ext fun id => ?_
  simp only [Option.bind_eq_some_iff, resolveKind?_eq_some_iff, variableScope?_eq_some_iff]
  constructor
  · rintro ⟨r, ⟨-, other, h⟩, hid⟩
    obtain rfl := Option.some.inj (hid.symm.trans h.ancestor)
    exact ⟨r.depth, h⟩
  · rintro ⟨depth, h⟩
    exact ⟨⟨.variable, depth⟩, ⟨rfl, id, h⟩, h.ancestor⟩

/-- An identifier has a value exactly if it is found. -/
theorem isSome_lookup? :
    (store.lookup? env name).isSome = (store.variableScope? env name).isSome := by
  rw [lookup?, lookupKind?, variableScope?, Option.isSome_map]
  cases hfind : store.find? env (binds .variable name) with
  | none => rfl
  | some found => exact Scope.isSome_get? (find?_binds_iff.1 hfind).contains

/-- An identifier is found in the shallower of the scopes where it is found as a variable and as a
label. -/
theorem resolve?_eq_shallower :
    store.resolve? env name = Resolution.shallower (store.resolveKind? env name .variable)
      (store.resolveKind? env name .label) := by
  simp only [resolve?, resolveKind?, find?]
  generalize 0 = start
  induction env.scopeIds generalizing start with
  | nil => rfl
  | cons id ids ih =>
    -- What is found among the other scopes is further out.
    have hbeyond (kind : ScopeKind) (r : Resolution)
        (h : (store.findFrom (binds kind name) ids (start + 1)).map
          (fun found => (⟨kind, found.1⟩ : Resolution)) = some r) : start < r.depth := by
      obtain ⟨found, hfound, rfl⟩ := Option.map_eq_some_iff.1 h
      exact (mem_of_findFrom hfound).1
    simp only [findFrom]
    by_cases hcontains : (store.scope id).contains name = true
    · rw [if_pos hcontains, Option.map_some]
      cases hkind : (store.scope id).kind with
      | «variable» =>
        rw [if_pos (binds_iff.2 ⟨hkind, hcontains⟩), if_neg (by simp [binds, hkind])]
        exact (Resolution.shallower_eq_left (hbeyond .label)).symm
      | label =>
        rw [if_pos (binds_iff.2 ⟨hkind, hcontains⟩), if_neg (by simp [binds, hkind])]
        exact (Resolution.shallower_eq_right (hbeyond .variable)).symm
    · have hbinds (kind : ScopeKind) : ¬ binds kind name (store.scope id) = true := fun h =>
        hcontains (binds_iff.1 h).2
      rw [if_neg hcontains, if_neg (hbinds _), if_neg (hbinds _)]
      exact ih (start + 1)

/-! ### Assigning -/

/-- One identifier that a scope binds has got a new value, and nothing else is different. -/
structure Assigned (store store' : Store α) (id : ScopeId) (name : String) (value : α) :
    Prop where
  linkCount : store'.linkCount = store.linkCount
  size : store'.scopes.size = store.scopes.size
  others : ∀ other ≠ id, store'.scope other = store.scope other
  kind : (store'.scope id).kind = (store.scope id).kind
  names : (store'.scope id).names = (store.scope id).names
  value : (store'.scope id).get? name = some value
  values : ∀ other ≠ name, (store'.scope id).get? other = (store.scope id).get? other

theorem lt_size_of_contains (h : (store.scope id).contains name = true) :
    id < store.scopes.size := by
  refine Nat.lt_of_not_le fun hid => ?_
  rw [scope, Array.getElem?_eq_none hid] at h
  cases h

/-- Binding an identifier that a scope already binds changes its value only. -/
theorem assigned_declareIn (h : (store.scope id).contains name = true) (value : α) :
    Assigned store (store.declareIn id name value) id name value where
  linkCount := rfl
  size := size_declareIn
  others _ hother := scope_declareIn_of_ne hother
  kind := by rw [scope_declareIn_self (lt_size_of_contains h), Scope.kind_declare]
  names := by rw [scope_declareIn_self (lt_size_of_contains h), Scope.names_declare, if_pos h]
  value := by rw [scope_declareIn_self (lt_size_of_contains h), Scope.get?_declare_self]
  values _ hother := by
    rw [scope_declareIn_self (lt_size_of_contains h), Scope.get?_declare_of_ne hother]

theorem assign?_of_variableScope? (hid : store.variableScope? env name = some id) (value : α) :
    store.assign? env name value = some (store.declareIn id name value) := by
  rw [assign?, hid, Option.map_some]

namespace Assigned

theorem kind_eq (h : Assigned store store' id name value) (other : ScopeId) :
    (store'.scope other).kind = (store.scope other).kind := by
  by_cases hother : other = id
  · rw [hother, h.kind]
  · rw [h.others other hother]

theorem names_eq (h : Assigned store store' id name value) (other : ScopeId) :
    (store'.scope other).names = (store.scope other).names := by
  by_cases hother : other = id
  · rw [hother, h.names]
  · rw [h.others other hother]

theorem contains_eq (h : Assigned store store' id name value) (scope : ScopeId) (other : String) :
    (store'.scope scope).contains other = (store.scope scope).contains other := by
  rw [Bool.eq_iff_iff, Scope.contains_iff_mem_names, Scope.contains_iff_mem_names, h.names_eq]

/-- Everything is found where it was found before. -/
theorem innermostAt_iff (h : Assigned store store' id name value) {scope : ScopeId} {depth : Nat} :
    store'.InnermostAt env other kind depth scope ↔
      store.InnermostAt env other kind depth scope := by
  constructor
  · rintro ⟨hancestor, hkind, hcontains, hnearer⟩
    simp only [h.kind_eq, h.contains_eq] at hkind hcontains hnearer
    exact ⟨hancestor, hkind, hcontains, hnearer⟩
  · rintro ⟨hancestor, hkind, hcontains, hnearer⟩
    refine ⟨hancestor, ?_, ?_, ?_⟩ <;> simpa only [h.kind_eq, h.contains_eq]

theorem resolveKind?_eq (h : Assigned store store' id name value) (env : Environment)
    (other : String) (kind : ScopeKind) :
    store'.resolveKind? env other kind = store.resolveKind? env other kind := by
  refine Option.ext fun r => ?_
  simp only [resolveKind?_eq_some_iff, h.innermostAt_iff]

theorem resolve?_eq (h : Assigned store store' id name value) (env : Environment)
    (other : String) : store'.resolve? env other = store.resolve? env other := by
  rw [resolve?_eq_shallower, resolve?_eq_shallower, h.resolveKind?_eq, h.resolveKind?_eq]

/-- The value of another identifier, or of a label, is found as before. -/
theorem lookupKind?_eq (h : Assigned store store' id name value) (env : Environment)
    {other : String} {kind : ScopeKind} (hother : other ≠ name ∨ (store.scope id).kind ≠ kind) :
    store'.lookupKind? env other kind = store.lookupKind? env other kind := by
  refine Option.ext fun v => ?_
  simp only [lookupKind?_eq_some_iff, h.innermostAt_iff]
  refine exists_congr fun depth => exists_congr fun scope => and_congr_right fun hinnermost => ?_
  by_cases hscope : scope = id
  · subst hscope
    rw [h.values other (hother.resolve_right (not_not_intro hinnermost.kind_eq))]
  · rw [h.others scope hscope]

/-- The new value is found by those who find the variable in this scope. -/
theorem lookup?_eq (h : Assigned store store' id name value) (env : Environment) :
    store'.lookup? env name =
      if store.variableScope? env name = some id then some value else store.lookup? env name := by
  split
  · rename_i hid
    obtain ⟨depth, hinnermost⟩ := variableScope?_eq_some_iff.1 hid
    exact lookupKind?_eq_some_iff.2 ⟨depth, id, h.innermostAt_iff.2 hinnermost, h.value⟩
  · rename_i hid
    refine Option.ext fun v => ?_
    simp only [lookup?, lookupKind?_eq_some_iff, h.innermostAt_iff]
    refine exists_congr fun depth => exists_congr fun scope => and_congr_right fun hinnermost => ?_
    rw [h.others scope]
    rintro rfl
    exact hid (variableScope?_eq_some_iff.2 ⟨depth, hinnermost⟩)

end Assigned

end Store

end LWorkbench
