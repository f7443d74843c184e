import LWorkbench.Scope.Environment

/-!
# Stores

What making a scope and binding an identifier do to the scopes of a store, and what is found along
a chain.

## Main results

* `Store.scope_extend_of_lt`, `Store.scope_extend_self` — the scopes after making one
* `Store.scope_declareIn_self`, `Store.scope_declareIn_of_ne` — the scopes after a declaration
* `Store.nearest?_eq` — the nearest scope of a kind as a search through the numbers of a chain
* `Store.findFrom_binds` — looking an identifier up in the first few scopes of a chain
* `Store.lookupKind?_eq` — looking an identifier up in a whole chain
-/

namespace LWorkbench

variable {α : Type}

namespace Scope

variable {s : Scope α} {name other : String} {value : α}

theorem mem_entries_declare {e : String × α} (h : e ∈ (s.declare name value).entries) :
    e ∈ s.entries ∨ e.2 = value := by
  unfold declare at h
  split at h
  · obtain ⟨e', he', rfl⟩ := List.mem_map.1 h
    split
    · exact .inr rfl
    · exact .inl he'
  · obtain h | h := List.mem_append.1 h
    · exact .inl h
    · rw [List.mem_singleton.1 h]
      exact .inr rfl

theorem contains_declare_iff :
    (s.declare name value).contains other = true ↔ s.contains other = true ∨ other = name := by
  rw [contains_iff_mem_names, names_declare]
  split
  · rename_i h
    rw [← contains_iff_mem_names]
    constructor
    · exact .inl
    · rintro (h | rfl) <;> assumption
  · rw [List.mem_append, List.mem_singleton, contains_iff_mem_names]

theorem get?_eq_none (h : s.contains name = false) : s.get? name = none := by
  rw [get?, Option.map_eq_none_iff, List.find?_eq_none]
  simpa [contains] using h

theorem isSome_get? (h : s.contains name = true) : (s.get? name).isSome = true := by
  rw [get?, Option.isSome_map, List.find?_isSome]
  simpa [contains] using h

end Scope

namespace Store

variable {store : Store α} {env : Environment} {kind : ScopeKind} {id other : ScopeId}
  {name : String} {value : α}

/-! ### Making scopes and binding -/

theorem scope_put (store : Store α) (id other : ScopeId) (s : Scope α) :
    (store.put id s).scope other = store.scope other ∨
      id = other ∧ (store.put id s).scope other = s := by
  simp only [scope, put, Array.getElem?_setIfInBounds]
  split
  · rename_i h
    subst h
    split
    · exact .inr ⟨rfl, rfl⟩
    · rename_i hlt
      simp [Array.getElem?_eq_none (Nat.le_of_not_lt hlt)]
  · exact .inl rfl

theorem size_declareIn : (store.declareIn id name value).scopes.size = store.scopes.size :=
  Array.size_setIfInBounds

theorem scope_declareIn_self (h : id < store.scopes.size) :
    (store.declareIn id name value).scope id = (store.scope id).declare name value := by
  have hset : (store.scopes.setIfInBounds id ((store.scope id).declare name value))[id]? =
      some ((store.scope id).declare name value) := by
    rw [Array.getElem?_setIfInBounds_self_of_lt h]
  rw [declareIn, put, scope, hset]
  rfl

theorem scope_declareIn_of_ne (h : other ≠ id) :
    (store.declareIn id name value).scope other = store.scope other := by
  rw [declareIn, put, scope, Array.getElem?_setIfInBounds_ne h.symm]
  rfl

theorem scopeIds_extend : (store.extend env kind).1.scopeIds = store.scopes.size :: env.scopeIds :=
  rfl

theorem size_extend : (store.extend env kind).1.size = env.size + 1 := rfl

theorem scopes_extend : (store.extend env kind).2.scopes = store.scopes.push (.empty kind) := rfl

theorem size_lt_extend : store.scopes.size < (store.extend env kind).2.scopes.size := by
  rw [scopes_extend, Array.size_push]
  exact Nat.lt_succ_self _

theorem scope_extend_of_lt (h : id < store.scopes.size) :
    (store.extend env kind).2.scope id = store.scope id := by
  rw [scope, scopes_extend, Array.getElem?_push_lt h, scope, Array.getElem?_eq_getElem h]

theorem scope_extend_self : (store.extend env kind).2.scope store.scopes.size = .empty kind := by
  rw [scope, scopes_extend, Array.getElem?_push_size]
  rfl

/-! ### Finding -/

/-- What is found along a chain is one of its scopes. -/
theorem mem_of_findFrom {accept : Scope α → Bool} {ids : List ScopeId} {depth : Nat}
    {found : Nat × ScopeId} (h : store.findFrom accept ids depth = some found) :
    depth ≤ found.1 ∧ found.2 ∈ ids := by
  induction ids generalizing depth with
  | nil => cases h
  | cons id ids ih =>
    rw [findFrom] at h
    split at h
    · cases h
      exact ⟨Nat.le_refl _, List.mem_cons_self⟩
    · obtain ⟨hdepth, hmem⟩ := ih h
      exact ⟨Nat.le_of_succ_le hdepth, List.mem_cons_of_mem _ hmem⟩

theorem exists_entry_of_lookup? (h : store.lookup? env name = some value) :
    ∃ id ∈ env.scopeIds, ∃ e ∈ (store.scope id).entries, e.2 = value := by
  obtain ⟨⟨depth, id⟩, hfind, hget⟩ := Option.bind_eq_some_iff.1 h
  obtain ⟨e, he, hvalue⟩ := Option.map_eq_some_iff.1 hget
  exact ⟨id, (mem_of_findFrom hfind).2, e, List.mem_of_find?_eq_some he, hvalue⟩

theorem map_snd_findFrom (accept : Scope α → Bool) (ids : List ScopeId) (depth : Nat) :
    (store.findFrom accept ids depth).map (·.2) = ids.find? fun id => accept (store.scope id) := by
  induction ids generalizing depth with
  | nil => rfl
  | cons id ids ih =>
    rw [findFrom, List.find?_cons]
    split
    · rename_i h
      rw [h]
      rfl
    · rename_i h
      rw [Bool.not_eq_true] at h
      rw [h, ih]

/-- The nearest scope of a kind is the first one of the chain that is of that kind. -/
theorem nearest?_eq :
    store.nearest? env kind = env.scopeIds.find? fun id => (store.scope id).kind == kind :=
  map_snd_findFrom _ _ _

/-- The value of an identifier in one scope, if the scope is of a kind. -/
def valueIn? (store : Store α) (kind : ScopeKind) (name : String) (id : ScopeId) : Option α :=
  if (store.scope id).kind = kind then (store.scope id).get? name else none

theorem valueIn?_eq_none (h : binds kind name (store.scope id) = false) :
    store.valueIn? kind name id = none := by
  rw [valueIn?]
  split
  · rename_i hkind
    refine Scope.get?_eq_none ?_
    simpa [binds, hkind] using h
  · rfl

/-- Looking an identifier up along a chain, and leaving out what is found beyond the first `m`
scopes, is looking it up in these. -/
theorem findFrom_binds (ids : List ScopeId) (depth m : Nat) :
    ((store.findFrom (binds kind name) ids depth).bind fun found =>
      if found.1 < depth + m then (store.scope found.2).get? name else none) =
      (ids.take m).findSome? (store.valueIn? kind name) := by
  induction ids generalizing depth m with
  | nil => rw [List.take_nil, findFrom, Option.bind_none, List.findSome?_nil]
  | cons id ids ih =>
    cases m with
    | zero =>
      -- Nothing is found in front of the place where the search starts.
      rw [List.take_zero, List.findSome?_nil, Option.bind_eq_none_iff]
      intro found hfound
      exact if_neg (Nat.not_lt.2 (mem_of_findFrom hfound).1)
    | succ m =>
      rw [List.take_succ_cons, List.findSome?_cons, findFrom]
      cases hbinds : binds kind name (store.scope id) with
      | true =>
        obtain ⟨hkind, hcontains⟩ : (store.scope id).kind = kind ∧
            (store.scope id).contains name = true := by simpa [binds] using hbinds
        obtain ⟨value, hvalue⟩ := Option.isSome_iff_exists.1 (Scope.isSome_get? hcontains)
        simp [valueIn?, hkind, hvalue]
      | false =>
        rw [valueIn?_eq_none hbinds, ← ih (depth + 1) m, Nat.add_right_comm depth 1 m]
        rfl

/-- What is found along a chain is found in its first scope that has a value. -/
theorem lookupKind?_eq :
    store.lookupKind? env name kind = env.scopeIds.findSome? (store.valueIn? kind name) := by
  have hfound : ∀ (ids : List ScopeId) (depth : Nat) {found : Nat × ScopeId},
      store.findFrom (binds kind name) ids depth = some found → found.1 < depth + ids.length := by
    intro ids
    induction ids with
    | nil => nofun
    | cons id ids ih =>
      intro depth found h
      rw [findFrom] at h
      split at h
      · cases h
        simp
      · have := ih _ h
        rw [List.length_cons]
        omega
  rw [lookupKind?, find?, ← env.scopeIds.take_length, ← findFrom_binds _ 0, List.take_length]
  cases hfind : store.findFrom (binds kind name) env.scopeIds 0 with
  | none => rfl
  | some found => simp only [Option.bind_some, if_pos (hfound _ _ hfind)]

end Store

end LWorkbench
