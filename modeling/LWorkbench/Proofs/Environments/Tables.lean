import LWorkbench.Proofs.Store
import Std.Data.HashMap.Lemmas

/-!
# Scopes kept with an index

A scope can be kept as the vector of its entries with an index beside it, which tells for every
identifier where its entry is. The index and the entries are changed together, and whatever is asked
of the scope is answered from the index. A table carries the proof that both fit together, so that
an identifier has at most one entry and the index leads to no place without an entry.

## Main definitions

* `Table` — entries with their index
* `Table.declare`, `Table.set` — changing both, and telling whether the identifier was known
* `Table.scope` — the scope that is kept

## Main results

* `Table.scope_declare`, `Table.scope_set` — what is kept after a change
* `Table.nodup_names` — no identifier has two entries
-/

namespace LWorkbench

/-- The entries of a scope in their order, and an index that leads from an identifier to its
entry. -/
structure Table (α : Type) where
  kind : ScopeKind
  entries : Array (String × α)
  index : Std.HashMap String Nat
  indexed : ∀ (name : String) (i : Nat),
    index[name]? = some i ↔ entries[i]?.map Prod.fst = some name

namespace Table

variable {α : Type} {t : Table α} {name other : String} {value : α} {i : Nat}

/-- The table of a scope without entries. -/
def empty (kind : ScopeKind) : Table α := ⟨kind, #[], ∅, by simp⟩

theorem lt_size (t : Table α) (h : t.index[name]? = some i) : i < t.entries.size := by
  obtain ⟨e, he, -⟩ := Option.map_eq_some_iff.1 ((t.indexed name i).1 h)
  exact (Array.getElem?_eq_some_iff.1 he).1

/-- Replaces the value of the entry that the index leads to. -/
def replaceAt (t : Table α) (i : Nat) (h : t.index[name]? = some i) (value : α) : Table α where
  kind := t.kind
  entries := t.entries.set i (name, value) (t.lt_size h)
  index := t.index
  indexed other j := by
    rw [t.indexed, Array.getElem?_set]
    split
    · rename_i hij
      rw [← hij, (t.indexed name i).1 h]
      rfl
    · rfl

/-- Appends an entry for an identifier that the index does not know. -/
def append (t : Table α) (h : t.index[name]? = none) (value : α) : Table α where
  kind := t.kind
  entries := t.entries.push (name, value)
  index := t.index.insert name t.entries.size
  indexed other j := by
    rw [Std.HashMap.getElem?_insert, Array.getElem?_push]
    have hlast : ¬ t.index[other]? = some t.entries.size := fun hother =>
      Nat.lt_irrefl _ (t.lt_size hother)
    -- The new identifier had no place, and the new place had no identifier.
    by_cases hname : name = other <;> by_cases hj : j = t.entries.size
    · simp [hname, hj]
    · have hne := (not_congr (t.indexed name j)).1 (by simp [h])
      simpa [← hname, hj, Ne.symm hj] using hne
    · simpa [hname, hj] using hlast
    · simpa [hname, hj] using t.indexed other j

/-- Binds an identifier, and tells whether it is new. -/
def declare (t : Table α) (name : String) (value : α) : Bool × Table α :=
  match h : t.index[name]? with
  | some i => (false, t.replaceAt i h value)
  | none => (true, t.append h value)

/-- Changes the value of an identifier, and tells whether it is known. -/
def set (t : Table α) (name : String) (value : α) : Bool × Table α :=
  match h : t.index[name]? with
  | some i => (true, t.replaceAt i h value)
  | none => (false, t)

/-- Whether the index knows an identifier. -/
def contains (t : Table α) (name : String) : Bool := t.index.contains name

/-- The value of the entry that the index leads to. -/
def get? (t : Table α) (name : String) : Option α :=
  t.index[name]?.bind fun i => t.entries[i]?.map Prod.snd

/-- The number of entries. -/
def size (t : Table α) : Nat := t.entries.size

/-- The scope that is kept. -/
def scope (t : Table α) : Scope α := ⟨t.kind, t.entries.toList⟩

/-! ### What a table answers -/

theorem contains_eq (t : Table α) (name : String) : t.contains name = t.index[name]?.isSome :=
  Std.HashMap.contains_eq_isSome_getElem?

theorem contains_scope (t : Table α) (name : String) : t.scope.contains name = t.contains name := by
  rw [contains_eq, Bool.eq_iff_iff, Scope.contains_iff_mem_names, Option.isSome_iff_exists,
    Scope.names, List.mem_iff_getElem?]
  simp only [scope, List.getElem?_map, Array.getElem?_toList, t.indexed]

theorem contains_scope_of_some (h : t.index[name]? = some i) : t.scope.contains name = true := by
  rw [contains_scope, contains_eq, h, Option.isSome_some]

theorem contains_scope_of_none (h : t.index[name]? = none) : t.scope.contains name = false := by
  rw [contains_scope, contains_eq, h, Option.isSome_none]

/-- An entry that the index leads to is the first one, since no other has its identifier. -/
theorem find?_scope (h : t.index[name]? = some i) :
    t.scope.entries.find? (·.1 == name) = t.entries[i]? := by
  rw [Array.getElem?_eq_getElem (t.lt_size h), List.find?_eq_some_iff_getElem]
  have hfirst (j : Nat) (hj : j < t.entries.size) : t.entries[j].1 = name ↔ j = i := by
    have hindexed := t.indexed name j
    rw [Array.getElem?_eq_getElem hj, Option.map_some, Option.some.injEq, h,
      Option.some.injEq] at hindexed
    rw [← hindexed, eq_comm]
  refine ⟨by simp [(hfirst i (t.lt_size h)).2 rfl], i, t.lt_size h, rfl, fun j hji => ?_⟩
  have hj : j < t.entries.size := Nat.lt_trans hji (t.lt_size h)
  simpa [scope, hfirst j hj] using Nat.ne_of_lt hji

theorem get?_scope (t : Table α) (name : String) : t.scope.get? name = t.get? name := by
  cases h : t.index[name]? with
  | none => rw [Scope.get?_eq_none (contains_scope_of_none h), get?, h, Option.bind_none]
  | some i => rw [Scope.get?, find?_scope h, get?, h, Option.bind_some]

theorem size_scope (t : Table α) : t.scope.size = t.size := rfl

/-- Two entries of one identifier would stand at the place that the index leads to. -/
theorem nodup_names (t : Table α) : t.scope.names.Nodup := by
  rw [List.Nodup, List.pairwise_iff_getElem]
  intro i j hi hj hij hsame
  have hindexed (k : Nat) (hk : k < t.scope.names.length) :
      t.index[t.scope.names[k]]? = some k := by
    rw [t.indexed, ← Array.getElem?_toList, ← List.getElem?_map]
    exact List.getElem?_eq_getElem hk
  have hplace := hindexed i hi
  rw [hsame, hindexed j hj, Option.some.injEq] at hplace
  exact absurd hplace.symm (Nat.ne_of_lt hij)

/-! ### What is kept after a change -/

/-- Replacing the entry that the index leads to is replacing all entries of the identifier. -/
theorem entries_replaceAt (h : t.index[name]? = some i) :
    (t.replaceAt i h value).scope.entries = Scope.replace name value t.scope.entries := by
  refine List.ext_getElem? fun j => ?_
  rw [Scope.replace, List.getElem?_map]
  simp only [scope, replaceAt, Array.getElem?_toList, Array.getElem?_set]
  have hindexed := t.indexed name j
  rw [h, Option.some.injEq] at hindexed
  -- The entry at the place of the index is the only one that has the identifier.
  by_cases hij : i = j
  · obtain ⟨e, he, hname⟩ := Option.map_eq_some_iff.1 (hindexed.1 hij)
    simp [hij, he, hname]
  · rw [if_neg hij]
    cases he : t.entries[j]? with
    | none => rfl
    | some e =>
      have hname : e.1 ≠ name := by simpa [he, hij] using hindexed
      simp [hname]

/-- Binding an identifier in a table binds it in the scope that is kept, and it is new if the scope
has not bound it before. -/
theorem scope_declare (t : Table α) (name : String) (value : α) :
    (t.declare name value).1 = (!t.scope.contains name) ∧
      (t.declare name value).2.scope = t.scope.declare name value := by
  unfold declare
  split
  · rename_i i h
    rw [Scope.declare, contains_scope_of_some h, if_pos rfl, ← entries_replaceAt h]
    exact ⟨rfl, rfl⟩
  · rename_i h
    rw [Scope.declare, contains_scope_of_none h, if_neg Bool.false_ne_true]
    exact ⟨rfl, by simp [scope, append]⟩

/-- Changing an identifier in a table changes it in the scope that is kept, if the scope binds
it. -/
theorem scope_set (t : Table α) (name : String) (value : α) :
    (t.set name value).1 = t.scope.contains name ∧
      (t.set name value).2.scope = (t.scope.set? name value).getD t.scope := by
  unfold set
  split
  · rename_i i h
    rw [Scope.set?, contains_scope_of_some h, if_pos rfl, ← entries_replaceAt h]
    exact ⟨rfl, rfl⟩
  · rename_i h
    rw [Scope.set?, contains_scope_of_none h, if_neg Bool.false_ne_true]
    exact ⟨rfl, rfl⟩

end Table

end LWorkbench
