import LWorkbench.Tree

/-!
# Scopes

A scope is an ordered table from identifiers to values. No identifier occurs twice: declaring one
again replaces its value and keeps its place, so the entries stay in the order of their first
declaration.

## Main definitions

* `Scope` — a table of one kind
* `Scope.contains`, `Scope.get?` — looking up
* `Scope.declare`, `Scope.set?` — binding an identifier, and changing one that is bound

## Main results

* `Scope.names_declare` — declaring a new identifier puts it at the end
* `Scope.get?_declare_self`, `Scope.get?_declare_of_ne` — what is found after a declaration
-/

namespace LWorkbench

/-- An ordered table from identifiers to values, of one kind. -/
structure Scope (α : Type) where
  kind : ScopeKind
  entries : List (String × α)

namespace Scope

variable {α : Type} {s : Scope α} {name other : String} {value : α}

/-- The scope of a kind without entries. -/
def empty (kind : ScopeKind) : Scope α := ⟨kind, []⟩

/-- The identifiers in the order of their first declaration. -/
def names (s : Scope α) : List String := s.entries.map (·.1)

/-- Whether an identifier is bound in the scope. -/
def contains (s : Scope α) (name : String) : Bool := s.entries.any (·.1 == name)

/-- The value of an identifier. -/
def get? (s : Scope α) (name : String) : Option α := (s.entries.find? (·.1 == name)).map (·.2)

/-- The number of identifiers. -/
def size (s : Scope α) : Nat := s.entries.length

/-- The entries with the value of one identifier replaced. -/
def replace (name : String) (value : α) (entries : List (String × α)) : List (String × α) :=
  entries.map fun e => if e.1 == name then (e.1, value) else e

/-- Binds an identifier. One that is already bound keeps its place and gets the new value. -/
def declare (s : Scope α) (name : String) (value : α) : Scope α :=
  if s.contains name then { s with entries := replace name value s.entries }
  else { s with entries := s.entries ++ [(name, value)] }

/-- Changes the value of an identifier that is bound. -/
def set? (s : Scope α) (name : String) (value : α) : Option (Scope α) :=
  if s.contains name then some { s with entries := replace name value s.entries } else none

@[simp] theorem kind_declare : (s.declare name value).kind = s.kind := by
  unfold declare
  split <;> rfl

theorem contains_iff_mem_names : s.contains name = true ↔ name ∈ s.names := by
  simp [contains, names]

theorem names_replace (entries : List (String × α)) :
    (replace name value entries).map (·.1) = entries.map (·.1) := by
  simp only [replace, List.map_map]
  apply List.map_congr_left
  intro e _
  simp only [Function.comp]
  split <;> rfl

/-- Declaring a new identifier puts it at the end; declaring a bound one keeps the order. -/
theorem names_declare :
    (s.declare name value).names = if s.contains name then s.names else s.names ++ [name] := by
  unfold declare
  split
  · exact names_replace s.entries
  · simp [names]

theorem get?_declare_self : (s.declare name value).get? name = some value := by
  unfold declare get?
  split
  · rename_i h
    simp only [contains, List.any_eq_true] at h
    obtain ⟨e, he, hname⟩ := h
    simp only [replace, List.find?_map, Option.map_map]
    cases hfind : s.entries.find? ((fun x => x.1 == name) ∘
        fun e => if e.1 == name then (e.1, value) else e) with
    | none =>
      have := List.find?_eq_none.1 hfind e he
      simp only [Function.comp, hname, if_true] at this
      exact absurd trivial this
    | some found =>
      have := List.find?_some hfind
      simp only [Function.comp] at this ⊢
      grind
  · rename_i h
    simp only [contains, Bool.not_eq_true, List.any_eq_false] at h
    rw [List.find?_append, List.find?_eq_none.2 (by simpa using h)]
    simp

theorem get?_declare_of_ne (hne : other ≠ name) :
    (s.declare name value).get? other = s.get? other := by
  unfold declare get?
  split
  · simp only [replace, List.find?_map, Option.map_map]
    have hfun : ((fun x : String × α => x.1 == other) ∘
        fun e => if e.1 == name then (e.1, value) else e) = fun x => x.1 == other := by
      funext e
      simp only [Function.comp]
      split <;> rfl
    rw [hfun]
    cases hfind : s.entries.find? (fun x => x.1 == other) with
    | none => rfl
    | some found =>
      have := List.find?_some hfind
      simp only [Option.map_some, Function.comp, Option.some.injEq]
      grind
  · rw [List.find?_append]
    cases s.entries.find? (fun x => x.1 == other) with
    | none => simp [Ne.symm hne]
    | some => simp

end Scope

end LWorkbench
