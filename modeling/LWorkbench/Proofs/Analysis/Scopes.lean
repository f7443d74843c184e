import LWorkbench.Analysis
import LWorkbench.Proofs.Store
import Mathlib.Data.List.Find

/-!
# Scopes during analysis

While a part of a program is walked, scopes are made, and of the scopes made before only the nearest
one for variables changes: it gets the names that the part binds. So what a chain says about the
place that it belongs to can be followed through the walk: which names are bound so far in the
nearest scope for variables, and which labels can be reached inside the function.

## Main definitions

* `Store.Grows` — a store before and after walking a part that binds some names
* `Store.Holds` — the nearest scope for variables along a chain binds certain names
* `Store.label?` — the binding of a label inside the innermost function

## Main results

* `Store.Grows.trans` — walking one part after another
* `Store.Holds.grow`, `Store.Holds.extend_variable`, `Store.Holds.extend_label` — the names bound so
  far, after walking a part and in a new scope
* `Store.label?_grow`, `Store.label?_extend_variable`, `Store.label?_extend_label` — the same for
  labels
* `Analysis.reachableLabel?_eq` — jumps find the labels inside the innermost function
-/

namespace LWorkbench

namespace Store

variable {s s' s'' : Store NodeId} {env : Environment} {here id : ScopeId} {name : Name}
  {names names' before : List Name} {x : String} {base : Nat}

/-- Walking a part of a program whose nearest scope for variables is `here` makes scopes, and binds
the given names in `here`. -/
structure Grows (s s' : Store NodeId) (here : ScopeId) (names : List Name) : Prop where
  size_le : s.scopes.size ≤ s'.scopes.size
  kind : (s'.scope here).kind = (s.scope here).kind
  other : ∀ id < s.scopes.size, id ≠ here → s'.scope id = s.scope id
  contains : ∀ x, (s'.scope here).contains x = true ↔
    (s.scope here).contains x = true ∨ ∃ n ∈ names, n.identifier = x

/-- The nearest scope for variables along the chain is `here`, and binds the given names. -/
structure Holds (s : Store NodeId) (env : Environment) (here : ScopeId) (before : List Name) :
    Prop where
  known : ∀ id ∈ env.scopeIds, id < s.scopes.size
  nearest : s.nearest? env .variable = some here
  contains : ∀ x, (s.scope here).contains x = true ↔ ∃ n ∈ before, n.identifier = x

namespace Grows

theorem refl (s : Store NodeId) (here : ScopeId) : s.Grows s here [] :=
  ⟨Nat.le_refl _, rfl, fun _ _ _ => rfl, by simp⟩

/-- Walking one part after another binds the names of both. -/
theorem trans (h : s.Grows s' here names) (h' : s'.Grows s'' here names') :
    s.Grows s'' here (names ++ names') := by
  refine ⟨Nat.le_trans h.size_le h'.size_le, h'.kind.trans h.kind, ?_, ?_⟩
  · intro id hid hne
    rw [h'.other id (Nat.lt_of_lt_of_le hid h.size_le) hne, h.other id hid hne]
  · intro x
    simp only [h'.contains, h.contains, List.mem_append, or_and_right, exists_or, or_assoc]

/-- What is bound in a scope made for a part does not change the scopes around the part. -/
theorem inner {kind : ScopeKind} (h : (s.extend env kind).2.Grows s' s.scopes.size names)
    (hhere : here < s.scopes.size) : s.Grows s' here [] := by
  -- The new scope has the next number, so it is none of those made before.
  have hscope : ∀ id < s.scopes.size, s'.scope id = s.scope id := by
    intro id hid
    rw [h.other id (Nat.lt_trans hid size_lt_extend) (Nat.ne_of_lt hid), scope_extend_of_lt hid]
  refine ⟨?_, ?_, fun id hid _ => hscope id hid, ?_⟩
  · exact Nat.le_trans (Nat.le_of_lt size_lt_extend) h.size_le
  · rw [hscope here hhere]
  · simp [hscope here hhere]

theorem declareIn (hhere : here < s.scopes.size) :
    s.Grows (s.declareIn here name.identifier name.id) here [name] := by
  refine ⟨Nat.le_of_eq size_declareIn.symm, ?_, fun _ _ hne => scope_declareIn_of_ne hne, ?_⟩
  · rw [scope_declareIn_self hhere, Scope.kind_declare]
  · intro x
    rw [scope_declareIn_self hhere, Scope.contains_declare_iff]
    simp only [List.mem_singleton, exists_eq_left]
    exact or_congr_right eq_comm

/-- A scope that is made for a label changes no scope made before. -/
theorem label (hhere : here < s.scopes.size) :
    s.Grows ((s.extend env .label).2.declareIn s.scopes.size name.identifier name.id) here [] :=
  inner (.declareIn size_lt_extend) hhere

/-- Binding a name that is bound already would change nothing. -/
theorem of_contains (h : (s.scope here).contains name.identifier = true) :
    s.Grows s here [name] := by
  refine ⟨Nat.le_refl _, rfl, fun _ _ _ => rfl, fun x => ?_⟩
  simp only [List.mem_singleton, exists_eq_left]
  constructor
  · exact .inl
  · rintro (hx | rfl) <;> assumption

end Grows

/-! ### The names bound so far -/

theorem nearest?_congr {kind : ScopeKind}
    (h : ∀ id ∈ env.scopeIds, (s'.scope id).kind = (s.scope id).kind) :
    s'.nearest? env kind = s.nearest? env kind := by
  rw [nearest?_eq, nearest?_eq]
  exact List.find?_congr fun id hid => by rw [h id hid]

namespace Holds

theorem mem (h : s.Holds env here before) : here ∈ env.scopeIds := by
  have hnearest := h.nearest
  rw [nearest?_eq] at hnearest
  exact List.mem_of_find?_eq_some hnearest

theorem lt (h : s.Holds env here before) : here < s.scopes.size :=
  h.known here h.mem

theorem kind (h : s.Holds env here before) : (s.scope here).kind = .variable := by
  have hnearest := h.nearest
  rw [nearest?_eq] at hnearest
  simpa using List.find?_some hnearest

theorem grow (h : s.Holds env here before) (hgrows : s.Grows s' here names) :
    s'.Holds env here (before ++ names) := by
  -- No scope changes its kind, so the same scope stays the nearest one.
  have hkind : ∀ id ∈ env.scopeIds, (s'.scope id).kind = (s.scope id).kind := by
    intro id hid
    by_cases hne : id = here
    · rw [hne, hgrows.kind]
    · rw [hgrows.other id (h.known id hid) hne]
  refine ⟨fun id hid => Nat.lt_of_lt_of_le (h.known id hid) hgrows.size_le, ?_, ?_⟩
  · rw [nearest?_congr hkind, h.nearest]
  · intro x
    simp only [hgrows.contains, h.contains, List.mem_append, or_and_right, exists_or]

theorem known_extend {kind : ScopeKind} (h : s.Holds env here before) :
    ∀ id ∈ (s.extend env kind).1.scopeIds, id < (s.extend env kind).2.scopes.size := by
  intro id hid
  rw [scopeIds_extend, List.mem_cons] at hid
  obtain rfl | hid := hid
  · exact size_lt_extend
  · exact Nat.lt_trans (h.known id hid) size_lt_extend

/-- A new scope for variables binds nothing yet. -/
theorem extend_variable (h : s.Holds env here before) :
    (s.extend env .variable).2.Holds (s.extend env .variable).1 s.scopes.size [] := by
  refine ⟨h.known_extend, ?_, ?_⟩
  · rw [nearest?_eq, scopeIds_extend, List.find?_cons, scope_extend_self]
    rfl
  · intro x
    rw [scope_extend_self]
    simp [Scope.empty, Scope.contains]

/-- A new scope for a label leaves the nearest scope for variables as it is. -/
theorem extend_label (h : s.Holds env here before) :
    ((s.extend env .label).2.declareIn s.scopes.size name.identifier name.id).Holds
      (s.extend env .label).1 here before := by
  have hne : ∀ id ∈ env.scopeIds, id ≠ s.scopes.size := fun id hid => Nat.ne_of_lt (h.known id hid)
  have hscope : ∀ id ∈ env.scopeIds, ((s.extend env .label).2.declareIn s.scopes.size
      name.identifier name.id).scope id = s.scope id := by
    intro id hid
    rw [scope_declareIn_of_ne (hne id hid), scope_extend_of_lt (h.known id hid)]
  refine ⟨?_, ?_, ?_⟩
  · intro id hid
    rw [size_declareIn]
    exact h.known_extend id hid
  · have hfresh : (((s.extend env .label).2.declareIn s.scopes.size
        name.identifier name.id).scope s.scopes.size).kind = .label := by
      rw [scope_declareIn_self size_lt_extend, Scope.kind_declare, scope_extend_self]
      rfl
    have hnearest := h.nearest
    rw [nearest?_eq] at hnearest ⊢
    rw [scopeIds_extend, List.find?_cons, hfresh, ← hnearest]
    exact List.find?_congr fun id hid => by rw [hscope id hid]
  · intro x
    rw [hscope here h.mem, h.contains]

end Holds

/-! ### Labels -/

/-- The binding of a label along a chain, as far as the innermost function, whose own scope is the
first of the last `base` scopes. -/
def label? (s : Store NodeId) (env : Environment) (base : Nat) (x : String) : Option NodeId :=
  (env.scopeIds.take (env.size - base + 1)).findSome? (s.valueIn? .label x)

theorem findSome?_valueIn?_congr {ids : List ScopeId}
    (h : ∀ id ∈ ids, s'.valueIn? .label x id = s.valueIn? .label x id) :
    ids.findSome? (s'.valueIn? .label x) = ids.findSome? (s.valueIn? .label x) := by
  induction ids with
  | nil => rfl
  | cons id ids ih =>
    obtain ⟨hid, hids⟩ := List.forall_mem_cons.1 h
    rw [List.findSome?_cons, List.findSome?_cons, hid, ih hids]

theorem valueIn?_of_variable (h : (s.scope id).kind = .variable) :
    s.valueIn? .label x id = none := by
  rw [valueIn?, h]
  rfl

theorem valueIn?_congr (h : s'.scope id = s.scope id) :
    s'.valueIn? .label x id = s.valueIn? .label x id := by
  rw [valueIn?, valueIn?, h]

/-- Walking a part changes no label around it. -/
theorem label?_grow (h : s.Holds env here before) (hgrows : s.Grows s' here names) :
    s'.label? env base x = s.label? env base x := by
  refine findSome?_valueIn?_congr fun id hid => ?_
  -- The scope that changes is one for variables and has no labels before or after.
  by_cases hne : id = here
  · rw [hne, valueIn?_of_variable (hgrows.kind.trans h.kind), valueIn?_of_variable h.kind]
  · exact valueIn?_congr (hgrows.other id (h.known id (List.mem_of_mem_take hid)) hne)

/-- The scope of a function ends the search for labels. -/
theorem label?_extend_function :
    (s.extend env .variable).2.label? (s.extend env .variable).1
      (s.extend env .variable).1.size x = none := by
  rw [label?, Nat.sub_self, scopeIds_extend, List.take_succ_cons, List.findSome?_cons,
    valueIn?_of_variable (by rw [scope_extend_self]; rfl)]
  rfl

/-- The scope of a block binds no label. -/
theorem label?_extend_variable (h : s.Holds env here before) (hbase : base ≤ env.size) :
    (s.extend env .variable).2.label? (s.extend env .variable).1 base x = s.label? env base x := by
  -- The chain and the part of it that is searched get longer by the same scope.
  have hsize : env.size + 1 - base = env.size - base + 1 := Nat.succ_sub hbase
  rw [label?, size_extend, hsize, scopeIds_extend, List.take_succ_cons, List.findSome?_cons,
    valueIn?_of_variable (by rw [scope_extend_self]; rfl), label?]
  exact findSome?_valueIn?_congr fun id hid =>
    valueIn?_congr (scope_extend_of_lt (h.known id (List.mem_of_mem_take hid)))

/-- The scope of a label binds that label and no other one. -/
theorem label?_extend_label (h : s.Holds env here before) (hbase : base ≤ env.size) :
    ((s.extend env .label).2.declareIn s.scopes.size name.identifier name.id).label?
      (s.extend env .label).1 base x =
      if name.identifier = x then some name.id else s.label? env base x := by
  have hsize : env.size + 1 - base = env.size - base + 1 := Nat.succ_sub hbase
  have hvalue : ((s.extend env .label).2.declareIn s.scopes.size name.identifier
      name.id).valueIn? .label x s.scopes.size =
        if name.identifier = x then some name.id else none := by
    rw [valueIn?, scope_declareIn_self size_lt_extend, scope_extend_self]
    simp [Scope.declare, Scope.contains, Scope.empty, Scope.get?]
  rw [label?, size_extend, hsize, scopeIds_extend, List.take_succ_cons, List.findSome?_cons, hvalue]
  by_cases hx : name.identifier = x
  · rw [if_pos hx, if_pos hx]
  · rw [if_neg hx, if_neg hx, label?]
    refine findSome?_valueIn?_congr fun id hid => valueIn?_congr ?_
    have hlt := h.known id (List.mem_of_mem_take hid)
    rw [scope_declareIn_of_ne (Nat.ne_of_lt hlt), scope_extend_of_lt hlt]

end Store

/-- Jumps find the labels inside the innermost function. -/
theorem Analysis.reachableLabel?_eq (a : Analysis) {n : Name} (hkind : n.kind = .label)
    (env : Environment) :
    a.reachableLabel? n env = a.store.label? env a.functionBase n.identifier := by
  rw [Store.label?, ← Store.findFrom_binds _ 0]
  simp only [reachableLabel?, Store.resolveKind?, definition?, Store.lookupKind?, Store.find?,
    hkind, Nat.zero_add]
  cases a.store.findFrom (Store.binds .label n.identifier) env.scopeIds 0 with
  | none => rfl
  | some found => rfl

end LWorkbench
