import LWorkbench.Machine
import LWorkbench.Proofs.Numbering
import LWorkbench.Proofs.Store
import LWorkbench.Proofs.Values

/-!
# Values that belong to a run

A run makes its values itself: it starts with an outermost scope that holds nothing, and from then
on every function value comes from a function expression of the program and sees only scopes that
the run has made. Operators, lookups and declarations keep it so, which is why a call always finds
the function that it calls.

## Main definitions

* `Environment.Above` — a chain through scopes that were made from some point on
* `Value.Known` — the functions in a value come from the program
* `Memory.Known` — the scopes that were made from some point on hold known values
* `Memory.Holds` — in these scopes all functions have a property

## Main results

* `Memory.Holds.lookup`, `Memory.Holds.declareIn`, `Memory.Holds.extend` — finding, binding and
  opening scopes
* `Memory.known_iff_holds` — the same for known values
* `Machine.holds_start` — a machine starts without functions
* `Value.known_iff_every` — a value is known when all functions inside it are
* `Except.Every.known` — an operator has a known result, or fails with a fault of the program
-/

namespace LWorkbench

/-- The chain runs only through scopes with the given number or a later one. -/
def Environment.Above (base : ScopeId) (env : Environment) : Prop :=
  ∀ id ∈ env.scopeIds, base ≤ id

/-- The functions in the value come from function expressions of the program and see only scopes
with the given number or a later one. -/
inductive Value.Known (p : Program) (base : ScopeId) : Value → Prop
  | undefined : Known p base .undefined
  | null : Known p base .null
  | boolean (b : Bool) : Known p base (.boolean b)
  | number (x : Float) : Known p base (.number x)
  | string (s : String) : Known p base (.string s)
  | array {items : List Value} (h : ∀ v ∈ items, Known p base v) : Known p base (.array items)
  | tuple {items : List Value} (h : ∀ v ∈ items, Known p base v) : Known p base (.tuple items)
  | object {properties : List (String × Value)} (h : ∀ q ∈ properties, Known p base q.2) :
    Known p base (.object properties)
  | function {serial : Nat} {site : Site} {params : List Name} {body : List Stmt}
      {env : Environment} (hnode : p.Contains (.expr (.function site params body)))
      (henv : env.Above base) : Known p base (.function ⟨serial, site.id, env⟩)

/-- The scopes with the given number or a later one hold known values. -/
structure Memory.Known (p : Program) (base : ScopeId) (mem : Memory) : Prop where
  size : base ≤ mem.store.scopes.size
  values : ∀ id, base ≤ id → ∀ e ∈ (mem.store.scope id).entries, e.2.Known p base

/-- In the scopes with the given number or a later one all functions have a property. -/
structure Memory.Holds (base : ScopeId) (C : Closure → Prop) (mem : Memory) : Prop where
  size : base ≤ mem.store.scopes.size
  values : ∀ id, base ≤ id → ∀ e ∈ (mem.store.scope id).entries, e.2.Every C

/-- A function that comes from the program and sees only scopes with the given number or a later
one. -/
def Closure.Known (p : Program) (base : ScopeId) (c : Closure) : Prop :=
  ∃ site params body, p.Contains (.expr (.function site params body)) ∧ c.node = site.id ∧
    c.environment.Above base

variable {p : Program} {base : ScopeId} {mem : Memory} {env : Environment} {v : Value}
  {C D : Closure → Prop}

/-! ### Scopes -/

namespace Memory.Holds

theorem mono (hmem : mem.Holds base C) (himp : ∀ c, C c → D c) : mem.Holds base D :=
  ⟨hmem.size, fun id hid e he => (hmem.values id hid e he).mono himp⟩

theorem lookup (hmem : mem.Holds base C) (henv : env.Above base) {name : String}
    (h : mem.store.lookup? env name = some v) : v.Every C := by
  obtain ⟨id, hid, e, he, rfl⟩ := Store.exists_entry_of_lookup? h
  exact hmem.values id (henv id hid) e he

theorem declareIn (hmem : mem.Holds base C) (hv : v.Every C) (id : ScopeId) (name : String) :
    ({ mem with store := mem.store.declareIn id name v } : Memory).Holds base C := by
  refine ⟨?_, ?_⟩
  · rw [Store.size_declareIn]
    exact hmem.size
  · intro other hother e he
    obtain h | ⟨rfl, h⟩ := Store.scope_put mem.store id other
      ((mem.store.scope id).declare name v)
    · rw [Store.declareIn, h] at he
      exact hmem.values other hother e he
    · rw [Store.declareIn, h] at he
      obtain he | he := Scope.mem_entries_declare he
      · exact hmem.values id hother e he
      · rw [he]
        exact hv

/-- A scope in front of a chain of the run is a new one. -/
theorem extend (hmem : mem.Holds base C) (henv : env.Above base) :
    (mem.store.extend env .variable).1.Above base ∧
      ({ mem with store := (mem.store.extend env .variable).2 } : Memory).Holds base C := by
  refine ⟨?_, ?_, ?_⟩
  · intro id hid
    rw [Store.scopeIds_extend, List.mem_cons] at hid
    obtain rfl | hid := hid
    · exact hmem.size
    · exact henv id hid
  · simp only [Store.scopes_extend, Array.size_push]
    exact Nat.le_succ_of_le hmem.size
  · intro id hid e he
    simp only [Store.scope, Store.scopes_extend, Array.getElem?_push] at he
    split at he
    · cases he
    · exact hmem.values id hid e he

theorem bindParams {store : Store Value} {closureCount : Nat}
    (hmem : (⟨store, closureCount⟩ : Memory).Holds base C) (env : Environment) (params : List Name)
    {args : List Value} (hargs : ∀ v ∈ args, v.Every C) :
    (⟨Memory.bindParams store env params args, closureCount⟩ : Memory).Holds base C := by
  induction params generalizing store args with
  | nil => exact hmem
  | cons param params ih =>
    have hvalue : (args.headD .undefined).Every C := by
      cases args with
      | nil => exact .undefined
      | cons v args => exact hargs v List.mem_cons_self
    refine ih (hmem.declareIn hvalue env.scopeId param.identifier) fun v hv => ?_
    exact hargs v (List.mem_of_mem_tail hv)

end Memory.Holds

theorem Value.known_iff_every : v.Known p base ↔ v.Every (Closure.Known p base) := by
  constructor
  · intro h
    induction h with
    | undefined => exact .undefined
    | null => exact .null
    | boolean b => exact .boolean b
    | number x => exact .number x
    | string s => exact .string s
    | array _ ih => exact .array ih
    | tuple _ ih => exact .tuple ih
    | object _ ih => exact .object ih
    | function hnode henv => exact .function ⟨_, _, _, hnode, rfl, henv⟩
  · intro h
    induction h with
    | undefined => exact .undefined
    | null => exact .null
    | boolean b => exact .boolean b
    | number x => exact .number x
    | string s => exact .string s
    | array _ ih => exact .array ih
    | tuple _ ih => exact .tuple ih
    | object _ ih => exact .object ih
    | @function closure h =>
      obtain ⟨site, params, body, hnode, hid, henv⟩ := h
      cases closure
      subst hid
      exact .function hnode henv

/-- The scopes hold known values when all functions in them are known. -/
theorem Memory.known_iff_holds : mem.Known p base ↔ mem.Holds base (Closure.Known p base) := by
  constructor
  · intro h
    exact ⟨h.size, fun id hid e he => Value.known_iff_every.1 (h.values id hid e he)⟩
  · intro h
    exact ⟨h.size, fun id hid e he => Value.known_iff_every.2 (h.values id hid e he)⟩

namespace Memory.Known

/-- A variable along a chain of the run has a known value. -/
theorem lookup (hmem : mem.Known p base) (henv : env.Above base) {name : String} {value : Value}
    (h : mem.store.lookup? env name = some value) : value.Known p base :=
  Value.known_iff_every.2 ((known_iff_holds.1 hmem).lookup henv h)

theorem declareIn (hmem : mem.Known p base) {value : Value} (hvalue : value.Known p base)
    (id : ScopeId) (name : String) :
    ({ mem with store := mem.store.declareIn id name value } : Memory).Known p base :=
  known_iff_holds.2 ((known_iff_holds.1 hmem).declareIn (Value.known_iff_every.1 hvalue) id name)

/-- A scope in front of a chain of the run is a new one. -/
theorem extend (hmem : mem.Known p base) (henv : env.Above base) :
    (mem.store.extend env .variable).1.Above base ∧
      ({ mem with store := (mem.store.extend env .variable).2 } : Memory).Known p base := by
  obtain ⟨hinner, hmem⟩ := (known_iff_holds.1 hmem).extend henv
  exact ⟨hinner, known_iff_holds.2 hmem⟩

theorem bindParams {store : Store Value} {closureCount : Nat}
    (hmem : (⟨store, closureCount⟩ : Memory).Known p base) (env : Environment) (params : List Name)
    {args : List Value} (hargs : ∀ v ∈ args, v.Known p base) :
    (⟨Memory.bindParams store env params args, closureCount⟩ : Memory).Known p base :=
  known_iff_holds.2 ((known_iff_holds.1 hmem).bindParams env params
    fun v hv => Value.known_iff_every.1 (hargs v hv))

end Memory.Known

namespace Machine

theorem store_start (memory : Memory) :
    (start memory).memory.store.scopes = memory.store.scopes.push (.empty .variable) := rfl

/-- The new outermost scope of a machine is empty. -/
theorem holds_start (memory : Memory) (C : Closure → Prop) :
    (start memory).memory.Holds memory.store.scopes.size C ∧
      (start memory).globals.Above memory.store.scopes.size := by
  refine ⟨⟨?_, fun id hid e he => ?_⟩, fun id hid => ?_⟩
  · rw [store_start, Array.size_push]
    exact Nat.le_succ _
  · -- The scopes of the memory have lower numbers, so it can only be the new one.
    rw [Store.scope, store_start, Array.getElem?_push] at he
    split at he
    · cases he
    · rw [Array.getElem?_eq_none hid] at he
      cases he
  · obtain rfl := List.mem_singleton.1 hid
    exact Nat.le_refl _

end Machine

/-! ### Operators -/

/-- A fault that only a broken machine would report. -/
def Fault.isInternal : Fault → Bool
  | .missingValue | .notAFunction _ => true
  | _ => false

/-- The result is a known value, or a fault of the program. -/
def Except.Known (p : Program) (base : ScopeId) : Except Fault Value → Prop
  | .ok value => value.Known p base
  | .error fault => fault.isInternal = false

theorem Except.Every.known {r : Except Fault Value}
    (h : Except.Every (Closure.Known p base) r) : Except.Known p base r := by
  cases r with
  | ok value => exact Value.known_iff_every.2 h
  | error fault =>
    have hfault : fault.aboutOperands = true := h
    cases fault <;> first | rfl | cases hfault

theorem Value.known_ofLiteral (value : Literal) : (ofLiteral value).Known p base :=
  known_iff_every.2 (every_ofLiteral value)

end LWorkbench
