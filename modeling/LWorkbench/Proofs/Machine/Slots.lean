import LWorkbench.Proofs.Machine.Charts

/-!
# Scopes of a run and the bindings that fill them

Every scope of a run was opened for a node of the program or for the whole program. It binds an
identifier exactly when a binding of that identifier has been carried out in it, and such a binding
is always one that belongs to the node: nobody else declares there.

## Main definitions

* `Scope.Charted` — a scope holds what has been declared in it
* `Memory.Charted` — all scopes of a run do

## Main results

* `Memory.Charted.lookup`, `Memory.Charted.mem_of_variableScope?` — finding variables
* `Memory.Charted.declareIn`, `Memory.Charted.extend`, `Memory.Charted.enter` — binding and opening
  scopes
-/

namespace LWorkbench

/-- A scope for variables binds what has been declared in it, and only bindings of its owner have
been declared in it. -/
structure Scope.Charted (p : Program) (chart : Chart) (owner : Option Node) (D : Name → Prop)
    (s : Scope Value) : Prop where
  kind : s.kind = .variable
  contains_iff : ∀ x, s.contains x = true ↔ ∃ b, D b ∧ b.identifier = x
  declared : ∀ b, D b → b ∈ p.bindingsOf owner
  values : ∀ e ∈ s.entries, e.2.Every (Closure.Charted p chart)
  owned : ∀ n, owner = some n → p.Contains n ∧ n.bindings?.isSome = true

/-- The scopes of the chart hold what has been declared in them. -/
structure Memory.Charted (p : Program) (chart : Chart) (D : ScopeId → Name → Prop) (mem : Memory) :
    Prop where
  size : mem.store.scopes.size = chart.size
  base : chart.base < chart.size
  known : ∀ id b, D id b → chart.base ≤ id ∧ id < chart.size
  scopes : ∀ id, chart.base ≤ id → id < chart.size →
    (mem.store.scope id).Charted p chart (chart.owner id) (D id)

variable {p : Program} {chart chart' : Chart} {mem : Memory} {env : Environment}
  {around : List Node} {id : ScopeId} {n : Node} {x : String} {v : Value}

namespace Scope.Charted

variable {owner : Option Node} {D D' : Name → Prop} {s : Scope Value}

theorem grow (h : s.Charted p chart owner D) (hgrows : chart.Grows chart') :
    s.Charted p chart' owner D :=
  ⟨h.kind, h.contains_iff, h.declared, fun e he => (h.values e he).mono fun _ hc => hc.grow hgrows,
    h.owned⟩

/-- Binding an identifier, for bindings of the owner that have that identifier. -/
theorem declare (h : s.Charted p chart owner D) (hv : v.Every (Closure.Charted p chart))
    (hx : ∃ b, D' b ∧ b.identifier = x) (hold : ∀ b, D b → D' b)
    (hnew : ∀ b, D' b → D b ∨ b.identifier = x ∧ b ∈ p.bindingsOf owner) :
    (s.declare x v).Charted p chart owner D' := by
  refine ⟨Scope.kind_declare.trans h.kind, fun y => ?_, fun b hb => ?_, fun e he => ?_, h.owned⟩
  · rw [Scope.contains_declare_iff, h.contains_iff]
    constructor
    · intro hy
      rcases hy with ⟨b, hb, hident⟩ | rfl
      · exact ⟨b, hold b hb, hident⟩
      · exact hx
    · intro hy
      obtain ⟨b, hb, rfl⟩ := hy
      rcases hnew b hb with hb | ⟨hident, -⟩
      · exact .inl ⟨b, hb, rfl⟩
      · exact .inr hident
  · rcases hnew b hb with hb | ⟨-, hmem⟩
    · exact h.declared b hb
    · exact hmem
  · rcases Scope.mem_entries_declare he with he | he
    · exact h.values e he
    · exact he ▸ hv

end Scope.Charted

theorem Scope.charted_empty {owner : Option Node} {D : Name → Prop} (hD : ∀ b, ¬ D b)
    (howned : ∀ n, owner = some n → p.Contains n ∧ n.bindings?.isSome = true) :
    (Scope.empty .variable).Charted p chart owner D := by
  refine ⟨rfl, fun y => ?_, fun b hb => absurd hb (hD b), List.forall_mem_nil _, howned⟩
  refine ⟨nofun, fun h => ?_⟩
  obtain ⟨b, hb, -⟩ := h
  exact absurd hb (hD b)

namespace Memory.Charted

variable {D D' : ScopeId → Name → Prop}

/-- Only the scopes of the memory matter, and what has been declared in them. -/
theorem congr (h : mem.Charted p chart D) {mem' : Memory} (hstore : mem'.store = mem.store)
    (hD : ∀ id b, D' id b ↔ D id b) : mem'.Charted p chart D' := by
  have hDD' : D' = D := funext fun id => funext fun b => propext (hD id b)
  subst hDD'
  exact ⟨hstore ▸ h.size, h.base, h.known, hstore ▸ h.scopes⟩

/-! ### Finding variables -/

theorem mem_of_variableScope? (henv : env.Mirrors chart around)
    (hid : mem.store.variableScope? env x = some id) :
    id ∈ env.scopeIds ∧ chart.base ≤ id ∧ id < chart.size := by
  obtain ⟨⟨depth, found⟩, hfind, rfl⟩ := Option.map_eq_some_iff.1 hid
  have hmem := (Store.mem_of_findFrom hfind).2
  exact ⟨hmem, henv.known _ hmem⟩

/-- Variables hold functions that stand at their places. -/
theorem lookup (h : mem.Charted p chart D) (henv : env.Mirrors chart around)
    (hv : mem.store.lookup? env x = some v) : v.Every (Closure.Charted p chart) := by
  obtain ⟨id, hid, e, he, rfl⟩ := Store.exists_entry_of_lookup? hv
  obtain ⟨hbase, hsize⟩ := henv.known id hid
  exact (h.scopes id hbase hsize).values e he

/-! ### Binding and opening scopes -/

/-- Binding an identifier in a scope, for bindings of the owner of that scope. -/
theorem declareIn (h : mem.Charted p chart D) (hid : chart.base ≤ id ∧ id < chart.size)
    (hv : v.Every (Closure.Charted p chart)) (hx : ∃ b, D' id b ∧ b.identifier = x)
    (hold : ∀ id b, D id b → D' id b)
    (hnew : ∀ other b, D' other b → D other b ∨
      other = id ∧ b.identifier = x ∧ b ∈ p.bindingsOf (chart.owner id)) :
    ({ mem with store := mem.store.declareIn id x v } : Memory).Charted p chart D' := by
  refine ⟨Store.size_declareIn.trans h.size, h.base, fun other b hb => ?_, ?_⟩
  · rcases hnew other b hb with hb | ⟨rfl, -⟩
    · exact h.known other b hb
    · exact hid
  · intro other hbase hsize
    by_cases hother : other = id
    · subst hother
      simp only [Store.scope_declareIn_self (h.size ▸ hsize)]
      refine (h.scopes other hbase hsize).declare hv hx (hold other) fun b hb => ?_
      exact (hnew other b hb).imp_right And.right
    · simp only [Store.scope_declareIn_of_ne hother]
      have hsame : ∀ b, D' other b ↔ D other b := by
        intro b
        refine ⟨fun hb => ?_, hold other b⟩
        exact (hnew other b hb).resolve_right fun hb => hother hb.1
      have hscope := h.scopes other hbase hsize
      rwa [← funext fun b => propext (hsame b)] at hscope

/-- Changing a variable declares nothing. -/
theorem assign (h : mem.Charted p chart D) (henv : env.Mirrors chart around)
    (hid : mem.store.variableScope? env x = some id) (hv : v.Every (Closure.Charted p chart)) :
    ({ mem with store := mem.store.declareIn id x v } : Memory).Charted p chart D := by
  obtain ⟨-, hknown⟩ := mem_of_variableScope? henv hid
  refine h.declareIn hknown hv ?_ (fun _ _ hb => hb) fun _ _ hb => .inl hb
  -- The variable was found in the scope, so it has been declared there.
  rw [← (h.scopes id hknown.1 hknown.2).contains_iff]
  rw [Store.variableScope?, Store.find?, Store.map_snd_findFrom] at hid
  have hbinds := List.find?_some hid
  rw [Store.binds, Bool.and_eq_true] at hbinds
  exact hbinds.2

/-- Opening a scope for a node. -/
theorem extend (h : mem.Charted p chart D) (hn : p.Contains n)
    (hbindings : n.bindings?.isSome = true) (env : Environment) :
    ({ mem with store := (mem.store.extend env .variable).2 } : Memory).Charted p (chart.push n)
      D := by
  have hgrows := chart.grows_push n
  refine ⟨?_, Nat.lt_succ_of_lt h.base, fun id b hb => ?_, fun id hbase hsize => ?_⟩
  · simp only [Store.scopes_extend, Array.size_push, h.size]
    rfl
  · obtain ⟨hbase, hsize⟩ := h.known id b hb
    exact ⟨hbase, Nat.lt_succ_of_lt hsize⟩
  · rcases Nat.lt_succ_iff_lt_or_eq.1 hsize with hlt | rfl
    · rw [hgrows.owner id hlt]
      simp only [Store.scope_extend_of_lt (h.size.symm ▸ hlt)]
      exact (h.scopes id hbase hlt).grow hgrows
    · have howner : (chart.push n).owner chart.size = some n := Function.update_self ..
      rw [howner]
      simp only [← h.size, Store.scope_extend_self]
      apply Scope.charted_empty
      · intro b hb
        exact absurd (h.known _ b hb).2 (h.size ▸ Nat.lt_irrefl _)
      · intro m hm
        cases hm
        exact ⟨hn, hbindings⟩

/-- Binding the parameters of a function. -/
theorem bindParams {store : Store Value} {count : Nat} {params : List Name} {args : List Value}
    (h : (⟨store, count⟩ : Memory).Charted p chart D)
    (hid : chart.base ≤ env.scopeId ∧ env.scopeId < chart.size)
    (hparams : ∀ b ∈ params, b ∈ p.bindingsOf (chart.owner env.scopeId))
    (hargs : ∀ v ∈ args, v.Every (Closure.Charted p chart)) :
    (⟨Memory.bindParams store env params args, count⟩ : Memory).Charted p chart
      fun id b => D id b ∨ id = env.scopeId ∧ b ∈ params := by
  induction params generalizing store args D with
  | nil => exact h.congr rfl fun id b => by simp
  | cons param params ih =>
    obtain ⟨hparam, hparams⟩ := List.forall_mem_cons.1 hparams
    have hvalue : (args.headD .undefined).Every (Closure.Charted p chart) := by
      cases args with
      | nil => exact .undefined
      | cons v args => exact hargs v List.mem_cons_self
    have hfirst : (⟨store.declare env param.identifier (args.headD .undefined), count⟩ :
        Memory).Charted p chart fun id b => D id b ∨ id = env.scopeId ∧ b = param := by
      refine h.declareIn hid hvalue ⟨param, .inr ⟨rfl, rfl⟩, rfl⟩ (fun _ _ => .inl) ?_
      intro other b hb
      refine hb.imp_right fun hb => ?_
      obtain ⟨rfl, rfl⟩ := hb
      exact ⟨rfl, rfl, hparam⟩
    refine (ih hfirst hparams fun v hv => hargs v (List.mem_of_mem_tail hv)).congr rfl ?_
    intro id b
    rw [List.mem_cons, or_assoc, ← and_or_left]

/-- Opening a scope for a function and binding its parameters there. -/
theorem enter (h : mem.Charted p chart D) {site : Site} {params : List Name} {body : List Stmt}
    {args : List Value} (hn : p.Contains (.expr (.function site params body))) (env : Environment)
    (hargs : ∀ v ∈ args, v.Every (Closure.Charted p chart)) :
    ({ mem with
        store := Memory.bindParams (mem.store.extend env .variable).2
          (mem.store.extend env .variable).1 params args } : Memory).Charted p
      (chart.push (.expr (.function site params body)))
      fun id b => D id b ∨ id = (mem.store.extend env .variable).1.scopeId ∧ b ∈ params := by
  have hid : (mem.store.extend env .variable).1.scopeId = chart.size := h.size
  have howner : (chart.push (.expr (.function site params body))).owner chart.size =
      some (.expr (.function site params body)) := Function.update_self ..
  refine (h.extend hn rfl env).bindParams ?_ (fun b hb => ?_) fun v hv => ?_
  · rw [hid]
    exact ⟨Nat.le_of_lt h.base, Nat.lt_succ_self _⟩
  · rw [hid, howner]
    exact List.mem_append_left _ hb
  · exact (hargs v hv).mono fun _ hc => hc.grow (chart.grows_push _)

end Memory.Charted

end LWorkbench
