import LWorkbench.Proofs.Analysis.Notes
import LWorkbench.Proofs.Machine.Steps

/-!
# Analysis only annotates

Analysis reads the tree and writes notes into a table beside it. Of the notes about nodes that are
not names it changes nothing but the rule that is broken, and it never takes a rule back. What it
writes depends on the scopes of its chain and not on where they lie in the store, nor on notes that
are there already. So analysis on a new outermost scope finds the same when it is repeated.

## Main definitions

* `Note.binding`, `Analysis.defined` — what a note says about a name
* `Store.Alike`, `Environment.Alike`, `Work.Alike` — the same scopes at other places of a store
* `Analysis.Alike` — two analyses that have written the same

## Main results

* `Analysis.binding_perform` — chains and definitions are noted at names only
* `Analysis.Alike.drain` — alike analyses stay alike
* `Program.alike_annotateFrom` — analyses in alike chains write the same
* `Program.annotateFresh_again` — analysis in a new outermost scope finds the same when repeated
* `Program.analysis_only_annotates` — what analysis leaves as it is
-/

namespace LWorkbench

/-- What a note says about a name: its chain and its definition. -/
def Note.binding (note : Note) : Option Environment × Option NodeId :=
  (note.environment, note.definition)

namespace Analysis

variable {p : Program} {a b : Analysis} {env : Environment} {k i : NodeId} {x : Name} {w : Work}
  {definition : Option NodeId} {v : Violation} {duplicate : String → Violation}
  {items items' : List Work}

/-! ### Notes about other nodes than names -/

theorem binding_report (a : Analysis) (i : NodeId) (v : Violation) (k : NodeId) :
    (a.report i v).notes[k]?.map Note.binding = a.notes[k]?.map Note.binding := by
  rw [report, Array.getElem?_modify]
  split
  · rw [Option.map_map]
    rfl
  · rfl

/-- Chains and definitions are noted at names only; other nodes are only marked. -/
theorem binding_perform (p : Program) (a : Analysis) (h : ∀ x, .ofName x ∈ w.written → k ≠ x.id) :
    (a.perform p w).1.notes[k]?.map Note.binding = a.notes[k]?.map Note.binding := by
  -- Most items write about names, if they write at all.
  have hnames : (∀ n ∈ w.written, ∃ x, n = .ofName x) →
      (a.perform p w).1.notes[k]?.map Note.binding = a.notes[k]?.map Note.binding := by
    intro hwritten
    rw [notes_perform]
    intro hk
    obtain ⟨n, hn, rfl⟩ := List.mem_map.1 hk
    obtain ⟨x, rfl⟩ := hwritten n hn
    exact h x hn rfl
  have hcheck : ∀ {q : Prop} [Decidable q] {i : NodeId} {v : Violation},
      (if q then a.report i v else a).notes[k]?.map Note.binding =
        a.notes[k]?.map Note.binding := by
    intro q _ i v
    split
    · exact binding_report a i v k
    · rfl
  cases w with
  | stmt s env =>
    cases s with
    | breakTo site label | continueTo site label =>
      cases label with
      | none => exact hcheck
      | some label => exact hnames (by simp [Work.written])
    | returnWith site value => exact hcheck
    | _ => exact hnames (by simp [Work.written])
  | expr e env =>
    cases e with
    | function site params body =>
      refine hnames fun n hn => ?_
      obtain ⟨x, -, rfl⟩ := List.mem_map.1 hn
      exact ⟨x, rfl⟩
    | _ => exact hnames (by simp [Work.written])
  | _ => exact hnames (by simp [Work.written])

/-- Nodes that are not among the names of the pending items keep their chain and definition. -/
theorem Leads.binding_eq (h : Leads p a items b items')
    (hk : ∀ x, .ofName x ∈ items.flatMap Work.nodes → k ≠ x.id) :
    b.notes[k]?.map Note.binding = a.notes[k]?.map Note.binding := by
  induction h with
  | refl => rfl
  | @step b w rest h ih =>
    have hsubset := h.nodes_subset
    rw [List.flatMap_cons, List.append_subset] at hsubset
    have hwritten := List.Subset.trans (nodes_perform_subset p b w).1 hsubset.1
    rw [binding_perform p b fun x hx => hk x (hwritten hx), ih]

end Analysis

/-- Analysis gives chains and definitions to names only. -/
theorem Program.Formed.binding_annotateFrom {p : Program} (hp : p.Formed) (notes : Array Note)
    (store : Store NodeId) (env : Environment) {n : Node} (hn : p.Contains n)
    (hname : n.name? = none) :
    (p.annotateFrom notes store env).notes[n.id]?.map Note.binding =
      notes[n.id]?.map Note.binding := by
  refine (Analysis.leads_drain p _ _).binding_eq fun x hx hid => ?_
  have hcontains : p.Contains (.ofName x) := by
    rw [Program.contains_iff_mem]
    rw [Analysis.stmts_eq, Analysis.nodes_walks] at hx
    exact hx
  obtain rfl := hp.indexed.eq_of_id hn hcontains hid
  cases hname

/-! ### Scopes at other places -/

/-- From two numbers on the stores have the same scopes. -/
structure Store.Alike (i j : Nat) (s s' : Store NodeId) : Prop where
  size : ∃ m, s.scopes.size = i + m ∧ s'.scopes.size = j + m
  scope : ∀ id : Nat, s'.scope (j + id) = s.scope (i + id)

/-- The chains run through the same scopes, counted from two numbers on. -/
def Environment.Alike (i j : Nat) (env env' : Environment) : Prop :=
  ∃ ids : List Nat, env.scopeIds = ids.map (i + ·) ∧ env'.scopeIds = ids.map (j + ·)

variable {i j : Nat} {s s' : Store NodeId} {env env' : Environment} {kind : ScopeKind}
  {x : Name} {name : String}

theorem Environment.Alike.size_eq (h : env.Alike i j env') : env'.size = env.size := by
  obtain ⟨ids, hids, hids'⟩ := h
  have hsize : ∀ e : Environment, e.size = e.scopeIds.length := fun e => by
    simp [Environment.size, Environment.scopeIds, Environment.links]
  rw [hsize, hsize, hids, hids', List.length_map, List.length_map]

namespace Store.Alike

/-- What is found along alike chains is found at the same place. -/
theorem find? (h : s.Alike i j s') (henv : env.Alike i j env') (accept : Scope NodeId → Bool) :
    ∃ found : Option (Nat × Nat), s.find? env accept = found.map (fun f => (f.1, i + f.2)) ∧
      s'.find? env' accept = found.map fun f => (f.1, j + f.2) := by
  obtain ⟨ids, hids, hids'⟩ := henv
  rw [Store.find?, Store.find?, hids, hids']
  clear hids hids'
  generalize 0 = depth
  induction ids generalizing depth with
  | nil => exact ⟨none, rfl, rfl⟩
  | cons id ids ih =>
    simp only [List.map_cons, findFrom, h.scope id]
    split
    · exact ⟨some (depth, id), rfl, rfl⟩
    · exact ih (depth + 1)

theorem nearest? (h : s.Alike i j s') (henv : env.Alike i j env') (kind : ScopeKind) :
    ∃ found : Option Nat, s.nearest? env kind = found.map (i + ·) ∧
      s'.nearest? env' kind = found.map (j + ·) := by
  obtain ⟨found, hfound, hfound'⟩ := h.find? henv (·.kind == kind)
  refine ⟨found.map (·.2), ?_, ?_⟩
  · rw [Store.nearest?, hfound, Option.map_map, Option.map_map]
    rfl
  · rw [Store.nearest?, hfound', Option.map_map, Option.map_map]
    rfl

theorem resolveKind?_eq (h : s.Alike i j s') (henv : env.Alike i j env') :
    s'.resolveKind? env' name kind = s.resolveKind? env name kind := by
  obtain ⟨found, hfound, hfound'⟩ := h.find? henv (binds kind name)
  rw [resolveKind?, resolveKind?, hfound, hfound', Option.map_map, Option.map_map]
  rfl

theorem lookupKind?_eq (h : s.Alike i j s') (henv : env.Alike i j env') :
    s'.lookupKind? env' name kind = s.lookupKind? env name kind := by
  obtain ⟨found, hfound, hfound'⟩ := h.find? henv (binds kind name)
  rw [lookupKind?, lookupKind?, hfound, hfound']
  cases found with
  | none => rfl
  | some found => exact congrArg (Scope.get? · name) (h.scope found.2)

/-- Opening a scope in front of alike chains. -/
theorem extend (h : s.Alike i j s') (henv : env.Alike i j env') (kind : ScopeKind) :
    (s.extend env kind).1.Alike i j (s'.extend env' kind).1 ∧
      (s.extend env kind).2.Alike i j (s'.extend env' kind).2 := by
  obtain ⟨m, hsize, hsize'⟩ := h.size
  obtain ⟨ids, hids, hids'⟩ := henv
  have hscope : ∀ (t : Store NodeId) (e : Environment) (id : ScopeId),
      (t.extend e kind).2.scope id = if id = t.scopes.size then .empty kind else t.scope id := by
    intro t e id
    rw [Store.scope, Store.scopes_extend, Array.getElem?_push]
    split
    · rfl
    · rfl
  -- The new scope is the last one of each store, as far behind the two numbers.
  refine ⟨⟨m :: ids, ?_, ?_⟩, ⟨m + 1, ?_, ?_⟩, fun id => ?_⟩
  · rw [Store.scopeIds_extend, hsize, hids, List.map_cons]
  · rw [Store.scopeIds_extend, hsize', hids', List.map_cons]
  · rw [Store.scopes_extend, Array.size_push, hsize, Nat.add_assoc]
  · rw [Store.scopes_extend, Array.size_push, hsize', Nat.add_assoc]
  · rw [hscope, hscope, h.scope id, hsize, hsize']
    simp only [Nat.add_left_cancel_iff]

/-- Binding in scopes at the same place. -/
theorem declareIn (h : s.Alike i j s') (id : Nat) (name : String) (value : NodeId) :
    (s.declareIn (i + id) name value).Alike i j (s'.declareIn (j + id) name value) := by
  obtain ⟨m, hsize, hsize'⟩ := h.size
  refine ⟨⟨m, ?_, ?_⟩, fun other => ?_⟩
  · rw [Store.size_declareIn, hsize]
  · rw [Store.size_declareIn, hsize']
  · by_cases hother : other = id
    · subst hother
      rcases Nat.lt_or_ge other m with hlt | hge
      · have hin : i + other < s.scopes.size := by omega
        have hin' : j + other < s'.scopes.size := by omega
        rw [Store.scope_declareIn_self hin, Store.scope_declareIn_self hin', h.scope]
      · -- Beyond the stores there is nothing to bind in.
        have hbeyond : ∀ (t : Store NodeId) (k : ScopeId), t.scopes.size ≤ k →
            (t.declareIn k name value).scope k = .empty .variable := by
          intro t k hk
          rw [Store.scope, Array.getElem?_eq_none (by rw [Store.size_declareIn]; exact hk)]
          rfl
        rw [hbeyond _ _ (by omega), hbeyond _ _ (by omega)]
    · have hne : i + other ≠ i + id := by omega
      have hne' : j + other ≠ j + id := by omega
      rw [Store.scope_declareIn_of_ne hne, Store.scope_declareIn_of_ne hne', h.scope]

end Store.Alike

/-- New outermost scopes are alike, whatever the stores have in front of them. -/
theorem Store.alike_root (s s' : Store NodeId) :
    s.root.1.Alike s.scopes.size s'.scopes.size s'.root.1 ∧
      s.root.2.Alike s.scopes.size s'.scopes.size s'.root.2 := by
  have hscope : ∀ (t : Store NodeId) (id : Nat),
      t.root.2.scope (t.scopes.size + id) = .empty .variable := by
    intro t id
    have hpush : t.root.2.scopes = t.scopes.push (.empty .variable) := rfl
    rw [Store.scope, hpush, Array.getElem?_push]
    split
    · rfl
    · rw [Array.getElem?_eq_none (Nat.le_add_right _ _)]
      rfl
  refine ⟨⟨[0], rfl, rfl⟩, ⟨1, ?_, ?_⟩, fun id => ?_⟩
  · exact Array.size_push ..
  · exact Array.size_push ..
  · rw [hscope, hscope]

/-- A store and a chain are like themselves. -/
theorem Store.Alike.refl (s : Store NodeId) : s.Alike 0 0 s :=
  ⟨⟨s.scopes.size, (Nat.zero_add _).symm, (Nat.zero_add _).symm⟩, fun _ => rfl⟩

theorem Environment.Alike.refl (env : Environment) : env.Alike 0 0 env :=
  ⟨env.scopeIds, by simp, by simp⟩

/-! ### Alike analyses -/

namespace Analysis

/-- The definition that is noted at a node. -/
def defined (notes : Array Note) (k : NodeId) : Option NodeId := notes[k]?.bind Note.definition

/-- Two analyses have gone on from earlier notes alike: they have marked the same, and given the
same definitions to the same names. -/
structure Alike (i j : Nat) (before before' : Array Note) (a b : Analysis) : Prop where
  store : a.store.Alike i j b.store
  size : b.notes.size = a.notes.size
  reports : ∃ rs, Reports before a.notes rs ∧ Reports before' b.notes rs
  defined : ∀ k, defined b.notes k = defined a.notes k ∨
    defined a.notes k = defined before k ∧ defined b.notes k = defined before' k
  loopDepth : b.loopDepth = a.loopDepth
  functionDepth : b.functionDepth = a.functionDepth
  functionBase : b.functionBase = a.functionBase

end Analysis

/-- Items that are about the same, in alike chains. -/
inductive Work.Alike (i j : Nat) : Work → Work → Prop
  | stmt {s : Stmt} {env env' : Environment} (henv : env.Alike i j env') :
    Alike i j (.stmt s env) (.stmt s env')
  | expr {e : Expr} {env env' : Environment} (henv : env.Alike i j env') :
    Alike i j (.expr e env) (.expr e env')
  | declare {x : Name} {env env' : Environment} (henv : env.Alike i j env') :
    Alike i j (.declare x env) (.declare x env')
  | reference {x : Name} {env env' : Environment} (henv : env.Alike i j env') :
    Alike i j (.reference x env) (.reference x env')
  | leaveLoop : Alike i j .leaveLoop .leaveLoop
  | leaveFunction {loopDepth functionBase : Nat} :
    Alike i j (.leaveFunction loopDepth functionBase) (.leaveFunction loopDepth functionBase)

namespace Analysis

variable {p : Program} {a b : Analysis} {before before' : Array Note} {w w' : Work}
  {items items' : List Work} {v : Violation} {definition : Option NodeId} {k : NodeId}
  {duplicate : String → Violation}

/-- Marking the same once more changes nothing. -/
theorem Reports.mark_again {notes notes' notes'' : Array Note} {rs : List (NodeId × Violation)}
    (h : Reports notes notes' rs) (h' : Reports notes' notes'' rs) (k : NodeId) :
    Analysis.mark notes'' k = Analysis.mark notes' k := by
  by_cases hk : k < notes.size
  · have hk' : k < notes'.size := h.size.symm ▸ hk
    rw [h'.mark k hk', h.mark k hk, Option.or_assoc, Option.or_self]
  · have hk' : notes'.size ≤ k := h.size.symm ▸ Nat.le_of_not_lt hk
    rw [Analysis.mark, Analysis.mark, Array.getElem?_eq_none hk',
      Array.getElem?_eq_none (h'.size.symm ▸ hk')]

theorem defined_report (a : Analysis) (i : NodeId) (v : Violation) (k : NodeId) :
    defined (a.report i v).notes k = defined a.notes k := by
  rw [defined, report, Array.getElem?_modify]
  split
  · rw [Option.bind_map]
    rfl
  · rfl

theorem defined_note (a : Analysis) (x : Name) (env : Environment) (definition : Option NodeId)
    (k : NodeId) : defined (a.note x env definition).notes k =
      if x.id = k then a.notes[k]?.bind fun _ => definition else defined a.notes k := by
  rw [defined, note, Array.getElem?_modify]
  split
  · rw [Option.bind_map]
    rfl
  · rfl

namespace Alike

/-- Marking the same node. -/
theorem report (h : Alike i j before before' a b) (k : NodeId) (v : Violation) :
    Alike i j before before' (a.report k v) (b.report k v) := by
  obtain ⟨rs, hrs, hrs'⟩ := h.reports
  refine ⟨h.store, ?_, ⟨rs ++ [(k, v)], hrs.trans (.report a k v), hrs'.trans (.report b k v)⟩, ?_,
    h.loopDepth, h.functionDepth, h.functionBase⟩
  · exact Array.size_modify.trans (h.size.trans Array.size_modify.symm)
  · intro id
    rw [defined_report, defined_report]
    exact h.defined id

theorem report_if (h : Alike i j before before' a b) {q : Prop} [Decidable q] (k : NodeId)
    (v : Violation) :
    Alike i j before before' (if q then a.report k v else a) (if q then b.report k v else b) := by
  split
  · exact h.report k v
  · exact h

/-- Giving the same definition to a name. -/
theorem note (h : Alike i j before before' a b) (x : Name) (env env' : Environment)
    (definition : Option NodeId) :
    Alike i j before before' (a.note x env definition) (b.note x env' definition) := by
  obtain ⟨rs, hrs, hrs'⟩ := h.reports
  refine ⟨h.store, ?_, ⟨rs ++ [], hrs.trans (.note a x env definition),
    hrs'.trans (.note b x env' definition)⟩, ?_, h.loopDepth, h.functionDepth, h.functionBase⟩
  · exact Array.size_modify.trans (h.size.trans Array.size_modify.symm)
  · intro k
    rw [defined_note, defined_note]
    split
    · -- Both have a note for the name, or neither has.
      left
      by_cases hk : k < a.notes.size
      · rw [Array.getElem?_eq_getElem hk, Array.getElem?_eq_getElem (h.size.symm ▸ hk)]
        rfl
      · rw [Array.getElem?_eq_none (Nat.le_of_not_lt hk),
          Array.getElem?_eq_none (h.size.symm ▸ Nat.le_of_not_lt hk)]
    · exact h.defined k

/-- Binding a name, or marking it as bound already. -/
theorem bind (h : Alike i j before before' a b) (henv : env.Alike i j env') (x : Name)
    (duplicate : String → Violation) :
    Alike i j before before' (a.bind x env duplicate) (b.bind x env' duplicate) := by
  have hnote := h.note x env env' none
  -- Both bind in the scope at the same place, and it has the same names in both.
  obtain ⟨found, hfound, hfound'⟩ := hnote.store.nearest? henv x.kind
  simp only [Analysis.bind, hfound, hfound']
  cases found with
  | none => exact hnote
  | some id =>
    simp only [Option.map_some, hnote.store.scope id]
    split
    · exact hnote.report x.id _
    · exact ⟨hnote.store.declareIn id _ _, hnote.size, hnote.reports, hnote.defined,
        hnote.loopDepth, hnote.functionDepth, hnote.functionBase⟩

theorem bind_all (h : Alike i j before before' a b) (henv : env.Alike i j env')
    (params : List Name) (duplicate : String → Violation) :
    Alike i j before before' (params.foldl (fun a param => a.bind param env duplicate) a)
      (params.foldl (fun b param => b.bind param env' duplicate) b) := by
  induction params generalizing a b with
  | nil => exact h
  | cons x params ih => exact ih (h.bind henv x duplicate)

theorem definition?_eq (h : Alike i j before before' a b) (henv : env.Alike i j env') :
    b.definition? x env' = a.definition? x env :=
  h.store.lookupKind?_eq henv

theorem reachableLabel?_eq (h : Alike i j before before' a b) (henv : env.Alike i j env') :
    b.reachableLabel? x env' = a.reachableLabel? x env := by
  unfold reachableLabel?
  rw [h.store.resolveKind?_eq henv, h.definition?_eq henv, henv.size_eq, h.functionBase]

theorem refer (h : Alike i j before before' a b) (henv : env.Alike i j env') (x : Name) :
    Alike i j before before' (a.refer x env) (b.refer x env') := by
  rw [Analysis.refer, Analysis.refer, h.definition?_eq henv]
  exact h.note x env env' _

theorem referLabel (h : Alike i j before before' a b) (henv : env.Alike i j env') (x : Name) :
    Alike i j before before' (a.referLabel x env) (b.referLabel x env') := by
  rw [Analysis.referLabel, Analysis.referLabel, h.reachableLabel?_eq henv]
  split
  · exact h.note x env env' _
  · exact (h.note x env env' none).report x.id _

theorem continueLabel (p : Program) (h : Alike i j before before' a b)
    (henv : env.Alike i j env') (x : Name) :
    Alike i j before before' (a.continueLabel p x env) (b.continueLabel p x env') := by
  have hrefer := h.referLabel henv x
  rw [Analysis.continueLabel, Analysis.continueLabel, h.reachableLabel?_eq henv]
  split
  · split
    · exact hrefer
    · exact hrefer.report x.id _
  · exact hrefer

/-- Opening a scope. -/
theorem extend (h : Alike i j before before' a b) (henv : env.Alike i j env')
    (kind : ScopeKind) :
    Alike i j before before' { a with store := (a.store.extend env kind).2 }
        { b with store := (b.store.extend env' kind).2 } ∧
      (a.store.extend env kind).1.Alike i j (b.store.extend env' kind).1 := by
  obtain ⟨hinner, hstore⟩ := h.store.extend henv kind
  exact ⟨⟨hstore, h.size, h.reports, h.defined, h.loopDepth, h.functionDepth, h.functionBase⟩,
    hinner⟩

end Alike

theorem alike_exprs (henv : env.Alike i j env') (es : List Expr) :
    List.Forall₂ (Work.Alike i j) (exprs es env) (exprs es env') := by
  induction es with
  | nil => exact .nil
  | cons e es ih => exact .cons (.expr henv) ih

theorem alike_stmts (henv : env.Alike i j env') (ss : List Stmt) :
    List.Forall₂ (Work.Alike i j) (stmts ss env) (stmts ss env') := by
  induction ss with
  | nil => exact .nil
  | cons s ss ih => exact .cons (.stmt henv) ih

namespace Alike

/-- Walking a statement keeps alike analyses alike, and calls for alike items. -/
theorem performStmt (p : Program) (h : Alike i j before before' a b) (henv : env.Alike i j env')
    (s : Stmt) :
    Alike i j before before' (a.performStmt p env s).1 (b.performStmt p env' s).1 ∧
      List.Forall₂ (Work.Alike i j) (a.performStmt p env s).2 (b.performStmt p env' s).2 := by
  -- Only a block and a labeled statement open scopes, and both analyses open them alike.
  cases s with
  | declare site x init =>
    exact ⟨h, List.rel_append (alike_exprs henv init.toList) (.cons (.declare henv) .nil)⟩
  | evaluate site e => exact ⟨h, .cons (.expr henv) .nil⟩
  | block site body =>
    obtain ⟨hopened, hinner⟩ := h.extend henv .variable
    exact ⟨hopened, alike_stmts hinner body⟩
  | labeled site label body =>
    obtain ⟨hopened, hinner⟩ := h.extend henv .label
    exact ⟨hopened.bind hinner label .duplicateLabel, .cons (.stmt hinner) .nil⟩
  | branch site condition thenBranch elseBranch =>
    exact ⟨h, .cons (.expr henv) (.cons (.stmt henv) (alike_stmts henv _))⟩
  | loop site condition body =>
    refine ⟨⟨h.store, h.size, h.reports, h.defined, ?_, h.functionDepth, h.functionBase⟩,
      .cons (.expr henv) (.cons (.stmt henv) (.cons .leaveLoop .nil))⟩
    exact congrArg (· + 1) h.loopDepth
  | breakTo site label =>
    cases label with
    | none =>
      simp only [Analysis.performStmt, h.loopDepth]
      exact ⟨h.report_if _ _, .nil⟩
    | some label => exact ⟨h.referLabel henv label, .nil⟩
  | continueTo site label =>
    cases label with
    | none =>
      simp only [Analysis.performStmt, h.loopDepth]
      exact ⟨h.report_if _ _, .nil⟩
    | some label => exact ⟨h.continueLabel p henv label, .nil⟩
  | returnWith site value =>
    simp only [Analysis.performStmt, h.functionDepth]
    exact ⟨h.report_if _ _, alike_exprs henv _⟩

/-- Walking an expression. -/
theorem performExpr (h : Alike i j before before' a b) (henv : env.Alike i j env') (e : Expr) :
    Alike i j before before' (a.performExpr env e).1 (b.performExpr env' e).1 ∧
      List.Forall₂ (Work.Alike i j) (a.performExpr env e).2 (b.performExpr env' e).2 := by
  cases e with
  | literal => exact ⟨h, .nil⟩
  | name x => exact ⟨h.refer henv x, .nil⟩
  | array | tuple | object => exact ⟨h, alike_exprs henv _⟩
  | function site params body =>
    obtain ⟨hopened, hinner⟩ := h.extend henv .variable
    have hbound := hopened.bind_all hinner params .duplicateParameter
    -- Jumps in the body are checked against the depth of the chain, which is the same for both.
    refine ⟨⟨hbound.store, hbound.size, hbound.reports, hbound.defined, rfl, ?_, hinner.size_eq⟩,
      ?_⟩
    · exact congrArg (· + 1) h.functionDepth
    · simp only [Analysis.performExpr, h.loopDepth, h.functionBase]
      exact List.rel_append (alike_stmts hinner body) (.cons .leaveFunction .nil)
  | unary | member => exact ⟨h, .cons (.expr henv) .nil⟩
  | binary | logical | index => exact ⟨h, .cons (.expr henv) (.cons (.expr henv) .nil)⟩
  | assign => exact ⟨h, .cons (.expr henv) (.cons (.reference henv) .nil)⟩
  | call => exact ⟨h, .cons (.expr henv) (alike_exprs henv _)⟩

/-- Doing alike items. -/
theorem perform (p : Program) (h : Alike i j before before' a b) (hw : w.Alike i j w') :
    Alike i j before before' (a.perform p w).1 (b.perform p w').1 ∧
      List.Forall₂ (Work.Alike i j) (a.perform p w).2 (b.perform p w').2 := by
  cases hw with
  | stmt henv => exact h.performStmt p henv _
  | expr henv => exact h.performExpr henv _
  | declare henv => exact ⟨h.bind henv _ _, .nil⟩
  | reference henv => exact ⟨h.refer henv _, .nil⟩
  | leaveLoop =>
    refine ⟨⟨h.store, h.size, h.reports, h.defined, ?_, h.functionDepth, h.functionBase⟩, .nil⟩
    exact congrArg (· - 1) h.loopDepth
  | leaveFunction =>
    refine ⟨⟨h.store, h.size, h.reports, h.defined, rfl, ?_, rfl⟩, .nil⟩
    exact congrArg (· - 1) h.functionDepth

/-- Alike analyses stay alike until all items are done. -/
theorem drain (p : Program) (h : Alike i j before before' a b)
    (hitems : List.Forall₂ (Work.Alike i j) items items') :
    Alike i j before before' (a.drain p items) (b.drain p items') := by
  -- Both go through the same items, and what one calls for the other calls for as well.
  fun_induction Analysis.drain p a items generalizing b items' with
  | case1 a =>
    cases hitems
    rw [drain_nil]
    exact h
  | case2 a w items ih =>
    obtain _ | ⟨hw, hitems⟩ := hitems
    obtain ⟨hdone, hcalled⟩ := h.perform p hw
    rw [drain_cons]
    exact ih hdone (List.rel_append hcalled hitems)

end Alike

end Analysis

namespace Program

open Analysis

variable {p : Program}

/-- Analyses in alike stores and chains write the same. -/
theorem alike_annotateFrom (p : Program) {notes notes' : Array Note}
    (hsize : notes'.size = notes.size) (hstore : s.Alike i j s') (henv : env.Alike i j env') :
    (∃ rs, Reports notes (p.annotateFrom notes s env).notes rs ∧
      Reports notes' (p.annotateFrom notes' s' env').notes rs) ∧
    ∀ k, defined (p.annotateFrom notes' s' env').notes k =
        defined (p.annotateFrom notes s env).notes k ∨
      defined (p.annotateFrom notes s env).notes k = defined notes k ∧
        defined (p.annotateFrom notes' s' env').notes k = defined notes' k := by
  have hstart : Analysis.Alike i j notes notes' ⟨notes, s, 0, 0, env.size⟩
      ⟨notes', s', 0, 0, env'.size⟩ :=
    ⟨hstore, hsize, ⟨[], .refl notes, .refl notes'⟩, fun _ => .inr ⟨rfl, rfl⟩, rfl, rfl,
      henv.size_eq⟩
  have hdrain := hstart.drain p (alike_stmts henv p.body)
  exact ⟨hdrain.reports, hdrain.defined⟩

/-- Analysis adds marks, and takes none back. -/
theorem exists_reports_annotateFrom (p : Program) (notes : Array Note) (s : Store NodeId)
    (env : Environment) : ∃ rs, Reports notes (p.annotateFrom notes s env).notes rs := by
  obtain ⟨⟨rs, hrs, -⟩, -⟩ :=
    p.alike_annotateFrom rfl (Store.Alike.refl s) (Environment.Alike.refl env)
  exact ⟨rs, hrs⟩

theorem mark_eq_of_some {notes : Array Note} {s : Store NodeId} {env : Environment} {k : NodeId}
    {v : Violation} (hv : mark notes k = some v) :
    mark (p.annotateFrom notes s env).notes k = some v := by
  obtain ⟨rs, hrs⟩ := p.exists_reports_annotateFrom notes s env
  obtain ⟨note, hnote, -⟩ := Option.bind_eq_some_iff.1 hv
  have hk : k < notes.size := (Array.getElem?_eq_some_iff.1 hnote).1
  rw [hrs.mark k hk, hv, Option.some_or]

/-- Analyzes a program that already has notes, in a new outermost scope. -/
def annotateFresh (p : Program) (notes : Array Note) (s : Store NodeId) : Annotated :=
  p.annotateFrom notes s.root.2 s.root.1

/-- Analysis in a new outermost scope finds the same when it is repeated. -/
theorem annotateFresh_again (p : Program) (notes : Array Note) (s s' : Store NodeId) (k : NodeId) :
    mark (p.annotateFresh (p.annotateFresh notes s).notes s').notes k =
        mark (p.annotateFresh notes s).notes k ∧
      defined (p.annotateFresh (p.annotateFresh notes s).notes s').notes k =
        defined (p.annotateFresh notes s).notes k := by
  obtain ⟨henv, hstore⟩ := Store.alike_root s s'
  have hsize : (p.annotateFresh notes s).notes.size = notes.size := by
    obtain ⟨rs, hrs⟩ := p.exists_reports_annotateFrom notes s.root.2 s.root.1
    exact hrs.size
  obtain ⟨⟨rs, hrs, hrs'⟩, hdefined⟩ := p.alike_annotateFrom hsize hstore henv
  refine ⟨hrs.mark_again hrs' k, ?_⟩
  -- Where the first analysis gave no definition, the second one gives none either.
  rcases hdefined k with heq | ⟨-, heq⟩
  · exact heq
  · exact heq

/-- Analysis only annotates. Whatever a program was analyzed with, the program stays as it is, so a
machine that runs it goes through the same states with the same outcomes. Both hold by `rfl`: the
notes stand in a table beside the tree, under the numbers of the nodes, so the tree has no field
that analysis could write to, and a machine is given the tree alone.

What is proved is about the table. Nodes that are not names keep their notes up to the rule that is
broken, and rules that are marked stay marked. Analyzing once more in a new outermost scope, after an
analysis in a new outermost scope, leaves the same rules and definitions on every node. -/
theorem analysis_only_annotates {text : String} (hparse : parse text = .ok p) :
    (∀ (notes : Array Note) (store : Store NodeId) (env : Environment),
      (p.annotateFrom notes store env).program = p ∧
      (p.annotateFrom notes store env).notes.size = notes.size ∧
      (∀ n, p.Contains n → n.name? = none →
        (p.annotateFrom notes store env).notes[n.id]?.map Note.binding =
          notes[n.id]?.map Note.binding) ∧
      (∀ k v, mark notes k = some v → mark (p.annotateFrom notes store env).notes k = some v) ∧
      ∀ (m : Machine) (steps : Nat),
        (m.load (p.annotateFrom notes store env).program).after steps = (m.load p).after steps ∧
        ((m.load (p.annotateFrom notes store env).program).after steps).step =
          ((m.load p).after steps).step) ∧
    ∀ (notes : Array Note) (s s' : Store NodeId) (k : NodeId),
      mark (p.annotateFresh (p.annotateFresh notes s).notes s').notes k =
          mark (p.annotateFresh notes s).notes k ∧
        defined (p.annotateFresh (p.annotateFresh notes s).notes s').notes k =
          defined (p.annotateFresh notes s).notes k := by
  have hp : p.Formed := formed_of_parse hparse
  refine ⟨fun notes store env => ⟨rfl, ?_, ?_, ?_, fun m steps => ⟨rfl, rfl⟩⟩, ?_⟩
  · obtain ⟨rs, hrs⟩ := p.exists_reports_annotateFrom notes store env
    exact hrs.size
  · intro n hn hname
    exact hp.binding_annotateFrom notes store env hn hname
  · intro k v hv
    exact mark_eq_of_some hv
  · exact p.annotateFresh_again

/-- The second declaration of a variable stays marked when the analysis is repeated. -/
theorem analysis_only_annotates_redeclaration :
    ∃ p, parse "var a;var a;" = .ok p ∧
      mark (p.annotateFresh p.annotate.notes .empty).notes 2 =
        some (.duplicateDeclaration "a") := by
  obtain ⟨p, hparse, hbody⟩ := exists_of_parse_body parse_redeclaration
  have hlocated : p.Located []
      (.stmt (.declare ⟨3, ⟨6, 12⟩⟩ ⟨⟨2, ⟨10, 11⟩⟩, "a", .variable⟩ none)) := by
    refine ⟨_, ?_, .root⟩
    rw [hbody]
    exact List.mem_cons_of_mem _ List.mem_cons_self
  have hscope : p.bindings [] = [⟨⟨0, ⟨4, 5⟩⟩, "a", .variable⟩] ++
      ⟨⟨2, ⟨10, 11⟩⟩, "a", .variable⟩ :: [] := by
    rw [bindings, hbody]
    rfl
  have hmark := (formed_of_parse hparse).mark_annotate_iff.2
    ⟨_, _, hlocated.child List.mem_cons_self, rfl,
      .duplicateDeclaration hscope List.mem_cons_self rfl⟩
  obtain ⟨-, hagain⟩ := analysis_only_annotates hparse
  exact ⟨p, hparse, (hagain p.blankNotes .empty .empty 2).1.trans hmark⟩

end Program

end LWorkbench
