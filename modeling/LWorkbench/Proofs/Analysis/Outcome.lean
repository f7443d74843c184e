import LWorkbench.Proofs.Analysis.Rules
import LWorkbench.Proofs.Analysis.Scopes

/-!
# Outcomes of analysis

What walking a part of a program leaves behind: the nodes of the part that break a rule are marked,
the names that the part binds are bound in the nearest scope, and the counts of enclosing loops and
functions are as before. Outcomes of parts add up, so that only the single steps of the walk are
left to look at.

A node may be marked once only, and the first mark counts. That is why marks are collected in a list
in the order of the walk, of which the first entry for a node counts.

## Main definitions

* `Analysis.mark` — the rule that a node is marked as breaking
* `Analysis.Reports` — the marks that were added, in order
* `Analysis.Changes` — marks and bindings of a part
* `Analysis.Outcome` — marks and bindings of a part whose end is as deep inside loops and functions
  as its beginning

## Main results

* `Analysis.Outcome.trans` — outcomes of parts add up
* `Analysis.Outcome.check` — testing a rule at a node
* `Analysis.Outcome.bind` — binding a name
-/

namespace LWorkbench

namespace Analysis

/-- The rule that a node is marked as breaking. -/
def mark (notes : Array Note) (k : NodeId) : Option Violation := notes[k]?.bind Note.violation

/-- The marks that were added, in the order in which they were. -/
structure Reports (notes notes' : Array Note) (rs : List (NodeId × Violation)) : Prop where
  size : notes'.size = notes.size
  mark : ∀ k < notes.size, mark notes' k = (mark notes k).or (rs.lookup k)

/-- A part of the program that consists of the nodes at some places is walked: the nodes that break
a rule are marked, and the names that the part binds are bound in the scope `here`. -/
structure Changes (p : Program) (a a' : Analysis) (here : ScopeId) (names : List Name)
    (places : List Node → Node → Prop) : Prop where
  grows : a.store.Grows a'.store here names
  reports : ∃ rs, Reports a.notes a'.notes rs ∧ ∀ k v, (k, v) ∈ rs ↔
    ∃ around n, places around n ∧ n.id = k ∧ p.Violates around n v

/-- A part of the program is walked, and no loop or function is entered and not left. -/
structure Outcome (p : Program) (a a' : Analysis) (here : ScopeId) (names : List Name)
    (places : List Node → Node → Prop) : Prop extends
    Changes p a a' here names places where
  loopDepth : a'.loopDepth = a.loopDepth
  functionDepth : a'.functionDepth = a.functionDepth
  functionBase : a'.functionBase = a.functionBase

/-- The one place of a node. -/
def At (around : List Node) (n : Node) (outer : List Node) (m : Node) : Prop :=
  outer = around ∧ m = n

variable {p : Program} {notes notes' notes'' : Array Note} {a a' a'' : Analysis}
  {here : ScopeId} {names names' before : List Name} {places places' : List Node → Node → Prop}
  {rs rs' : List (NodeId × Violation)} {around : List Node} {n : Node} {name : Name}
  {v : Violation} {env : Environment}

namespace Reports

theorem refl (notes : Array Note) : Reports notes notes [] :=
  ⟨rfl, fun k _ => by simp⟩

theorem trans (h : Reports notes notes' rs) (h' : Reports notes' notes'' rs') :
    Reports notes notes'' (rs ++ rs') := by
  refine ⟨h'.size.trans h.size, fun k hk => ?_⟩
  rw [h'.mark k (h.size.symm ▸ hk), h.mark k hk, List.lookup_append, Option.or_assoc]

theorem note (a : Analysis) (name : Name) (env : Environment) (definition : Option NodeId) :
    Reports a.notes (a.note name env definition).notes [] := by
  refine ⟨Array.size_modify, fun k hk => ?_⟩
  simp only [Analysis.mark, Analysis.note, Array.getElem?_modify, List.lookup_nil, Option.or_none]
  split
  · cases a.notes[k]? <;> rfl
  · rfl

theorem report (a : Analysis) (k : NodeId) (v : Violation) :
    Reports a.notes (a.report k v).notes [(k, v)] := by
  refine ⟨Array.size_modify, fun i hi => ?_⟩
  simp only [Analysis.mark, Analysis.report, Array.getElem?_modify, List.lookup_cons,
    List.lookup_nil]
  -- A node that is marked already keeps its mark, which is what `Option.or` says.
  by_cases h : k = i
  · subst h
    simp [hi]
  · rw [if_neg h, beq_eq_false_iff_ne.2 (Ne.symm h)]
    simp

end Reports

namespace Changes

theorem trans (h : a.Changes p a' here names places) (h' : a'.Changes p a'' here names' places') :
    a.Changes p a'' here (names ++ names') fun outer m => places outer m ∨ places' outer m := by
  refine ⟨h.grows.trans h'.grows, ?_⟩
  obtain ⟨rs, hrs, hmem⟩ := h.reports
  obtain ⟨rs', hrs', hmem'⟩ := h'.reports
  refine ⟨rs ++ rs', hrs.trans hrs', fun k v => ?_⟩
  simp only [List.mem_append, hmem, hmem', or_and_right, exists_or]

/-- Only nodes that break a rule matter. -/
theorem congr (h : a.Changes p a' here names places)
    (hplaces : ∀ outer m v, p.Violates outer m v → (places outer m ↔ places' outer m)) :
    a.Changes p a' here names places' := by
  refine ⟨h.grows, ?_⟩
  obtain ⟨rs, hrs, hmem⟩ := h.reports
  refine ⟨rs, hrs, fun k v => ?_⟩
  rw [hmem]
  constructor
  · rintro ⟨outer, m, hm, hid, hv⟩
    exact ⟨outer, m, (hplaces outer m v hv).1 hm, hid, hv⟩
  · rintro ⟨outer, m, hm, hid, hv⟩
    exact ⟨outer, m, (hplaces outer m v hv).2 hm, hid, hv⟩

/-- What is bound inside a scope of its own is not bound around it. -/
theorem inner {kind : ScopeKind}
    (h : Changes p { a with store := (a.store.extend env kind).2 } a' a.store.scopes.size names
      places) (hhere : here < a.store.scopes.size) : a.Changes p a' here [] places := by
  have hgrows : (a.store.extend env kind).2.Grows a'.store a.store.scopes.size names := h.grows
  exact ⟨hgrows.inner hhere, h.reports⟩

end Changes

namespace Outcome

theorem trans (h : a.Outcome p a' here names places) (h' : a'.Outcome p a'' here names' places') :
    a.Outcome p a'' here (names ++ names') fun outer m => places outer m ∨ places' outer m :=
  ⟨h.toChanges.trans h'.toChanges, h'.loopDepth.trans h.loopDepth,
    h'.functionDepth.trans h.functionDepth, h'.functionBase.trans h.functionBase⟩

theorem congr (h : a.Outcome p a' here names places)
    (hplaces : ∀ outer m v, p.Violates outer m v → (places outer m ↔ places' outer m)) :
    a.Outcome p a' here names places' :=
  ⟨h.toChanges.congr hplaces, h.loopDepth, h.functionDepth, h.functionBase⟩

/-! ### Single steps -/

/-- A part without nodes changes nothing. -/
theorem refl (a : Analysis) (here : ScopeId) : a.Outcome p a here [] fun _ _ => False :=
  ⟨⟨.refl _ _, [], .refl _, by simp⟩, rfl, rfl, rfl⟩

/-- The note of a name is no mark. -/
theorem note (a : Analysis) (here : ScopeId) (name : Name) (env : Environment)
    (definition : Option NodeId) :
    a.Outcome p (a.note name env definition) here [] fun _ _ => False :=
  ⟨⟨.refl _ _, [], .note a name env definition, by simp⟩, rfl, rfl, rfl⟩

/-- A node that breaks no rule need not be looked at. -/
theorem skip (h : a.Outcome p a' here names fun _ _ => False)
    (hn : ∀ v, ¬ p.Violates around n v) : a.Outcome p a' here names (At around n) := by
  refine h.congr fun outer m v hv => ?_
  constructor
  · exact False.elim
  · rintro ⟨rfl, rfl⟩
    exact hn v hv

/-- A node that breaks a rule is marked. -/
theorem report (a : Analysis) (here : ScopeId) (hv : p.Violates around n v) :
    a.Outcome p (a.report n.id v) here [] (At around n) := by
  refine ⟨⟨.refl _ _, [(n.id, v)], .report a n.id v, fun k v' => ?_⟩, rfl, rfl, rfl⟩
  rw [List.mem_singleton, Prod.mk.injEq]
  constructor
  · rintro ⟨rfl, rfl⟩
    exact ⟨around, n, ⟨rfl, rfl⟩, rfl, hv⟩
  · rintro ⟨outer, m, ⟨rfl, rfl⟩, rfl, hv'⟩
    exact ⟨rfl, hv'.unique hv⟩

/-- Testing a rule at a node marks the node exactly if it breaks the rule. -/
theorem check {condition : Prop} [Decidable condition] {k : NodeId} (a : Analysis)
    (here : ScopeId) (hid : n.id = k) (hrule : ∀ v', p.Violates around n v' ↔ v' = v ∧ condition) :
    a.Outcome p (if condition then a.report k v else a) here [] (At around n) := by
  subst hid
  split
  · rename_i hcondition
    exact .report a here ((hrule v).2 ⟨rfl, hcondition⟩)
  · rename_i hcondition
    exact .skip (.refl a here) fun v' hv => hcondition ((hrule v').1 hv).2

/-- Binding a name marks the name exactly if it is bound already. -/
theorem bind {duplicate : String → Violation} (hholds : a.store.Holds env here before)
    (hkind : name.kind = .variable)
    (hrule : ∀ v, p.Violates around (.ofName name) v ↔ v = duplicate name.identifier ∧
      ∃ earlier ∈ before, earlier.identifier = name.identifier) :
    a.Outcome p (a.bind name env duplicate) here [name] (At around (.ofName name)) := by
  have hnote : a.Outcome p (a.note name env none) here [] fun _ _ => False :=
    .note a here name env _
  have hnearest : (a.note name env none).store.nearest? env name.kind = some here := by
    rw [hkind]
    exact hholds.nearest
  simp only [Analysis.bind, hnearest]
  split
  · rename_i hbound
    have hv : p.Violates around (.ofName name) (duplicate name.identifier) :=
      (hrule _).2 ⟨rfl, (hholds.contains _).1 hbound⟩
    -- The name is bound already. It counts as bound once more, which changes nothing.
    have hreport := hnote.trans (.report _ here hv)
    refine congr ⟨⟨.of_contains hbound, hreport.reports⟩, rfl, rfl, rfl⟩ fun outer m v _ => ?_
    rw [false_or]
  · rename_i hbound
    exact skip ⟨⟨.declareIn hholds.lt, hnote.reports⟩, rfl, rfl, rfl⟩ fun v hv =>
      hbound ((hholds.contains _).2 ((hrule v).1 hv).2)

end Outcome

end Analysis

end LWorkbench
