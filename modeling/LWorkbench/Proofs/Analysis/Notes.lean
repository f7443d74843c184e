import LWorkbench.Editor.Binding
import LWorkbench.Proofs.Analysis.Tracking

/-!
# Notes about names

Analysis writes one note about every name of a program: the chain that is in force at the name, and
the binding that a reference already has. A name comes up in one of four ways, told by the node
directly around it. It is bound by a declaration or a function, it labels a statement, it is the
label that a jump names, or it refers to a variable. Only references and jumps are given a
definition, and the chain runs through the scopes around the name.

## Main definitions

* `Analysis.Noted` — the chain and the definition in the note of a name
* `Program.Noted` — the same in the end

## Main results

* `Program.Located.name_cases` — the four ways in which a name comes up
* `Program.Owners.noted_reference`, `Program.Owners.noted_binding`, `Program.Owners.noted_label`,
  `Program.Owners.noted_jump` — what is noted about the names of each way
-/

namespace LWorkbench

namespace Analysis

/-- The note of a node, if there is one, has the chain and the definition. -/
def Noted (notes : Array Note) (k : NodeId) (env : Environment) (definition : Option NodeId) :
    Prop :=
  ∀ note, notes[k]? = some note → note.environment = some env ∧ note.definition = definition

variable {p : Program} {a b : Analysis} {env : Environment} {k i : NodeId} {x : Name} {w : Work}
  {definition : Option NodeId} {v : Violation} {duplicate : String → Violation}
  {items rest : List Work}

theorem noted_note (a : Analysis) (x : Name) (env : Environment) (definition : Option NodeId) :
    Noted (a.note x env definition).notes x.id env definition := by
  intro note h
  rw [Analysis.note, Array.getElem?_modify, if_pos rfl] at h
  obtain ⟨before, -, rfl⟩ := Option.map_eq_some_iff.1 h
  exact ⟨rfl, rfl⟩

/-- Marking a node leaves chains and definitions as they are. -/
theorem Noted.report (h : Noted a.notes k env definition) :
    Noted (a.report i v).notes k env definition := by
  intro note hnote
  rw [Analysis.report, Array.getElem?_modify] at hnote
  split at hnote
  · obtain ⟨before, hbefore, rfl⟩ := Option.map_eq_some_iff.1 hnote
    exact h before hbefore
  · exact h note hnote

/-- A name that is bound has no definition yet. -/
theorem noted_bind (a : Analysis) (x : Name) (env : Environment)
    (duplicate : String → Violation) : Noted (a.bind x env duplicate).notes x.id env none := by
  have hnote := noted_note a x env none
  simp only [Analysis.bind]
  split
  · exact hnote
  · split
    · exact hnote.report
    · exact hnote

theorem Noted.bind (h : Noted a.notes k env none) :
    Noted (a.bind x env duplicate).notes k env none := by
  by_cases hk : k = x.id
  · rw [hk]
    exact noted_bind a x env duplicate
  · intro note hnote
    rw [notes_bind a x env duplicate hk] at hnote
    exact h note hnote

/-- Binding names one after another keeps what is noted. -/
theorem Noted.bind_all {params : List Name} (h : Noted a.notes k env none) :
    Noted (params.foldl (fun a param => a.bind param env duplicate) a).notes k env none := by
  induction params generalizing a with
  | nil => exact h
  | cons y params ih => exact ih h.bind

theorem noted_bind_all {params : List Name} (a : Analysis) (env : Environment)
    (duplicate : String → Violation) (hx : x ∈ params) :
    Noted (params.foldl (fun a param => a.bind param env duplicate) a).notes x.id env none := by
  obtain ⟨before, after, rfl⟩ := List.append_of_mem hx
  rw [List.foldl_append, List.foldl_cons]
  exact (noted_bind _ x env duplicate).bind_all

theorem noted_referLabel (a : Analysis) (x : Name) (env : Environment) :
    Noted (a.referLabel x env).notes x.id env (a.reachableLabel? x env) := by
  unfold referLabel
  split
  · rename_i definition h
    rw [h]
    exact noted_note a x env (some definition)
  · rename_i h
    rw [h]
    exact (noted_note a x env none).report

theorem noted_continueLabel (p : Program) (a : Analysis) (x : Name) (env : Environment) :
    Noted (a.continueLabel p x env).notes x.id env (a.reachableLabel? x env) := by
  have h := noted_referLabel a x env
  simp only [continueLabel]
  split
  · split
    · exact h
    · exact h.report
  · exact h

/-- A jump to a label that cannot be reached is marked. -/
theorem marked_referLabel (hreach : a.reachableLabel? x env = none) :
    ∀ note, (a.referLabel x env).notes[x.id]? = some note → note.violation ≠ none := by
  intro note hnote
  simp only [referLabel, hreach] at hnote
  rw [report, Array.getElem?_modify, if_pos rfl] at hnote
  obtain ⟨before, -, rfl⟩ := Option.map_eq_some_iff.1 hnote
  cases before.violation <;> exact Option.some_ne_none _

/-- A label that can be reached is the one that the chain has. -/
theorem definition?_of_reachable (h : a.reachableLabel? x env = some k) :
    a.definition? x env = some k := by
  unfold reachableLabel? at h
  split at h
  · split at h
    · exact h
    · cases h
  · cases h

theorem marked_continueLabel (p : Program) (hreach : a.reachableLabel? x env = none) :
    ∀ note, (a.continueLabel p x env).notes[x.id]? = some note → note.violation ≠ none := by
  simp only [continueLabel, hreach]
  exact marked_referLabel hreach

end Analysis

variable {p : Program} {owner : ScopeId → Option Node} {around outer : List Node} {n : Node}
  {r x : Name} {env : Environment} {b : Analysis} {w : Work} {rest : List Work}
  {definition : Option NodeId} {k : NodeId}

/-! ### The four ways in which names come up -/

/-- The label that a jump names. -/
def Node.jumpLabel? : Node → Option Name
  | stmt (.breakTo _ label) => label
  | stmt (.continueTo _ label) => label
  | _ => none

/-- The label of a labeled statement. -/
def Node.label? : Node → Option Name
  | stmt (.labeled _ label _) => some label
  | _ => none

namespace Node

theorem mem_children_of_jumpLabel? (h : n.jumpLabel? = some x) : .ofName x ∈ n.children := by
  unfold jumpLabel? at h
  split at h
  · subst h
    exact List.mem_cons_self
  · subst h
    exact List.mem_cons_self
  · cases h

theorem labeled?_of_jumpLabel? (h : n.jumpLabel? = some x) (identifier : String) :
    n.labeled? identifier = none := by
  unfold jumpLabel? at h
  split at h
  · rfl
  · rfl
  · cases h

/-- The names that a node does not walk are bound by it, are labels, or are the target of an
assignment. -/
theorem unwalked_cases (h : x ∈ n.unwalked) : x ∈ n.binds ∨ n.label? = some x ∨
    n.jumpLabel? = some x ∨ ∃ site value, n = .expr (.assign site x value) := by
  unfold unwalked at h
  split at h
  · exact .inl h
  · obtain rfl := List.mem_singleton.1 h
    exact .inr (.inr (.inr ⟨_, _, rfl⟩))
  · exact .inl h
  · obtain rfl := List.mem_singleton.1 h
    exact .inr (.inl rfl)
  · exact .inr (.inr (.inl (Option.mem_toList.1 h)))
  · exact .inr (.inr (.inl (Option.mem_toList.1 h)))
  · cases h

/-- Expressions that are walked are expressions directly inside the node. -/
theorem mem_exprs_of_walked {e : Expr} (h : .expr e ∈ n.walked) : e ∈ n.exprs := by
  cases n with
  | expr e => cases e <;> simp_all [walked, children, exprs]
  | stmt s => cases s <;> simp_all [walked, children, exprs]

end Node

namespace Program

/-- A name is bound, is a label, is the label that a jump names, or refers to a variable. -/
theorem Located.name_cases (hl : p.LaidOut) (h : p.Located around (.ofName x)) :
    (∃ n outer, around = n :: outer ∧ x ∈ n.binds) ∨
    (∃ n outer, around = n :: outer ∧ n.label? = some x) ∨
    (∃ n outer, around = n :: outer ∧ n.jumpLabel? = some x) ∨
    x.kind = .variable ∧ ∀ n ∈ around.head?, x ∉ n.binds := by
  obtain ⟨s, hs, hinside⟩ := h
  cases hinside with
  | @child outer n c hn hc =>
    have hcontains : p.Contains n := Located.contains ⟨s, hs, hn⟩
    by_cases hbinds : x ∈ n.binds
    · exact .inl ⟨n, outer, rfl, hbinds⟩
    · rw [Node.children_eq, List.mem_append] at hc
      rcases hc with hc | hc
      · obtain ⟨y, hy, heq⟩ := List.mem_map.1 hc
        cases heq
        rcases Node.unwalked_cases hy with hbound | hlabel | hjump | ⟨site, value, rfl⟩
        · exact .inl ⟨n, outer, rfl, hbound⟩
        · exact .inr (.inl ⟨n, outer, rfl, hlabel⟩)
        · exact .inr (.inr (.inl ⟨n, outer, rfl, hjump⟩))
        · have hkind : x.kind = .variable :=
            (hl.nodes _ hcontains).names (.name x) List.mem_cons_self
          refine .inr (.inr (.inr ⟨hkind, ?_⟩))
          intro m hm
          cases hm
          exact hbinds
      · have hkind : x.kind = .variable :=
          (hl.nodes n hcontains).names (.name x) (Node.mem_exprs_of_walked hc)
        refine .inr (.inr (.inr ⟨hkind, ?_⟩))
        intro m hm
        cases hm
        exact hbinds

theorem Formed.kind_of_label (hp : p.Formed) (hn : p.Contains n)
    (h : n.label? = some x ∨ n.jumpLabel? = some x) : x.kind = .label := by
  have hkinds := hp.kinds n hn
  rcases h with h | h
  · unfold Node.label? at h
    split at h
    · cases h
      exact hkinds
    · cases h
  · unfold Node.jumpLabel? at h
    split at h
    · cases h
      exact hkinds
    · cases h
      exact hkinds
    · cases h

theorem Formed.kind_ne_variable (hp : p.Formed) (hn : p.Contains n)
    (h : n.label? = some x ∨ n.jumpLabel? = some x) : x.kind ≠ .variable := by
  rw [hp.kind_of_label hn h]
  decide

/-- The node around a name is walked. -/
theorem Located.around_walked (h : p.Located (n :: outer) (.ofName x)) :
    p.Located outer n ∧ ∃ env, p.WalkedWith n env := by
  obtain ⟨s, hs, hinside⟩ := h
  cases hinside with
  | child hn hc =>
    have hlocated : p.Located outer n := ⟨s, hs, hn⟩
    refine ⟨hlocated, ?_⟩
    rcases hlocated.comes_up with hwalked | ⟨_, _, y, _, _, rfl, _, _⟩
    · exact hwalked
    · cases hc

/-! ### What is noted in the end -/

/-- In the end the note of a name has the chain and the definition. -/
structure Noted (p : Program) (x : Name) (env : Environment) (definition : Option NodeId) :
    Prop where
  environment : (p.annotate.note x.id).environment = some env
  definition : (p.annotate.note x.id).definition = definition

/-- Every name has a note in the end. -/
theorem Formed.exists_note (hp : p.Formed) (hx : p.Contains (.ofName x)) :
    ∃ note, p.annotate.notes[x.id]? = some note := by
  obtain ⟨rs, hreports, -⟩ := Analysis.reports_annotate hp
  have hsize : p.annotate.notes.size = p.size := hreports.size.trans Array.size_replicate
  have hlt : x.id < p.annotate.notes.size := by
    rw [hsize]
    exact hp.id_lt hx
  exact ⟨_, Array.getElem?_eq_getElem hlt⟩

/-- What is noted when a name comes up is noted in the end. -/
theorem Formed.noted (hp : p.Formed) (hx : p.Contains (.ofName x))
    (h : Analysis.Leads p (Analysis.start p) p.items b (w :: rest)) (hw : .ofName x ∈ w.written)
    (hnoted : Analysis.Noted (b.perform p w).1.notes x.id env definition) :
    p.Noted x env definition := by
  obtain ⟨note, hnote⟩ := hp.exists_note hx
  have hsame : p.annotate.notes[x.id]? = (b.perform p w).1.notes[x.id]? := by
    rw [Analysis.notes_annotate]
    exact h.note_written hp.distinct_items hw
  obtain ⟨henv, hdefinition⟩ := hnoted note (hsame ▸ hnote)
  have hget : p.annotate.note x.id = note := by
    rw [Annotated.note]
    exact congrArg (Option.getD · _) hnote
  exact ⟨hget ▸ henv, hget ▸ hdefinition⟩

/-- The binding of a name is the one that is noted, or else the one that the chain has in the
end. -/
theorem Noted.definitionOf? (hp : p.Formed) (hx : p.Contains (.ofName x))
    (h : p.Noted x env definition) : p.annotate.definitionOf? x.id =
      definition.or (p.annotate.store.lookupKind? env x.identifier x.kind) := by
  have hname : p.annotate.program.name? x.id = some x := by
    have hnode := hp.indexed _ hx
    rw [Program.name?]
    exact congrArg (Option.bind · Node.name?) hnode
  rw [Annotated.definitionOf?, hname, Option.bind_some, Annotated.bindingOf?]
  simp only [h.definition, h.environment, Option.bind_some]
  cases definition <;> rfl

namespace Owners

/-- The state at the end of analysis. -/
theorem tracks_annotate (ho : p.Owners owner) : Tracks p owner p.annotate.store [] := by
  have h := (ho _ _ (Analysis.leads_drain p (Analysis.start p) p.items)).1
  rw [items, roots, ← Analysis.stmts_eq] at h
  exact h

theorem size_le_annotate (hp : p.Formed) (hl : p.LaidOut) (ho : p.Owners owner)
    (h : Analysis.Leads p (Analysis.start p) p.items b rest) :
    b.store.scopes.size ≤ p.annotate.store.scopes.size := by
  have hle := ho.size_le hp hl h (Analysis.leads_drain p b rest)
  rw [h.drain_eq, items, roots, ← Analysis.stmts_eq] at hle
  exact hle

/-- A reference is noted with the binding that it has when it comes up. -/
theorem noted_reference (hp : p.Formed) (ho : p.Owners owner) (h : p.Located around (.ofName r))
    (hkind : r.kind = .variable) (hr : ∀ n ∈ around.head?, r ∉ n.binds) :
    ∃ b w rest env, Analysis.Leads p (Analysis.start p) p.items b (w :: rest) ∧
      w.ids = env.scopeIds ∧ w.span = r.site.span ∧ w.binds = [] ∧
      env.Runs owner b.store.scopes.size around ∧
      p.Noted r env (b.store.lookupKind? env r.identifier .variable) := by
  have hcontains := h.contains
  rcases h.comes_up with ⟨env, b, rest, hwalk⟩ | ⟨m, outer, y, env, rfl, heq, hy, b, rest, hwalk⟩
  · refine ⟨b, _, rest, env, hwalk, rfl, rfl, rfl, ho.runs hp h hwalk, ?_⟩
    refine hp.noted hcontains hwalk List.mem_cons_self ?_
    rw [← hkind]
    exact Analysis.noted_note b r env _
  · cases heq
    rcases Node.unwalked_cases hy with hbound | hlabel | hjump | ⟨site, value, rfl⟩
    · exact absurd hbound (hr m rfl)
    · exact absurd hkind
        (hp.kind_ne_variable (h.contains_around m List.mem_cons_self) (.inl hlabel))
    · exact absurd hkind
        (hp.kind_ne_variable (h.contains_around m List.mem_cons_self) (.inr hjump))
    · -- The target comes up after the value has been walked.
      have htarget : Work.reference r env ∈
          (b.perform p (Analysis.walk env (.expr (.assign site r value)))).2 :=
        List.mem_cons_of_mem _ List.mem_cons_self
      obtain ⟨c, rest', hleads⟩ := hwalk.called htarget
      obtain ⟨site', value', place, hplace, hruns⟩ :=
        (ho c _ hleads).1.places _ List.mem_cons_self
      have hlocated := hplace.child (c := .ofName r) List.mem_cons_self
      have hruns' : env.Runs owner c.store.scopes.size
          (.expr (.assign site' r value') :: place) := hruns.enter rfl
      rw [hlocated.unique hp h] at hruns'
      refine ⟨c, _, rest', env, hleads, rfl, rfl, rfl, hruns', ?_⟩
      refine hp.noted hcontains hleads List.mem_cons_self ?_
      rw [← hkind]
      exact Analysis.noted_note c r env _

/-- A name that binds is noted with a chain that begins in its own scope. -/
theorem noted_binding (hp : p.Formed) (ho : p.Owners owner)
    (h : p.Located (n :: outer) (.ofName r)) (hr : r ∈ n.binds) :
    ∃ b rest env, Analysis.Leads p (Analysis.start p) p.items b rest ∧
      env.Runs owner b.store.scopes.size (n :: outer) ∧ p.Noted r env none := by
  have hcontains := h.contains
  obtain ⟨hlocated, env, b, rest, hwalk⟩ := h.around_walked
  unfold Node.binds at hr
  split at hr
  · -- A variable is declared after its initial value has been walked.
    rename_i site name init
    obtain rfl := List.mem_singleton.1 hr
    have hdeclare : Work.declare r env ∈
        (b.perform p (Analysis.walk env (.stmt (.declare site r init)))).2 :=
      List.mem_append_right _ List.mem_cons_self
    obtain ⟨c, rest', hleads⟩ := hwalk.called hdeclare
    obtain ⟨site', init', place, hplace, hruns⟩ :=
      (ho c _ hleads).1.places _ List.mem_cons_self
    have hruns' : env.Runs owner c.store.scopes.size
        (.stmt (.declare site' r init') :: place) := hruns.enter rfl
    rw [(hplace.child (c := .ofName r) List.mem_cons_self).unique hp h] at hruns'
    refine ⟨c, _, env, hleads, hruns', ?_⟩
    exact hp.noted hcontains hleads List.mem_cons_self (Analysis.noted_bind c r env _)
  · rename_i site params body
    refine ⟨_, _, _, hwalk.step, ho.runs_inner hp hlocated hwalk rfl Store.scopeIds_extend, ?_⟩
    refine hp.noted hcontains hwalk (List.mem_map_of_mem hr) ?_
    exact Analysis.noted_bind_all _ _ _ hr
  · cases hr

/-- The label of a statement is noted with a chain that begins in the scope of the label. -/
theorem noted_label (hp : p.Formed) (ho : p.Owners owner)
    (h : p.Located (n :: outer) (.ofName x)) (hx : n.label? = some x) :
    ∃ b rest env, Analysis.Leads p (Analysis.start p) p.items b rest ∧
      env.Runs owner b.store.scopes.size (n :: outer) ∧ p.Noted x env none := by
  have hcontains := h.contains
  obtain ⟨hlocated, env, b, rest, hwalk⟩ := h.around_walked
  unfold Node.label? at hx
  split at hx
  · cases hx
    refine ⟨_, _, _, hwalk.step, ho.runs_inner hp hlocated hwalk rfl Store.scopeIds_extend, ?_⟩
    exact hp.noted hcontains hwalk List.mem_cons_self (Analysis.noted_bind _ x _ _)
  · cases hx

/-- The label that a jump names is noted with the label that can be reached, and marked if there is
none. -/
theorem noted_jump (hp : p.Formed) (ho : p.Owners owner)
    (h : p.Located (n :: outer) (.ofName x)) (hx : n.jumpLabel? = some x) :
    ∃ b rest env, Analysis.Leads p (Analysis.start p) p.items b (Analysis.walk env n :: rest) ∧
      env.Runs owner b.store.scopes.size (n :: outer) ∧
      p.Noted x env (b.reachableLabel? x env) ∧
      (b.reachableLabel? x env = none → Analysis.mark p.annotate.notes x.id ≠ none) := by
  have hcontains := h.contains
  obtain ⟨hlocated, env, b, rest, hwalk⟩ := h.around_walked
  have hruns := ho.runs hp hlocated hwalk
  -- Both kinds of jumps write the note of the label, and mark it if it cannot be reached.
  have hfinal : .ofName x ∈ (Analysis.walk env n).written →
      Analysis.Noted (b.perform p (Analysis.walk env n)).1.notes x.id env
        (b.reachableLabel? x env) →
      (b.reachableLabel? x env = none → ∀ note,
        (b.perform p (Analysis.walk env n)).1.notes[x.id]? = some note → note.violation ≠ none) →
      p.Noted x env (b.reachableLabel? x env) ∧
        (b.reachableLabel? x env = none → Analysis.mark p.annotate.notes x.id ≠ none) := by
    intro hwritten hnoted hmarked
    refine ⟨hp.noted hcontains hwalk hwritten hnoted, fun hreach => ?_⟩
    obtain ⟨note, hnote⟩ := hp.exists_note hcontains
    have hsame := hwalk.note_written hp.distinct_items hwritten
    rw [Analysis.mark, hnote, Option.bind_some]
    rw [Analysis.notes_annotate] at hnote
    exact hmarked hreach note (hsame.symm.trans hnote)
  unfold Node.jumpLabel? at hx
  split at hx
  · subst hx
    refine ⟨b, rest, env, hwalk, hruns.enter rfl, ?_⟩
    apply hfinal List.mem_cons_self
    · exact Analysis.noted_referLabel b x env
    · exact Analysis.marked_referLabel
  · subst hx
    refine ⟨b, rest, env, hwalk, hruns.enter rfl, ?_⟩
    apply hfinal List.mem_cons_self
    · exact Analysis.noted_continueLabel p b x env
    · exact Analysis.marked_continueLabel p
  · cases hx

end Owners

end Program

end LWorkbench
