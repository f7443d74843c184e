import LWorkbench.Proofs.Analysis.Rules
import LWorkbench.Proofs.Layout

/-!
# Lexical scoping

What a name refers to, told by the tree and the text alone. The scopes for variables around a place
are the blocks and functions around it and the whole program; labels open none. A parameter is in
force in its whole scope, and a variable from the end of its declaration on. A name that binds
refers to the first binding of its identifier in its own scope. Any other name refers to the
innermost scope around it that has a binding in force, or else to the innermost one that has a
binding at all, and there to the first binding.

## Main definitions

* `Node.scopesAround` — the scopes for variables around a place, innermost first
* `Program.bindingsOf` — the names that are bound in a scope, in the order of the text
* `Program.InForce` — a binding that counts from an offset on
* `Program.Refers` — the binding that a name refers to

## Main results

* `Program.LaidOut.ordered_bindingsOf` — the bindings of a scope lie one after another in the text
* `Program.LaidOut.firstBinding_iff` — the first binding in the text is the first one in the list
* `Program.exists_place_of_mem_bindingsOf` — where the bindings of a scope stand
-/

namespace LWorkbench

namespace Node

/-- The scopes for variables around a place, innermost first. `none` is that of the whole
program. -/
def scopesAround (around : List Node) : List (Option Node) :=
  (around.filter (·.bindings?.isSome)).map some ++ [none]

/-- The names that a node binds by itself: the one that it declares, or its parameters. -/
def binds : Node → List Name
  | stmt (.declare _ name _) => [name]
  | expr (.function _ params _) => params
  | _ => []

/-- The innermost scope for variables around a place that has a property. -/
def Innermost (around : List Node) (P : Option Node → Prop) (scope : Option Node) : Prop :=
  ∃ inner outer, scopesAround around = inner ++ scope :: outer ∧ P scope ∧ ∀ k ∈ inner, ¬ P k

end Node

namespace Program

/-- The names that are bound in a scope, in the order of the text. -/
def bindingsOf (p : Program) : Option Node → List Name
  | some n => n.bindings?.getD []
  | none => p.body.flatMap Stmt.vars

/-- The first binding of an identifier in a scope. -/
structure FirstBinding (p : Program) (scope : Option Node) (x : String) (b : Name) : Prop where
  mem : b ∈ p.bindingsOf scope
  identifier : b.identifier = x
  first : ∀ c ∈ p.bindingsOf scope, c.identifier = x → b.site.span.start ≤ c.site.span.start

/-- A binding that counts from an offset on: a parameter, or a variable whose declaration ends at or
before the offset. -/
def InForce (p : Program) (offset : Nat) (b : Name) : Prop :=
  (∃ site params body, p.Contains (.expr (.function site params body)) ∧ b ∈ params) ∨
    ∃ site init, p.Contains (.stmt (.declare site b init)) ∧ site.span.stop ≤ offset

/-- The scope binds the identifier. -/
def BindsIn (p : Program) (x : String) (scope : Option Node) : Prop :=
  ∃ c ∈ p.bindingsOf scope, c.identifier = x

/-- The scope has a binding of the identifier that counts from the offset on. -/
def BindsBefore (p : Program) (x : String) (offset : Nat) (scope : Option Node) : Prop :=
  ∃ c ∈ p.bindingsOf scope, c.identifier = x ∧ p.InForce offset c

/-- A name, among the nodes around it, refers to a binding. -/
inductive Refers (p : Program) : List Node → Name → Name → Prop
  /-- A name that binds refers to the first binding of its identifier in its own scope. -/
  | binding {n : Node} {outer : List Node} {r b : Name} {scope : Option Node} (hr : r ∈ n.binds)
      (hscope : (Node.scopesAround (n :: outer)).head? = some scope)
      (hfirst : p.FirstBinding scope r.identifier b) : Refers p (n :: outer) r b
  /-- Any other name refers to the innermost scope with a binding in force. -/
  | inForce {around : List Node} {r b : Name} {scope : Option Node}
      (hr : ∀ n ∈ around.head?, r ∉ n.binds)
      (hscope : Node.Innermost around (p.BindsBefore r.identifier r.site.span.start) scope)
      (hfirst : p.FirstBinding scope r.identifier b) : Refers p around r b
  /-- Without a binding in force it refers to the innermost scope with a binding. -/
  | later {around : List Node} {r b : Name} {scope : Option Node}
      (hr : ∀ n ∈ around.head?, r ∉ n.binds)
      (hnone : ∀ k ∈ Node.scopesAround around, ¬ p.BindsBefore r.identifier r.site.span.start k)
      (hscope : Node.Innermost around (p.BindsIn r.identifier) scope)
      (hfirst : p.FirstBinding scope r.identifier b) : Refers p around r b

end Program

variable {p : Program} {around outer : List Node} {n c : Node} {scope : Option Node} {b r : Name}
  {s : Stmt} {site : Site} {init : Option Expr} {x : String}

/-! ### Scopes around a place -/

namespace Node

theorem scopesAround_cons_of_none (h : n.bindings? = none) :
    scopesAround (n :: around) = scopesAround around := by
  rw [scopesAround, List.filter_cons_of_neg (by simp [h]), scopesAround]

theorem scopesAround_cons_of_some {bindings : List Name} (h : n.bindings? = some bindings) :
    scopesAround (n :: around) = some n :: scopesAround around := by
  rw [scopesAround, List.filter_cons_of_pos (by simp [h]), scopesAround]
  rfl

theorem mem_of_mem_scopesAround (h : some n ∈ scopesAround around) :
    n ∈ around ∧ n.bindings?.isSome = true := by
  simpa [scopesAround] using h

theorem exists_of_labeled? {x : String} {found : Name} {body : Stmt}
    (h : n.labeled? x = some (found, body)) :
    ∃ site, n = .stmt (.labeled site found body) ∧ found.identifier = x := by
  unfold labeled? at h
  split at h
  · split at h
    · rename_i hx
      cases h
      exact ⟨_, rfl, hx⟩
    · cases h
  · cases h

/-- The nearest scope around a place is the first one. -/
theorem exists_scopesAround (p : Program) (around : List Node) :
    ∃ scope outer, scopesAround around = scope :: outer ∧
      p.bindings around = p.bindingsOf scope := by
  induction around with
  | nil => exact ⟨none, [], rfl, rfl⟩
  | cons n around ih =>
    cases hn : n.bindings? with
    | none =>
      rw [scopesAround_cons_of_none hn, Program.bindings, List.findSome?_cons, hn]
      exact ih
    | some bindings =>
      refine ⟨some n, scopesAround around, scopesAround_cons_of_some hn, ?_⟩
      rw [Program.bindings, List.findSome?_cons, hn, Program.bindingsOf, hn]
      rfl

end Node

theorem Program.Located.inside {root : Node} (hroot : p.Located around root)
    (h : Node.Inside around root outer n) : p.Located outer n := by
  induction h with
  | root => exact hroot
  | child _ hc ih => exact ih.child hc

theorem Program.Contains.located (h : p.Contains n) : ∃ around, p.Located around n := by
  induction h with
  | @top s hs => exact ⟨[], s, hs, .root⟩
  | @child n c _ hc ih =>
    obtain ⟨around, hn⟩ := ih
    exact ⟨n :: around, hn.child hc⟩

/-! ### Where the bindings of a scope stand -/

/-- The name is declared inside the root, with no scope in between. -/
def Node.Declares (around : List Node) (root : Node) (b : Name) : Prop :=
  ∃ site init outer, Inside around root outer (.stmt (.declare site b init)) ∧
    scopesAround outer = scopesAround around

theorem Node.Declares.of_child (hn : n.bindings? = none) (hc : c ∈ n.children)
    (h : Declares (n :: around) c b) : Declares around n b := by
  obtain ⟨site, init, outer, hinside, hscopes⟩ := h
  exact ⟨site, init, outer, .of_child hc hinside,
    hscopes.trans (scopesAround_cons_of_none hn)⟩

/-- What a statement binds is declared inside it, with no scope in between. -/
theorem Stmt.declares_of_mem_vars : ∀ (s : Stmt) (around : List Node), b ∈ s.vars →
    Node.Declares around (.stmt s) b
  | .declare site name init, around, hb => by
    obtain rfl := List.mem_singleton.1 hb
    exact ⟨site, init, around, .root, rfl⟩
  | .labeled _ _ body, _, hb =>
    .of_child rfl (by simp [Node.children]) (body.declares_of_mem_vars _ hb)
  | .branch _ _ thenBranch none, _, hb =>
    .of_child rfl (by simp [Node.children]) (thenBranch.declares_of_mem_vars _ hb)
  | .branch _ _ thenBranch (some elseBranch), _, hb => by
    rcases List.mem_append.1 hb with hb | hb
    · exact .of_child rfl (by simp [Node.children]) (thenBranch.declares_of_mem_vars _ hb)
    · exact .of_child rfl (by simp [Node.children]) (elseBranch.declares_of_mem_vars _ hb)
  | .loop _ _ body, _, hb =>
    .of_child rfl (by simp [Node.children]) (body.declares_of_mem_vars _ hb)

/-- A node without a scope of its own binds what the statements directly inside it bind. -/
theorem Node.vars_subset_of_child (hn : n.bindings? = none) (hc : c ∈ n.children) :
    c.vars ⊆ n.vars := by
  cases c with
  | expr => exact List.nil_subset _
  | stmt s =>
    cases n with
    | expr e => cases e <;> simp_all [children, bindings?, ofName]
    | stmt t =>
      cases t with
      | branch _ _ _ elseBranch =>
        cases elseBranch with
        | none => simp_all [children, vars, Stmt.vars]
        | some elseBranch =>
          simp only [children, Option.map_some, Option.toList_some, List.mem_cons,
            List.not_mem_nil, or_false, stmt.injEq, reduceCtorEq, false_or] at hc
          rcases hc with rfl | rfl
          · exact List.subset_append_left _ _
          · exact List.subset_append_right _ _
      | _ => simp_all [children, bindings?, ofName, vars, Stmt.vars]

/-- The scope of a block or a function binds what the statements directly inside it bind. -/
theorem Node.vars_subset_bindings {bindings : List Name} (hn : n.bindings? = some bindings)
    (hc : c ∈ n.children) : c.vars ⊆ bindings := by
  cases c with
  | expr => exact List.nil_subset _
  | stmt s =>
    have hvars : ∀ {body : List Stmt}, s ∈ body → s.vars ⊆ body.flatMap Stmt.vars :=
      fun hs _ hb => List.mem_flatMap.2 ⟨s, hs, hb⟩
    unfold bindings? at hn
    split at hn
    · cases hn
      refine hvars ?_
      simpa [children] using hc
    · cases hn
      refine List.Subset.trans (hvars ?_) (List.subset_append_right _ _)
      simpa [children, ofName] using hc
    · cases hn

namespace Program

/-- What a node binds is bound in the nearest scope around it. -/
theorem Located.vars_subset (h : p.Located around n) : n.vars ⊆ p.bindings around := by
  obtain ⟨s, hs, h⟩ := h
  induction h with
  | root => exact fun b hb => List.mem_flatMap.2 ⟨s, hs, hb⟩
  | @child outer n c _ hc ih =>
    rw [bindings, List.findSome?_cons]
    cases hn : n.bindings? with
    | none => exact List.Subset.trans (Node.vars_subset_of_child hn hc) ih
    | some bindings => exact Node.vars_subset_bindings hn hc

/-- A name that binds is one of the bindings of its own scope. -/
theorem Located.mem_bindingsOf (h : p.Located (n :: outer) (.ofName r)) (hr : r ∈ n.binds)
    (hscope : (Node.scopesAround (n :: outer)).head? = some scope) :
    r ∈ p.bindingsOf scope := by
  unfold Node.binds at hr
  split at hr
  · obtain rfl := List.mem_singleton.1 hr
    obtain ⟨k, ks, hk, hbindings⟩ := Node.exists_scopesAround p outer
    rw [Node.scopesAround_cons_of_none rfl, hk] at hscope
    cases hscope
    rw [← hbindings]
    -- The declaration stands directly around the name.
    obtain ⟨s, hs, hinside⟩ := h
    cases hinside with
    | child hn _ => exact Located.vars_subset ⟨s, hs, hn⟩ List.mem_cons_self
  · rw [Node.scopesAround_cons_of_some rfl] at hscope
    cases hscope
    exact List.mem_append_left _ hr
  · cases hr

/-- The bindings of a scope stand at names that bind, with that scope as their own. -/
theorem exists_place_of_mem_bindingsOf (hscope : ∀ n, scope = some n → p.Contains n)
    (hb : b ∈ p.bindingsOf scope) : ∃ n outer, p.Located (n :: outer) (.ofName b) ∧
      b ∈ n.binds ∧ (Node.scopesAround (n :: outer)).head? = some scope := by
  -- What a statement declares belongs to the nearest scope around the statement.
  have hdeclared : ∀ around {s}, p.Located around (.stmt s) → b ∈ s.vars →
      (Node.scopesAround around).head? = some scope → ∃ n outer,
        p.Located (n :: outer) (.ofName b) ∧ b ∈ n.binds ∧
          (Node.scopesAround (n :: outer)).head? = some scope := by
    intro around s hs hb hhead
    obtain ⟨site, init, outer, hinside, hscopes⟩ := s.declares_of_mem_vars around hb
    refine ⟨_, outer, (hs.inside hinside).child List.mem_cons_self, List.mem_cons_self, ?_⟩
    rw [Node.scopesAround_cons_of_none rfl, hscopes, hhead]
  cases scope with
  | none =>
    obtain ⟨s, hs, hb⟩ := List.mem_flatMap.1 hb
    exact hdeclared [] ⟨s, hs, .root⟩ hb rfl
  | some n =>
    obtain ⟨around, hn⟩ := (hscope n rfl).located
    have hhead : ∀ {bindings}, n.bindings? = some bindings →
        (Node.scopesAround (n :: around)).head? = some (some n) := by
      intro bindings h
      rw [Node.scopesAround_cons_of_some h]
      rfl
    rw [bindingsOf] at hb
    unfold Node.bindings? at hb
    split at hb
    · obtain ⟨s, hs, hb⟩ := List.mem_flatMap.1 hb
      exact hdeclared _ (hn.child (List.mem_map_of_mem hs)) hb (hhead rfl)
    · rcases List.mem_append.1 hb with hb | hb
      · refine ⟨_, around, hn.child ?_, hb, hhead rfl⟩
        exact List.mem_append_left _ (List.mem_map_of_mem hb)
      · obtain ⟨s, hs, hb⟩ := List.mem_flatMap.1 hb
        refine hdeclared _ (hn.child ?_) hb (hhead rfl)
        exact List.mem_append_right _ (List.mem_map_of_mem hs)
    · cases hb

/-! ### Bindings in the text -/

/-- What a statement binds is declared between the ends of the statement. -/
theorem LaidOut.declares (hp : p.LaidOut) (hs : p.Contains (.stmt s)) (hb : b ∈ s.vars) :
    ∃ site init, p.Contains (.stmt (.declare site b init)) ∧
      s.site.span.start ≤ site.span.start ∧ site.span.stop ≤ s.site.span.stop := by
  obtain ⟨site, init, outer, hinside, -⟩ := s.declares_of_mem_vars [] hb
  exact ⟨site, init, hs.inside hinside, hp.inside hs hinside⟩

/-- What a statement binds lies between the ends of the statement. -/
theorem LaidOut.vars_within (hp : p.LaidOut) (hs : p.Contains (.stmt s)) (hb : b ∈ s.vars) :
    s.site.span.start ≤ b.site.span.start ∧ b.site.span.start < s.site.span.stop := by
  obtain ⟨site, init, hcontains, hstart, hstop⟩ := hp.declares hs hb
  have hname : Node.ofName b ∈ (Node.stmt (.declare site b init)).children := List.mem_cons_self
  have haround : site.span.start ≤ b.site.span.start ∧ b.site.span.stop ≤ site.span.stop :=
    (hp.nodes _ hcontains).around _ hname
  have hnonempty : b.site.span.start < b.site.span.stop :=
    (hp.nodes _ (.child hcontains hname)).nonempty
  omega

/-- Statements one after another bind names one after another. -/
theorem LaidOut.ordered_flatMap (hp : p.LaidOut) {body : List Stmt}
    (hbody : ∀ s ∈ body, p.Contains (.stmt s))
    (hvars : ∀ s ∈ body, s.vars.Pairwise fun b c => b.site.span.start < c.site.span.start)
    (hapart : body.Pairwise fun s s' => s.site.span.stop ≤ s'.site.span.start) :
    (body.flatMap Stmt.vars).Pairwise fun b c => b.site.span.start < c.site.span.start := by
  refine List.pairwise_flatMap.2 ⟨hvars, hapart.imp_of_mem ?_⟩
  intro s s' hs hs' hstop b hb c hc
  have hfirst := hp.vars_within (hbody s hs) hb
  have hsecond := hp.vars_within (hbody s' hs') hc
  omega

/-- What a statement binds lies in the order of the text. -/
theorem LaidOut.ordered_vars (hp : p.LaidOut) : ∀ (s : Stmt), p.Contains (.stmt s) →
    s.vars.Pairwise fun b c => b.site.span.start < c.site.span.start
  | .declare .., _ => List.pairwise_singleton _ _
  | .labeled _ _ body, hs => hp.ordered_vars body (.child hs (by simp [Node.children]))
  | .branch _ _ thenBranch none, hs =>
    hp.ordered_vars thenBranch (.child hs (by simp [Node.children]))
  | .branch _ _ thenBranch (some elseBranch), hs => by
    have hthen : p.Contains (.stmt thenBranch) := .child hs (by simp [Node.children])
    have helse : p.Contains (.stmt elseBranch) := .child hs (by simp [Node.children])
    have hapart := (hp.nodes _ hs).apart
    simp only [Node.children, Option.map_some, Option.toList_some, List.pairwise_cons] at hapart
    have hpair : [thenBranch, elseBranch].Pairwise
        fun s s' => s.site.span.stop ≤ s'.site.span.start :=
      List.pairwise_pair.2 (hapart.2.1 _ List.mem_cons_self)
    have h := hp.ordered_flatMap (by simp [hthen, helse])
      (by simp [hp.ordered_vars thenBranch hthen, hp.ordered_vars elseBranch helse]) hpair
    simpa [Stmt.vars] using h
  | .loop _ _ body, hs => hp.ordered_vars body (.child hs (by simp [Node.children]))
  | .evaluate .., _ => .nil
  | .block .., _ => .nil
  | .breakTo .., _ => .nil
  | .continueTo .., _ => .nil
  | .returnWith .., _ => .nil

/-- The bindings of a scope lie one after another in the text. -/
theorem LaidOut.ordered_bindingsOf (hp : p.LaidOut) (hscope : ∀ n, scope = some n → p.Contains n) :
    (p.bindingsOf scope).Pairwise fun b c => b.site.span.start < c.site.span.start := by
  have hbody : ∀ {body : List Stmt}, (∀ s ∈ body, p.Contains (.stmt s)) →
      body.Pairwise (fun s s' => s.site.span.stop ≤ s'.site.span.start) →
      (body.flatMap Stmt.vars).Pairwise fun b c => b.site.span.start < c.site.span.start :=
    fun hcontains hapart =>
      hp.ordered_flatMap hcontains (fun s hs => hp.ordered_vars s (hcontains s hs)) hapart
  cases scope with
  | none => exact hbody (fun s hs => .top hs) hp.apart
  | some n =>
    have hn := hscope n rfl
    have hapart := (hp.nodes n hn).apart
    have hchild : ∀ c ∈ n.children, p.Contains c := fun c hc => .child hn hc
    rw [bindingsOf]
    unfold Node.bindings?
    split
    · rw [Node.children, List.pairwise_map] at hapart
      exact hbody (fun s hs => hchild _ (List.mem_map_of_mem hs)) hapart
    · rename_i params body
      rw [Node.children, List.pairwise_append, List.pairwise_map, List.pairwise_map] at hapart
      obtain ⟨hparams, hstatements, hacross⟩ := hapart
      have hstmt : ∀ s ∈ body, p.Contains (.stmt s) :=
        fun s hs => hchild _ (List.mem_append_right _ (List.mem_map_of_mem hs))
      have hnonempty : ∀ b ∈ params, b.site.span.start < b.site.span.stop := fun b hb =>
        (hp.nodes _ (hchild _ (List.mem_append_left _ (List.mem_map_of_mem hb)))).nonempty
      refine List.pairwise_append.2 ⟨?_, hbody hstmt hstatements, ?_⟩
      · exact hparams.imp_of_mem fun hb _ hstop => Nat.lt_of_lt_of_le (hnonempty _ hb) hstop
      · -- Parameters stand in front of the body.
        intro b hb c hc
        obtain ⟨s, hs, hc⟩ := List.mem_flatMap.1 hc
        have hbefore : b.site.span.stop ≤ s.site.span.start :=
          hacross _ (List.mem_map_of_mem hb) _ (List.mem_map_of_mem hs)
        have hwithin := hp.vars_within (hstmt s hs) hc
        have hb := hnonempty b hb
        omega
    · exact .nil

/-- The first binding in the text is the first one in the list. -/
theorem LaidOut.firstBinding_iff (hp : p.LaidOut) (hscope : ∀ n, scope = some n → p.Contains n) :
    p.FirstBinding scope x b ↔ (p.bindingsOf scope).find? (·.identifier == x) = some b := by
  have hordered := hp.ordered_bindingsOf hscope
  rw [List.find?_eq_some_iff_append]
  constructor
  · intro h
    obtain ⟨before, after, hsplit⟩ := List.append_of_mem h.mem
    refine ⟨by simpa using h.identifier, before, after, hsplit, fun c hc => ?_⟩
    -- A binding in front of the first one would start before it.
    rw [hsplit, List.pairwise_append] at hordered
    have hlt := hordered.2.2 c hc b List.mem_cons_self
    have hne : c.identifier ≠ x := fun hx =>
      absurd (h.first c (hsplit ▸ List.mem_append_left _ hc) hx) (Nat.not_le.2 hlt)
    simpa using hne
  · intro h
    obtain ⟨hx, before, after, hsplit, hbefore⟩ := h
    refine ⟨hsplit ▸ List.mem_append_right _ List.mem_cons_self, by simpa using hx, ?_⟩
    intro c hc hcx
    rw [hsplit] at hc hordered
    rcases List.mem_append.1 hc with hc | hc
    · have hne := hbefore c hc
      simp [hcx] at hne
    · rcases List.mem_cons.1 hc with rfl | hc
      · exact Nat.le_refl _
      · have hlater := (List.pairwise_append.1 hordered).2.1
        exact Nat.le_of_lt (List.rel_of_pairwise_cons hlater hc)

/-! ### Bindings in force -/

/-- Where the declaration of a variable ends: where the node directly around it does. -/
def declarationEnd (p : Program) (b : Name) : Nat :=
  ((p.parentNode? b.id).map (·.span.stop)).getD 0

theorem Formed.declarationEnd_eq (hp : p.Formed) (h : p.Contains (.stmt (.declare site b init))) :
    p.declarationEnd b = site.span.stop := by
  have hparent : p.parent? b.id = some (Node.stmt (.declare site b init)).id :=
    hp.parent?_eq (c := .ofName b) h List.mem_cons_self
  rw [declarationEnd, parentNode?, hparent, Option.bind_some, hp.indexed _ h]
  rfl

/-- What a statement binds is in force from the end of its declaration on. -/
theorem Formed.inForce_iff (hp : p.Formed) (hs : p.Contains (.stmt s)) (hb : b ∈ s.vars)
    {offset : Nat} : p.InForce offset b ↔ p.declarationEnd b ≤ offset := by
  obtain ⟨site, init, outer, hinside, -⟩ := s.declares_of_mem_vars [] hb
  have hdeclare := hs.inside hinside
  constructor
  · intro h
    rcases h with ⟨site', params, body, hfunction, hparam⟩ | ⟨site', init', hdeclare', hstop⟩
    -- A name stands directly inside one node, so a variable is no parameter.
    · have heq := hp.eq_of_mem_children (c := .ofName b) hfunction hdeclare
        (List.mem_append_left _ (List.mem_map_of_mem hparam)) List.mem_cons_self
      cases heq
    · rw [hp.declarationEnd_eq hdeclare']
      exact hstop
  · intro h
    rw [hp.declarationEnd_eq hdeclare] at h
    exact .inr ⟨site, init, hdeclare, h⟩

end Program

end LWorkbench
