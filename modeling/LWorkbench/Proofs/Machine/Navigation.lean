import LWorkbench.Proofs.Machine.Chains

/-!
# Variables that a run reaches and definitions that analysis gives

A run finds a variable in the innermost scope of its chain in which the identifier has been declared
by then. Analysis defines a name by what the text says: the innermost scope with a binding in front
of the name, or else with a binding at all. Both look in the scopes around the name, so that they
meet whenever only one of these scopes binds the identifier. They part in two ways. A scope further
inside may have been declared at run time although its declarations stand behind the name, because a
function is called later than it is written. And the declarations of the scope of the definition may
have been skipped or not been reached, so that the run looks further out.

## Main definitions

* `Program.OwnScope` — the scope that a name is bound in

## Main results

* `Program.Refers.exists_index` — the place of the scope that a name refers to
* `Memory.Charted.exists_index` — the place of the scope that a variable is found in
* `Machine.variables_near_definitions` — how the two places lie to each other
-/

namespace LWorkbench

/-- A name is bound in a scope: the nearest one around it. -/
def Program.OwnScope (p : Program) (b : Name) (scope : Option Node) : Prop :=
  ∃ n outer, p.Located (n :: outer) (.ofName b) ∧ b ∈ n.binds ∧
    (Node.scopesAround (n :: outer)).head? = some scope

variable {p : Program} {chart : Chart} {mem : Memory} {env : Environment} {around : List Node}
  {id : ScopeId} {b r : Name} {scope scope' : Option Node} {x : String}
  {D : ScopeId → Name → Prop}

namespace Program

theorem OwnScope.mem_bindingsOf (h : p.OwnScope b scope) : b ∈ p.bindingsOf scope := by
  obtain ⟨n, outer, hlocated, hb, hscope⟩ := h
  exact hlocated.mem_bindingsOf hb hscope

theorem OwnScope.unique (hp : p.Formed) (h : p.OwnScope b scope) (h' : p.OwnScope b scope') :
    scope = scope' := by
  obtain ⟨n, outer, hlocated, -, hscope⟩ := h
  obtain ⟨n', outer', hlocated', -, hscope'⟩ := h'
  rw [hlocated.unique hp hlocated', hscope'] at hscope
  exact (Option.some.inj hscope).symm

/-- The scope that a name refers to has a place among the scopes around the name. A scope further
inside that binds the identifier has no binding in force, while this one has. -/
theorem Refers.exists_index (h : p.Refers around r b) : ∃ (j : Nat) (scope : Option Node),
    (Node.scopesAround around)[j]? = some scope ∧ p.FirstBinding scope r.identifier b ∧
      ∀ i < j, ∀ k, (Node.scopesAround around)[i]? = some k → p.BindsIn r.identifier k →
        p.BindsBefore r.identifier r.site.span.start scope ∧
          ¬ p.BindsBefore r.identifier r.site.span.start k := by
  have hsplit : ∀ {inner outer scope}, Node.scopesAround around = inner ++ scope :: outer →
      (Node.scopesAround around)[inner.length]? = some scope ∧
        ∀ i < inner.length, ∀ k, (Node.scopesAround around)[i]? = some k → k ∈ inner := by
    intro inner outer scope hscopes
    rw [hscopes]
    refine ⟨by simp, fun i hi k hk => ?_⟩
    rw [List.getElem?_append_left hi] at hk
    exact List.mem_of_getElem? hk
  cases h with
  | @binding n outer _ _ scope _ hscope hfirst =>
    refine ⟨0, scope, ?_, hfirst, fun i hi => absurd hi (Nat.not_lt_zero i)⟩
    rw [← hscope, List.head?_eq_getElem?]
  | @inForce _ _ _ scope _ hscope hfirst =>
    obtain ⟨inner, outer, hscopes, hbefore, hinner⟩ := hscope
    obtain ⟨hindex, hmem⟩ := hsplit hscopes
    refine ⟨inner.length, scope, hindex, hfirst, fun i hi k hk _ => ⟨hbefore, ?_⟩⟩
    exact hinner k (hmem i hi k hk)
  | @later _ _ _ scope _ _ hscope hfirst =>
    obtain ⟨inner, outer, hscopes, -, hinner⟩ := hscope
    obtain ⟨hindex, hmem⟩ := hsplit hscopes
    refine ⟨inner.length, scope, hindex, hfirst, fun i hi k hk hbinds => ?_⟩
    exact absurd hbinds (hinner k (hmem i hi k hk))

end Program

/-- A variable is found in a scope that stands for one of the scopes around the place. It has been
declared there by a binding of its identifier, and only by bindings of that scope; in the scopes in
front of it no binding of the identifier has been carried out. -/
theorem Memory.Charted.exists_index (h : mem.Charted p chart D)
    (hmirrors : env.Mirrors chart around)
    (hid : mem.store.variableScope? env x = some id) : ∃ (i : Nat) (scope : Option Node),
      env.scopeIds[i]? = some id ∧ (Node.scopesAround around)[i]? = some scope ∧
      (∃ b, D id b ∧ b.identifier = x) ∧ (∀ b, D id b → b ∈ p.bindingsOf scope) ∧
      ∀ j < i, ∃ other, env.scopeIds[j]? = some other ∧ ∀ b, D other b → b.identifier ≠ x := by
  obtain ⟨-, hbase, hsize⟩ := mem_of_variableScope? hmirrors hid
  rw [Store.variableScope?, Store.find?, Store.map_snd_findFrom,
    List.find?_eq_some_iff_getElem] at hid
  obtain ⟨hbinds, i, hi, hindex, hfront⟩ := hid
  have hscope := h.scopes id hbase hsize
  have howner : (Node.scopesAround around)[i]? = some (chart.owner id) := by
    rw [← hmirrors.owners, List.getElem?_map, List.getElem?_eq_getElem hi, hindex]
    rfl
  refine ⟨i, chart.owner id, ?_, howner, ?_, hscope.declared, fun j hj => ?_⟩
  · rw [List.getElem?_eq_getElem hi, hindex]
  · rw [Store.binds, Bool.and_eq_true] at hbinds
    exact (hscope.contains_iff x).1 hbinds.2
  · have hlt := Nat.lt_trans hj hi
    refine ⟨_, List.getElem?_eq_getElem hlt, fun b hb hx => ?_⟩
    obtain ⟨hbase', hsize'⟩ := hmirrors.known _ (List.getElem_mem hlt)
    have hother := h.scopes _ hbase' hsize'
    have hnot := hfront j hj
    rw [Store.binds, hother.kind, (hother.contains_iff x).2 ⟨b, hb, hx⟩] at hnot
    cases hnot

namespace Machine

/-- The variables that a run of a text that parses reaches through its names. The name has a
definition, and the slot was declared by carrying out a binding of the identifier, and only by
bindings of one of the scopes around the name. That is the scope of the definition, or one further
inside that has no binding in front of the name while the scope of the definition has one, or one
further out when no binding of the identifier has been carried out in the scope that stands for the
scope of the definition. -/
theorem variables_near_definitions {text : String} {p : Program}
    (hparse : Program.parse text = .ok p) (memory : Memory) :
    ∀ n r mem frame callers id, Uses (((start memory).load p).run p) n r mem frame callers →
      mem.store.variableScope? frame.environment r.identifier = some id →
      ∃ (around : List Node) (d : Name) (i j : Nat) (scope defined : Option Node),
        p.Located around (.ofName r) ∧
        p.annotate.definitionOf? r.id = some d.id ∧ d.identifier = r.identifier ∧
        p.OwnScope d defined ∧
        (Node.scopesAround around)[j]? = some defined ∧
        (Node.scopesAround around)[i]? = some scope ∧ frame.environment.scopeIds[i]? = some id ∧
        (∃ b, Declared p (((start memory).load p).run p) n id b ∧ b.identifier = r.identifier) ∧
        (∀ b, Declared p (((start memory).load p).run p) n id b → p.OwnScope b scope) ∧
        (i < j → p.BindsBefore r.identifier r.site.span.start defined ∧
          ¬ p.BindsBefore r.identifier r.site.span.start scope) ∧
        (j < i → ∃ other, frame.environment.scopeIds[j]? = some other ∧
          ∀ b, Declared p (((start memory).load p).run p) n other b →
            b.identifier ≠ r.identifier) := by
  have hp := Program.formed_of_parse hparse
  have hl := Program.laidOut_of_parse hparse
  obtain ⟨owner, ho⟩ := Program.exists_owners hp hl
  intro n r mem frame callers id huses hid
  have hgoing : ((start memory).load p).run p n = .going mem (frame :: callers) := by
    cases huses <;> assumption
  obtain ⟨chart, h⟩ := exists_inPlace hp.indexed memory hgoing
  obtain ⟨around, hlocated, hkind, hmirrors⟩ := h.uses_place hl huses
  obtain ⟨i, scope, hindex, hscope, ⟨b, hb, hident⟩, hdeclared, hfront⟩ :=
    h.memory.exists_index hmirrors hid
  have hbinds : p.BindsIn r.identifier scope := ⟨b, hdeclared b hb, hident⟩
  -- A scope around the name binds the identifier, so that the name has a definition.
  obtain ⟨k, hk⟩ : ∃ k, p.annotate.definitionOf? r.id = some k := by
    cases hdefinition : p.annotate.definitionOf? r.id with
    | none =>
      have hnone := (ho.definitionOf?_eq_none_iff hp hl hlocated hkind).1 hdefinition
      exact absurd hbinds (hnone scope (List.mem_of_getElem? hscope))
    | some k => exact ⟨k, rfl⟩
  obtain ⟨d, hrefers, rfl⟩ := (ho.definitionOf?_iff hp hl hlocated hkind).1 hk
  obtain ⟨j, defined, hdefined, hfirst, hinside⟩ := hrefers.exists_index
  have hown : ∀ {k b}, k ∈ Node.scopesAround around → b ∈ p.bindingsOf k → p.OwnScope b k :=
    fun hmem => Program.exists_place_of_mem_bindingsOf (hlocated.contains_scope hmem)
  refine ⟨around, d, i, j, scope, defined, hlocated, hk, hfirst.identifier,
    hown (List.mem_of_getElem? hdefined) hfirst.mem, hdefined, hscope, hindex, ⟨b, hb, hident⟩,
    fun c hc => hown (List.mem_of_getElem? hscope) (hdeclared c hc), fun hij => ?_, hfront j⟩
  exact hinside i hij scope hscope hbinds

/-! ### A declaration that is skipped -/

/-- The variable `x` of the program as a whole. -/
def outerX : Name := ⟨⟨0, ⟨4, 5⟩⟩, "x", .variable⟩

/-- The variable `x` of a block, whose declaration is skipped. -/
def skippedX : Name := ⟨⟨3, ⟨20, 21⟩⟩, "x", .variable⟩

/-- The name `x` that is read in the block behind the declaration that is skipped. -/
def readX : Name := ⟨⟨6, ⟨22, 23⟩⟩, "x", .variable⟩

/-- The block with the declaration that is skipped. -/
def skippingBlock : Stmt :=
  .block ⟨8, ⟨6, 25⟩⟩
    [.branch ⟨5, ⟨7, 22⟩⟩ (.literal ⟨2, ⟨10, 15⟩⟩ (.boolean false))
      (.declare ⟨4, ⟨16, 22⟩⟩ skippedX none) none,
      .evaluate ⟨7, ⟨22, 24⟩⟩ (.name readX)]

theorem scan_skipping : Lexeme.scan "var x;\x7bif(false)var x;x;\x7d" = .ok
    [⟨.keyword .varWord, ⟨0, 3⟩⟩, ⟨.identifier "x", ⟨4, 5⟩⟩, ⟨.symbol .semicolon, ⟨5, 6⟩⟩,
      ⟨.symbol .leftBrace, ⟨6, 7⟩⟩, ⟨.keyword .ifWord, ⟨7, 9⟩⟩, ⟨.symbol .leftParen, ⟨9, 10⟩⟩,
      ⟨.boolean false, ⟨10, 15⟩⟩, ⟨.symbol .rightParen, ⟨15, 16⟩⟩, ⟨.keyword .varWord, ⟨16, 19⟩⟩,
      ⟨.identifier "x", ⟨20, 21⟩⟩, ⟨.symbol .semicolon, ⟨21, 22⟩⟩, ⟨.identifier "x", ⟨22, 23⟩⟩,
      ⟨.symbol .semicolon, ⟨23, 24⟩⟩, ⟨.symbol .rightBrace, ⟨24, 25⟩⟩] := by
  decide +kernel

set_option maxRecDepth 8000 in
theorem parse_skipping : (Program.parse "var x;\x7bif(false)var x;x;\x7d").toOption.map (fun p =>
    (p.body, p.annotate.definitionOf? readX.id)) =
      some ([.declare ⟨1, ⟨0, 6⟩⟩ outerX none, skippingBlock], some skippedX.id) := by
  rw [Program.parse, scan_skipping]
  cbv

/-- The run comes to read `x`, and finds it in the outermost scope. -/
theorem run_skipping {p : Program}
    (hbody : p.body = [.declare ⟨1, ⟨0, 6⟩⟩ outerX none, skippingBlock]) :
    ∃ mem frame rest, (fresh.load p).run p 7 = .going mem [frame] ∧
      frame.tasks = .eval (.name readX) :: rest ∧
      mem.store.variableScope? frame.environment readX.identifier = some 0 ∧
      frame.environment.scopeIds = [1, 0] := by
  rw [run, load, hbody]
  exact ⟨_, _, _, rfl, rfl, rfl, rfl⟩

/-- The text is a program whose block declares `x` in a branch that is not taken. -/
theorem exists_skipping : ∃ p, Program.parse "var x;\x7bif(false)var x;x;\x7d" = .ok p ∧
    p.body = [.declare ⟨1, ⟨0, 6⟩⟩ outerX none, skippingBlock] ∧
    p.annotate.definitionOf? readX.id = some skippedX.id := by
  have hsome := parse_skipping
  cases hparse : Program.parse "var x;\x7bif(false)var x;x;\x7d" with
  | error e =>
    rw [hparse] at hsome
    cases hsome
  | ok p =>
    rw [hparse] at hsome
    obtain ⟨hbody, hdefinition⟩ := Prod.mk.inj (Option.some.inj hsome)
    exact ⟨p, rfl, hbody, hdefinition⟩

/-- What the run reaches through the name in the block has been declared in a scope around it. -/
theorem variables_near_definitions_skipping :
    ∃ p, Program.parse "var x;\x7bif(false)var x;x;\x7d" = .ok p ∧
      ∃ id b scope, Accesses ((fresh.load p).run p) 7 readX id ∧
        Declared p ((fresh.load p).run p) 7 id b ∧ b.identifier = "x" ∧ p.OwnScope b scope := by
  obtain ⟨p, hparse, hbody, -⟩ := exists_skipping
  obtain ⟨mem, frame, rest, hgoing, htasks, hid, -⟩ := run_skipping hbody
  have huses : Uses ((fresh.load p).run p) 7 readX mem frame [] := .read hgoing htasks
  obtain ⟨-, -, -, -, scope, -, -, -, -, -, -, -, -, ⟨b, hb, hident⟩, hown, -, -⟩ :=
    variables_near_definitions hparse ⟨.empty, 0⟩ 7 readX mem frame [] 0 huses hid
  exact ⟨p, hparse, 0, b, scope, ⟨mem, frame, [], huses, hid⟩, hb, hident, hown b hb⟩

/-- It is not true of every run that a variable is reached in a slot that has been declared in the
scope of the definition: the block has a definition of `x` in force, but the run skips it and
reaches the variable of the program as a whole. -/
theorem skipped_definition_is_not_reached :
    ∃ p, Program.parse "var x;\x7bif(false)var x;x;\x7d" = .ok p ∧
      ¬ ∀ n r id, Accesses ((fresh.load p).run p) n r id → ∃ d scope b,
        p.annotate.definitionOf? r.id = some d.id ∧ p.OwnScope d scope ∧
        Declared p ((fresh.load p).run p) n id b ∧ b.identifier = r.identifier ∧
        p.OwnScope b scope := by
  obtain ⟨p, hparse, hbody, hdefinition⟩ := exists_skipping
  refine ⟨p, hparse, fun hall => ?_⟩
  have hp := Program.formed_of_parse hparse
  obtain ⟨mem, frame, rest, hgoing, htasks, hid, hids⟩ := run_skipping hbody
  have huses : Uses ((fresh.load p).run p) 7 readX mem frame [] := .read hgoing htasks
  obtain ⟨d, scope, b, hd, hscope, hb, -, hbscope⟩ :=
    hall 7 readX 0 ⟨mem, frame, [], huses, hid⟩
  have hblock : p.Located [] (.stmt skippingBlock) := by
    refine ⟨_, ?_, .root⟩
    rw [hbody]
    exact List.mem_cons_of_mem _ List.mem_cons_self
  -- The definition belongs to the block, and so does every binding of its scope.
  have hskipped : p.OwnScope skippedX (some (.stmt skippingBlock)) := by
    refine ⟨.stmt (.declare ⟨4, ⟨16, 22⟩⟩ skippedX none), _,
      ((hblock.child List.mem_cons_self).child ?_).child List.mem_cons_self, List.mem_cons_self,
      rfl⟩
    exact List.mem_cons_of_mem _ List.mem_cons_self
  have hsame : d = skippedX := by
    obtain ⟨_, _, hlocated, -⟩ := hscope
    obtain ⟨_, _, hlocated', -⟩ := hskipped
    rw [hdefinition] at hd
    have hnode := hp.indexed.eq_of_id hlocated.contains hlocated'.contains (Option.some.inj hd).symm
    cases hnode
    rfl
  rw [hsame] at hscope
  have hinner := hbscope.mem_bindingsOf
  rw [hscope.unique hp hskipped] at hinner
  -- The slot belongs to the program as a whole.
  obtain ⟨chart, h⟩ := exists_inPlace hp.indexed ⟨.empty, 0⟩ hgoing
  obtain ⟨around, hread, -, hmirrors⟩ := h.uses_place (Program.laidOut_of_parse hparse) huses
  have haround : around = [.stmt (.evaluate ⟨7, ⟨22, 24⟩⟩ (.name readX)), .stmt skippingBlock] := by
    refine hread.unique hp ((hblock.child ?_).child List.mem_cons_self)
    exact List.mem_cons_of_mem _ List.mem_cons_self
  obtain ⟨i, found, hindex, hfound, -, hdeclared, -⟩ := h.memory.exists_index hmirrors hid
  have hroot : found = none := by
    rw [hids] at hindex
    rw [haround] at hfound
    match i with
    | 0 => cases hindex
    | 1 => exact (Option.some.inj hfound).symm
    | _ + 2 => cases hindex
  have houter := hdeclared b hb
  rw [hroot, Program.bindingsOf, hbody] at houter
  rw [List.mem_singleton.1 hinner] at houter
  cases houter with
  | tail _ h => cases h

end Machine

end LWorkbench
