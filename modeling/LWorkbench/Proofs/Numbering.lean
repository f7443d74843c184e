import LWorkbench.Proofs.Parser.Statements

/-!
# Numbers of nodes

The parser numbers nodes in the order in which they end, and the index of a program lists them in
the same order. So the number of a node is its place in the index, and no two nodes of a program
share a number. The parser also tells names of variables and names of labels apart by where they
stand.

## Main definitions

* `Program.Contains` — the nodes of a program
* `Node.Kinded` — names are of the kinds that go with their places
* `Built` — some trees have the numbers of a range, in the order in which their nodes end, and their
  names are of the right kinds
* `Program.Formed` — a program is the index of trees that are built from zero on
* `Program.Indexed` — every node has its number as its place in the index

## Main results

* `Program.contains_iff_mem` — the index lists the nodes of a program
* `Grammar.builds_within` — what the grammar derives is numbered without gaps
* `Program.formed_of_parse`, `Program.indexed_of_parse` — programs that are parsed are formed and
  indexed
-/

namespace LWorkbench

namespace Node

/-! ### The order in which nodes end -/

theorem foldr_postorderOnto (ns : List Node) (rest : List Node)
    (h : ∀ n ∈ ns, ∀ rest, n.postorderOnto rest = n.postorderOnto [] ++ rest) :
    ns.foldr postorderOnto rest = ns.foldr postorderOnto [] ++ rest := by
  induction ns with
  | nil => rfl
  | cons n ns ih =>
    rw [List.foldr_cons, List.foldr_cons, ih fun m hm => h m (List.mem_cons_of_mem _ hm),
      h n List.mem_cons_self, h n List.mem_cons_self (ns.foldr postorderOnto []),
      List.append_assoc]

theorem postorderOnto_append (n : Node) (rest : List Node) :
    n.postorderOnto rest = n.postorderOnto [] ++ rest := by
  induction hsize : sizeOf n using Nat.strongRecOn generalizing n rest with
  | ind size ih =>
    subst hsize
    -- Trees are nested through lists, so the induction is on the size and gives all children at
    -- once.
    have hchildren : ∀ c ∈ n.children, ∀ rest,
        c.postorderOnto rest = c.postorderOnto [] ++ rest :=
      fun c hc rest => ih _ (sizeOf_lt_of_mem_children hc) c rest rfl
    rw [postorderOnto_eq, postorderOnto_eq, foldr_postorderOnto _ _ hchildren,
      foldr_postorderOnto _ [n] hchildren, List.append_assoc]
    rfl

theorem postorder_append (ns ms : List Node) :
    postorder (ns ++ ms) = postorder ns ++ postorder ms := by
  rw [postorder, List.foldr_append]
  exact foldr_postorderOnto _ _ fun n _ => postorderOnto_append n

/-- A node ends after the nodes inside it. -/
theorem postorder_singleton (n : Node) : postorder [n] = postorder n.children ++ [n] := by
  have h : postorder [n] = n.children.foldr postorderOnto [n] := postorderOnto_eq n []
  rw [h]
  exact foldr_postorderOnto _ _ fun c _ => postorderOnto_append c

theorem postorder_cons (n : Node) (ns : List Node) :
    postorder (n :: ns) = postorder n.children ++ n :: postorder ns := by
  rw [← List.singleton_append, postorder_append, postorder_singleton, List.append_assoc]
  rfl

theorem mem_postorder {ns : List Node} {n : Node} (h : n ∈ ns) : n ∈ postorder ns := by
  obtain ⟨before, after, rfl⟩ := List.append_of_mem h
  simp [postorder_append, postorder_cons]

/-- What holds of a list of trees when it holds of the trees inside its first one and of its other
trees holds of all lists of trees. -/
theorem forest_induction {motive : List Node → Prop} (nil : motive [])
    (cons : ∀ n ns, motive n.children → motive ns → motive (n :: ns)) (ns : List Node) :
    motive ns := by
  have hcons : ∀ n ns, motive ns → motive (n :: ns) := by
    intro n
    induction hsize : sizeOf n using Nat.strongRecOn generalizing n with
    | ind size ih =>
      subst hsize
      -- For lists of children, longer ones come from shorter ones and from smaller trees.
      have hchildren : ∀ cs, (∀ c ∈ cs, c ∈ n.children) → motive cs := by
        intro cs hcs
        induction cs with
        | nil => exact nil
        | cons c cs ihcs =>
          have hc := sizeOf_lt_of_mem_children (hcs c List.mem_cons_self)
          exact ih _ hc c rfl cs (ihcs fun d hd => hcs d (List.mem_cons_of_mem _ hd))
      exact fun ns hns => cons n ns (hchildren _ fun c hc => hc) hns
  induction ns with
  | nil => exact nil
  | cons n ns ih => exact hcons n ns ih

/-- The nodes inside a node are listed wherever the node is. -/
theorem mem_postorder_of_child {ns : List Node} :
    ∀ {n c}, n ∈ postorder ns → c ∈ n.children → c ∈ postorder ns := by
  induction ns using forest_induction with
  | nil => nofun
  | cons m ms ihchildren ih =>
    intro n c hn hc
    rw [postorder_cons, List.mem_append, List.mem_cons] at hn ⊢
    obtain hn | rfl | hn := hn
    · exact .inl (ihchildren hn hc)
    · exact .inl (mem_postorder hc)
    · exact .inr (.inr (ih hn hc))

end Node

/-! ### The nodes of a program -/

/-- The nodes of a program: its top statements and all that stands directly inside a node. -/
inductive Program.Contains (p : Program) : Node → Prop
  | top {s : Stmt} (hs : s ∈ p.body) : p.Contains (.stmt s)
  | child {n c : Node} (hn : p.Contains n) (hc : c ∈ n.children) : p.Contains c

namespace Program

variable {p : Program} {body : List Stmt} {n : Node}

theorem contains_of_mem_postorder {ns : List Node} (h : ∀ m ∈ ns, p.Contains m) :
    ∀ n ∈ Node.postorder ns, p.Contains n := by
  induction ns using Node.forest_induction with
  | nil => nofun
  | cons m ms ihchildren ih =>
    have hm : p.Contains m := h m List.mem_cons_self
    intro n hn
    rw [Node.postorder_cons, List.mem_append, List.mem_cons] at hn
    obtain hn | rfl | hn := hn
    · exact ihchildren (fun c hc => .child hm hc) n hn
    · exact hm
    · exact ih (fun d hd => h d (List.mem_cons_of_mem _ hd)) n hn

/-- The index lists the nodes of a program. -/
theorem contains_iff_mem : p.Contains n ↔ n ∈ Node.postorder (roots p.body) := by
  constructor
  · intro h
    induction h with
    | top hs => exact Node.mem_postorder (List.mem_map_of_mem hs)
    | child _ hc ih => exact Node.mem_postorder_of_child ih hc
  · refine contains_of_mem_postorder (fun m hm => ?_) n
    obtain ⟨s, hs, rfl⟩ := List.mem_map.1 hm
    exact .top hs

end Program

/-! ### Numbers without gaps -/

/-- The names that a node binds or jumps to are of the kinds that go with their places. -/
def Node.Kinded : Node → Prop
  | .stmt (.declare _ name _) => name.kind = .variable
  | .stmt (.labeled _ label _) => label.kind = .label
  | .stmt (.breakTo _ (some label)) => label.kind = .label
  | .stmt (.continueTo _ (some label)) => label.kind = .label
  | .expr (.function _ params _) => ∀ param ∈ params, param.kind = .variable
  | _ => True

/-- The trees have the numbers from `i` up to, but not including, `j`, in the order in which their
nodes end, and the right kinds of names. -/
structure Built (ns : List Node) (i j : Nat) : Prop where
  le : i ≤ j
  ids : (Node.postorder ns).map Node.id = List.range' i (j - i)
  kinds : ∀ n ∈ Node.postorder ns, n.Kinded

theorem built_nil (i : Nat) : Built [] i i :=
  ⟨Nat.le_refl i, by simp [Node.postorder], nofun⟩

theorem Built.append {ns ms : List Node} {i j k : Nat} (h : Built ns i j)
    (h' : Built ms j k) : Built (ns ++ ms) i k := by
  have hi := h.le
  have hj := h'.le
  refine ⟨Nat.le_trans hi hj, ?_, ?_⟩
  · have hsplit : j = i + (j - i) := by omega
    have hlength : k - i = (j - i) + (k - j) := by omega
    rw [Node.postorder_append, List.map_append, h.ids, h'.ids, hlength, ← List.range'_append_1,
      ← hsplit]
  · intro n hn
    rw [Node.postorder_append, List.mem_append] at hn
    exact hn.elim (h.kinds n) (h'.kinds n)

/-- A node is numbered after the nodes inside it. -/
theorem Built.node {n : Node} {i j : Nat} (h : Built n.children i j) (hid : n.id = j)
    (hkinds : n.Kinded) : Built [n] i (j + 1) := by
  have hi := h.le
  refine ⟨Nat.le_succ_of_le hi, ?_, ?_⟩
  · have hsplit : j = i + (j - i) := by omega
    have hlength : j + 1 - i = (j - i) + 1 := by omega
    rw [Node.postorder_singleton, List.map_append, h.ids, hlength, ← List.range'_append_1,
      ← hsplit]
    simp [hid]
  · intro m hm
    rw [Node.postorder_singleton, List.mem_append, List.mem_singleton] at hm
    obtain hm | rfl := hm
    · exact h.kinds m hm
    · exact hkinds

namespace Grammar

/-- What the phrases of a kind are read as is numbered from the first number to the next one. -/
def Builds {α : Type} (phrase : Phrase α) (node : α → Node) : Prop :=
  ∀ ⦃w i j a⦄, phrase w i j a → Built [node a] i j

variable {g : Grammar}

theorem kind_of_name {kind : ScopeKind} {w : List Lexeme} {i j : NodeId} {n : Name}
    (h : NamePhrase kind w i j n) : n.kind = kind := by
  cases h
  rfl

theorem kind_of_mem_elements {kind : ScopeKind} {close : Symbol} {w : List Lexeme} {i j : NodeId}
    {names : List Name} (h : Elements (NamePhrase kind) close w i j names) :
    ∀ n ∈ names, n.kind = kind := by
  induction h with
  | nil => nofun
  | last hn => exact List.forall_mem_singleton.2 (kind_of_name hn)
  | cons hn _ _ ih => exact List.forall_mem_cons.2 ⟨kind_of_name hn, ih⟩

theorem builds_name (kind : ScopeKind) : Builds (NamePhrase kind) .ofName := by
  rintro w i j n ⟨hl⟩
  exact .node (built_nil i) rfl trivial

theorem built_elements {α : Type} {phrase : Phrase α} {node : α → Node} {close : Symbol}
    (h : Builds phrase node) {w : List Lexeme} {i j : NodeId} {xs : List α}
    (hxs : Elements phrase close w i j xs) : Built (xs.map node) i j := by
  induction hxs with
  | nil => exact built_nil _
  | last hx => exact h hx
  | cons hx _ _ ih => exact (h hx).append ih

theorem built_statements {statement : Phrase Stmt} (h : Builds statement .stmt)
    {w : List Lexeme} {i j : NodeId} {ss : List Stmt} (hss : Statements statement w i j ss) :
    Built (ss.map .stmt) i j := by
  induction hss with
  | nil => exact built_nil _
  | cons hs _ ih => exact (h hs).append ih

theorem built_braced {statement : Phrase Stmt} (h : Builds statement .stmt)
    {w : List Lexeme} {i j : NodeId} {ss : List Stmt} (hss : Braced statement w i j ss) :
    Built (ss.map .stmt) i j := by
  obtain ⟨-, hss, -⟩ := hss
  exact built_statements h hss

theorem builds_primary (hstatement : Builds g.statement .stmt)
    (hexpression : Builds g.expression .expr) : Builds (Primary g) .expr := by
  intro w i j e h
  cases h with
  | literal => exact .node (built_nil _) rfl trivial
  | name hn => exact builds_name _ hn
  | array _ hitems => exact .node (built_elements hexpression hitems) rfl trivial
  | emptyTuple => exact .node (built_nil _) rfl trivial
  | group _ he => exact hexpression he
  | tuple _ he _ hitems =>
    exact .node ((hexpression he).append (built_elements hexpression hitems)) rfl trivial
  | object _ hproperties =>
    refine .node (built_elements ?_ hproperties) rfl trivial
    rintro w i j p ⟨-, -, he⟩
    exact hexpression he
  | function _ _ hparams hbody =>
    exact .node ((built_elements (builds_name _) hparams).append
      (built_braced hstatement hbody)) rfl (kind_of_mem_elements hparams)

theorem builds_suffixed (hstatement : Builds g.statement .stmt)
    (hexpression : Builds g.expression .expr) : Builds (Suffixed g) .expr := by
  intro w i j e h
  induction h with
  | primary he => exact builds_primary hstatement hexpression he
  | call _ _ hargs ih => exact .node (ih.append (built_elements hexpression hargs)) rfl trivial
  | member _ _ _ ih => exact .node ih rfl trivial
  | index _ _ he _ ih => exact .node (ih.append (hexpression he)) rfl trivial

theorem builds_unary (hsuffixed : Builds (Suffixed g) .expr)
    (hoperand : Builds g.operand .expr) : Builds (Unary g) .expr := by
  intro w i j e h
  cases h with
  | suffixed he => exact hsuffixed he
  | operator _ he => exact .node (hoperand he) rfl trivial

theorem builds_chain {ω : Type} {ops : List ω} {mark : ω → Symbol}
    {make : Site → ω → Expr → Expr → Expr} {operand : Phrase Expr}
    (hchildren : ∀ site op e e', (Node.expr (make site op e e')).children = [.expr e, .expr e'])
    (hsite : ∀ site op e e', (make site op e e').site = site)
    (hkinds : ∀ site op e e', (Node.expr (make site op e e')).Kinded)
    (hoperand : Builds operand .expr) : Builds (Chain ops mark make operand) .expr := by
  intro w i j e h
  induction h with
  | operand he => exact hoperand he
  | operator _ _ _ he₂ ih =>
    refine .node ?_ (congrArg Site.id (hsite _ _ _ _)) (hkinds _ _ _ _)
    rw [hchildren]
    exact ih.append (hoperand he₂)

theorem builds_assignment (hunary : Builds (Unary g) .expr)
    (hexpression : Builds g.expression .expr) : Builds (Assignment g) .expr := by
  have hdisjunction : Builds (Disjunction g) .expr := by
    refine builds_chain (fun _ _ _ _ => rfl) (fun _ _ _ _ => rfl) (fun _ _ _ _ => trivial) ?_
    refine builds_chain (fun _ _ _ _ => rfl) (fun _ _ _ _ => rfl) (fun _ _ _ _ => trivial) ?_
    refine builds_chain (fun _ _ _ _ => rfl) (fun _ _ _ _ => rfl) (fun _ _ _ _ => trivial) ?_
    refine builds_chain (fun _ _ _ _ => rfl) (fun _ _ _ _ => rfl) (fun _ _ _ _ => trivial) ?_
    refine builds_chain (fun _ _ _ _ => rfl) (fun _ _ _ _ => rfl) (fun _ _ _ _ => trivial) ?_
    exact builds_chain (fun _ _ _ _ => rfl) (fun _ _ _ _ => rfl) (fun _ _ _ _ => trivial) hunary
  intro w i j e h
  cases h with
  | plain he => exact hdisjunction he
  | assign htarget _ he => exact .node ((hdisjunction htarget).append (hexpression he)) rfl trivial

theorem built_jumpLabel {w : List Lexeme} {i j : NodeId} {label : Option Name}
    (h : JumpLabel w i j label) : Built (label.map Node.ofName).toList i j := by
  cases h with
  | none => exact built_nil _
  | some hn => exact builds_name _ hn

theorem builds_statement (hstatement : Builds g.statement .stmt)
    (hexpression : Builds g.expression .expr) : Builds (Statement g) .stmt := by
  have hcondition : Builds (Condition g) .expr := by
    rintro w i j e ⟨-, he, -⟩
    exact hexpression he
  intro w i j s h
  cases h with
  | declare _ hn => exact .node (builds_name _ hn) rfl (kind_of_name hn)
  | declareWith _ hn _ he =>
    exact .node ((builds_name _ hn).append (hexpression he)) rfl (kind_of_name hn)
  | evaluate _ he => exact .node (hexpression he) rfl trivial
  | block hbody => exact .node (built_braced hstatement hbody) rfl trivial
  | labeled hn _ hs =>
    exact .node ((builds_name _ hn).append (hstatement hs)) rfl (kind_of_name hn)
  | branch _ he hs => exact .node ((hcondition he).append (hstatement hs)) rfl trivial
  | branchElse _ he hs₁ _ _ hs₂ =>
    exact .node ((hcondition he).append ((hstatement hs₁).append (hstatement hs₂))) rfl trivial
  | loop _ he hs => exact .node ((hcondition he).append (hstatement hs)) rfl trivial
  | breakTo _ hlabel =>
    refine .node (built_jumpLabel hlabel) rfl ?_
    cases hlabel with
    | none => trivial
    | some hn => exact kind_of_name hn
  | continueTo _ hlabel =>
    refine .node (built_jumpLabel hlabel) rfl ?_
    cases hlabel with
    | none => trivial
    | some hn => exact kind_of_name hn
  | returnNothing => exact .node (built_nil _) rfl trivial
  | returnWith _ he => exact .node (hexpression he) rfl trivial

/-- What the grammar derives is numbered without gaps. -/
theorem builds_within (depth : Nat) :
    Builds (within depth).statement .stmt ∧ Builds (within depth).expression .expr ∧
      Builds (within depth).operand .expr := by
  induction depth with
  | zero => exact ⟨nofun, nofun, nofun⟩
  | succ depth ih =>
    obtain ⟨hstatement, hexpression, hoperand⟩ := ih
    -- A unary operator stands in front of an operand that is one level less deep.
    have hunary := builds_unary (builds_suffixed hstatement hexpression) hoperand
    exact ⟨builds_statement hstatement hexpression, builds_assignment hunary hexpression, hunary⟩

end Grammar

namespace Program

variable {p : Program} {n m : Node}

/-- The program is the index of trees that are built from zero on. -/
structure Formed (p : Program) : Prop where
  index : p = ofBody p.body
  ids : (Node.postorder (roots p.body)).map Node.id = List.range p.size
  kinds : ∀ n, p.Contains n → n.Kinded

/-- Every node of the program has its number as its place in the index. -/
def Indexed (p : Program) : Prop :=
  ∀ n, p.Contains n → p.node? n.id = some n

theorem Indexed.eq_of_id (hp : p.Indexed) (hn : p.Contains n) (hm : p.Contains m)
    (hid : n.id = m.id) : n = m := by
  have h := hp n hn
  rw [hid, hp m hm] at h
  exact (Option.some.inj h).symm

theorem Formed.nodes_eq (hp : p.Formed) : p.nodes = (Node.postorder (roots p.body)).toArray := by
  rw [hp.index]
  rfl

/-- The index of a program that is formed holds its nodes. -/
theorem Formed.mem_nodes_iff (hp : p.Formed) : n ∈ p.nodes ↔ p.Contains n := by
  rw [hp.nodes_eq, List.mem_toArray, contains_iff_mem]

/-- The number at a place of the index is the place itself. -/
theorem Formed.id_eq (hp : p.Formed) {k : Nat} (hk : p.node? k = some n) : n.id = k := by
  have hlt : k < p.size := (Array.getElem?_eq_some_iff.1 hk).1
  rw [node?, hp.nodes_eq, List.getElem?_toArray] at hk
  have hid : some n.id = some k := by
    calc some n.id = ((Node.postorder (roots p.body)).map Node.id)[k]? := by
          rw [List.getElem?_map, hk]
          rfl
      _ = (List.range p.size)[k]? := by rw [hp.ids]
      _ = some k := List.getElem?_range hlt
  exact Option.some.inj hid

/-- The number of a node is its place in the index. -/
theorem Formed.indexed (hp : p.Formed) : p.Indexed := by
  intro n hn
  rw [contains_iff_mem] at hn
  obtain ⟨k, hk⟩ := List.mem_iff_getElem?.1 hn
  have hnode : p.node? k = some n := by
    rw [node?, hp.nodes_eq, List.getElem?_toArray]
    exact hk
  rw [hp.id_eq hnode]
  exact hnode

/-- A text that parses to a body is a program. -/
theorem exists_of_parse_body {text : String} {body : List Stmt}
    (h : (parse text).toOption.map (·.body) = some body) :
    ∃ p, parse text = .ok p ∧ p.body = body := by
  cases hparse : parse text with
  | error e =>
    rw [hparse] at h
    cases h
  | ok p =>
    rw [hparse] at h
    exact ⟨p, rfl, Option.some.inj h⟩

/-- A program that is parsed is the index of the statements that its words are read as. -/
theorem exists_body_of_parse {text : String} (h : parse text = .ok p) :
    ∃ words body, Lexeme.scan text = .ok words ∧ parseTokens words = .ok body ∧
      p = ofBody body := by
  unfold parse at h
  cases hscan : Lexeme.scan text with
  | error e =>
    rw [hscan] at h
    cases h
  | ok words =>
    rw [hscan] at h
    cases hbody : parseTokens words with
    | error f =>
      simp only [hbody, bind, Except.bind] at h
      cases h
    | ok body =>
      simp only [hbody, bind, Except.bind] at h
      cases h
      exact ⟨words, body, rfl, hbody, rfl⟩

/-- Programs that are parsed are formed. -/
theorem formed_of_parse {text : String} (h : parse text = .ok p) : p.Formed := by
  obtain ⟨words, body, -, hbody, rfl⟩ := exists_body_of_parse h
  obtain ⟨next, hstatements⟩ := parseTokens_eq_ok_iff.1 hbody
  have hbuilt : Built (roots body) 0 next :=
    Grammar.built_statements (Grammar.builds_within _).1 hstatements
  have hsize : (ofBody body).size = next := by
    have hlength := congrArg List.length hbuilt.ids
    rw [List.length_map, List.length_range', Nat.sub_zero] at hlength
    exact hlength
  refine ⟨rfl, ?_, fun n hn => hbuilt.kinds n (contains_iff_mem.1 hn)⟩
  rw [hsize, List.range_eq_range']
  exact hbuilt.ids

/-- Programs that are parsed are indexed. -/
theorem indexed_of_parse {text : String} (h : parse text = .ok p) : p.Indexed :=
  (formed_of_parse h).indexed

end Program

end LWorkbench
