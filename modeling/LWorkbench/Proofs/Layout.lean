import LWorkbench.Proofs.Places
import Mathlib

/-!
# Layout of nodes in the text

Words stand one after another in the text and are not empty. The parser makes every node from words
that follow each other, and makes its children from parts of these words, in order. At least one
word belongs to the node alone: a bracket, a keyword, an operator or a semicolon. So a node is not
empty, lies around its children, is longer than each of them, and ends before the next sibling
begins. The same induction over the grammar says that a name that stands where an expression is
expected is the name of a variable.

## Main definitions

* `Lexeme.Ordered` — words one after another
* `Span.ProperlyWithin` — a span inside a longer one
* `Node.exprs` — the expressions directly inside a node
* `Node.LaidOut` — a node lies around its children, which lie one after another
* `Spread` — trees that are read from words, one after another, with all their nodes
* `Program.LaidOut` — all nodes of a program are laid out

## Main results

* `Lexeme.ordered_of_scan` — the words of a text are ordered
* `Grammar.lays_within` — what the grammar derives from ordered words is laid out
* `Program.laidOut_of_parse` — the nodes of programs that are parsed
* `Program.spans_nest` — where the nodes of a program begin and end in its text
-/

namespace LWorkbench

/-! ### Words -/

namespace Lexeme

variable {words words' : List Lexeme} {l : Lexeme}

/-- The words stand one after another, and none is empty. -/
structure Ordered (words : List Lexeme) : Prop where
  apart : words.Pairwise fun l l' => l.span.stop ≤ l'.span.start
  nonempty : ∀ l ∈ words, l.span.start < l.span.stop

theorem Ordered.sublist (h : Ordered words) (hsub : words'.Sublist words) : Ordered words' :=
  ⟨h.apart.sublist hsub, fun l hl => h.nonempty l (hsub.subset hl)⟩

theorem Ordered.stop_le_start (h : Ordered (words ++ words')) {l l' : Lexeme} (hl : l ∈ words)
    (hl' : l' ∈ words') : l.span.stop ≤ l'.span.start :=
  (List.pairwise_append.1 h.apart).2.2 l hl l' hl'

/-- The bytes of all words together begin where the first word does. -/
theorem Ordered.start_le (h : Ordered words) (hl : l ∈ words) :
    (Span.ofWords words).start ≤ l.span.start := by
  cases words with
  | nil => cases hl
  | cons first others =>
    show first.span.start ≤ l.span.start
    rcases List.mem_cons.1 hl with rfl | hl
    · exact Nat.le_refl _
    · have hfirst := h.nonempty first List.mem_cons_self
      have hnext := List.rel_of_pairwise_cons h.apart hl
      omega

/-- The bytes of all words together end where the last word does. -/
theorem Ordered.le_stop (h : Ordered words) (hl : l ∈ words) :
    l.span.stop ≤ (Span.ofWords words).stop := by
  rcases List.eq_nil_or_concat words with rfl | ⟨others, last, rfl⟩
  · cases hl
  · rw [List.concat_eq_append] at h hl ⊢
    have hstop : (Span.ofWords (others ++ [last])).stop = last.span.stop := by
      simp [Span.ofWords]
    rw [hstop]
    rcases List.mem_append.1 hl with hl | hl
    · have hnext := h.stop_le_start hl (List.mem_singleton_self last)
      have hlast := h.nonempty last (List.mem_append_right _ (List.mem_singleton_self last))
      omega
    · obtain rfl := List.mem_singleton.1 hl
      exact Nat.le_refl _

theorem utf8Length_pos {chars : List Char} (h : chars ≠ []) : 0 < utf8Length chars := by
  obtain ⟨c, rest, rfl⟩ := List.exists_cons_of_ne_nil h
  have hpos := c.utf8Size_pos
  rw [utf8Length_cons]
  omega

theorem ordered_of_scanFrom {chars : List Char} {start : Nat} {words : List Lexeme}
    (h : scanFrom chars start = .ok words) :
    Ordered words ∧ ∀ l ∈ words, start ≤ l.span.start := by
  -- The induction follows scanning: each piece takes some bytes, and the words behind it start
  -- where it stops or later.
  fun_induction scanFrom chars start generalizing words with
  | case1 =>
    cases h
    exact ⟨⟨.nil, nofun⟩, nofun⟩
  | case2 => cases h
  | case3 start c rest piece hpiece stop lexemes token htoken hlexemes =>
    rename_i ih
    obtain ⟨hordered, hstart⟩ := ih hlexemes
    have hpos := utf8Length_pos (Piece.lexeme_append_rest hpiece).2
    have hlt : start < stop := Nat.lt_add_of_pos_right hpos
    cases h
    refine ⟨⟨.cons (fun l hl => hstart l hl) hordered.apart, ?_⟩, ?_⟩
    · exact List.forall_mem_cons.2 ⟨hlt, hordered.nonempty⟩
    · refine List.forall_mem_cons.2 ⟨Nat.le_refl _, fun l hl => ?_⟩
      exact Nat.le_trans (Nat.le_of_lt hlt) (hstart l hl)
  | case4 start c rest piece hpiece stop =>
    rename_i ih
    obtain ⟨hordered, hstart⟩ := ih h
    have hle : start ≤ stop := Nat.le_add_right _ _
    exact ⟨hordered, fun l hl => Nat.le_trans hle (hstart l hl)⟩

/-- The words of a text are ordered. -/
theorem ordered_of_scan {text : String} {words : List Lexeme} (h : scan text = .ok words) :
    Ordered words := by
  unfold scan at h
  split at h
  · rename_i lexemes hscan
    cases h
    exact (ordered_of_scanFrom hscan).1
  · cases h

end Lexeme

/-! ### Trees -/

/-- The span lies inside another one and is not the same. -/
def Span.ProperlyWithin (inner outer : Span) : Prop :=
  outer.start ≤ inner.start ∧ inner.stop ≤ outer.stop ∧ inner ≠ outer

/-- A name where an expression is expected is the name of a variable. -/
def Expr.NamesVariable : Expr → Prop
  | .name n => n.kind = .variable
  | _ => True

namespace Node

/-- The expressions directly inside a node. The target of an assignment is one of them, while names
that are bound and names of labels are not. -/
def exprs : Node → List Expr
  | expr (.literal ..) => []
  | expr (.name _) => []
  | expr (.array _ items) => items
  | expr (.tuple _ items) => items
  | expr (.object _ properties) => properties.map (·.2)
  | expr (.function ..) => []
  | expr (.unary _ _ operand) => [operand]
  | expr (.binary _ _ left right) => [left, right]
  | expr (.logical _ _ left right) => [left, right]
  | expr (.assign _ target value) => [.name target, value]
  | expr (.call _ callee args) => callee :: args
  | expr (.member _ object _) => [object]
  | expr (.index _ object index) => [object, index]
  | stmt (.declare _ _ init) => init.toList
  | stmt (.evaluate _ e) => [e]
  | stmt (.block ..) => []
  | stmt (.labeled ..) => []
  | stmt (.branch _ condition _ _) => [condition]
  | stmt (.loop _ condition _) => [condition]
  | stmt (.breakTo ..) => []
  | stmt (.continueTo ..) => []
  | stmt (.returnWith _ value) => value.toList

/-- The node is not empty and lies around its children, which lie one after another and are shorter
than it. Where it holds a name as an expression, that is the name of a variable. -/
structure LaidOut (n : Node) : Prop where
  nonempty : n.span.start < n.span.stop
  around : ∀ c ∈ n.children, n.span.start ≤ c.span.start ∧ c.span.stop ≤ n.span.stop
  proper : ∀ c ∈ n.children, c.span ≠ n.span
  apart : n.children.Pairwise fun c c' => c.span.stop ≤ c'.span.start
  names : ∀ e ∈ n.exprs, e.NamesVariable

theorem LaidOut.properlyWithin {n c : Node} (h : n.LaidOut) (hc : c ∈ n.children) :
    c.span.ProperlyWithin n.span :=
  ⟨(h.around c hc).1, (h.around c hc).2, h.proper c hc⟩

end Node

/-- The trees are read from parts of the words, one after another. All their nodes begin and end
where words do, and are laid out. -/
structure Spread (ns : List Node) (words : List Lexeme) : Prop where
  starts : ∀ n ∈ Node.postorder ns, ∃ l ∈ words, n.span.start = l.span.start
  stops : ∀ n ∈ Node.postorder ns, ∃ l ∈ words, n.span.stop = l.span.stop
  apart : ns.Pairwise fun n n' => n.span.stop ≤ n'.span.start
  laidOut : ∀ n ∈ Node.postorder ns, n.LaidOut

namespace Spread

variable {ns ns' : List Node} {words words' : List Lexeme} {n : Node} {l : Lexeme}

theorem nil (words : List Lexeme) : Spread [] words :=
  ⟨nofun, nofun, .nil, nofun⟩

/-- What is read from a part of the words is read from the words. -/
theorem mono (h : Spread ns words) (hsub : words ⊆ words') : Spread ns words' := by
  refine ⟨fun n hn => ?_, fun n hn => ?_, h.apart, h.laidOut⟩
  · obtain ⟨l, hl, hstart⟩ := h.starts n hn
    exact ⟨l, hsub hl, hstart⟩
  · obtain ⟨l, hl, hstop⟩ := h.stops n hn
    exact ⟨l, hsub hl, hstop⟩

/-- What is read from earlier words lies in front of what is read from later ones. -/
theorem append (h : Spread ns words) (h' : Spread ns' words')
    (hordered : Lexeme.Ordered (words ++ words')) : Spread (ns ++ ns') (words ++ words') := by
  have hfirst := h.mono (List.subset_append_left words words')
  have hsecond := h'.mono (List.subset_append_right words words')
  refine ⟨?_, ?_, ?_, ?_⟩
  · rw [Node.postorder_append]
    exact List.forall_mem_append.2 ⟨hfirst.starts, hsecond.starts⟩
  · rw [Node.postorder_append]
    exact List.forall_mem_append.2 ⟨hfirst.stops, hsecond.stops⟩
  · refine List.pairwise_append.2 ⟨h.apart, h'.apart, fun n hn n' hn' => ?_⟩
    obtain ⟨l, hl, hstop⟩ := h.stops n (Node.mem_postorder hn)
    obtain ⟨l', hl', hstart⟩ := h'.starts n' (Node.mem_postorder hn')
    rw [hstop, hstart]
    exact hordered.stop_le_start hl hl'
  · rw [Node.postorder_append]
    exact List.forall_mem_append.2 ⟨h.laidOut, h'.laidOut⟩

/-- A tree whose children are read from some of its words and which is laid out itself. -/
theorem of_children (h : Spread n.children words) (hne : words ≠ [])
    (hspan : n.span = .ofWords words) (hlaidOut : n.LaidOut) : Spread [n] words := by
  have hstart : ∃ l ∈ words, n.span.start = l.span.start := by
    obtain ⟨first, others, rfl⟩ := List.exists_cons_of_ne_nil hne
    refine ⟨first, List.mem_cons_self, ?_⟩
    rw [hspan]
    rfl
  have hstop : ∃ l ∈ words, n.span.stop = l.span.stop := by
    refine ⟨words.getLast hne, List.getLast_mem hne, ?_⟩
    rw [hspan, Span.ofWords, List.getLast?_eq_some_getLast hne]
    rfl
  refine ⟨?_, ?_, List.pairwise_singleton _ _, ?_⟩ <;> rw [Node.postorder_singleton]
  · exact List.forall_mem_append.2 ⟨h.starts, List.forall_mem_singleton.2 hstart⟩
  · exact List.forall_mem_append.2 ⟨h.stops, List.forall_mem_singleton.2 hstop⟩
  · exact List.forall_mem_append.2 ⟨h.laidOut, List.forall_mem_singleton.2 hlaidOut⟩

/-- A node is read from all its words, and its children from the words in front of one of them and
from the words behind it. This word belongs to the node alone. -/
theorem node (h : Spread ns words) (h' : Spread ns' words')
    (hordered : Lexeme.Ordered (words ++ l :: words')) (hchildren : n.children = ns ++ ns')
    (hspan : n.span = .ofWords (words ++ l :: words'))
    (hnames : ∀ e ∈ n.exprs, e.NamesVariable) : Spread [n] (words ++ l :: words') := by
  have hsub : (words ++ words').Sublist (words ++ l :: words') :=
    (List.Sublist.refl words).append (List.sublist_cons_self l words')
  have hspread : Spread n.children (words ++ l :: words') := by
    rw [hchildren]
    exact (h.append h' (hordered.sublist hsub)).mono hsub.subset
  have hl : l ∈ words ++ l :: words' := List.mem_append_right _ List.mem_cons_self
  have hnonempty := hordered.nonempty l hl
  have hstart := hordered.start_le hl
  have hstop := hordered.le_stop hl
  rw [← hspan] at hstart hstop
  refine hspread.of_children (by simp) hspan ⟨by omega, ?_, ?_, hspread.apart, hnames⟩
  · intro c hc
    obtain ⟨k, hk, hcstart⟩ := hspread.starts c (Node.mem_postorder hc)
    obtain ⟨k', hk', hcstop⟩ := hspread.stops c (Node.mem_postorder hc)
    rw [hcstart, hcstop, hspan]
    exact ⟨hordered.start_le hk, hordered.le_stop hk'⟩
  -- A child ends before the word that belongs to the node alone, or begins behind it.
  · intro c hc heq
    rw [hchildren] at hc
    rcases List.mem_append.1 hc with hc | hc
    · obtain ⟨k, hk, hcstop⟩ := h.stops c (Node.mem_postorder hc)
      have hbefore := hordered.stop_le_start hk (List.mem_cons_self (a := l) (l := words'))
      rw [← hcstop, heq] at hbefore
      omega
    · obtain ⟨k, hk, hcstart⟩ := h'.starts c (Node.mem_postorder hc)
      have hafter := List.rel_of_pairwise_cons (List.pairwise_append.1 hordered.apart).2.1 hk
      rw [← hcstart, heq] at hafter
      omega

/-- A node that begins with a word of its own. -/
theorem behind (h : Spread n.children words) (hordered : Lexeme.Ordered (l :: words))
    (hspan : n.span = .ofWords (l :: words)) (hnames : ∀ e ∈ n.exprs, e.NamesVariable) :
    Spread [n] (l :: words) :=
  node (.nil []) h hordered rfl hspan hnames

/-- A node that ends with a word of its own. -/
theorem before (h : Spread n.children words) (hordered : Lexeme.Ordered (words ++ [l]))
    (hspan : n.span = .ofWords (words ++ [l])) (hnames : ∀ e ∈ n.exprs, e.NamesVariable) :
    Spread [n] (words ++ [l]) :=
  node h (.nil []) hordered (List.append_nil _).symm hspan hnames

/-- A node without children. -/
theorem leaf (hchildren : n.children = []) (hordered : Lexeme.Ordered (l :: words))
    (hspan : n.span = .ofWords (l :: words)) (hnames : ∀ e ∈ n.exprs, e.NamesVariable) :
    Spread [n] (l :: words) :=
  behind (hchildren ▸ nil words) hordered hspan hnames

end Spread

/-! ### The grammar -/

namespace Grammar

open Lexeme (Ordered)

/-- What the phrases of a kind are read as is laid out, and has a property. -/
def Lays {α : Type} (phrase : Phrase α) (node : α → Node) (good : α → Prop) : Prop :=
  ∀ ⦃w i j a⦄, phrase w i j a → Ordered w → Spread [node a] w ∧ good a

variable {g : Grammar} {w w' : List Lexeme} {i j : NodeId}

theorem lays_name (kind : ScopeKind) : Lays (NamePhrase kind) .ofName fun n => n.kind = kind := by
  intro w i j n h hw
  cases h
  exact ⟨.leaf rfl hw rfl nofun, rfl⟩

theorem lays_elements {α : Type} {phrase : Phrase α} {node : α → Node} {good : α → Prop}
    {close : Symbol} (h : Lays phrase node good) {xs : List α}
    (hxs : Elements phrase close w i j xs) (hw : Ordered w) :
    Spread (xs.map node) w ∧ ∀ x ∈ xs, good x := by
  induction hxs with
  | nil => exact ⟨.nil _, nofun⟩
  | last hx _ =>
    obtain ⟨hspread, hgood⟩ := h hx (hw.sublist (List.sublist_append_left _ _))
    exact ⟨hspread.mono (List.subset_append_left _ _), List.forall_mem_singleton.2 hgood⟩
  | @cons l w w' i j k x xs hx _ _ ih =>
    -- The comma between the elements belongs to neither.
    have hsub : (w ++ w').Sublist (w ++ l :: w') :=
      (List.Sublist.refl w).append (List.sublist_cons_self l w')
    have hparts := hw.sublist hsub
    obtain ⟨hfirst, hgood⟩ := h hx (hparts.sublist (List.sublist_append_left _ _))
    obtain ⟨hothers, hgoods⟩ := ih (hparts.sublist (List.sublist_append_right _ _))
    exact ⟨(hfirst.append hothers hparts).mono hsub.subset, List.forall_mem_cons.2 ⟨hgood, hgoods⟩⟩

theorem spread_statements {statement : Phrase Stmt} {good : Stmt → Prop}
    (h : Lays statement .stmt good) {ss : List Stmt} (hss : Statements statement w i j ss)
    (hw : Ordered w) : Spread (ss.map .stmt) w := by
  induction hss with
  | nil => exact .nil _
  | cons hs _ ih =>
    have hfirst := (h hs (hw.sublist (List.sublist_append_left _ _))).1
    exact hfirst.append (ih (hw.sublist (List.sublist_append_right _ _))) hw

theorem spread_braced {statement : Phrase Stmt} {good : Stmt → Prop}
    (h : Lays statement .stmt good) {ss : List Stmt} (hss : Braced statement w i j ss)
    (hw : Ordered w) : Spread (ss.map .stmt) w := by
  cases hss with
  | @braced l l' w _ _ _ _ hss _ =>
    have hsub : w.Sublist (l :: w ++ [l']) :=
      (List.sublist_cons_self l w).trans (List.sublist_append_left _ _)
    exact (spread_statements h hss (hw.sublist hsub)).mono hsub.subset

/-- A phrase between two further words. -/
theorem sublist_between (l l' : Lexeme) (w : List Lexeme) : w.Sublist (l :: w ++ [l']) :=
  (List.sublist_cons_self l w).trans (List.sublist_append_left _ _)

/-- Two phrases with a word between them. -/
theorem sublist_around (l : Lexeme) (w w' : List Lexeme) : (w ++ w').Sublist (w ++ l :: w') :=
  (List.Sublist.refl w).append (List.sublist_cons_self l w')

/-- Children that are read from two parts of the words, one after another. -/
theorem spread_two {ns ns' : List Node} (hns : Ordered w → Spread ns w)
    (hns' : Ordered w' → Spread ns' w') (hw : Ordered (w ++ w')) :
    Spread (ns ++ ns') (w ++ w') :=
  (hns (hw.sublist (List.sublist_append_left _ _))).append
    (hns' (hw.sublist (List.sublist_append_right _ _))) hw

theorem lays_primary {good : Stmt → Prop} (hstatement : Lays g.statement .stmt good)
    (hexpression : Lays g.expression .expr Expr.NamesVariable) :
    Lays (Primary g) .expr Expr.NamesVariable := by
  intro w i j e h hw
  cases h with
  | literal => exact ⟨.leaf rfl hw rfl nofun, trivial⟩
  | name hn => exact lays_name _ hn hw
  | @array l w i j items _ hitems =>
    have hparts := hw.sublist (List.sublist_cons_self l w)
    obtain ⟨hspread, hnames⟩ := lays_elements hexpression hitems hparts
    exact ⟨.behind hspread hw rfl hnames, trivial⟩
  | emptyTuple => exact ⟨.leaf rfl hw rfl nofun, trivial⟩
  -- Parentheses leave no node of their own.
  | @group l l' w _ _ _ _ he _ =>
    have hsub := sublist_between l l' w
    obtain ⟨hspread, hnames⟩ := hexpression he (hw.sublist hsub)
    exact ⟨hspread.mono hsub.subset, hnames⟩
  | @tuple l l' w w' i j k e items _ he _ hitems =>
    have hsub := sublist_around l' w w'
    have hparts := hw.sublist (hsub.trans (List.sublist_cons_self _ _))
    obtain ⟨hfirst, hname⟩ := hexpression he (hparts.sublist (List.sublist_append_left _ _))
    obtain ⟨hothers, hnames⟩ :=
      lays_elements hexpression hitems (hparts.sublist (List.sublist_append_right _ _))
    refine ⟨.behind ((hfirst.append hothers hparts).mono hsub.subset) hw rfl ?_, trivial⟩
    exact List.forall_mem_cons.2 ⟨hname, hnames⟩
  | @object l w i j properties _ hproperties =>
    -- Of a property only the value is a node; the key is kept as it is.
    have hproperty : Lays (Property g) (fun p => .expr p.2) fun p => p.2.NamesVariable := by
      intro w i j q h hw
      cases h with
      | @property l l' w _ _ _ _ _ _ he =>
        have hsub : w.Sublist (l :: l' :: w) :=
          (List.sublist_cons_self _ _).trans (List.sublist_cons_self _ _)
        obtain ⟨hspread, hnames⟩ := hexpression he (hw.sublist hsub)
        exact ⟨hspread.mono hsub.subset, hnames⟩
    have hparts := hw.sublist (List.sublist_cons_self l w)
    obtain ⟨hspread, hnames⟩ := lays_elements hproperty hproperties hparts
    refine ⟨.behind hspread hw rfl ?_, trivial⟩
    exact List.forall_mem_map.2 hnames
  | @function l l' w w' i j k params body _ _ hparams hbody =>
    have hsub : (w ++ w').Sublist (l :: l' :: w ++ w') :=
      (List.sublist_cons_self _ _).trans (List.sublist_cons_self _ _)
    have hspread := spread_two (fun hw => (lays_elements (lays_name _) hparams hw).1)
      (fun hw => spread_braced hstatement hbody hw) (hw.sublist hsub)
    exact ⟨.behind (hspread.mono (List.subset_cons_self l' (w ++ w'))) hw rfl nofun, trivial⟩

theorem lays_suffixed {good : Stmt → Prop} (hstatement : Lays g.statement .stmt good)
    (hexpression : Lays g.expression .expr Expr.NamesVariable) :
    Lays (Suffixed g) .expr Expr.NamesVariable := by
  intro w i j e h
  induction h with
  | primary he => exact lays_primary hstatement hexpression he
  | @call l w w' i j k e args he _ hargs ih =>
    intro hw
    have hparts := hw.sublist (sublist_around l w w')
    obtain ⟨hcallee, hname⟩ := ih (hparts.sublist (List.sublist_append_left _ _))
    obtain ⟨hspread, hnames⟩ :=
      lays_elements hexpression hargs (hparts.sublist (List.sublist_append_right _ _))
    refine ⟨.node hcallee hspread hw rfl rfl ?_, trivial⟩
    exact List.forall_mem_cons.2 ⟨hname, hnames⟩
  | @member l l' w i j e x he _ _ ih =>
    intro hw
    obtain ⟨hspread, hname⟩ := ih (hw.sublist (List.sublist_append_left _ _))
    refine ⟨.node hspread (.nil [l']) hw rfl rfl ?_, trivial⟩
    exact List.forall_mem_singleton.2 hname
  | @index l l' w w' i j k e e' he _ he' _ ih =>
    intro hw
    have hsub := sublist_around l w w'
    have hparts := hw.sublist (hsub.trans (List.sublist_append_left _ _))
    obtain ⟨hobject, hname⟩ := ih (hparts.sublist (List.sublist_append_left _ _))
    obtain ⟨hindex, hname'⟩ := hexpression he' (hparts.sublist (List.sublist_append_right _ _))
    refine ⟨.before ((hobject.append hindex hparts).mono hsub.subset) hw rfl ?_, trivial⟩
    exact List.forall_mem_cons.2 ⟨hname, List.forall_mem_singleton.2 hname'⟩

theorem lays_unary (hsuffixed : Lays (Suffixed g) .expr Expr.NamesVariable)
    (hoperand : Lays g.operand .expr Expr.NamesVariable) :
    Lays (Unary g) .expr Expr.NamesVariable := by
  intro w i j e h hw
  cases h with
  | suffixed he => exact hsuffixed he hw
  | @operator l w i j op e _ he =>
    obtain ⟨hspread, hname⟩ := hoperand he (hw.sublist (List.sublist_cons_self l w))
    refine ⟨.behind hspread hw rfl ?_, trivial⟩
    exact List.forall_mem_singleton.2 hname

theorem lays_chain {ω : Type} {ops : List ω} {mark : ω → Symbol}
    {make : Site → ω → Expr → Expr → Expr} {operand : Phrase Expr}
    (hchildren : ∀ site op e e', (Node.expr (make site op e e')).children = [.expr e, .expr e'])
    (hexprs : ∀ site op e e', (Node.expr (make site op e e')).exprs = [e, e'])
    (hsite : ∀ site op e e', (make site op e e').site = site)
    (hgood : ∀ site op e e', (make site op e e').NamesVariable)
    (hoperand : Lays operand .expr Expr.NamesVariable) :
    Lays (Chain ops mark make operand) .expr Expr.NamesVariable := by
  intro w i j e h
  induction h with
  | operand he => exact hoperand he
  | @operator l w w' i j k op e₁ e₂ _ _ _ he₂ ih =>
    intro hw
    have hparts := hw.sublist (sublist_around l w w')
    obtain ⟨hleft, hname⟩ := ih (hparts.sublist (List.sublist_append_left _ _))
    obtain ⟨hright, hname'⟩ := hoperand he₂ (hparts.sublist (List.sublist_append_right _ _))
    have hspan := congrArg Site.span (hsite (.ofWords (w ++ l :: w') k) op e₁ e₂)
    refine ⟨.node hleft hright hw (hchildren _ _ _ _) hspan ?_, hgood _ _ _ _⟩
    rw [hexprs]
    exact List.forall_mem_cons.2 ⟨hname, List.forall_mem_singleton.2 hname'⟩

theorem lays_binary {ops : List BinaryOp} {operand : Phrase Expr}
    (hoperand : Lays operand .expr Expr.NamesVariable) :
    Lays (Chain ops BinaryOp.mark .binary operand) .expr Expr.NamesVariable :=
  lays_chain (fun _ _ _ _ => rfl) (fun _ _ _ _ => rfl) (fun _ _ _ _ => rfl)
    (fun _ _ _ _ => trivial) hoperand

theorem lays_logical {ops : List LogicalOp} {operand : Phrase Expr}
    (hoperand : Lays operand .expr Expr.NamesVariable) :
    Lays (Chain ops LogicalOp.mark .logical operand) .expr Expr.NamesVariable :=
  lays_chain (fun _ _ _ _ => rfl) (fun _ _ _ _ => rfl) (fun _ _ _ _ => rfl)
    (fun _ _ _ _ => trivial) hoperand

theorem lays_assignment (hunary : Lays (Unary g) .expr Expr.NamesVariable)
    (hexpression : Lays g.expression .expr Expr.NamesVariable) :
    Lays (Assignment g) .expr Expr.NamesVariable := by
  have hdisjunction : Lays (Disjunction g) .expr Expr.NamesVariable :=
    lays_logical (lays_logical (lays_binary (lays_binary (lays_binary (lays_binary hunary)))))
  intro w i j e h hw
  cases h with
  | plain he => exact hdisjunction he hw
  | @assign l w w' i j k target e htarget _ he =>
    have hparts := hw.sublist (sublist_around l w w')
    obtain ⟨hleft, hname⟩ := hdisjunction htarget (hparts.sublist (List.sublist_append_left _ _))
    obtain ⟨hright, hname'⟩ := hexpression he (hparts.sublist (List.sublist_append_right _ _))
    refine ⟨.node hleft hright hw rfl rfl ?_, trivial⟩
    exact List.forall_mem_cons.2 ⟨hname, List.forall_mem_singleton.2 hname'⟩

theorem lays_condition (hexpression : Lays g.expression .expr Expr.NamesVariable) :
    Lays (Condition g) .expr Expr.NamesVariable := by
  intro w i j e h hw
  cases h with
  | @condition l l' w _ _ _ _ he _ =>
    have hsub := sublist_between l l' w
    obtain ⟨hspread, hname⟩ := hexpression he (hw.sublist hsub)
    exact ⟨hspread.mono hsub.subset, hname⟩

theorem spread_jumpLabel {label : Option Name} (h : JumpLabel w i j label) (hw : Ordered w) :
    Spread (label.map Node.ofName).toList w := by
  cases h with
  | none => exact .nil _
  | some hn => exact (lays_name _ hn hw).1

theorem lays_statement (hstatement : Lays g.statement .stmt fun _ => True)
    (hexpression : Lays g.expression .expr Expr.NamesVariable) :
    Lays (Statement g) .stmt fun _ => True := by
  intro w i j s h hw
  refine ⟨?_, trivial⟩
  -- The children are read from the words without the keywords and signs, which are still ordered.
  cases h with
  | @declare l l' w i j n _ hn _ =>
    have hname := (lays_name _ hn (hw.sublist (sublist_between l l' w))).1
    exact .behind (hname.mono (List.subset_append_left w [l'])) hw rfl nofun
  | @declareWith l l' l'' w w' i j k n e _ hn _ he _ =>
    have hsub : (w ++ w').Sublist (w ++ l' :: w' ++ [l'']) :=
      (sublist_around l' w w').trans (List.sublist_append_left _ _)
    have hparts := hw.sublist (hsub.trans (List.sublist_cons_self _ _))
    have hname := (lays_name _ hn (hparts.sublist (List.sublist_append_left _ _))).1
    obtain ⟨hinit, hnames⟩ := hexpression he (hparts.sublist (List.sublist_append_right _ _))
    refine .behind ((hname.append hinit hparts).mono hsub.subset) hw rfl ?_
    exact List.forall_mem_singleton.2 hnames
  | @evaluate l w i j e _ he _ =>
    obtain ⟨hspread, hname⟩ := hexpression he (hw.sublist (List.sublist_append_left _ _))
    refine .before hspread hw rfl ?_
    exact List.forall_mem_singleton.2 hname
  | block hbody =>
    obtain @⟨l, l', w, _, _, _, _, hstatements, _⟩ := hbody
    have hspread := spread_statements hstatement hstatements (hw.sublist (sublist_between l l' w))
    exact .behind (hspread.mono (List.subset_append_left w [l'])) hw rfl nofun
  | @labeled l w w' i j k n s hn _ hs =>
    have hparts := hw.sublist (sublist_around l w w')
    have hname := (lays_name _ hn (hparts.sublist (List.sublist_append_left _ _))).1
    have hbody := (hstatement hs (hparts.sublist (List.sublist_append_right _ _))).1
    exact .node hname hbody hw rfl rfl nofun
  | @branch l w w' i j k e s _ he hs =>
    have hparts := hw.sublist (List.sublist_cons_self l (w ++ w'))
    obtain ⟨hcondition, hname⟩ :=
      lays_condition hexpression he (hparts.sublist (List.sublist_append_left _ _))
    have hspread := hcondition.append
      (hstatement hs (hparts.sublist (List.sublist_append_right _ _))).1 hparts
    refine .behind hspread hw rfl ?_
    exact List.forall_mem_singleton.2 hname
  | @branchElse l l' w w' w'' i j k m e s₁ s₂ _ he hs₁ _ _ hs₂ =>
    have hsub : (w ++ (w' ++ w'')).Sublist (w ++ w' ++ l' :: w'') := by
      rw [List.append_assoc]
      exact (List.Sublist.refl w).append (sublist_around l' w' w'')
    have hparts := hw.sublist (hsub.trans (List.sublist_cons_self l _))
    obtain ⟨hcondition, hname⟩ :=
      lays_condition hexpression he (hparts.sublist (List.sublist_append_left _ _))
    have hbranches := spread_two (fun hw => (hstatement hs₁ hw).1)
      (fun hw => (hstatement hs₂ hw).1) (hparts.sublist (List.sublist_append_right _ _))
    refine .behind ((hcondition.append hbranches hparts).mono hsub.subset) hw rfl ?_
    exact List.forall_mem_singleton.2 hname
  | @loop l w w' i j k e s _ he hs =>
    have hparts := hw.sublist (List.sublist_cons_self l (w ++ w'))
    obtain ⟨hcondition, hname⟩ :=
      lays_condition hexpression he (hparts.sublist (List.sublist_append_left _ _))
    have hspread := hcondition.append
      (hstatement hs (hparts.sublist (List.sublist_append_right _ _))).1 hparts
    refine .behind hspread hw rfl ?_
    exact List.forall_mem_singleton.2 hname
  | @breakTo l l' w _ _ _ _ hlabel _ =>
    have hspread := spread_jumpLabel hlabel (hw.sublist (sublist_between l l' w))
    exact .behind (hspread.mono (List.subset_append_left w [l'])) hw rfl nofun
  | @continueTo l l' w _ _ _ _ hlabel _ =>
    have hspread := spread_jumpLabel hlabel (hw.sublist (sublist_between l l' w))
    exact .behind (hspread.mono (List.subset_append_left w [l'])) hw rfl nofun
  | returnNothing => exact .leaf rfl hw rfl nofun
  | @returnWith l l' w _ _ _ _ he _ =>
    obtain ⟨hspread, hname⟩ := hexpression he (hw.sublist (sublist_between l l' w))
    refine .behind (hspread.mono (List.subset_append_left w [l'])) hw rfl ?_
    exact List.forall_mem_singleton.2 hname

/-- What the grammar derives from ordered words is laid out. -/
theorem lays_within (depth : Nat) :
    Lays (within depth).statement .stmt (fun _ => True) ∧
      Lays (within depth).expression .expr Expr.NamesVariable ∧
      Lays (within depth).operand .expr Expr.NamesVariable := by
  induction depth with
  | zero => exact ⟨nofun, nofun, nofun⟩
  | succ depth ih =>
    obtain ⟨hstatement, hexpression, hoperand⟩ := ih
    have hunary := lays_unary (lays_suffixed hstatement hexpression) hoperand
    exact ⟨lays_statement hstatement hexpression, lays_assignment hunary hexpression, hunary⟩

end Grammar

/-! ### Programs -/

namespace Program

variable {p : Program} {text : String} {n : Node}

/-- The statements of a program that is parsed are read from the words of its text. -/
theorem spread_of_parse (h : parse text = .ok p) :
    ∃ words, Lexeme.scan text = .ok words ∧ Spread (roots p.body) words := by
  obtain ⟨words, body, hscan, hbody, rfl⟩ := exists_body_of_parse h
  obtain ⟨next, hstatements⟩ := parseTokens_eq_ok_iff.1 hbody
  exact ⟨words, hscan, Grammar.spread_statements (Grammar.lays_within _).1 hstatements
    (Lexeme.ordered_of_scan hscan)⟩

/-- The nodes of the program are laid out, and its statements lie one after another. -/
structure LaidOut (p : Program) : Prop where
  nodes : ∀ n, p.Contains n → n.LaidOut
  apart : p.body.Pairwise fun s s' => s.site.span.stop ≤ s'.site.span.start

/-- Programs that are parsed are laid out. -/
theorem laidOut_of_parse (h : parse text = .ok p) : p.LaidOut := by
  obtain ⟨words, -, hspread⟩ := spread_of_parse h
  refine ⟨fun n hn => ?_, ?_⟩
  · exact hspread.laidOut n (contains_iff_mem.1 hn)
  · exact List.pairwise_map.1 hspread.apart

theorem Contains.inside {around outer : List Node} {root : Node} (hroot : p.Contains root)
    (h : Node.Inside around root outer n) : p.Contains n := by
  induction h with
  | root => exact hroot
  | child _ hc ih => exact .child ih hc

/-- What is inside a node lies inside it in the text. -/
theorem LaidOut.inside (hp : p.LaidOut) {around outer : List Node} {root : Node}
    (hroot : p.Contains root) (h : Node.Inside around root outer n) :
    root.span.start ≤ n.span.start ∧ n.span.stop ≤ root.span.stop := by
  induction h with
  | root => exact ⟨Nat.le_refl _, Nat.le_refl _⟩
  | child hn hc ih =>
    have haround := (hp.nodes _ (hroot.inside hn)).around _ hc
    exact ⟨Nat.le_trans ih.1 haround.1, Nat.le_trans haround.2 ih.2⟩

/-- A text that is parsed: every node has some bytes, begins where a word begins and ends where a
word ends. The nodes directly inside it lie inside it, are shorter than it, and each of them ends
before the next one begins; so do the top statements. -/
theorem spans_nest (hparse : parse text = .ok p) :
    ∃ words, Lexeme.scan text = .ok words ∧
      (∀ n ∈ p.nodes, n.span.start < n.span.stop ∧
        (∃ l ∈ words, n.span.start = l.span.start) ∧ (∃ l ∈ words, n.span.stop = l.span.stop) ∧
        (∀ c ∈ n.children, c.span.ProperlyWithin n.span) ∧
        n.children.Pairwise fun c c' => c.span.stop ≤ c'.span.start) ∧
      p.body.Pairwise fun s s' => s.site.span.stop ≤ s'.site.span.start := by
  obtain ⟨words, hscan, hspread⟩ := spread_of_parse hparse
  refine ⟨words, hscan, fun n hn => ?_, (laidOut_of_parse hparse).apart⟩
  have hn : n ∈ Node.postorder (roots p.body) :=
    contains_iff_mem.1 ((formed_of_parse hparse).mem_nodes_iff.1 hn)
  have hlaidOut := hspread.laidOut n hn
  exact ⟨hlaidOut.nonempty, hspread.starts n hn, hspread.stops n hn,
    fun c hc => hlaidOut.properlyWithin hc, hlaidOut.apart⟩

theorem scan_postfix : Lexeme.scan "(a)(()).b;" = .ok
    [⟨.symbol .leftParen, ⟨0, 1⟩⟩, ⟨.identifier "a", ⟨1, 2⟩⟩, ⟨.symbol .rightParen, ⟨2, 3⟩⟩,
      ⟨.symbol .leftParen, ⟨3, 4⟩⟩, ⟨.symbol .leftParen, ⟨4, 5⟩⟩, ⟨.symbol .rightParen, ⟨5, 6⟩⟩,
      ⟨.symbol .rightParen, ⟨6, 7⟩⟩, ⟨.symbol .dot, ⟨7, 8⟩⟩, ⟨.identifier "b", ⟨8, 9⟩⟩,
      ⟨.symbol .semicolon, ⟨9, 10⟩⟩] := by
  decide +kernel

set_option maxRecDepth 4000 in
/-- A call and a property of its result, whose callee stands in parentheses. -/
theorem parse_postfix : (parse "(a)(()).b;").toOption.map (·.body) = some
    [.evaluate ⟨4, ⟨0, 10⟩⟩ (.member ⟨3, ⟨0, 9⟩⟩ (.call ⟨2, ⟨0, 7⟩⟩
      (.name ⟨⟨0, ⟨1, 2⟩⟩, "a", .variable⟩) [.tuple ⟨1, ⟨4, 6⟩⟩ []]) "b")] := by
  rw [parse, scan_postfix]
  cbv

/-- The callee in parentheses is shorter than the call, which begins at the parenthesis. -/
theorem spans_nest_postfix : ∃ p, parse "(a)(()).b;" = .ok p ∧ p.body ≠ [] ∧
    ∀ n ∈ p.nodes, n.span.start < n.span.stop ∧
      ∀ c ∈ n.children, c.span.ProperlyWithin n.span := by
  obtain ⟨p, hparse, hbody⟩ := exists_of_parse_body parse_postfix
  obtain ⟨words, -, hnodes, -⟩ := spans_nest hparse
  refine ⟨p, hparse, by simp [hbody], fun n hn => ?_⟩
  obtain ⟨hnonempty, -, -, hwithin, -⟩ := hnodes n hn
  exact ⟨hnonempty, hwithin⟩

end Program

end LWorkbench
