import LWorkbench.Proofs.Analysis.Pending

/-!
# What the counts of analysis say

The counts of loops and functions are changed where a loop or a function is entered, and put back by
items that wait behind its children. Other items may wait in between, of the same loop, of functions
inside its condition, or of what stands behind it. Still each item finds the counts that belong to
its place: an invariant of the pending items says for each of them with which counts it will be
done, when those in front of it have been done.

## Main definitions

* `Counts`, `Analysis.counts` — what is counted
* `Node.chainSize`, `Counts.around` — how long the chain is at a place and what has to be counted
  there, told by the nodes around it
* `Analysis.Waiting` — the pending items will find the counts of their places
* `Analysis.moments` — the items in the order in which they are done, with the states before them
* `Work.handled` — the nodes that an item deals with at once

## Main results

* `Analysis.Waiting.perform` — doing an item keeps the promise for all others
* `Analysis.waiting_of_mem_moments` — every item finds the counts of its place
* `Analysis.handled_perm` — every node is dealt with once
* `Program.counts_fit_places` — both of them, and the counts in the end, for parsed programs
-/

namespace LWorkbench

/-- What is counted during analysis: loops inside the innermost function, functions, and the length
of the chain at the innermost function. -/
@[ext] structure Counts where
  loops : Nat
  functions : Nat
  base : Nat

/-- What is counted in a state. -/
def Analysis.counts (a : Analysis) : Counts := ⟨a.loopDepth, a.functionDepth, a.functionBase⟩

namespace Node

/-- The innermost function around a place, and the nodes around this function. -/
def fromFunction (around : List Node) : List Node :=
  around.dropWhile fun n => !n.isFunction

/-- How long the chain is at a place, when it is `size` long around the program: every node that
opens a scope adds one. -/
def chainSize (size : Nat) (around : List Node) : Nat :=
  size + around.countP opens

end Node

/-- What has to be counted at a place with the given nodes around it. -/
def Counts.around (size : Nat) (around : List Node) : Counts where
  loops := (Node.sameFunction around).countP Node.isLoop
  functions := around.countP Node.isFunction
  base := Node.chainSize size (Node.fromFunction around)

/-- The names inside a node that are dealt with as soon as the node is walked. -/
def Node.atOnce : Node → List Name
  | expr (.function _ params _) => params
  | stmt (.labeled _ label _) => [label]
  | stmt (.breakTo _ label) => label.toList
  | stmt (.continueTo _ label) => label.toList
  | _ => []

/-- The nodes that an item deals with at once: the node that it walks with some of its names, or the
name that it declares or looks up. -/
def Work.handled : Work → List Node
  | .stmt s _ => (Node.stmt s).atOnce.map .ofName ++ [.stmt s]
  | .expr e _ => (Node.expr e).atOnce.map .ofName ++ [.expr e]
  | .declare x _ => [.ofName x]
  | .reference x _ => [.ofName x]
  | .leaveLoop => []
  | .leaveFunction .. => []

namespace Analysis

variable {p : Program} {a : Analysis} {env : Environment} {n : Node} {w : Work}
  {items rest : List Work} {around : List Node} {size : Nat} {c : Counts}

/-! ### Counts and places -/

/-- Most nodes are not counted. -/
theorem countsAround_cons (hfunction : n.isFunction = false) (hloop : n.isLoop = false) :
    Counts.around size (n :: around) = Counts.around size around := by
  simp [Counts.around, Node.sameFunction, Node.fromFunction, hfunction, hloop]

theorem countsAround_loop {site : Site} {condition : Expr} {body : Stmt} :
    Counts.around size (.stmt (.loop site condition body) :: around) =
      { Counts.around size around with loops := (Counts.around size around).loops + 1 } := by
  have hfunction : (Node.stmt (.loop site condition body)).isFunction = false := rfl
  have hloop : (Node.stmt (.loop site condition body)).isLoop = true := rfl
  simp [Counts.around, Node.sameFunction, Node.fromFunction, hfunction, hloop]

theorem countsAround_function {site : Site} {params : List Name} {body : List Stmt} :
    Counts.around size (.expr (.function site params body) :: around) =
      ⟨0, (Counts.around size around).functions + 1, Node.chainSize size around + 1⟩ := by
  have hfunction : (Node.expr (.function site params body)).isFunction = true := rfl
  have hopens : (Node.expr (.function site params body)).opens = true := rfl
  simp [Counts.around, Node.sameFunction, Node.fromFunction, Node.chainSize, hfunction, hopens,
    Nat.add_assoc]

/-! ### Counts while names are bound and looked up -/

theorem counts_bind (a : Analysis) (x : Name) (env : Environment) (duplicate : String → Violation) :
    (a.bind x env duplicate).counts = a.counts := by
  unfold bind
  dsimp only
  split
  · rfl
  · split <;> rfl

theorem counts_referLabel (a : Analysis) (x : Name) (env : Environment) :
    (a.referLabel x env).counts = a.counts := by
  unfold referLabel
  split <;> rfl

theorem counts_continueLabel (p : Program) (a : Analysis) (x : Name) (env : Environment) :
    (a.continueLabel p x env).counts = a.counts := by
  unfold continueLabel
  dsimp only
  split
  · split
    · exact counts_referLabel a x env
    · exact counts_referLabel a x env
  · exact counts_referLabel a x env

/-- Inside a node what has to be counted there is counted. -/
theorem counts_perform_walk (h : a.counts = .around size around)
    (henv : env.size = Node.chainSize size around) :
    (a.perform p (walk env n)).1.counts = .around size (n :: around) := by
  -- Only loops and functions are counted. What else is done at once binds or looks up a name.
  cases n with
  | expr e =>
    cases e with
    | function site params body =>
      rw [countsAround_function, ← h, perform_function, ← henv]
      rfl
    | _ => exact h.trans (countsAround_cons rfl rfl).symm
  | stmt s =>
    cases s with
    | loop site condition body =>
      rw [countsAround_loop, ← h]
      rfl
    | labeled site label body =>
      refine Eq.trans ?_ (h.trans (countsAround_cons rfl rfl).symm)
      exact counts_bind { a with store := (a.store.extend env .label).2 } label
        (a.store.extend env .label).1 .duplicateLabel
    | breakTo site label =>
      refine Eq.trans ?_ (h.trans (countsAround_cons rfl rfl).symm)
      cases label with
      | none =>
        simp only [walk, perform, performStmt]
        split <;> rfl
      | some label => exact counts_referLabel a label env
    | continueTo site label =>
      refine Eq.trans ?_ (h.trans (countsAround_cons rfl rfl).symm)
      cases label with
      | none =>
        simp only [walk, perform, performStmt]
        split <;> rfl
      | some label => exact counts_continueLabel p a label env
    | returnWith site value =>
      refine Eq.trans ?_ (h.trans (countsAround_cons rfl rfl).symm)
      simp only [walk, perform, performStmt]
      split <;> rfl
    | _ => exact h.trans (countsAround_cons rfl rfl).symm

/-- The children are walked with the chain of their place. -/
theorem size_inner (a : Analysis) (henv : env.size = Node.chainSize size around) :
    (a.inner env n).size = Node.chainSize size (n :: around) := by
  rw [Node.chainSize, List.countP_cons, ← Nat.add_assoc]
  have hplain (h : n.opens = false) : env.size =
      size + List.countP Node.opens around + if n.opens = true then 1 else 0 := by
    rw [henv, Node.chainSize, h]
    rfl
  cases n with
  | expr e =>
    cases e with
    | function => exact congrArg (· + 1) henv
    | _ => exact hplain rfl
  | stmt s =>
    cases s with
    | block | labeled => exact congrArg (· + 1) henv
    | _ => exact hplain rfl

/-! ### Waiting items -/

/-- When what is counted is `c`, each of the pending items will be done with the counts of its
place. -/
inductive Waiting (p : Program) (size : Nat) : Counts → List Work → Prop
  | nil : Waiting p size (.around size []) []
  | walk {around : List Node} {n : Node} {env : Environment} {rest : List Work}
    (hn : p.Located around n) (henv : env.size = Node.chainSize size around)
    (hrest : Waiting p size (.around size around) rest) :
    Waiting p size (.around size around) (walk env n :: rest)
  | declare {c : Counts} {x : Name} {env : Environment} {rest : List Work}
    (hrest : Waiting p size c rest) : Waiting p size c (.declare x env :: rest)
  | reference {c : Counts} {x : Name} {env : Environment} {rest : List Work}
    (hrest : Waiting p size c rest) : Waiting p size c (.reference x env :: rest)
  | leaveLoop {c : Counts} {rest : List Work} (hrest : Waiting p size c rest) :
    Waiting p size { c with loops := c.loops + 1 } (.leaveLoop :: rest)
  | leaveFunction {c : Counts} {loops base : Nat} {rest : List Work}
    (hrest : Waiting p size c rest) :
    Waiting p size ⟨loops, c.functions + 1, base⟩ (.leaveFunction c.loops c.base :: rest)

theorem walk_inj {env' : Environment} {n' : Node} (h : walk env n = walk env' n') :
    env = env' ∧ n = n' := by
  cases n <;> cases n' <;> cases h <;> exact ⟨rfl, rfl⟩

namespace Waiting

/-- Nodes directly inside a place wait there together. -/
theorem walks {ns : List Node} (hns : ∀ n ∈ ns, p.Located around n)
    (henv : env.size = Node.chainSize size around)
    (hrest : Waiting p size (.around size around) rest) :
    Waiting p size (.around size around) (ns.map (Analysis.walk env) ++ rest) := by
  induction ns with
  | nil => exact hrest
  | cons n ns ih =>
    obtain ⟨hn, hns⟩ := List.forall_mem_cons.1 hns
    exact .walk hn henv (ih hns)

/-- What is done behind the children of a node puts the counts back. -/
theorem closing (h : a.counts = .around size around)
    (hrest : Waiting p size (.around size around) rest) :
    Waiting p size (.around size (n :: around)) (a.closing env n ++ rest) := by
  have hplain (hfunction : n.isFunction = false) (hloop : n.isLoop = false) :
      Waiting p size (.around size (n :: around)) rest := by
    rwa [countsAround_cons hfunction hloop]
  cases n with
  | expr e =>
    cases e with
    | function =>
      -- The item that leaves the function keeps the counts around it.
      have hloops : a.loopDepth = (Counts.around size around).loops := congrArg Counts.loops h
      have hbase : a.functionBase = (Counts.around size around).base := congrArg Counts.base h
      rw [countsAround_function, Analysis.closing, hloops, hbase]
      exact .leaveFunction hrest
    | assign => exact .reference (hplain rfl rfl)
    | _ => exact hplain rfl rfl
  | stmt s =>
    cases s with
    | loop =>
      rw [countsAround_loop]
      exact .leaveLoop hrest
    | declare => exact .declare (hplain rfl rfl)
    | _ => exact hplain rfl rfl

/-- Doing an item keeps the promise for all others. -/
theorem perform (h : Waiting p size a.counts (w :: rest)) :
    Waiting p size (a.perform p w).1.counts ((a.perform p w).2 ++ rest) := by
  generalize hc : a.counts = c at h
  cases h with
  -- The children wait inside the node, and what closes it waits behind them.
  | @walk around n env _ hn henv hrest =>
    rw [counts_perform_walk hc henv, items_walk, List.append_assoc]
    exact walks (fun c hmem => hn.child (n.walked_subset hmem)) (size_inner a henv)
      (closing hc hrest)
  | declare hrest =>
    rw [← hc, ← counts_bind a] at hrest
    exact hrest
  | reference hrest =>
    rw [← hc] at hrest
    exact hrest
  | @leaveLoop c _ hrest =>
    have hloops : a.loopDepth = c.loops + 1 := congrArg Counts.loops hc
    have hfunctions : a.functionDepth = c.functions := congrArg Counts.functions hc
    have hbase : a.functionBase = c.base := congrArg Counts.base hc
    have hleft : (a.perform p .leaveLoop).1.counts = c := by
      ext
      · exact congrArg (· - 1) hloops
      · exact hfunctions
      · exact hbase
    rwa [hleft]
  | @leaveFunction c _ _ _ hrest =>
    have hfunctions : a.functionDepth = c.functions + 1 := congrArg Counts.functions hc
    have hleft : (a.perform p (.leaveFunction c.loops c.base)).1.counts = c := by
      ext
      · rfl
      · exact congrArg (· - 1) hfunctions
      · rfl
    rwa [hleft]

/-- A node that is walked finds the counts of its place. -/
theorem of_walk (h : Waiting p size c (Analysis.walk env n :: rest)) :
    ∃ around, p.Located around n ∧ env.size = Node.chainSize size around ∧
      c = .around size around := by
  generalize hw : Analysis.walk env n = w at h
  cases h with
  | @walk around n' env' _ hn henv _ =>
    obtain ⟨rfl, rfl⟩ := walk_inj hw
    exact ⟨around, hn, henv, rfl⟩
  | declare | reference | leaveLoop | leaveFunction => cases n <;> cases hw

theorem loops_pos (h : Waiting p size c (.leaveLoop :: rest)) : 0 < c.loops := by
  generalize hw : Work.leaveLoop = w at h
  cases h with
  | @walk _ n => cases n <;> cases hw
  | leaveLoop => exact Nat.succ_pos _
  | declare | reference | leaveFunction => cases hw

theorem functions_pos {loopDepth functionBase : Nat}
    (h : Waiting p size c (.leaveFunction loopDepth functionBase :: rest)) : 0 < c.functions := by
  generalize hw : Work.leaveFunction loopDepth functionBase = w at h
  cases h with
  | @walk _ n => cases n <;> cases hw
  | leaveFunction => exact Nat.succ_pos _
  | declare | reference | leaveLoop => cases hw

end Waiting

/-! ### The items that are done -/

/-- The items in the order in which they are done, each with the state before it. -/
def moments (p : Program) (a : Analysis) : List Work → List (Analysis × Work)
  | [] => []
  | item :: items => (a, item) :: moments p (a.perform p item).1 ((a.perform p item).2 ++ items)
termination_by items => Work.weights items
decreasing_by
  have := weight_perform_lt p a item
  simp only [weights_append, weights_cons]
  omega

/-- Every item that is done has waited for the counts that it finds. -/
theorem waiting_of_mem_moments (h : Waiting p size a.counts items) :
    ∀ m ∈ moments p a items, ∃ rest, Waiting p size m.1.counts (m.2 :: rest) := by
  fun_induction moments p a items with
  | case1 a => nofun
  | case2 a item items ih =>
    exact List.forall_mem_cons.2 ⟨⟨items, h⟩, ih h.perform⟩

/-- In the end the counts are those around the program. -/
theorem counts_drain (h : Waiting p size a.counts items) :
    (a.drain p items).counts = .around size [] := by
  fun_induction drain p a items with
  | case1 a =>
    generalize a.counts = c at h ⊢
    cases h
    rfl
  | case2 a item items ih => exact ih h.perform

/-- All items are done by doing the moments one after another. -/
theorem drain_eq_foldl (p : Program) (a : Analysis) (items : List Work) :
    a.drain p items = (moments p a items).foldl (fun a m => (a.perform p m.2).1) a := by
  fun_induction moments p a items with
  | case1 a => exact drain_nil p a
  | case2 a item items ih => rw [drain_cons, ih, List.foldl_cons]

/-! ### Each node once -/

theorem handled_walk (env : Environment) (n : Node) :
    (walk env n).handled = n.atOnce.map .ofName ++ [n] := by
  cases n <;> rfl

/-- A name that is not walked is dealt with at once or behind the children. -/
theorem unwalked_eq (a : Analysis) (env : Environment) (n : Node) :
    n.unwalked.map Node.ofName =
      n.atOnce.map .ofName ++ (a.closing env n).flatMap Work.nodes := by
  cases n with
  | expr e => cases e <;> simp [Node.unwalked, Node.atOnce, closing, Work.nodes]
  | stmt s => cases s <;> simp [Node.unwalked, Node.atOnce, closing, Work.nodes]

/-- The nodes that an item stands for are those that it deals with at once and those of the items
that it calls for. -/
theorem nodes_perm_perform (p : Program) (a : Analysis) (w : Work) :
    w.nodes.Perm (w.handled ++ (a.perform p w).2.flatMap Work.nodes) := by
  have hwalk (env : Environment) (n : Node) : (walk env n).nodes.Perm
      ((walk env n).handled ++ (a.perform p (walk env n)).2.flatMap Work.nodes) := by
    rw [nodes_walk, handled_walk, items_walk, List.flatMap_append, nodes_walks, Node.children_eq,
      Node.postorder_append, Node.postorder_names, unwalked_eq a env]
    generalize (a.closing env n).flatMap Work.nodes = behind
    -- The node and what is done behind its children change places around the children.
    have hswap : (behind ++ (Node.postorder n.walked ++ [n])).Perm
        ([n] ++ (Node.postorder n.walked ++ behind)) := by
      refine List.perm_append_comm.trans ?_
      rw [← List.append_assoc]
      exact List.perm_append_comm.append_right _
    simpa only [List.append_assoc] using hswap.append_left (n.atOnce.map Node.ofName)
  cases w with
  | stmt s env => exact hwalk env (.stmt s)
  | expr e env => exact hwalk env (.expr e)
  | declare | reference | leaveLoop | leaveFunction => exact .refl _

/-- Doing all items deals with each of the nodes that they stand for, as often as it occurs. -/
theorem handled_perm (p : Program) (a : Analysis) (items : List Work) :
    ((moments p a items).flatMap fun m => m.2.handled).Perm (items.flatMap Work.nodes) := by
  fun_induction moments p a items with
  | case1 a => exact .refl _
  | case2 a item items ih =>
    rw [List.flatMap_append] at ih
    rw [List.flatMap_cons, List.flatMap_cons]
    refine (ih.append_left _).trans ?_
    rw [← List.append_assoc]
    exact (nodes_perm_perform p a item).symm.append_right _

theorem written_subset_handled (w : Work) : w.written ⊆ w.handled := by
  cases w with
  | stmt s env =>
    cases s with
    | breakTo _ label | continueTo _ label =>
      cases label <;> simp [Work.written, Work.handled, Node.atOnce]
    | _ => simp [Work.written, Work.handled, Node.atOnce]
  | expr e env => cases e <;> simp [Work.written, Work.handled, Node.atOnce, Node.ofName]
  | declare | reference | leaveLoop | leaveFunction =>
    simp [Work.written, Work.handled]

end Analysis

namespace Program

open Analysis

variable {p : Program} {text : String}

/-- In a parsed program that is analyzed inside any chain of scopes, each statement and each
expression is walked with the counts of its place: of the loops around it inside the innermost
function, of the functions around it, and the length of the chain at the innermost function or, when
there is none, around the program. Counts are only put back where something has been counted. Each
node of the program is dealt with once, which leaves the notes about the others alone, and in the
end the counts are what they were. -/
theorem counts_fit_places (hparse : parse text = .ok p) (notes : Array Note) (store : Store NodeId)
    (env : Environment) :
    let start : Analysis := ⟨notes, store, 0, 0, env.size⟩
    let items := Analysis.stmts p.body env
    let final := start.drain p items
    (∀ m ∈ moments p start items,
      (∀ n inner, m.2 = walk inner n → (∃ around, p.Located around n) ∧
        ∀ around, p.Located around n →
          m.1.loopDepth = (Node.sameFunction around).countP Node.isLoop ∧
          m.1.functionDepth = around.countP Node.isFunction ∧
          m.1.functionBase = Node.chainSize env.size (Node.fromFunction around) ∧
          inner.size = Node.chainSize env.size around) ∧
      (m.2 = .leaveLoop → 0 < m.1.loopDepth) ∧
      (∀ loopDepth functionBase, m.2 = .leaveFunction loopDepth functionBase →
        0 < m.1.functionDepth) ∧
      ∀ k, k ∉ m.2.handled.map Node.id →
        (m.1.perform p m.2).1.notes[k]? = m.1.notes[k]?) ∧
    (((moments p start items).flatMap fun m => m.2.handled).map Node.id).Perm
      (List.range p.size) ∧
    final = (moments p start items).foldl (fun a m => (a.perform p m.2).1) start ∧
    p.annotateFrom notes store env = ⟨p, final.notes, final.store⟩ ∧
    final.loopDepth = 0 ∧ final.functionDepth = 0 ∧ final.functionBase = env.size := by
  intro start items final
  have hp : p.Formed := formed_of_parse hparse
  have hitems : items = (roots p.body).map (walk env) := Analysis.stmts_eq ..
  -- At the start all statements wait outside of every loop and function.
  have hwaiting : Waiting p env.size start.counts items := by
    have hroots : ∀ n ∈ roots p.body, p.Located [] n := by
      intro n hn
      obtain ⟨s, hs, rfl⟩ := List.mem_map.1 hn
      exact ⟨s, hs, .root⟩
    rw [hitems, ← List.append_nil (List.map _ _)]
    exact .walks hroots rfl .nil
  refine ⟨fun m hm => ?_, ?_, drain_eq_foldl p start items, rfl, ?_⟩
  · obtain ⟨a, w⟩ := m
    obtain ⟨rest, hwaits⟩ := waiting_of_mem_moments hwaiting _ hm
    refine ⟨?_, ?_, ?_, fun k hk => notes_perform p a fun hwritten => hk ?_⟩
    · rintro n inner rfl
      obtain ⟨around, hn, hinner, hcounts⟩ := hwaits.of_walk
      refine ⟨⟨around, hn⟩, fun around' hn' => ?_⟩
      obtain rfl := hn.unique hp hn'
      exact ⟨congrArg Counts.loops hcounts, congrArg Counts.functions hcounts,
        congrArg Counts.base hcounts, hinner⟩
    · rintro rfl
      exact hwaits.loops_pos
    · rintro loopDepth functionBase rfl
      exact hwaits.functions_pos
    · exact List.map_subset _ (written_subset_handled w) hwritten
  · have hnodes : (items.flatMap Work.nodes).map Node.id = List.range p.size := by
      rw [hitems, nodes_walks, hp.ids]
    exact hnodes ▸ (handled_perm p start items).map Node.id
  · have hcounts := counts_drain hwaiting
    exact ⟨congrArg Counts.loops hcounts, congrArg Counts.functions hcounts,
      congrArg Counts.base hcounts⟩

/-- The statement in a function that stands in the condition of a loop. -/
def inFunction : Stmt :=
  .evaluate ⟨1, ⟨17, 19⟩⟩ (.name ⟨⟨0, ⟨17, 18⟩⟩, "b", .variable⟩)

/-- The statement that this loop repeats. -/
def repeated : Stmt :=
  .evaluate ⟨4, ⟨21, 23⟩⟩ (.name ⟨⟨3, ⟨21, 22⟩⟩, "c", .variable⟩)

/-- A loop with a function in its condition. -/
def loopOnFunction : Stmt :=
  .loop ⟨5, ⟨0, 23⟩⟩ (.function ⟨2, ⟨6, 20⟩⟩ [] [inFunction]) repeated

theorem scan_loopOnFunction : Lexeme.scan "while(function()\x7bb;\x7d)c;" = .ok
    [⟨.keyword .whileWord, ⟨0, 5⟩⟩, ⟨.symbol .leftParen, ⟨5, 6⟩⟩,
      ⟨.keyword .functionWord, ⟨6, 14⟩⟩, ⟨.symbol .leftParen, ⟨14, 15⟩⟩,
      ⟨.symbol .rightParen, ⟨15, 16⟩⟩, ⟨.symbol .leftBrace, ⟨16, 17⟩⟩,
      ⟨.identifier "b", ⟨17, 18⟩⟩, ⟨.symbol .semicolon, ⟨18, 19⟩⟩,
      ⟨.symbol .rightBrace, ⟨19, 20⟩⟩, ⟨.symbol .rightParen, ⟨20, 21⟩⟩,
      ⟨.identifier "c", ⟨21, 22⟩⟩, ⟨.symbol .semicolon, ⟨22, 23⟩⟩] := by
  decide +kernel

set_option maxRecDepth 4000 in
theorem parse_loopOnFunction :
    (parse "while(function()\x7bb;\x7d)c;").toOption.map (·.body) = some [loopOnFunction] := by
  rw [parse, scan_loopOnFunction]
  cbv

/-- Inside the function the loop around it does not count, and behind the function it counts
again. -/
theorem counts_fit_places_loop :
    ∃ p, parse "while(function()\x7bb;\x7d)c;" = .ok p ∧ ∀ m ∈ moments p
        ⟨p.blankNotes, Store.empty.root.2, 0, 0, rootChain.size⟩ (Analysis.stmts p.body rootChain),
      (∀ inner, m.2 = .stmt inFunction inner →
        m.1.loopDepth = 0 ∧ m.1.functionDepth = 1 ∧ m.1.functionBase = 2 ∧ inner.size = 2) ∧
      ∀ inner, m.2 = .stmt repeated inner →
        m.1.loopDepth = 1 ∧ m.1.functionDepth = 0 ∧ m.1.functionBase = 1 ∧ inner.size = 1 := by
  obtain ⟨p, hparse, hbody⟩ := exists_of_parse_body parse_loopOnFunction
  have hroot : loopOnFunction ∈ p.body := hbody ▸ List.mem_singleton.2 rfl
  have hfunction : p.Located
      [.expr (.function ⟨2, ⟨6, 20⟩⟩ [] [inFunction]), .stmt loopOnFunction] (.stmt inFunction) :=
    ⟨loopOnFunction, hroot, .child (.child .root (List.mem_cons_self ..)) (List.mem_cons_self ..)⟩
  have hrepeated : p.Located [.stmt loopOnFunction] (.stmt repeated) :=
    ⟨loopOnFunction, hroot, .child .root (List.mem_cons_of_mem _ (List.mem_cons_self ..))⟩
  refine ⟨p, hparse, fun m hm => ?_⟩
  obtain ⟨hplaces, -⟩ := counts_fit_places hparse p.blankNotes Store.empty.root.2 rootChain
  obtain ⟨hwalk, -⟩ := hplaces m hm
  exact ⟨fun inner hinner => (hwalk (.stmt inFunction) inner hinner).2 _ hfunction,
    fun inner hinner => (hwalk (.stmt repeated) inner hinner).2 _ hrepeated⟩

end Program

end LWorkbench
