import LWorkbench.Analysis
import LWorkbench.Proofs.Places

/-!
# Rules of the language

Which nodes break a rule is told by the tree alone. A name must be bound once in a scope, and a
scope for variables is a block, a function or the whole program; labels do not count, and neither
do branches and loops without braces. A jump must stay inside its function: without a label it
needs a loop around it, with a label it needs a statement of that label around it, and `continue`
needs that statement to be a loop. A `return` needs a function around it.

A rule is broken at a name where it is a matter of names, and at the statement otherwise.

## Main definitions

* `Stmt.vars`, `Node.vars` — the names that are bound in the scope around a statement
* `Program.bindings` — the names that are bound in the nearest scope around a place, in the order of
  the text
* `Node.sameFunction`, `Node.target?` — what a jump can see of the nodes around it
* `Program.Violates` — a node breaks a rule

## Main results

* `Program.Violates.unique` — a node breaks one rule at most
* `Program.Formed.nodup_bindings` — every binding of a scope is at a node of its own
-/

namespace LWorkbench

/-! ### Scopes for variables -/

/-- The names that a statement binds in the scope around it, in the order of the text. -/
def Stmt.vars : Stmt → List Name
  | declare _ name _ => [name]
  | labeled _ _ body => body.vars
  | branch _ _ thenBranch none => thenBranch.vars
  | branch _ _ thenBranch (some elseBranch) => thenBranch.vars ++ elseBranch.vars
  | loop _ _ body => body.vars
  | _ => []

namespace Node

/-- The names that a node binds in the scope around it. An expression binds none, because a function
has a scope of its own. -/
def vars : Node → List Name
  | expr _ => []
  | stmt s => s.vars

/-- The names that are bound in the scope of a block or a function, in the order of the text. -/
def bindings? : Node → Option (List Name)
  | stmt (.block _ body) => some (body.flatMap Stmt.vars)
  | expr (.function _ params body) => some (params ++ body.flatMap Stmt.vars)
  | _ => none

end Node

/-- The names that are bound in the nearest scope for variables around a place. -/
def Program.bindings (p : Program) (around : List Node) : List Name :=
  (around.findSome? Node.bindings?).getD (p.body.flatMap Stmt.vars)

/-! ### What jumps see -/

namespace Node

/-- Whether the node is a function. -/
def isFunction : Node → Bool
  | expr (.function ..) => true
  | _ => false

/-- Whether the node itself is a loop; a label in front of a loop is not. -/
def isLoop : Node → Bool
  | stmt (.loop ..) => true
  | _ => false

/-- The nodes around a place that are inside the innermost function around it. -/
def sameFunction (around : List Node) : List Node :=
  around.takeWhile fun n => !n.isFunction

/-- The label of a node with a certain label, and the statement behind it. -/
def labeled? (x : String) : Node → Option (Name × Stmt)
  | stmt (.labeled _ label body) => if label.identifier = x then some (label, body) else none
  | _ => none

/-- The innermost label of a certain identifier that a jump can name, and the statement behind
it. -/
def target? (around : List Node) (x : String) : Option (Name × Stmt) :=
  (sameFunction around).findSome? (labeled? x)

end Node

/-! ### Violations -/

/-- A node, among the nodes around it, breaks a rule. -/
inductive Program.Violates (p : Program) : List Node → Node → Violation → Prop
  /-- A variable is declared whose identifier is bound earlier in the same scope. -/
  | duplicateDeclaration {outer : List Node} {site : Site} {name earlier : Name}
      {init : Option Expr} {before after : List Name}
      (hscope : p.bindings outer = before ++ name :: after) (hearlier : earlier ∈ before)
      (hidentifier : earlier.identifier = name.identifier) :
    Violates p (.stmt (.declare site name init) :: outer) (.expr (.name name))
      (.duplicateDeclaration name.identifier)
  /-- A parameter repeats the identifier of an earlier one. -/
  | duplicateParameter {outer : List Node} {site : Site} {params : List Name}
      {body : List Stmt} {name earlier : Name} {before after : List Name}
      (hparams : params = before ++ name :: after) (hearlier : earlier ∈ before)
      (hidentifier : earlier.identifier = name.identifier) :
    Violates p (.expr (.function site params body) :: outer) (.expr (.name name))
      (.duplicateParameter name.identifier)
  /-- A `break` without a label has no loop around it. -/
  | illegalBreak {around : List Node} {site : Site}
      (hloop : ∀ n ∈ Node.sameFunction around, n.isLoop = false) :
    Violates p around (.stmt (.breakTo site none)) .illegalBreak
  /-- A `continue` without a label has no loop around it. -/
  | illegalContinue {around : List Node} {site : Site}
      (hloop : ∀ n ∈ Node.sameFunction around, n.isLoop = false) :
    Violates p around (.stmt (.continueTo site none)) .illegalContinue
  /-- A `return` has no function around it. -/
  | illegalReturn {around : List Node} {site : Site} {value : Option Expr}
      (hfunction : ∀ n ∈ around, n.isFunction = false) :
    Violates p around (.stmt (.returnWith site value)) .illegalReturn
  /-- A `break` names a label that no statement around it has. -/
  | undefinedBreakLabel {outer : List Node} {site : Site} {label : Name}
      (htarget : Node.target? outer label.identifier = none) :
    Violates p (.stmt (.breakTo site (some label)) :: outer) (.expr (.name label))
      (.undefinedLabel label.identifier)
  /-- A `continue` names a label that no statement around it has. -/
  | undefinedContinueLabel {outer : List Node} {site : Site} {label : Name}
      (htarget : Node.target? outer label.identifier = none) :
    Violates p (.stmt (.continueTo site (some label)) :: outer) (.expr (.name label))
      (.undefinedLabel label.identifier)
  /-- A `continue` names a label whose statement is no loop, not even behind further labels. -/
  | notALoop {outer : List Node} {site : Site} {label found : Name} {body : Stmt}
      (htarget : Node.target? outer label.identifier = some (found, body))
      (hloop : body.isLoop = false) :
    Violates p (.stmt (.continueTo site (some label)) :: outer) (.expr (.name label))
      (.notALoop label.identifier)

/-- Whether rules about names are broken at names directly inside the node. -/
def Node.marksNames : Node → Bool
  | stmt (.declare ..) => true
  | stmt (.breakTo _ (some _)) => true
  | stmt (.continueTo _ (some _)) => true
  | expr (.function ..) => true
  | _ => false

variable {p : Program} {around outer : List Node} {n c : Node} {v v' : Violation} {name : Name}

namespace Program.Violates

/-- A node breaks one rule at most. -/
theorem unique (h : p.Violates around n v) (h' : p.Violates around n v') : v = v' := by
  cases h with
  | duplicateDeclaration | duplicateParameter | illegalBreak | illegalContinue | illegalReturn =>
    cases h'
    rfl
  | undefinedBreakLabel =>
    cases h'
    rfl
  | undefinedContinueLabel htarget =>
    cases h' with
    -- A label that is not found is not found to be no loop.
    | undefinedContinueLabel => rfl
    | notALoop htarget' =>
      rw [htarget] at htarget'
      cases htarget'
  | notALoop htarget =>
    cases h' with
    | undefinedContinueLabel htarget' =>
      rw [htarget] at htarget'
      cases htarget'
    | notALoop => rfl

/-- Names are marked only where they are declared or where a jump names them. -/
theorem of_name (h : p.Violates (n :: outer) (.ofName name) v) : n.marksNames = true := by
  cases h <;> rfl

end Program.Violates

/-! ### Bindings are at different nodes -/

theorem Node.postorder_sublist {ns ms : List Node} (h : ns.Sublist ms) :
    (postorder ns).Sublist (postorder ms) := by
  induction h with
  | slnil => exact .refl _
  | cons m _ ih =>
    rw [postorder_cons]
    exact (ih.cons m).trans (List.sublist_append_right _ _)
  | cons_cons m _ ih =>
    rw [postorder_cons, postorder_cons]
    exact .append (.refl _) (ih.cons_cons m)

theorem Node.postorder_children_sublist (n : Node) :
    (postorder n.children).Sublist (postorder [n]) := by
  rw [postorder_singleton]
  exact List.sublist_append_left _ _

theorem Node.postorder_children_sublist_of_mem {ns : List Node} :
    ∀ n ∈ postorder ns, (postorder n.children).Sublist (postorder ns) :=
  fun n hn => (postorder_children_sublist n).trans (postorder_singleton_sublist n hn)

/-- What a statement binds are names inside it, in the order of the text. -/
theorem Stmt.vars_sublist : ∀ s : Stmt,
    (s.vars.map Node.ofName).Sublist (Node.postorder [.stmt s])
  | .declare site name init => by
    refine .trans ?_ (Node.postorder_children_sublist _)
    rw [Node.children, Node.postorder_cons]
    exact (List.singleton_sublist.2 List.mem_cons_self).trans (List.sublist_append_right _ _)
  | .labeled _ _ body => by
    refine body.vars_sublist.trans (.trans ?_ (Node.postorder_children_sublist _))
    exact Node.postorder_sublist (List.sublist_cons_self _ _)
  | .branch _ _ thenBranch none => by
    refine thenBranch.vars_sublist.trans (.trans ?_ (Node.postorder_children_sublist _))
    exact Node.postorder_sublist (List.sublist_cons_self _ _)
  | .branch _ _ thenBranch (some elseBranch) => by
    rw [vars, List.map_append]
    refine (thenBranch.vars_sublist.append elseBranch.vars_sublist).trans ?_
    rw [← Node.postorder_append]
    refine .trans ?_ (Node.postorder_children_sublist _)
    exact Node.postorder_sublist (List.sublist_cons_self _ _)
  | .loop _ _ body => by
    refine body.vars_sublist.trans (.trans ?_ (Node.postorder_children_sublist _))
    exact Node.postorder_sublist (List.sublist_cons_self _ _)
  | .evaluate .. => List.nil_sublist _
  | .block .. => List.nil_sublist _
  | .breakTo .. => List.nil_sublist _
  | .continueTo .. => List.nil_sublist _
  | .returnWith .. => List.nil_sublist _

theorem Stmt.vars_sublist_all (body : List Stmt) :
    ((body.flatMap Stmt.vars).map Node.ofName).Sublist (Node.postorder (body.map .stmt)) := by
  induction body with
  | nil => exact List.nil_sublist _
  | cons s body ih =>
    rw [List.flatMap_cons, List.map_append, List.map_cons, ← List.singleton_append,
      Node.postorder_append]
    exact s.vars_sublist.append ih

theorem Node.bindings?_sublist {bindings : List Name} (h : n.bindings? = some bindings) :
    (bindings.map ofName).Sublist (postorder n.children) := by
  unfold bindings? at h
  split at h
  · cases h
    exact Stmt.vars_sublist_all _
  · cases h
    rw [children, postorder_append, List.map_append]
    refine .append ?_ (Stmt.vars_sublist_all _)
    -- A name has nothing inside it, so parameters stand one after another.
    rename_i params _
    induction params with
    | nil => exact .refl _
    | cons param params ih =>
      rw [List.map_cons, postorder_cons]
      exact (ih.cons_cons _).trans (List.sublist_append_right _ _)
  · cases h

/-- Every binding of a scope is at a node of its own. -/
theorem Program.Formed.nodup_bindings (hp : p.Formed) (h : p.Located around n) :
    (p.bindings around).Nodup := by
  have hnodup : (Node.postorder (roots p.body)).Nodup := List.Nodup.of_map _ hp.nodup_ids
  -- The bindings of a scope are some of the nodes of the program, in their order.
  refine List.Nodup.of_map Node.ofName (List.Nodup.sublist ?_ hnodup)
  unfold bindings
  cases hfind : around.findSome? Node.bindings? with
  | none => exact Stmt.vars_sublist_all p.body
  | some bindings =>
    obtain ⟨m, hm, hbindings⟩ := List.exists_of_findSome?_eq_some hfind
    have hcontains := contains_iff_mem.1 (h.contains_around m hm)
    exact (Node.bindings?_sublist hbindings).trans
      (Node.postorder_children_sublist_of_mem m hcontains)

/-! ### When a rule is broken -/

namespace Program

variable {site : Site} {init value : Option Expr} {params before after : List Name}
  {body : List Stmt} {label : Name}

/-- What stands in front of a name is told by the name where no name stands twice. -/
theorem before_unique {names before' after' : List Name} (hnodup : names.Nodup)
    (h : names = before ++ name :: after) (h' : names = before' ++ name :: after') :
    before = before' := by
  -- The name stands neither in front of itself nor behind itself.
  rw [h, List.nodup_middle, List.nodup_cons, List.mem_append, not_or] at hnodup
  obtain ⟨⟨hbefore, hafter⟩, -⟩ := hnodup
  exact ((List.append_cons_inj_of_notMem hbefore hafter).1 (h.symm.trans h')).1

theorem violates_declare_iff (hnodup : (p.bindings outer).Nodup)
    (hscope : p.bindings outer = before ++ name :: after) :
    p.Violates (.stmt (.declare site name init) :: outer) (.ofName name) v ↔
      v = .duplicateDeclaration name.identifier ∧
        ∃ earlier ∈ before, earlier.identifier = name.identifier := by
  constructor
  · intro h
    cases h with
    | duplicateDeclaration hscope' hearlier hidentifier =>
      obtain rfl := before_unique hnodup hscope' hscope
      exact ⟨rfl, _, hearlier, hidentifier⟩
  · rintro ⟨rfl, earlier, hearlier, hidentifier⟩
    exact .duplicateDeclaration hscope hearlier hidentifier

theorem violates_param_iff (hnodup : params.Nodup) (hparams : params = before ++ name :: after) :
    p.Violates (.expr (.function site params body) :: outer) (.ofName name) v ↔
      v = .duplicateParameter name.identifier ∧
        ∃ earlier ∈ before, earlier.identifier = name.identifier := by
  constructor
  · intro h
    cases h with
    | duplicateParameter hparams' hearlier hidentifier =>
      obtain rfl := before_unique hnodup hparams' hparams
      exact ⟨rfl, _, hearlier, hidentifier⟩
  · rintro ⟨rfl, earlier, hearlier, hidentifier⟩
    exact .duplicateParameter hparams hearlier hidentifier

theorem violates_break_iff :
    p.Violates around (.stmt (.breakTo site none)) v ↔
      v = .illegalBreak ∧ ∀ n ∈ Node.sameFunction around, n.isLoop = false := by
  constructor
  · intro h
    cases h with
    | illegalBreak hloop => exact ⟨rfl, hloop⟩
  · rintro ⟨rfl, hloop⟩
    exact .illegalBreak hloop

theorem violates_continue_iff :
    p.Violates around (.stmt (.continueTo site none)) v ↔
      v = .illegalContinue ∧ ∀ n ∈ Node.sameFunction around, n.isLoop = false := by
  constructor
  · intro h
    cases h with
    | illegalContinue hloop => exact ⟨rfl, hloop⟩
  · rintro ⟨rfl, hloop⟩
    exact .illegalContinue hloop

theorem violates_return_iff :
    p.Violates around (.stmt (.returnWith site value)) v ↔
      v = .illegalReturn ∧ ∀ n ∈ around, n.isFunction = false := by
  constructor
  · intro h
    cases h with
    | illegalReturn hfunction => exact ⟨rfl, hfunction⟩
  · rintro ⟨rfl, hfunction⟩
    exact .illegalReturn hfunction

theorem violates_breakLabel_iff :
    p.Violates (.stmt (.breakTo site (some label)) :: outer) (.ofName label) v ↔
      v = .undefinedLabel label.identifier ∧ Node.target? outer label.identifier = none := by
  constructor
  · intro h
    cases h with
    | undefinedBreakLabel htarget => exact ⟨rfl, htarget⟩
  · rintro ⟨rfl, htarget⟩
    exact .undefinedBreakLabel htarget

theorem violates_continueLabel_iff :
    p.Violates (.stmt (.continueTo site (some label)) :: outer) (.ofName label) v ↔
      (v = .undefinedLabel label.identifier ∧ Node.target? outer label.identifier = none) ∨
        (v = .notALoop label.identifier ∧ ∃ found body,
          Node.target? outer label.identifier = some (found, body) ∧ body.isLoop = false) := by
  constructor
  · intro h
    cases h with
    | undefinedContinueLabel htarget => exact .inl ⟨rfl, htarget⟩
    | notALoop htarget hloop => exact .inr ⟨rfl, _, _, htarget, hloop⟩
  · rintro (⟨rfl, htarget⟩ | ⟨rfl, found, body, htarget, hloop⟩)
    · exact .undefinedContinueLabel htarget
    · exact .notALoop htarget hloop

end Program

end LWorkbench
