import LWorkbench.Proofs.Relocation.Trees

/-!
# Moving phrases

The grammar looks at the tokens of words and not at where they stand; only the spans of nodes are
taken from the first and the last word of a phrase. So what is derived from some words is derived,
moved, from the moved words, and a text that has the same words at other places is parsed to the
moved program.

## Main definitions

* `Grammar.Relocates` — the phrases of a kind move with their words

## Main results

* `Grammar.relocates_within` — all phrases move with their words
* `Program.parseTokens_relocate` — moved words are parsed to the moved statements
-/

namespace LWorkbench

variable {r : Relocation} {w : List Lexeme} {i j : NodeId}

/-- The site of a node moves with its words. -/
theorem Site.ofWords_relocate (h : w ≠ []) (id : NodeId) :
    Site.ofWords (w.map (·.relocate r)) id = (Site.ofWords w id).relocate r := by
  obtain ⟨l, others, rfl⟩ := List.exists_cons_of_ne_nil h
  obtain ⟨front, last, hlast⟩ := List.eq_nil_or_concat (l :: others) |>.resolve_left h
  have hstop : ((l :: others).map (·.relocate r)).getLast? = some (last.relocate r) := by
    rw [hlast, List.map_concat, List.concat_eq_append, List.getLast?_concat]
  have hstop' : (l :: others).getLast? = some last := by
    rw [hlast, List.concat_eq_append, List.getLast?_concat]
  simp only [ofWords, Span.ofWords, hstop, hstop', relocate, Span.relocate]
  rfl

namespace Grammar

/-- The phrases of a kind move with their words. -/
def Relocates {α : Type} (r : Relocation) (phrase : Phrase α) (move : α → α) : Prop :=
  ∀ ⦃w i j a⦄, phrase w i j a → phrase (w.map (·.relocate r)) i j (move a)

variable {g : Grammar}

theorem relocates_name (kind : ScopeKind) :
    Relocates r (NamePhrase kind) (Name.relocate r) := by
  intro w i j n h
  cases h with
  | name hl => exact .name (l := Lexeme.relocate r _) hl

theorem relocates_elements {α : Type} {phrase : Phrase α} {move : α → α} {close : Symbol}
    (h : Relocates r phrase move) : Relocates r (Elements phrase close) (List.map move) := by
  intro w i j xs hxs
  induction hxs with
  | nil hclose => exact .nil hclose
  | last hx hclose =>
    rw [List.map_append]
    exact .last (h hx) hclose
  | cons hx hcomma _ ih =>
    rw [List.map_append]
    exact .cons (h hx) hcomma ih

theorem relocates_statements {statement : Phrase Stmt} (h : Relocates r statement (Stmt.relocate r)) :
    Relocates r (Statements statement) (List.map (Stmt.relocate r)) := by
  intro w i j ss hss
  induction hss with
  | nil => exact .nil
  | cons hs _ ih =>
    rw [List.map_append]
    exact .cons (h hs) ih

theorem relocates_braced {statement : Phrase Stmt} (h : Relocates r statement (Stmt.relocate r)) :
    Relocates r (Braced statement) (List.map (Stmt.relocate r)) := by
  intro w i j ss hss
  cases hss with
  | braced hopen hbody hclose =>
    rw [List.map_append, List.map_cons]
    exact .braced hopen (relocates_statements h hbody) hclose

theorem relocates_property (hexpression : Relocates r g.expression (Expr.relocate r)) :
    Relocates r (Property g) fun p => (p.1, p.2.relocate r) := by
  intro w i j p h
  cases h with
  | property hkey hcolon he => exact .property hkey hcolon (hexpression he)

theorem relocates_primary (hstatement : Relocates r g.statement (Stmt.relocate r))
    (hexpression : Relocates r g.expression (Expr.relocate r)) :
    Relocates r (Primary g) (Expr.relocate r) := by
  intro w i j e h
  cases h with
  | literal hl => exact .literal (l := Lexeme.relocate r _) hl
  | name hn => exact .name (relocates_name _ hn)
  | array hopen hitems =>
    rw [Expr.relocate, ← Site.ofWords_relocate (by simp), Expr.relocateAll_eq]
    exact .array (l := Lexeme.relocate r _) hopen (relocates_elements hexpression hitems)
  | emptyTuple hopen hclose => exact .emptyTuple (l := Lexeme.relocate r _) hopen hclose
  | group hopen he hclose =>
    rw [List.map_append]
    exact .group (l := Lexeme.relocate r _) hopen (hexpression he) hclose
  | tuple hopen he hcomma hitems =>
    rw [Expr.relocate, ← Site.ofWords_relocate (by simp), Expr.relocateAll_eq, List.map_append]
    exact .tuple (l := Lexeme.relocate r _) hopen (hexpression he) hcomma
      (relocates_elements hexpression hitems)
  | object hopen hproperties =>
    rw [Expr.relocate, ← Site.ofWords_relocate (by simp), Expr.relocateValues_eq]
    exact .object (l := Lexeme.relocate r _) hopen
      (relocates_elements (relocates_property hexpression) hproperties)
  | function hword hopen hparams hbody =>
    rw [Expr.relocate, ← Site.ofWords_relocate (by simp), Stmt.relocateAll_eq, List.map_append]
    exact .function (l := Lexeme.relocate r _) hword hopen
      (relocates_elements (relocates_name _) hparams) (relocates_braced hstatement hbody)

theorem relocates_suffixed (hstatement : Relocates r g.statement (Stmt.relocate r))
    (hexpression : Relocates r g.expression (Expr.relocate r)) :
    Relocates r (Suffixed g) (Expr.relocate r) := by
  intro w i j e h
  induction h with
  | primary he => exact .primary (relocates_primary hstatement hexpression he)
  | call _ hopen hargs ih =>
    rw [Expr.relocate, ← Site.ofWords_relocate (by simp), Expr.relocateAll_eq, List.map_append]
    exact .call ih hopen (relocates_elements hexpression hargs)
  | member _ hdot hx ih =>
    rw [Expr.relocate, ← Site.ofWords_relocate (by simp), List.map_append]
    exact .member ih hdot hx
  | index _ hopen he' hclose ih =>
    rw [Expr.relocate, ← Site.ofWords_relocate (by simp), List.map_append, List.map_append]
    exact .index ih hopen (hexpression he') hclose

theorem relocates_unary (hsuffixed : Relocates r (Suffixed g) (Expr.relocate r))
    (hoperand : Relocates r g.operand (Expr.relocate r)) :
    Relocates r (Unary g) (Expr.relocate r) := by
  intro w i j e h
  cases h with
  | suffixed he => exact .suffixed (hsuffixed he)
  | operator hop he =>
    rw [Expr.relocate, ← Site.ofWords_relocate (by simp)]
    exact .operator (l := Lexeme.relocate r _) hop (hoperand he)

theorem relocates_chain {ω : Type} {ops : List ω} {mark : ω → Symbol}
    {make : Site → ω → Expr → Expr → Expr} {operand : Phrase Expr}
    (hmake : ∀ site op e e', (make site op e e').relocate r =
      make (site.relocate r) op (e.relocate r) (e'.relocate r))
    (hoperand : Relocates r operand (Expr.relocate r)) :
    Relocates r (Chain ops mark make operand) (Expr.relocate r) := by
  intro w i j e h
  induction h with
  | operand he => exact .operand (hoperand he)
  | operator _ hmem hop he₂ ih =>
    rw [hmake, ← Site.ofWords_relocate (by simp), List.map_append]
    exact .operator ih hmem hop (hoperand he₂)

theorem relocates_assignment (hunary : Relocates r (Unary g) (Expr.relocate r))
    (hexpression : Relocates r g.expression (Expr.relocate r)) :
    Relocates r (Assignment g) (Expr.relocate r) := by
  have hdisjunction : Relocates r (Disjunction g) (Expr.relocate r) := by
    refine relocates_chain (fun _ _ _ _ => rfl) ?_
    refine relocates_chain (fun _ _ _ _ => rfl) ?_
    refine relocates_chain (fun _ _ _ _ => rfl) ?_
    refine relocates_chain (fun _ _ _ _ => rfl) ?_
    refine relocates_chain (fun _ _ _ _ => rfl) ?_
    exact relocates_chain (fun _ _ _ _ => rfl) hunary
  intro w i j e h
  cases h with
  | plain he => exact .plain (hdisjunction he)
  | assign htarget hassign he =>
    rw [Expr.relocate, ← Site.ofWords_relocate (by simp), List.map_append]
    exact .assign (hdisjunction htarget) hassign (hexpression he)

theorem relocates_jumpLabel : Relocates r JumpLabel (Option.map (Name.relocate r)) := by
  intro w i j label h
  cases h with
  | none => exact .none
  | some hn => exact .some (relocates_name _ hn)

theorem relocates_condition (hexpression : Relocates r g.expression (Expr.relocate r)) :
    Relocates r (Condition g) (Expr.relocate r) := by
  intro w i j e h
  cases h with
  | condition hopen he hclose =>
    rw [List.map_append]
    exact .condition (l := Lexeme.relocate r _) hopen (hexpression he) hclose

theorem relocates_statement (hstatement : Relocates r g.statement (Stmt.relocate r))
    (hexpression : Relocates r g.expression (Expr.relocate r)) :
    Relocates r (Statement g) (Stmt.relocate r) := by
  intro w i j s h
  cases h with
  | declare hword hn hend =>
    rw [Stmt.relocate, ← Site.ofWords_relocate (by simp), List.map_append]
    exact .declare (l := Lexeme.relocate r _) hword (relocates_name _ hn) hend
  | declareWith hword hn hassign he hend =>
    rw [Stmt.relocate, ← Site.ofWords_relocate (by simp), List.map_append, List.map_append]
    exact .declareWith (l := Lexeme.relocate r _) hword (relocates_name _ hn) hassign
      (hexpression he) hend
  | evaluate hbrace he hend =>
    rw [Stmt.relocate, ← Site.ofWords_relocate (by simp), List.map_append]
    refine .evaluate (fun l hl => ?_) (hexpression he) hend
    rw [List.head?_map] at hl
    obtain ⟨l, hhead, rfl⟩ := Option.map_eq_some_iff.1 hl
    exact hbrace l hhead
  | block hbody =>
    have hne : w ≠ [] := by
      cases hbody
      simp
    rw [Stmt.relocate, ← Site.ofWords_relocate hne, Stmt.relocateAll_eq]
    exact .block (relocates_braced hstatement hbody)
  | labeled hn hcolon hs =>
    rw [Stmt.relocate, ← Site.ofWords_relocate (by simp), List.map_append]
    exact .labeled (relocates_name _ hn) hcolon (hstatement hs)
  | branch hword he hs =>
    rw [Stmt.relocate, ← Site.ofWords_relocate (by simp), List.map_append]
    exact .branch (l := Lexeme.relocate r _) hword (relocates_condition hexpression he)
      (hstatement hs)
  | branchElse hword he hs₁ hopen helse hs₂ =>
    rw [Stmt.relocate, ← Site.ofWords_relocate (by simp), List.map_append, List.map_append]
    exact .branchElse (l := Lexeme.relocate r _) hword (relocates_condition hexpression he)
      (hstatement hs₁) ((Stmt.isOpen_relocate _).trans hopen) helse (hstatement hs₂)
  | loop hword he hs =>
    rw [Stmt.relocate, ← Site.ofWords_relocate (by simp), List.map_append]
    exact .loop (l := Lexeme.relocate r _) hword (relocates_condition hexpression he)
      (hstatement hs)
  | breakTo hword hlabel hend =>
    rw [Stmt.relocate, ← Site.ofWords_relocate (by simp), List.map_append]
    exact .breakTo (l := Lexeme.relocate r _) hword (relocates_jumpLabel hlabel) hend
  | continueTo hword hlabel hend =>
    rw [Stmt.relocate, ← Site.ofWords_relocate (by simp), List.map_append]
    exact .continueTo (l := Lexeme.relocate r _) hword (relocates_jumpLabel hlabel) hend
  | returnNothing hword hend => exact .returnNothing (l := Lexeme.relocate r _) hword hend
  | returnWith hword he hend =>
    rw [Stmt.relocate, ← Site.ofWords_relocate (by simp), List.map_append]
    exact .returnWith (l := Lexeme.relocate r _) hword (hexpression he) hend

/-- All phrases move with their words. -/
theorem relocates_within (r : Relocation) (depth : Nat) :
    Relocates r (within depth).statement (Stmt.relocate r) ∧
      Relocates r (within depth).expression (Expr.relocate r) ∧
      Relocates r (within depth).operand (Expr.relocate r) := by
  induction depth with
  | zero => exact ⟨nofun, nofun, nofun⟩
  | succ depth ih =>
    obtain ⟨hstatement, hexpression, hoperand⟩ := ih
    have hunary := relocates_unary (relocates_suffixed hstatement hexpression) hoperand
    exact ⟨relocates_statement hstatement hexpression, relocates_assignment hunary hexpression,
      hunary⟩

end Grammar

namespace Program

variable {words : List Lexeme} {body : List Stmt}

/-- Moved words are parsed to the moved statements. -/
theorem parseTokens_relocate (h : parseTokens words = .ok body) :
    parseTokens (words.map (·.relocate r)) = .ok (body.map (·.relocate r)) := by
  obtain ⟨next, hstatements⟩ := parseTokens_eq_ok_iff.1 h
  have hmoved := Grammar.relocates_statements (Grammar.relocates_within r _).1 hstatements
  exact parseTokens_eq_ok_iff.2 ⟨next, hmoved⟩

/-- A text that has the words of another text at other places is parsed to the moved program. -/
theorem parse_relocate {text text' : String} {p : Program} (hparse : parse text = .ok p)
    (hscan : Lexeme.scan text = .ok words)
    (hscan' : Lexeme.scan text' = .ok (words.map (·.relocate r))) :
    parse text' = .ok (p.relocate r) := by
  obtain ⟨words', body, hwords', hbody, rfl⟩ := exists_body_of_parse hparse
  obtain rfl : words = words' := Except.ok.inj (hscan.symm.trans hwords')
  simp only [parse, hscan', bind, Except.bind, parseTokens_relocate hbody, ofBody_relocate]
  rfl

end Program

end LWorkbench
