import Mathlib.Logic.ExistsUnique
import LWorkbench.Proofs.Parser.Expressions

/-!
# Programs are read as the grammar derives them

A statement is recognised by its first word, or by the first two for a label, and the first words of
the rules exclude each other. With that the parsers of every depth read the phrases of the grammar
up to the same depth, and a list of words is parsed to a tree exactly when the grammar derives it.

## Main definitions

* `Nesting.KeywordRuns` — what stands behind a reserved word is read

## Main results

* `Nesting.Matches.reads_statementBody` — statements
* `Nesting.matches_within` — phrases of every depth
* `Program.parseTokens_iff_derives` — programs, of which there is at most one for a list of words
-/

namespace LWorkbench

namespace Nesting

open LWorkbench.Parser Grammar

variable {inner : Nesting} {g : Grammar} {c c' : Cursor} {s : Stmt}

/-! ### Parts that may be missing -/

section

variable {α : Type} {parser : Parser α} {o : Option α}

theorem finishes_afterMark? {m : Symbol} :
    Finishes (afterMark? m parser) c o c' ↔
      (c.peek? ≠ some (.symbol m) ∧ o = none ∧ c' = c) ∨
      ∃ l c₁, l.Is m ∧ c.Takes l c₁ ∧ ∃ a, parser.Runs c₁ a c' ∧ o = some a := by
  constructor
  · intro hrun
    rw [Finishes, afterMark?] at hrun
    obtain ⟨hpeek, haccept⟩ | ⟨l, c₁, h₁, hl, htakes, haccept⟩ := accept?_cases m c
    · simp only [haccept] at hrun
      obtain ⟨h, hrun⟩ := hrun
      cases hrun
      exact .inl ⟨hpeek, rfl, rfl⟩
    · simp only [haccept, Parsed.exists_bind_iff, Completed.exists_pure_iff] at hrun
      obtain ⟨a, c₂, h₂, ha, rfl, rfl⟩ := hrun
      exact .inr ⟨l, c₁, hl, htakes, a, ⟨h₂, ha⟩, rfl⟩
  · rw [Finishes, afterMark?]
    rintro (⟨hpeek, rfl, rfl⟩ | ⟨l, c₁, hl, htakes, a, ⟨h₂, ha⟩, rfl⟩)
    · simp only [accept?_of_peek? hpeek]
      exact ⟨Nat.le_refl _, trivial⟩
    · simp only [accept?_of_takes hl htakes, Parsed.exists_bind_iff, Completed.exists_pure_iff]
      exact ⟨a, c', h₂, ha, rfl, rfl⟩

theorem finishes_afterWord? {k : Keyword} :
    Finishes (afterWord? k parser) c o c' ↔
      (c.peek? ≠ some (.keyword k) ∧ o = none ∧ c' = c) ∨
      ∃ l c₁, l.IsWord k ∧ c.Takes l c₁ ∧ ∃ a, parser.Runs c₁ a c' ∧ o = some a := by
  constructor
  · intro hrun
    rw [Finishes, afterWord?] at hrun
    obtain ⟨hpeek, haccept⟩ | ⟨l, c₁, h₁, hl, htakes, haccept⟩ := acceptWord?_cases k c
    · simp only [haccept] at hrun
      obtain ⟨h, hrun⟩ := hrun
      cases hrun
      exact .inl ⟨hpeek, rfl, rfl⟩
    · simp only [haccept, Parsed.exists_bind_iff, Completed.exists_pure_iff] at hrun
      obtain ⟨a, c₂, h₂, ha, rfl, rfl⟩ := hrun
      exact .inr ⟨l, c₁, hl, htakes, a, ⟨h₂, ha⟩, rfl⟩
  · rw [Finishes, afterWord?]
    rintro (⟨hpeek, rfl, rfl⟩ | ⟨l, c₁, hl, htakes, a, ⟨h₂, ha⟩, rfl⟩)
    · simp only [acceptWord?_of_peek? hpeek]
      exact ⟨Nat.le_refl _, trivial⟩
    · simp only [acceptWord?_of_takes hl htakes, Parsed.exists_bind_iff, Completed.exists_pure_iff]
      exact ⟨a, c', h₂, ha, rfl, rfl⟩

theorem finishes_unless? {m : Symbol} :
    Finishes (unless? m parser) c o c' ↔
      (c.peek? = some (.symbol m) ∧ o = none ∧ c' = c) ∨
      (c.peek? ≠ some (.symbol m) ∧ ∃ a, parser.Runs c a c' ∧ o = some a) := by
  by_cases hpeek : c.peek? = some (.symbol m)
  · constructor
    · rintro ⟨h, hrun⟩
      simp only [unless?, hpeek, if_true] at hrun
      cases hrun
      exact .inl ⟨hpeek, rfl, rfl⟩
    · rintro (⟨-, rfl, rfl⟩ | ⟨hne, -⟩)
      · exact ⟨Nat.le_refl _, by simp only [unless?, hpeek, if_true]⟩
      · exact absurd hpeek hne
  · have heq : unless? m parser c = parser c >>= fun q =>
        pure ⟨some q.value, q.next, Nat.le_of_lt q.progress⟩ := if_neg hpeek
    simp only [Finishes, heq, Parsed.exists_bind_iff, Completed.exists_pure_iff, Runs, hpeek,
      false_and, false_or, not_false_eq_true, true_and, exists_and_right, ne_eq]
    constructor
    · rintro ⟨a, c₁, ha, rfl, rfl⟩
      exact ⟨a, ha, rfl⟩
    · rintro ⟨a, ha, rfl⟩
      exact ⟨a, c', ha, rfl, rfl⟩

end

theorem finishes_jumpLabel? {o : Option Name} :
    Finishes jumpLabel? c o c' ↔
      (∃ n, (name .label .jumpEnd).Runs c n c' ∧ o = some n) ∨
      ((∀ x, c.peek? ≠ some (.identifier x)) ∧ o = none ∧ c' = c) := by
  by_cases hpeek : ∃ x, c.peek? = some (.identifier x)
  · obtain ⟨x, hpeek⟩ := hpeek
    simp only [Finishes, jumpLabel?, hpeek, Parsed.exists_bind_iff, Completed.exists_pure_iff,
      exists_and_right, Runs]
    constructor
    · rintro ⟨n, c₁, hn, rfl, rfl⟩
      exact .inl ⟨n, hn, rfl⟩
    · rintro (⟨n, hn, rfl⟩ | ⟨hne, -⟩)
      · exact ⟨n, c', hn, rfl, rfl⟩
      · exact absurd rfl (hne x)
  -- Without an identifier the parser takes nothing, and a name could not have been read either.
  · have hpeek : ∀ x, c.peek? ≠ some (.identifier x) := fun x hx => hpeek ⟨x, hx⟩
    constructor
    · rintro ⟨h, hrun⟩
      unfold jumpLabel? at hrun
      split at hrun
      · rename_i x hx
        exact absurd hx (hpeek x)
      · cases hrun
        exact .inr ⟨hpeek, rfl, rfl⟩
    · rintro (⟨n, hn, -⟩ | ⟨-, rfl, rfl⟩)
      · obtain ⟨words, hpasses, hphrase, -⟩ := (reads_name _ _ _ _ _).1 hn
        obtain ⟨l, x, rfl, hl⟩ := exists_name_of_phrase hphrase
        exact absurd (hl ▸ hpasses.peek?) (hpeek x)
      · refine ⟨Nat.le_refl _, ?_⟩
        unfold jumpLabel?
        split
        · rename_i x hx
          exact absurd hx (hpeek x)
        · rfl

/-! ### Statements by their first word -/

/-- What stands behind the reserved word of a statement is read, and the statement can be made. -/
def KeywordRuns (inner : Nesting) (k : Keyword) (c : Cursor) (make : Site → Stmt)
    (c' : Cursor) : Prop :=
  ∃ tail, afterKeyword inner k = some tail ∧ tail.Runs c make c'

variable {make : Site → Stmt}

theorem runs_condition {k : Keyword} {e : Expr} :
    (condition inner k).Runs c e c' ↔
      ∃ u c₁, (expect .leftParen (.conditionStart k)).Runs c u c₁ ∧
        ∃ c₂, inner.expression.Runs c₁ e c₂ ∧
          ∃ u, (expect .rightParen .conditionEnd).Runs c₂ u c' := by
  simp only [Runs, condition, Parsed.exists_bind_iff, Parsed.exists_pure_iff, exists_and_right]
  constructor
  · rintro ⟨u, c₁, hopen, e, c₂, he, u', c₃, hclose, rfl, rfl⟩
    exact ⟨u, c₁, hopen, c₂, he, u', hclose⟩
  · rintro ⟨u, c₁, hopen, c₂, he, u', hclose⟩
    exact ⟨u, c₁, hopen, e, c₂, he, u', c', hclose, rfl, rfl⟩

theorem keywordRuns_varWord :
    KeywordRuns inner .varWord c make c' ↔ ∃ n c₁, (name .variable .variableName).Runs c n c₁ ∧
      ∃ init c₂, Finishes (afterMark? .assign inner.expression) c₁ init c₂ ∧
        ∃ u c₃, (expect .semicolon .declarationEnd).Runs c₂ u c₃ ∧
          make = (.declare · n init) ∧ c' = c₃ := by
  simp only [KeywordRuns, afterKeyword, Option.some.injEq, exists_eq_left', Runs, Finishes,
    Parsed.exists_bind_iff, Completed.exists_bind_iff, Parsed.exists_pure_iff, exists_and_right]

theorem keywordRuns_ifWord :
    KeywordRuns inner .ifWord c make c' ↔ ∃ e c₁, (condition inner .ifWord).Runs c e c₁ ∧
      ∃ s c₂, inner.statement.Runs c₁ s c₂ ∧
        ∃ other c₃, Finishes (afterWord? .elseWord inner.statement) c₂ other c₃ ∧
          make = (.branch · e s other) ∧ c' = c₃ := by
  simp only [KeywordRuns, afterKeyword, Option.some.injEq, exists_eq_left', Runs, Finishes,
    Parsed.exists_bind_iff, Completed.exists_bind_iff, Parsed.exists_pure_iff, exists_and_right]

theorem keywordRuns_whileWord :
    KeywordRuns inner .whileWord c make c' ↔ ∃ e c₁, (condition inner .whileWord).Runs c e c₁ ∧
      ∃ s c₂, inner.statement.Runs c₁ s c₂ ∧ make = (.loop · e s) ∧ c' = c₂ := by
  simp only [KeywordRuns, afterKeyword, Option.some.injEq, exists_eq_left', Runs,
    Parsed.exists_bind_iff, Parsed.exists_pure_iff, exists_and_right]

theorem runs_jump {jumpTo : Site → Option Name → Stmt} :
    (jump jumpTo).Runs c make c' ↔ ∃ label c₁, Finishes jumpLabel? c label c₁ ∧
      ∃ u c₂, (expect .semicolon .jumpEnd).Runs c₁ u c₂ ∧ make = (jumpTo · label) ∧ c' = c₂ := by
  simp only [jump, Runs, Finishes, Parsed.exists_bind_iff, Completed.exists_bind_iff,
    Parsed.exists_pure_iff, exists_and_right]

theorem keywordRuns_returnWord :
    KeywordRuns inner .returnWord c make c' ↔
      ∃ value c₁, Finishes (unless? .semicolon inner.expression) c value c₁ ∧
        ∃ u c₂, (expect .semicolon .returnEnd).Runs c₁ u c₂ ∧
          make = (.returnWith · value) ∧ c' = c₂ := by
  simp only [KeywordRuns, afterKeyword, Option.some.injEq, exists_eq_left', Runs, Finishes,
    Parsed.exists_bind_iff, Completed.exists_bind_iff, Parsed.exists_pure_iff, exists_and_right]

theorem runs_evaluation :
    (evaluation inner).Runs c s c' ↔ ∃ e c₁, inner.expression.Runs c e c₁ ∧
      ∃ u c₂, (expect .semicolon .expressionEnd).Runs c₁ u c₂ ∧
        s = .evaluate (c₂.site c.start) e ∧ c' = c₂.numbered := by
  simp only [Runs, evaluation, Parsed.exists_bind_iff, Parsed.exists_pure_iff, Parsed.value_node,
    Parsed.next_node, exists_and_right]

theorem runs_labeled :
    (labeled inner).Runs c s c' ↔ ∃ n c₁, (name .label .statement).Runs c n c₁ ∧
      ∃ u c₂, (expect .colon .statement).Runs c₁ u c₂ ∧ ∃ body c₃, inner.statement.Runs c₂ body c₃ ∧
        s = .labeled (c₃.site c.start) n body ∧ c' = c₃.numbered := by
  simp only [Runs, labeled, Parsed.exists_bind_iff, Parsed.exists_pure_iff, Parsed.value_node,
    Parsed.next_node, exists_and_right]

theorem runs_block :
    (block inner).Runs c s c' ↔ ∃ u c₁, (expect .leftBrace .statement).Runs c u c₁ ∧
      ∃ body c₂, Parser.Runs (statements inner) c₁ body c₂ ∧
        s = .block (c₂.site c.start) body ∧ c' = c₂.numbered := by
  simp only [Runs, block, Parsed.exists_bind_iff, Parsed.exists_pure_iff, Parsed.value_node,
    Parsed.next_node, exists_and_right]

theorem runs_keywordStatement {k : Keyword} {l : Lexeme} {c₁ : Cursor} (hl : l.IsWord k)
    (htakes : c.Takes l c₁) :
    (keywordStatement inner k).Runs c s c' ↔
      (∃ make c₂, KeywordRuns inner k c₁ make c₂ ∧ s = make (c₂.site c.start) ∧
        c' = c₂.numbered) ∨
      (afterKeyword inner k = none ∧ (evaluation inner).Runs c s c') := by
  cases hk : afterKeyword inner k with
  | none =>
    simp only [Runs, keywordStatement, KeywordRuns, hk, reduceCtorEq, false_and, exists_false,
      true_and, false_or]
  | some tail =>
    simp only [Runs, keywordStatement, KeywordRuns, hk, acceptWord?_of_takes hl htakes,
      Option.some.injEq, exists_eq_left', reduceCtorEq, false_and, or_false, Parsed.exists_bind_iff,
      Parsed.exists_pure_iff, Parsed.value_node, Parsed.next_node, exists_and_right]

/-- What a statement is, by the words that it begins with. -/
theorem runs_statementBody :
    (statementBody inner).Runs c s c' ↔
      (∃ k l c₁, l.IsWord k ∧ c.Takes l c₁ ∧ ∃ make c₂, KeywordRuns inner k c₁ make c₂ ∧
        s = make (c₂.site c.start) ∧ c' = c₂.numbered) ∨
      (block inner).Runs c s c' ∨ (labeled inner).Runs c s c' ∨
      ((∀ k, c.peek? = some (.keyword k) → afterKeyword inner k = none) ∧
        c.peek? ≠ some (.symbol .leftBrace) ∧
        (∀ x, c.peek? = some (.identifier x) → c.peekSecond? ≠ some (.symbol .colon)) ∧
        (evaluation inner).Runs c s c') := by
  constructor
  · rintro ⟨h, hrun⟩
    unfold statementBody at hrun
    split at hrun
    · cases hrun
    -- A reserved word that begins no statement may still begin an expression.
    · rename_i k hpeek
      obtain ⟨l, c₁, hl, htakes⟩ := Cursor.exists_takes_of_peek? hpeek
      obtain hrun | ⟨hk, hrun⟩ := (runs_keywordStatement hl htakes).1 ⟨h, hrun⟩
      · exact .inl ⟨k, l, c₁, hl, htakes, hrun⟩
      · refine .inr (.inr (.inr ⟨?_, by simp [hpeek], by simp [hpeek], hrun⟩))
        intro k' hk'
        cases hpeek.symm.trans hk'
        exact hk
    · exact .inr (.inl ⟨h, hrun⟩)
    · rename_i x hpeek
      -- An identifier is a label in front of a colon, and begins an expression otherwise.
      by_cases hcolon : c.peekSecond? = some (.symbol .colon)
      · rw [if_pos hcolon] at hrun
        exact .inr (.inr (.inl ⟨h, hrun⟩))
      · rw [if_neg hcolon] at hrun
        exact .inr (.inr (.inr ⟨by simp [hpeek], by simp [hpeek], fun _ _ => hcolon, ⟨h, hrun⟩⟩))
    -- The token is of another kind than those of the other branches.
    · rename_i t hkeyword hbrace hname hpeek
      refine .inr (.inr (.inr ⟨?_, ?_, ?_, ⟨h, hrun⟩⟩))
      · intro k hk
        exact absurd (Option.some.inj (hpeek.symm.trans hk)) (hkeyword k)
      · intro h
        exact hbrace (Option.some.inj (hpeek.symm.trans h))
      · intro x hx
        exact absurd (Option.some.inj (hpeek.symm.trans hx)) (hname x)
  · rintro (⟨k, l, c₁, hl, htakes, hrun⟩ | hrun | hrun | ⟨hkeyword, hbrace, hcolon, hrun⟩)
    · have hbody : statementBody inner c = keywordStatement inner k c := by
        simp only [statementBody, htakes.peek?, hl]
      rw [Runs, hbody]
      exact (runs_keywordStatement hl htakes).2 (.inl hrun)
    · obtain ⟨u, c₁, hopen, -⟩ := runs_block.1 hrun
      obtain ⟨l, hl, htakes⟩ := runs_expect.1 hopen
      simpa only [Runs, statementBody, htakes.peek?, hl] using hrun
    · obtain ⟨n, c₁, hn, u, c₂, hcolon, -⟩ := runs_labeled.1 hrun
      obtain ⟨words, hpasses, hphrase, -⟩ := (reads_name _ _ _ _ _).1 hn
      obtain ⟨l, x, rfl, hl⟩ := exists_name_of_phrase hphrase
      obtain ⟨l', hl', htakes⟩ := runs_expect.1 hcolon
      have hsecond : c.peekSecond? = some (.symbol .colon) :=
        hl' ▸ (hpasses.append htakes.1).peekSecond?
      simpa only [Runs, statementBody, hpasses.peek?, hl, hsecond, if_true] using hrun
    · obtain ⟨h, hrun⟩ := hrun
      refine ⟨h, ?_⟩
      unfold statementBody
      split
      -- At the end of the words no expression could have been read.
      · rename_i hpeek
        have hrest : c.rest = [] := by simpa [Cursor.peek?] using hpeek
        rw [hrest] at h
        cases h
      · rename_i k hpeek
        obtain ⟨l, c₁, hl, htakes⟩ := Cursor.exists_takes_of_peek? hpeek
        have hstatement : (keywordStatement inner k).Runs c s c' :=
          (runs_keywordStatement hl htakes).2 (.inr ⟨hkeyword k hpeek, h, hrun⟩)
        exact hstatement.2
      · rename_i hpeek
        exact absurd hpeek hbrace
      · rename_i x hpeek
        rw [if_neg (hcolon x hpeek)]
        exact hrun
      · exact hrun

/-! ### Statements are what the grammar derives -/

theorem Matches.reads_condition (hinner : inner.Matches g) (k : Keyword) :
    (condition inner k).Reads (Condition g) Anything := by
  intro c e c'
  rw [runs_condition]
  constructor
  · rintro ⟨u, c₁, hopen, c₂, he, u', hclose⟩
    obtain ⟨l, hl, htakes⟩ := runs_expect.1 hopen
    obtain ⟨w, hw, he, -⟩ := (hinner.expression _ _ _).1 he
    obtain ⟨l', hl', htakes'⟩ := runs_expect.1 hclose
    rw [htakes.2, ← htakes'.2] at he
    exact ⟨[l] ++ w ++ [l'], (htakes.1.append hw).append htakes'.1, .condition hl he hl', trivial⟩
  · rintro ⟨words, hpasses, hphrase, -⟩
    generalize hi : c.nextId = i at hphrase
    generalize hj : c'.nextId = j at hphrase
    cases hphrase with
    | @condition l l' w _ _ _ hopen he hclose =>
      obtain ⟨c₂, hj₂, hw, htakes'⟩ := (Cursor.passes_append j).1 hpasses
      obtain ⟨c₁, hi₁, htakes, hw⟩ := (Cursor.passes_cons i).1 hw
      refine ⟨(), c₁, runs_expect.2 ⟨l, hopen, htakes, hi₁.trans hi.symm⟩, c₂, ?_, (),
        runs_expect.2 ⟨l', hclose, htakes', hj.trans hj₂.symm⟩⟩
      exact (hinner.expression _ _ _).2
        ⟨w, hw, hi₁ ▸ hj₂ ▸ he, htakes'.rest ▸ stops_cons hclose (by decide)⟩

/-- A label of a jump is there exactly if an identifier comes next. -/
theorem finishes_jumpLabel?_iff {o : Option Name} (h : ∀ x, c'.peek? ≠ some (.identifier x)) :
    Finishes jumpLabel? c o c' ↔
      ∃ words, c.Passes words c' ∧ JumpLabel words c.nextId c'.nextId o := by
  rw [finishes_jumpLabel?]
  constructor
  · rintro (⟨n, hn, rfl⟩ | ⟨-, rfl, rfl⟩)
    · obtain ⟨w, hw, hn, -⟩ := (reads_name _ _ _ _ _).1 hn
      exact ⟨w, hw, .some hn⟩
    · exact ⟨[], Cursor.passes_nil.2 ⟨rfl, rfl⟩, .none⟩
  · rintro ⟨words, hpasses, hphrase⟩
    generalize hi : c.nextId = i at hphrase
    generalize hj : c'.nextId = j at hphrase
    cases hphrase with
    | none =>
      obtain rfl : c' = c := by
        obtain ⟨hrest, hend⟩ := Cursor.passes_nil.1 hpasses
        obtain ⟨rest, lastEnd, nextId⟩ := c
        obtain ⟨rest', lastEnd', nextId'⟩ := c'
        simp_all
      exact .inr ⟨h, rfl, rfl⟩
    | some hn => exact .inl ⟨_, (reads_name _ _ _ _ _).2 ⟨_, hpasses, hi ▸ hj ▸ hn, trivial⟩, rfl⟩

/-- A statement is derived from words whatever its site, so that it can be given the right one. -/
structure Derived (g : Grammar) (c : Cursor) (make : Site → Stmt) (c' : Cursor)
    (words : List Lexeme) : Prop where
  passes : c.Passes words c'
  ne_nil : words ≠ []
  statement : Statement g words c.nextId (c'.nextId + 1) (make (.ofWords words c'.nextId))
  endsBefore : ∀ site, EndsBefore (make site) c'.rest

section

variable {l : Lexeme} {c₁ : Cursor}

theorem Matches.exists_declaration (hinner : inner.Matches g) (hl : l.IsWord .varWord)
    (htakes : c.Takes l c₁) (h : KeywordRuns inner .varWord c₁ make c') :
    ∃ words, Derived g c make c' words := by
  obtain ⟨n, c₂, hn, init, c₃, hinit, u, c₄, hend, rfl, rfl⟩ := keywordRuns_varWord.1 h
  obtain ⟨w, hw, hn, -⟩ := (reads_name _ _ _ _ _).1 hn
  obtain ⟨l', hl', htakes'⟩ := runs_expect.1 hend
  rw [htakes.2] at hn
  obtain ⟨-, rfl, rfl⟩ | ⟨l'', c₅, hl'', htakes'', e, he, rfl⟩ := finishes_afterMark?.1 hinit
  · refine ⟨[l] ++ w ++ [l'], (htakes.1.append hw).append htakes'.1, by simp, ?_, ?_⟩
    · rw [htakes'.2]
      exact .declare hl hn hl'
    · simp [EndsBefore, Stmt.isOpen]
  · obtain ⟨w', hw', he, -⟩ := (hinner.expression _ _ _).1 he
    rw [htakes''.2] at he
    refine ⟨[l] ++ w ++ ([l''] ++ w') ++ [l'],
      ((htakes.1.append hw).append (htakes''.1.append hw')).append htakes'.1, by simp, ?_, ?_⟩
    · rw [htakes'.2]
      exact .declareWith hl hn hl'' he hl'
    · simp [EndsBefore, Stmt.isOpen]

/-- An `else` is taken by the nearest `if` that it can belong to. -/
theorem Matches.exists_branch (hinner : inner.Matches g) (hl : l.IsWord .ifWord)
    (htakes : c.Takes l c₁) (h : KeywordRuns inner .ifWord c₁ make c') :
    ∃ words, Derived g c make c' words := by
  obtain ⟨e, c₂, he, s₁, c₃, hs₁, other, c₄, hother, rfl, rfl⟩ := keywordRuns_ifWord.1 h
  obtain ⟨w, hw, he, -⟩ := (hinner.reads_condition _ _ _ _).1 he
  obtain ⟨w', hw', hs₁, hends⟩ := (hinner.statement _ _ _).1 hs₁
  rw [htakes.2] at he
  obtain ⟨hpeek, rfl, rfl⟩ | ⟨l', c₅, hl', htakes', s₂, hs₂, rfl⟩ := finishes_afterWord?.1 hother
  -- The parser has looked for an `else` in vain, so none comes next.
  · refine ⟨[l] ++ w ++ w', (htakes.1.append hw).append hw', by simp, .branch hl he hs₁, ?_⟩
    intro site hopen l' hl' helse
    exact hpeek (by rw [Cursor.peek?, hl', ← helse]; rfl)
  · obtain ⟨w'', hw'', hs₂, hends₂⟩ := (hinner.statement _ _ _).1 hs₂
    -- Had the first branch been able to take the `else`, it would have.
    have hclosed : s₁.isOpen = false := by
      rw [← Bool.not_eq_true]
      intro hopen
      exact hends hopen l' (by rw [htakes'.1.rest]; rfl) hl'
    rw [htakes'.2] at hs₂
    refine ⟨[l] ++ w ++ w' ++ ([l'] ++ w''),
      ((htakes.1.append hw).append hw').append (htakes'.1.append hw''), by simp,
      .branchElse hl he hs₁ hclosed hl' hs₂, ?_⟩
    intro site hopen
    exact hends₂ (by simpa [Stmt.isOpen] using hopen)

theorem Matches.exists_loop (hinner : inner.Matches g) (hl : l.IsWord .whileWord)
    (htakes : c.Takes l c₁) (h : KeywordRuns inner .whileWord c₁ make c') :
    ∃ words, Derived g c make c' words := by
  obtain ⟨e, c₂, he, s, c₃, hs, rfl, rfl⟩ := keywordRuns_whileWord.1 h
  obtain ⟨w, hw, he, -⟩ := (hinner.reads_condition _ _ _ _).1 he
  obtain ⟨w', hw', hs, hends⟩ := (hinner.statement _ _ _).1 hs
  rw [htakes.2] at he
  refine ⟨[l] ++ w ++ w', (htakes.1.append hw).append hw', by simp, .loop hl he hs, ?_⟩
  intro site hopen
  exact hends (by simpa [Stmt.isOpen] using hopen)

theorem exists_jump {k : Keyword} {jumpTo : Site → Option Name → Stmt}
    (hjump : ∀ {l l' : Lexeme} {w : List Lexeme} {i j : NodeId} {label : Option Name},
      l.IsWord k → JumpLabel w i j label → l'.Is .semicolon →
      Statement g (l :: w ++ [l']) i (j + 1) (jumpTo (.ofWords (l :: w ++ [l']) j) label))
    (hopen : ∀ site label, (jumpTo site label).isOpen = false) (hl : l.IsWord k)
    (htakes : c.Takes l c₁) (h : (jump jumpTo).Runs c₁ make c') :
    ∃ words, Derived g c make c' words := by
  obtain ⟨label, c₂, hlabel, u, c₃, hend, rfl, rfl⟩ := runs_jump.1 h
  obtain ⟨l', hl', htakes'⟩ := runs_expect.1 hend
  obtain ⟨w, hw, hlabel⟩ := (finishes_jumpLabel?_iff (by simp [htakes'.peek?, hl'])).1 hlabel
  refine ⟨[l] ++ w ++ [l'], (htakes.1.append hw).append htakes'.1, by simp, ?_, ?_⟩
  · rw [htakes'.2]
    exact hjump hl (htakes.2 ▸ hlabel) hl'
  · simp [EndsBefore, hopen]

theorem Matches.exists_return (hinner : inner.Matches g) (hl : l.IsWord .returnWord)
    (htakes : c.Takes l c₁) (h : KeywordRuns inner .returnWord c₁ make c') :
    ∃ words, Derived g c make c' words := by
  obtain ⟨value, c₂, hvalue, u, c₃, hend, rfl, rfl⟩ := keywordRuns_returnWord.1 h
  obtain ⟨l', hl', htakes'⟩ := runs_expect.1 hend
  obtain ⟨-, rfl, rfl⟩ | ⟨-, e, he, rfl⟩ := finishes_unless?.1 hvalue
  · refine ⟨[l] ++ [l'], htakes.1.append htakes'.1, by simp, ?_, ?_⟩
    · rw [htakes'.2, htakes.2]
      exact .returnNothing hl hl'
    · simp [EndsBefore, Stmt.isOpen]
  · obtain ⟨w, hw, he, -⟩ := (hinner.expression _ _ _).1 he
    refine ⟨[l] ++ w ++ [l'], (htakes.1.append hw).append htakes'.1, by simp, ?_, ?_⟩
    · rw [htakes'.2]
      exact .returnWith hl (htakes.2 ▸ he) hl'
    · simp [EndsBefore, Stmt.isOpen]

theorem Matches.exists_keyword (hinner : inner.Matches g) {k : Keyword} (hl : l.IsWord k)
    (htakes : c.Takes l c₁) (h : KeywordRuns inner k c₁ make c') :
    ∃ words, Derived g c make c' words := by
  cases k with
  | varWord => exact hinner.exists_declaration hl htakes h
  | ifWord => exact hinner.exists_branch hl htakes h
  | whileWord => exact hinner.exists_loop hl htakes h
  | breakWord =>
    obtain ⟨tail, htail, hrun⟩ := h
    cases htail
    exact exists_jump .breakTo (by simp [Stmt.isOpen]) hl htakes hrun
  | continueWord =>
    obtain ⟨tail, htail, hrun⟩ := h
    cases htail
    exact exists_jump .continueTo (by simp [Stmt.isOpen]) hl htakes hrun
  | returnWord => exact hinner.exists_return hl htakes h
  | _ =>
    obtain ⟨tail, htail, -⟩ := h
    cases htail

end

/-- What is read as a statement is one. -/
theorem Matches.exists_statement (hinner : inner.Matches g)
    (h : (statementBody inner).Runs c s c') :
    ∃ words, c.Passes words c' ∧ Statement g words c.nextId c'.nextId s ∧
      EndsBefore s c'.rest := by
  obtain ⟨k, l, c₁, hl, htakes, make, c₂, hrun, rfl, rfl⟩ | hrun | hrun |
    ⟨-, hbrace, -, hrun⟩ := runs_statementBody.1 h
  · obtain ⟨words, hpasses, hne, hstatement, hends⟩ := hinner.exists_keyword hl htakes hrun
    refine ⟨words, Cursor.passes_numbered.2 hpasses, ?_, hends _⟩
    rw [hpasses.site_eq hne]
    exact hstatement
  · obtain ⟨u, c₁, hopen, body, c₂, hbody, rfl, rfl⟩ := runs_block.1 hrun
    obtain ⟨l, hl, htakes⟩ := runs_expect.1 hopen
    obtain ⟨w, hw, hbraced⟩ :=
      (runs_braced hinner.statement hinner.separate).1 ⟨l, c₁, hl, htakes, hbody⟩
    refine ⟨w, Cursor.passes_numbered.2 hw, ?_, by simp [EndsBefore, Stmt.isOpen]⟩
    have hne : w ≠ [] := by
      obtain ⟨-, -, -⟩ := hbraced
      simp
    rw [hw.site_eq hne]
    exact .block hbraced
  · obtain ⟨n, c₁, hn, u, c₂, hcolon, body, c₃, hbody, rfl, rfl⟩ := runs_labeled.1 hrun
    obtain ⟨w, hw, hn, -⟩ := (reads_name _ _ _ _ _).1 hn
    obtain ⟨l, hl, htakes⟩ := runs_expect.1 hcolon
    obtain ⟨w', hw', hbody, hends⟩ := (hinner.statement _ _ _).1 hbody
    have hpasses : c.Passes (w ++ ([l] ++ w')) c₃ := hw.append (htakes.1.append hw')
    refine ⟨_, Cursor.passes_numbered.2 hpasses, ?_, fun hopen => hends ?_⟩
    · rw [hpasses.site_eq (by simp)]
      exact .labeled hn hl (htakes.2 ▸ hbody)
    · simpa [Stmt.isOpen] using hopen
  · obtain ⟨e, c₁, he, u, c₂, hend, rfl, rfl⟩ := runs_evaluation.1 hrun
    obtain ⟨w, hw, he, -⟩ := (hinner.expression _ _ _).1 he
    obtain ⟨l, hl, htakes⟩ := runs_expect.1 hend
    have hpasses : c.Passes (w ++ [l]) c₂ := hw.append htakes.1
    refine ⟨w ++ [l], Cursor.passes_numbered.2 hpasses, ?_, by simp [EndsBefore, Stmt.isOpen]⟩
    rw [hpasses.site_eq (by simp), Cursor.nextId_numbered, htakes.2]
    refine .evaluate ?_ he hl
    -- A brace would have been read as the beginning of a block.
    obtain ⟨l', w', rfl, -⟩ := hinner.opens he
    intro l'' hl'' h
    cases hl''
    exact hbrace (h ▸ hw.peek?)

/-- A statement behind a reserved word is read from what stands behind the word. -/
theorem runs_statementBody_of_keyword (make : Site → Stmt) (w : List Lexeme) {k : Keyword}
    {l : Lexeme} {i j : NodeId} (hl : l.IsWord k) (hpasses : c.Passes (l :: w) c')
    (hi : c.nextId = i) (hj : c'.nextId = j + 1)
    (hrun : ∀ c₁ c₂, c₁.nextId = i → c₂.nextId = j → c₁.Passes w c₂ → c₂.rest = c'.rest →
      KeywordRuns inner k c₁ make c₂) :
    (statementBody inner).Runs c (make (.ofWords (l :: w) j)) c' := by
  obtain ⟨c₂, rfl, hj₂, hpasses⟩ := hpasses.exists_numbered hj
  obtain ⟨c₁, hi₁, htakes, hw⟩ := (Cursor.passes_cons i).1 hpasses
  refine runs_statementBody.2 (.inl ⟨k, l, c₁, hl, ⟨htakes, hi₁.trans hi.symm⟩, make, c₂,
    hrun c₁ c₂ hi₁ hj₂ hw rfl, ?_, rfl⟩)
  rw [hpasses.site_eq (List.cons_ne_nil _ _), hj₂]

theorem runs_jump_of_phrase {jumpTo : Site → Option Name → Stmt} {l : Lexeme} {w : List Lexeme}
    {i j : NodeId} {label : Option Name} (hi : c.nextId = i) (hj : c'.nextId = j)
    (hpasses : c.Passes (w ++ [l]) c') (hlabel : JumpLabel w i j label) (hend : l.Is .semicolon) :
    (jump jumpTo).Runs c (jumpTo · label) c' := by
  obtain ⟨c₁, hj₁, hw, htakes⟩ := (Cursor.passes_append j).1 hpasses
  refine runs_jump.2 ⟨label, c₁, ?_, (), c',
    runs_expect.2 ⟨l, hend, htakes, hj.trans hj₁.symm⟩, rfl, rfl⟩
  exact (finishes_jumpLabel?_iff (by simp [htakes.peek?, hend])).2 ⟨w, hw, hi ▸ hj₁ ▸ hlabel⟩

/-- An expression that begins as no other statement is read as a statement. -/
theorem Matches.runs_evaluation_of_phrase (hinner : inner.Matches g) {l : Lexeme} {w : List Lexeme}
    {i j : NodeId} {e : Expr} (hpasses : c.Passes (w ++ [l]) c') (hi : c.nextId = i)
    (hj : c'.nextId = j + 1) (hbrace : ∀ l, w.head? = some l → ¬ l.Is .leftBrace)
    (he : g.expression w i j e) (hend : l.Is .semicolon) :
    (statementBody inner).Runs c (.evaluate (.ofWords (w ++ [l]) j) e) c' := by
  obtain ⟨c₂, rfl, hj₂, hpasses⟩ := hpasses.exists_numbered hj
  have hsite := hpasses.site_eq (by simp)
  obtain ⟨c₁, hj₁, hw, htakes⟩ := (Cursor.passes_append j).1 hpasses
  obtain ⟨l₀, w, rfl, hbegins, hcolon⟩ := hinner.opens he
  refine runs_statementBody.2 (.inr (.inr (.inr ⟨?_, ?_, ?_, ?_⟩)))
  · intro k hk
    rw [hpasses.peek?, Option.some.injEq] at hk
    -- The reserved words that begin expressions begin no statement of their own.
    rw [hk] at hbegins
    cases k <;> simp_all [Token.beginsExpression, afterKeyword]
  · rw [hpasses.peek?]
    exact fun h => hbrace l₀ rfl (Option.some.inj h)
  · intro x hx hsecond
    rw [hpasses.peek?, Option.some.injEq] at hx
    rw [Cursor.peekSecond?, hpasses.rest] at hsecond
    cases w with
    | nil =>
      -- The expression is the identifier alone, and the semicolon comes next.
      have : l.token = .symbol .colon := by simpa using hsecond
      rw [hend] at this
      cases this
    | cons l₁ w => exact hcolon x l₁ hx rfl (by simpa using hsecond)
  · refine runs_evaluation.2 ⟨e, c₁, ?_, (), c₂,
      runs_expect.2 ⟨l, hend, htakes, hj₂.trans hj₁.symm⟩, by rw [hsite, hj₂], rfl⟩
    exact (hinner.expression _ _ _).2
      ⟨_, hw, hi ▸ hj₁ ▸ he, htakes.rest ▸ stops_cons hend (by decide)⟩

/-- A statement is read, when what follows does not go on with it. -/
theorem Matches.runs_statement_of_phrase (hinner : inner.Matches g) {words : List Lexeme}
    {i m : NodeId} (hpasses : c.Passes words c') (h : Statement g words i m s) (hi : c.nextId = i)
    (hm : c'.nextId = m) (hends : EndsBefore s c'.rest) :
    (statementBody inner).Runs c s c' := by
  cases h with
  | @declare l l' w _ j n hword hn hend =>
    refine runs_statementBody_of_keyword (.declare · n none) (w ++ [l']) hword hpasses hi hm
      fun c₁ c₂ hi₁ hj₂ hw _ => ?_
    obtain ⟨c₃, hj₃, hw, htakes⟩ := (Cursor.passes_append j).1 hw
    refine keywordRuns_varWord.2 ⟨n, c₃, ?_, none, c₃, ?_, (), c₂,
      runs_expect.2 ⟨l', hend, htakes, hj₂.trans hj₃.symm⟩, rfl, rfl⟩
    · exact (reads_name _ _ _ _ _).2 ⟨w, hw, hi₁ ▸ hj₃ ▸ hn, trivial⟩
    · exact finishes_afterMark?.2 (.inl ⟨by simp [htakes.peek?, hend], rfl, rfl⟩)
  | @declareWith l l' l'' w w' _ j k n e hword hn hassign he hend =>
    refine runs_statementBody_of_keyword (.declare · n (some e)) (w ++ l' :: w' ++ [l''])
      hword hpasses hi hm fun c₁ c₂ hi₁ hk₂ hw _ => ?_
    obtain ⟨c₃, hk₃, hw, htakes⟩ := (Cursor.passes_append k).1 hw
    obtain ⟨c₄, hj₄, hw, hw'⟩ := (Cursor.passes_append j).1 hw
    obtain ⟨c₅, hj₅, htakes', hw'⟩ := (Cursor.passes_cons j).1 hw'
    refine keywordRuns_varWord.2 ⟨n, c₄, ?_, some e, c₃, ?_, (), c₂,
      runs_expect.2 ⟨l'', hend, htakes, hk₂.trans hk₃.symm⟩, rfl, rfl⟩
    · exact (reads_name _ _ _ _ _).2 ⟨w, hw, hi₁ ▸ hj₄ ▸ hn, trivial⟩
    · refine finishes_afterMark?.2
        (.inr ⟨l', c₅, hassign, ⟨htakes', hj₅.trans hj₄.symm⟩, e, ?_, rfl⟩)
      exact (hinner.expression _ _ _).2
        ⟨w', hw', hj₅ ▸ hk₃ ▸ he, htakes.rest ▸ stops_cons hend (by decide)⟩
  | evaluate hbrace he hend => exact hinner.runs_evaluation_of_phrase hpasses hi hm hbrace he hend
  | @block _ _ j body hbody =>
    obtain ⟨c₂, rfl, hj₂, hpasses⟩ := hpasses.exists_numbered hm
    have hne : words ≠ [] := by
      obtain ⟨-, -, -⟩ := hbody
      simp
    obtain ⟨l, c₁, hl, htakes, hbody⟩ :=
      (runs_braced hinner.statement hinner.separate).2 ⟨words, hpasses, hi ▸ hj₂ ▸ hbody⟩
    refine runs_statementBody.2 (.inr (.inl (runs_block.2 ⟨(), c₁,
      runs_expect.2 ⟨l, hl, htakes⟩, body, c₂, hbody, ?_, rfl⟩)))
    rw [hpasses.site_eq hne, hj₂]
  | @labeled l w w' _ j k n body hn hcolon hbody =>
    obtain ⟨c₂, rfl, hk₂, hpasses⟩ := hpasses.exists_numbered hm
    obtain ⟨c₃, hj₃, hw, hw'⟩ := (Cursor.passes_append j).1 hpasses
    obtain ⟨c₄, hj₄, htakes, hw'⟩ := (Cursor.passes_cons j).1 hw'
    refine runs_statementBody.2 (.inr (.inr (.inl (runs_labeled.2 ⟨n, c₃, ?_, (), c₄,
      runs_expect.2 ⟨l, hcolon, htakes, hj₄.trans hj₃.symm⟩, body, c₂, ?_, ?_, rfl⟩))))
    · exact (reads_name _ _ _ _ _).2 ⟨w, hw, hi ▸ hj₃ ▸ hn, trivial⟩
    · refine (hinner.statement _ _ _).2 ⟨w', hw', hj₄ ▸ hk₂ ▸ hbody, fun hopen => hends ?_⟩
      simpa [Stmt.isOpen] using hopen
    · rw [hpasses.site_eq (by simp), hk₂]
  | @branch l w w' _ j k e s₁ hword he hs₁ =>
    refine runs_statementBody_of_keyword (.branch · e s₁ none) (w ++ w') hword hpasses hi hm
      fun c₁ c₂ hi₁ hk₂ hw hrest => ?_
    obtain ⟨c₃, hj₃, hw, hw'⟩ := (Cursor.passes_append j).1 hw
    have helse : NotElse c₂.rest := by
      rw [hrest]
      exact hends (by simp [Stmt.isOpen])
    refine keywordRuns_ifWord.2 ⟨e, c₃, ?_, s₁, c₂, ?_, none, c₂, ?_, rfl, rfl⟩
    · exact (hinner.reads_condition _ _ _ _).2 ⟨w, hw, hi₁ ▸ hj₃ ▸ he, trivial⟩
    · exact (hinner.statement _ _ _).2 ⟨w', hw', hj₃ ▸ hk₂ ▸ hs₁, fun _ => helse⟩
    · refine finishes_afterWord?.2 (.inl ⟨fun hpeek => ?_, rfl, rfl⟩)
      obtain ⟨l', hl', htoken⟩ := Option.map_eq_some_iff.1 hpeek
      exact helse l' hl' htoken
  | @branchElse l l' w w' w'' _ j k n e s₁ s₂ hword he hs₁ hclosed helse hs₂ =>
    refine runs_statementBody_of_keyword (.branch · e s₁ (some s₂)) (w ++ w' ++ l' :: w'') hword
      hpasses hi hm fun c₁ c₂ hi₁ hn₂ hw hrest => ?_
    obtain ⟨c₄, hk₄, hw, hw''⟩ := (Cursor.passes_append k).1 hw
    obtain ⟨c₃, hj₃, hw, hw'⟩ := (Cursor.passes_append j).1 hw
    obtain ⟨c₅, hk₅, htakes, hw''⟩ := (Cursor.passes_cons k).1 hw''
    refine keywordRuns_ifWord.2 ⟨e, c₃, ?_, s₁, c₄, ?_, some s₂, c₂, ?_, rfl, rfl⟩
    · exact (hinner.reads_condition _ _ _ _).2 ⟨w, hw, hi₁ ▸ hj₃ ▸ he, trivial⟩
    -- The first branch cannot take the `else` that follows it.
    · refine (hinner.statement _ _ _).2 ⟨w', hw', hj₃ ▸ hk₄ ▸ hs₁, fun hopen => ?_⟩
      rw [hclosed] at hopen
      cases hopen
    · refine finishes_afterWord?.2 (.inr ⟨l', c₅, helse, ⟨htakes, hk₅.trans hk₄.symm⟩, s₂, ?_, rfl⟩)
      refine (hinner.statement _ _ _).2 ⟨w'', hw'', hk₅ ▸ hn₂ ▸ hs₂, fun hopen => ?_⟩
      rw [hrest]
      exact hends (by simpa [Stmt.isOpen] using hopen)
  | @loop l w w' _ j k e body hword he hbody =>
    refine runs_statementBody_of_keyword (.loop · e body) (w ++ w') hword hpasses hi hm
      fun c₁ c₂ hi₁ hk₂ hw hrest => ?_
    obtain ⟨c₃, hj₃, hw, hw'⟩ := (Cursor.passes_append j).1 hw
    refine keywordRuns_whileWord.2 ⟨e, c₃, ?_, body, c₂, ?_, rfl, rfl⟩
    · exact (hinner.reads_condition _ _ _ _).2 ⟨w, hw, hi₁ ▸ hj₃ ▸ he, trivial⟩
    · refine (hinner.statement _ _ _).2 ⟨w', hw', hj₃ ▸ hk₂ ▸ hbody, fun hopen => ?_⟩
      rw [hrest]
      exact hends (by simpa [Stmt.isOpen] using hopen)
  | @breakTo l l' w _ j label hword hlabel hend =>
    refine runs_statementBody_of_keyword (.breakTo · label) (w ++ [l']) hword hpasses hi hm
      fun c₁ c₂ hi₁ hj₂ hw _ => ?_
    exact ⟨_, rfl, runs_jump_of_phrase hi₁ hj₂ hw hlabel hend⟩
  | @continueTo l l' w _ j label hword hlabel hend =>
    refine runs_statementBody_of_keyword (.continueTo · label) (w ++ [l']) hword hpasses hi hm
      fun c₁ c₂ hi₁ hj₂ hw _ => ?_
    exact ⟨_, rfl, runs_jump_of_phrase hi₁ hj₂ hw hlabel hend⟩
  | @returnNothing l l' _ hword hend =>
    refine runs_statementBody_of_keyword (.returnWith · none) [l'] hword hpasses hi hm
      fun c₁ c₂ hi₁ hi₂ htakes _ => ?_
    exact keywordRuns_returnWord.2 ⟨none, c₁,
      finishes_unless?.2 (.inl ⟨hend ▸ htakes.peek?, rfl, rfl⟩), (), c₂,
      runs_expect.2 ⟨l', hend, htakes, hi₂.trans hi₁.symm⟩, rfl, rfl⟩
  | @returnWith l l' w _ j e hword he hend =>
    refine runs_statementBody_of_keyword (.returnWith · (some e)) (w ++ [l']) hword hpasses hi hm
      fun c₁ c₂ hi₁ hj₂ hw _ => ?_
    obtain ⟨c₃, hj₃, hw, htakes⟩ := (Cursor.passes_append j).1 hw
    refine keywordRuns_returnWord.2 ⟨some e, c₃, ?_, (), c₂,
      runs_expect.2 ⟨l', hend, htakes, hj₂.trans hj₃.symm⟩, rfl, rfl⟩
    refine finishes_unless?.2 (.inr ⟨hinner.peek?_ne hw he rfl, e, ?_, rfl⟩)
    exact (hinner.expression _ _ _).2
      ⟨w, hw, hi₁ ▸ hj₃ ▸ he, htakes.rest ▸ stops_cons hend (by decide)⟩

theorem Matches.reads_statementBody (hinner : inner.Matches g) :
    (statementBody inner).Reads (Statement g) EndsBefore := by
  intro c s c'
  constructor
  · exact hinner.exists_statement
  · rintro ⟨words, hpasses, h, hends⟩
    exact hinner.runs_statement_of_phrase hpasses h rfl rfl hends

theorem Matches.separate_statement (hinner : inner.Matches g) : Separate (Statement g) := by
  intro w i j s h
  cases h with
  | declare hword => exact ⟨_, _, rfl, by simp [hword], by simp [hword]⟩
  | declareWith hword => exact ⟨_, _, rfl, by simp [hword], by simp [hword]⟩
  | evaluate _ he =>
    -- Neither a closing brace nor `else` begins an expression.
    obtain ⟨l, w, rfl, hbegins, -⟩ := hinner.opens he
    refine ⟨l, _, rfl, fun h => ?_, fun h => ?_⟩
    · rw [h] at hbegins
      cases hbegins
    · rw [h] at hbegins
      cases hbegins
  | block hbody =>
    obtain ⟨hopen, -, -⟩ := hbody
    exact ⟨_, _, rfl, by simp [hopen], by simp [hopen]⟩
  | labeled hn =>
    obtain ⟨l, x, rfl, hl⟩ := exists_name_of_phrase hn
    exact ⟨l, _, rfl, by simp [hl], by simp [hl]⟩
  | branch hword => exact ⟨_, _, rfl, by simp [hword], by simp [hword]⟩
  | branchElse hword => exact ⟨_, _, rfl, by simp [hword], by simp [hword]⟩
  | loop hword => exact ⟨_, _, rfl, by simp [hword], by simp [hword]⟩
  | breakTo hword => exact ⟨_, _, rfl, by simp [hword], by simp [hword]⟩
  | continueTo hword => exact ⟨_, _, rfl, by simp [hword], by simp [hword]⟩
  | returnNothing hword => exact ⟨_, _, rfl, by simp [hword], by simp [hword]⟩
  | returnWith hword => exact ⟨_, _, rfl, by simp [hword], by simp [hword]⟩

theorem reads_refuse {α : Type} {follow : α → List Lexeme → Prop} :
    Parser.Reads refuse (fun _ _ _ (_ : α) => False) follow := by
  intro c a c'
  constructor
  · rintro ⟨h, hrun⟩
    cases hrun
  · rintro ⟨words, -, h, -⟩
    exact h.elim

/-- The parsers of every depth read the phrases of the same depth. -/
theorem matches_within (depth : Nat) : (within depth).Matches (Grammar.within depth) := by
  induction depth with
  -- At depth zero nothing is read and nothing is derived.
  | zero => exact ⟨reads_refuse, reads_refuse, reads_refuse, nofun, nofun⟩
  | succ depth ih =>
    exact ⟨ih.reads_statementBody, ih.reads_assignment, ih.reads_unary, ih.separate_statement,
      Assignment.opens⟩

end Nesting

/-! ### Programs -/

namespace Program

open Grammar

/-- Statements are read to the end of the words when each of them is. -/
theorem statementsToEnd_eq_ok_iff {parser : Parser Stmt} {statement : Phrase Stmt} {c : Cursor}
    {ss : List Stmt} (hparser : parser.Reads statement EndsBefore)
    (hseparate : Nesting.Separate statement) :
    statementsToEnd parser c = .ok ss ↔ ∃ j, Statements statement c.rest c.nextId j ss := by
  constructor
  · intro h
    induction ss generalizing c with
    | nil =>
      rw [statementsToEnd] at h
      by_cases hrest : c.rest.isEmpty
      · rw [List.isEmpty_iff.1 hrest]
        exact ⟨_, .nil⟩
      · simp only [if_neg hrest, ok_of_bind_iff, Parsed.exists_iff] at h
        obtain ⟨s, c₁, h₁, -, others, -, h⟩ := h
        cases h
    | cons s ss ih =>
      rw [statementsToEnd] at h
      by_cases hrest : c.rest.isEmpty
      · rw [if_pos hrest] at h
        cases h
      · simp only [if_neg hrest, ok_of_bind_iff, Parsed.exists_iff] at h
        obtain ⟨s', c₁, h₁, hs, others, hothers, h⟩ := h
        cases h
        obtain ⟨w, hw, hs, -⟩ := (hparser _ _ _).1 ⟨h₁, hs⟩
        obtain ⟨j, hss⟩ := ih hothers
        rw [hw.rest]
        exact ⟨j, .cons hs hss⟩
  · rintro ⟨j, h⟩
    generalize hwords : c.rest = words at h
    generalize hi : c.nextId = i at h
    induction h generalizing c with
    | nil => rw [statementsToEnd, if_pos (List.isEmpty_iff.2 hwords)]
    | @cons w w' i k j s ss hs hss ih =>
      -- The cursor behind the first statement, where the others are read.
      obtain ⟨c₁, hw', hk, hpasses⟩ : ∃ c₁ : Cursor, c₁.rest = w' ∧ c₁.nextId = k ∧ c.Passes w c₁ :=
        ⟨⟨w', (w.getLast?.map (·.span.stop)).getD c.lastEnd, k⟩, rfl, rfl, ⟨hwords, rfl⟩⟩
      -- What stands behind it is no other branch, so the first statement ends here.
      have helse : NotElse (w' ++ []) := hseparate.notElse hss nofun
      rw [List.append_nil, ← hw'] at helse
      obtain ⟨h₁, hrun⟩ := (hparser c s c₁).2 ⟨w, hpasses, hi ▸ hk ▸ hs, fun _ => helse⟩
      have hrest : ¬ c.rest.isEmpty = true := by
        intro hempty
        rw [List.isEmpty_iff.1 hempty] at h₁
        cases h₁
      rw [statementsToEnd, if_neg hrest]
      simp only [hrun, ok_bind, ih hw' hk]
      rfl

theorem parseTokens_eq_ok_iff {words : List Lexeme} {body : List Stmt} :
    parseTokens words = .ok body ↔ Derives nestingLimit words body :=
  statementsToEnd_eq_ok_iff (Nesting.matches_within _).statement (Nesting.matches_within _).separate

/-- A list of words is parsed to a tree exactly when the grammar derives that tree from it within
the nesting limit, and then it derives no other tree from the same words. -/
theorem parseTokens_iff_derives (words : List Lexeme) :
    (∀ body, parseTokens words = .ok body ↔ Derives nestingLimit words body) ∧
      ((∃ body, parseTokens words = .ok body) ↔ ∃! body, Derives nestingLimit words body) := by
  refine ⟨fun body => parseTokens_eq_ok_iff, ?_⟩
  constructor
  · rintro ⟨body, hbody⟩
    refine ⟨body, parseTokens_eq_ok_iff.1 hbody, fun body' h' => ?_⟩
    -- A parser is a function, so no other tree can be read from the same words.
    have hbody' : parseTokens words = .ok body' := parseTokens_eq_ok_iff.2 h'
    exact Except.ok.inj (hbody'.symm.trans hbody)
  · rintro ⟨body, h, -⟩
    exact ⟨body, parseTokens_eq_ok_iff.2 h⟩

end Program

end LWorkbench
