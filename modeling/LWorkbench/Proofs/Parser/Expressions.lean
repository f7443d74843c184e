import LWorkbench.Proofs.Parser.Reading

/-!
# Expressions are read as the grammar derives them

Whether an expression ends is decided by the next word: it goes on with a suffix or an operator of
its rank or of a tighter one. So each rank is read exactly up to words that begin with none of these
marks. A list, a group or a statement around an expression goes on with a mark that no expression
takes, and with that the mark in front of it decides.

## Main definitions

* `Stops` — the next word is none of some marks
* `OpensExpression` — how the words of an expression begin
* `Nesting.Matches` — the parsers that nest read the phrases that nest

## Main results

* `Nesting.Matches.reads_suffixed`, `Nesting.Matches.reads_unary` — operands
* `Nesting.reads_chain` — operators of one rank
* `Nesting.Matches.reads_assignment` — whole expressions
-/

namespace LWorkbench

/-! ### How expressions begin and end -/

/-- The next word, if there is one, is none of the marks. -/
def Stops (marks : List Symbol) (_ : Expr) (rest : List Lexeme) : Prop :=
  ∀ l, rest.head? = some l → ∀ s ∈ marks, ¬ l.Is s

/-- The marks that go on with an operand. -/
def suffixMarks : List Symbol := [.leftParen, .dot, .leftBracket]

/-- The marks that go on with an expression that is no assignment. -/
def operatorMarks : List Symbol :=
  suffixMarks ++ [Symbol.star, .slash, .percent] ++ [Symbol.plus, .minus] ++
    [Symbol.less, .lessEqual, .greater, .greaterEqual] ++ [Symbol.equal, .notEqual] ++
    [Symbol.and] ++ [Symbol.or]

/-- The marks that go on with a whole expression. -/
def expressionMarks : List Symbol := operatorMarks ++ [.assign]

theorem stops_append {marks marks' : List Symbol} {e : Expr} {rest : List Lexeme} :
    Stops (marks ++ marks') e rest ↔ Stops marks e rest ∧ Stops marks' e rest := by
  simp only [Stops, List.mem_append, or_imp, forall_and]

/-- An expression ends in front of a mark that does not go on with it. -/
theorem stops_cons {marks : List Symbol} {e : Expr} {l : Lexeme} {rest : List Lexeme} {s : Symbol}
    (hl : l.Is s) (hs : s ∉ marks) : Stops marks e (l :: rest) := by
  rintro l' hl' s' hs' h
  cases hl'
  rw [Lexeme.Is, hl] at h
  cases h
  exact hs hs'

theorem Stops.peek? {marks : List Symbol} {e : Expr} {c : Cursor} {s : Symbol}
    (h : Stops marks e c.rest) (hs : s ∈ marks) : c.peek? ≠ some (.symbol s) := by
  intro hpeek
  obtain ⟨l, hl, htoken⟩ := Option.map_eq_some_iff.1 hpeek
  exact h l hl s hs htoken

/-- Whether an expression can begin with the token. -/
def Token.beginsExpression : Token → Bool
  | .number _ | .string _ | .boolean _ | .identifier _ => true
  | .keyword k => k ∈ [.nullWord, .undefinedWord, .functionWord]
  | .symbol s => s ∈ [.leftBracket, .leftParen, .leftBrace, .not, .minus]

/-- The words begin as those of an expression do: with a token that can, and an identifier in front
is no label. -/
def OpensExpression (words : List Lexeme) : Prop :=
  ∃ l w, words = l :: w ∧ l.token.beginsExpression = true ∧
    ∀ x l', l.IsName x → w.head? = some l' → ¬ l'.Is .colon

/-- More words change the beginning only behind a first word that stands alone. -/
theorem OpensExpression.append {words words' : List Lexeme} {l : Lexeme}
    (h : OpensExpression words) (hl : ¬ l.Is .colon) : OpensExpression (words ++ l :: words') := by
  obtain ⟨l₀, w, rfl, hbegins, hcolon⟩ := h
  refine ⟨l₀, w ++ l :: words', rfl, hbegins, ?_⟩
  intro x l' hx hl'
  -- Only a single word gets a new second word.
  cases w with
  | nil =>
    cases hl'
    exact hl
  | cons l₁ w => exact hcolon x l' hx hl'

theorem OpensExpression.of_not_name {l : Lexeme} {words : List Lexeme}
    (hbegins : l.token.beginsExpression = true) (hname : ∀ x, ¬ l.IsName x) :
    OpensExpression (l :: words) :=
  ⟨l, words, rfl, hbegins, fun x _ hx => absurd hx (hname x)⟩

namespace Grammar

variable {g : Grammar} {w : List Lexeme} {i j : NodeId} {e : Expr}

theorem Primary.opens (h : Primary g w i j e) : OpensExpression w := by
  cases h with
  | literal hl =>
    refine .of_not_name ?_ fun x hx => ?_
    -- Every token with a value of its own can begin an expression.
    · unfold Token.literal? at hl
      split at hl <;> simp_all [Token.beginsExpression]
    · simp [Token.literal?, hx] at hl
  | name hn =>
    obtain ⟨hl⟩ := hn
    exact ⟨_, [], rfl, by simp [hl, Token.beginsExpression], by simp⟩
  | array hopen => exact .of_not_name (by simp [hopen, Token.beginsExpression]) (by simp [hopen])
  | emptyTuple hopen =>
    exact .of_not_name (by simp [hopen, Token.beginsExpression]) (by simp [hopen])
  | group hopen => exact .of_not_name (by simp [hopen, Token.beginsExpression]) (by simp [hopen])
  | tuple hopen => exact .of_not_name (by simp [hopen, Token.beginsExpression]) (by simp [hopen])
  | object hopen => exact .of_not_name (by simp [hopen, Token.beginsExpression]) (by simp [hopen])
  | function hword => exact .of_not_name (by simp [hword, Token.beginsExpression]) (by simp [hword])

theorem Suffixed.opens (h : Suffixed g w i j e) : OpensExpression w := by
  induction h with
  | primary he => exact he.opens
  -- A suffix is added behind words that begin an expression already.
  | call _ hopen _ ih => exact ih.append (by simp [hopen])
  | member _ hdot _ ih => exact ih.append (by simp [hdot])
  | index _ hopen _ _ ih =>
    rw [List.append_assoc]
    exact ih.append (by simp [hopen])

/-- An operand without unary operators begins with no mark of one. -/
theorem Suffixed.exists_not_operator (h : Suffixed g w i j e) :
    ∃ l w', w = l :: w' ∧ ∀ s ∈ [Symbol.not, .minus], ¬ l.Is s := by
  -- What follows an operand does not change its first token.
  induction h with
  | primary he =>
    cases he with
    | literal hl =>
      refine ⟨_, _, rfl, fun s _ h => ?_⟩
      rw [h] at hl
      cases hl
    | name hn =>
      obtain ⟨hl⟩ := hn
      exact ⟨_, _, rfl, by simp [hl]⟩
    | array hopen => exact ⟨_, _, rfl, by simp [hopen]⟩
    | emptyTuple hopen => exact ⟨_, _, rfl, by simp [hopen]⟩
    | group hopen => exact ⟨_, _, rfl, by simp [hopen]⟩
    | tuple hopen => exact ⟨_, _, rfl, by simp [hopen]⟩
    | object hopen => exact ⟨_, _, rfl, by simp [hopen]⟩
    | function hword => exact ⟨_, _, rfl, by simp [hword]⟩
  | call _ _ _ ih =>
    obtain ⟨l, w', rfl, hl⟩ := ih
    exact ⟨l, _, rfl, hl⟩
  | member _ _ _ ih =>
    obtain ⟨l, w', rfl, hl⟩ := ih
    exact ⟨l, _, rfl, hl⟩
  | index _ _ _ _ ih =>
    obtain ⟨l, w', rfl, hl⟩ := ih
    exact ⟨l, _, rfl, hl⟩

theorem Unary.opens (h : Unary g w i j e) : OpensExpression w := by
  cases h with
  | suffixed he => exact he.opens
  | @operator l _ _ _ op _ hop =>
    refine .of_not_name ?_ (by simp [hop])
    cases op <;> simp [hop, UnaryOp.mark, Token.beginsExpression]

theorem Chain.opens {ω : Type} {ops : List ω} {mark : ω → Symbol}
    {make : Site → ω → Expr → Expr → Expr} {operand : Phrase Expr}
    (hmark : ∀ op ∈ ops, mark op ≠ .colon)
    (hoperand : ∀ {w i j e}, operand w i j e → OpensExpression w)
    (h : Chain ops mark make operand w i j e) : OpensExpression w := by
  induction h with
  | operand he => exact hoperand he
  | operator _ hmem hop _ ih =>
    refine ih.append ?_
    rw [Lexeme.Is, hop]
    simpa using hmark _ hmem

theorem Disjunction.opens (h : Disjunction g w i j e) : OpensExpression w :=
  -- One step for each rank; no operator is written as a colon.
  Chain.opens (by decide) (Chain.opens (by decide) (Chain.opens (by decide)
    (Chain.opens (by decide) (Chain.opens (by decide) (Chain.opens (by decide) Unary.opens))))) h

theorem Assignment.opens (h : Assignment g w i j e) : OpensExpression w := by
  cases h with
  | plain he => exact he.opens
  | assign htarget hassign => exact htarget.opens.append (by simp [hassign])

end Grammar

/-- The parsers that nest read the phrases that nest. -/
structure Nesting.Matches (inner : Nesting) (g : Grammar) : Prop where
  statement : inner.statement.Reads g.statement EndsBefore
  expression : inner.expression.Reads g.expression (Stops expressionMarks)
  operand : inner.operand.Reads g.operand (Stops suffixMarks)
  separate : Separate g.statement
  opens : ∀ {w i j e}, g.expression w i j e → OpensExpression w

namespace Nesting

open LWorkbench.Parser Grammar

variable {inner : Nesting} {g : Grammar} {c c' : Cursor} {e : Expr}

/-- An expression begins with no mark that cannot begin one. -/
theorem Matches.peek?_ne (hinner : inner.Matches g) {words : List Lexeme} {i j : NodeId}
    {s : Symbol} (hpasses : c.Passes words c') (he : g.expression words i j e)
    (hs : (Token.symbol s).beginsExpression = false) : c.peek? ≠ some (.symbol s) := by
  obtain ⟨l, w, rfl, hl, -⟩ := hinner.opens he
  rw [hpasses.peek?]
  intro h
  rw [Option.some.inj h, hs] at hl
  cases hl

/-- A list of expressions is read up to a mark that does not go on with an expression. -/
theorem Matches.reads_elements (hinner : inner.Matches g) {close : Symbol} {what : Expectation}
    (hcomma : close ≠ .comma) (hclose : close ∉ expressionMarks)
    (hbegins : (Token.symbol close).beginsExpression = false) :
    Parser.Reads (elements inner.expression close what) (Elements g.expression close) Anything := by
  refine Nesting.reads_elements hinner.expression hcomma ?_ ?_
  · intro w i j x hx
    obtain ⟨l, w', rfl, hl, -⟩ := hinner.opens hx
    refine ⟨l, w', rfl, fun h => ?_⟩
    rw [h, hbegins] at hl
    cases hl
  -- A comma goes on with no expression, and the closing mark is required not to.
  · rintro x l rest (hl | hl)
    · exact stops_cons hl (by decide)
    · exact stops_cons hl hclose

/-! ### Operands -/

theorem runs_literal {value : Literal} :
    (literal value).Runs c e c' ↔
      ∃ l c₁, c.Takes l c₁ ∧ e = .literal (c₁.site c.start) value ∧ c' = c₁.numbered := by
  constructor
  · rintro ⟨h, hrun⟩
    unfold literal at hrun
    split at hrun
    · rename_i t c₁ h₁ htake
      cases hrun
      obtain ⟨l, -, htakes⟩ := Cursor.take?_eq_some_iff.1 htake
      exact ⟨l, c₁, htakes, rfl, rfl⟩
    · cases hrun
  · rintro ⟨l, c₁, htakes, rfl, rfl⟩
    refine ⟨htakes.length_lt, ?_⟩
    simp only [literal, htakes.take?, Parsed.node]

theorem runs_array :
    (array inner).Runs c e c' ↔ ∃ u c₁, (expect .leftBracket .expression).Runs c u c₁ ∧
      ∃ items c₂, Parser.Runs (elements inner.expression .rightBracket .arrayEnd) c₁ items c₂ ∧
        e = .array (c₂.site c.start) items ∧ c' = c₂.numbered := by
  simp only [Runs, array, Parsed.exists_bind_iff, Parsed.exists_pure_iff, Parsed.value_node,
    Parsed.next_node, exists_and_right]

theorem runs_property {p : String × Expr} :
    (property inner).Runs c p c' ↔ ∃ key c₁, propertyKey.Runs c key c₁ ∧
      ∃ u c₂, (expect .colon .propertyColon).Runs c₁ u c₂ ∧
        ∃ value c₃, inner.expression.Runs c₂ value c₃ ∧ p = (key, value) ∧ c' = c₃ := by
  simp only [Runs, property, Parsed.exists_bind_iff, Parsed.exists_pure_iff, exists_and_right]

theorem runs_object :
    (object inner).Runs c e c' ↔ ∃ u c₁, (expect .leftBrace .expression).Runs c u c₁ ∧
      ∃ properties c₂,
        Parser.Runs (elements (property inner) .rightBrace .objectEnd) c₁ properties c₂ ∧
        e = .object (c₂.site c.start) properties ∧ c' = c₂.numbered := by
  simp only [Runs, object, Parsed.exists_bind_iff, Parsed.exists_pure_iff, Parsed.value_node,
    Parsed.next_node, exists_and_right]

/-- A parenthesis stands around nothing, around an expression and others behind a comma, or around
an expression alone. -/
theorem runs_parenthesized :
    (parenthesized inner).Runs c e c' ↔ ∃ l c₁, l.Is .leftParen ∧ c.Takes l c₁ ∧
      ((∃ l' c₂, l'.Is .rightParen ∧ c₁.Takes l' c₂ ∧
          e = .tuple (c₂.site c.start) [] ∧ c' = c₂.numbered) ∨
        (c₁.peek? ≠ some (.symbol .rightParen) ∧ ∃ first c₂, inner.expression.Runs c₁ first c₂ ∧
          ((∃ l' c₃, l'.Is .comma ∧ c₂.Takes l' c₃ ∧ ∃ others c₄,
              Parser.Runs (elements inner.expression .rightParen .tupleEnd) c₃ others c₄ ∧
              e = .tuple (c₄.site c.start) (first :: others) ∧ c' = c₄.numbered) ∨
            (c₂.peek? ≠ some (.symbol .comma) ∧ e = first ∧
              ∃ l', l'.Is .rightParen ∧ c₂.Takes l' c')))) := by
  constructor
  · intro hrun
    simp only [Runs, parenthesized, Parsed.exists_bind_iff] at hrun
    obtain ⟨u, c₁, h₁, hopen, hrun⟩ := hrun
    obtain ⟨l, hl, htakes⟩ := runs_expect.1 ⟨h₁, hopen⟩
    refine ⟨l, c₁, hl, htakes, ?_⟩
    -- The three forms differ in the word behind the parenthesis and in the word behind the first
    -- expression.
    obtain ⟨hpeek, hclose⟩ | ⟨l', c₂, h₂, hl', htakes', hclose⟩ := accept?_cases .rightParen c₁
    · simp only [hclose, Parsed.exists_bind_iff] at hrun
      obtain ⟨first, c₂, h₂, hfirst, hrun⟩ := hrun
      refine .inr ⟨hpeek, first, c₂, ⟨h₂, hfirst⟩, ?_⟩
      obtain ⟨hpeek', hcomma⟩ | ⟨l', c₃, h₃, hl', htakes', hcomma⟩ := accept?_cases .comma c₂
      · simp only [hcomma, Parsed.exists_bind_iff, Parsed.exists_pure_iff] at hrun
        obtain ⟨u', c₃, h₃, hclose', rfl, rfl⟩ := hrun
        exact .inr ⟨hpeek', rfl, runs_expect.1 ⟨h₃, hclose'⟩⟩
      · simp only [hcomma, Parsed.exists_bind_iff, Parsed.exists_pure_iff] at hrun
        obtain ⟨others, c₄, h₄, hothers, rfl, rfl⟩ := hrun
        exact .inl ⟨l', c₃, hl', htakes', others, c₄, ⟨h₄, hothers⟩, rfl, rfl⟩
    · simp only [hclose, Parsed.exists_pure_iff] at hrun
      obtain ⟨rfl, rfl⟩ := hrun
      exact .inl ⟨l', c₂, hl', htakes', rfl, rfl⟩
  · rintro ⟨l, c₁, hl, htakes, hrun⟩
    obtain ⟨h₁, hopen⟩ : (expect .leftParen .expression).Runs c () c₁ :=
      runs_expect.2 ⟨l, hl, htakes⟩
    simp only [Runs, parenthesized, Parsed.exists_bind_iff]
    refine ⟨(), c₁, h₁, hopen, ?_⟩
    obtain ⟨l', c₂, hl', htakes', rfl, rfl⟩ | ⟨hpeek, first, c₂, ⟨h₂, hfirst⟩, hrun⟩ := hrun
    · simp only [accept?_of_takes hl' htakes', Parsed.exists_pure_iff, Parsed.value_node,
        Parsed.next_node, and_self]
    simp only [accept?_of_peek? hpeek, Parsed.exists_bind_iff]
    refine ⟨first, c₂, h₂, hfirst, ?_⟩
    obtain ⟨l', c₃, hl', htakes', others, c₄, ⟨h₄, hothers⟩, rfl, rfl⟩ |
      ⟨hpeek', rfl, l', hl', htakes'⟩ := hrun
    · simp only [accept?_of_takes hl' htakes', Parsed.exists_bind_iff, Parsed.exists_pure_iff]
      exact ⟨others, c₄, h₄, hothers, rfl, rfl⟩
    · obtain ⟨h₃, hclose⟩ : (expect .rightParen .groupEnd).Runs c₂ () c' :=
        runs_expect.2 ⟨l', hl', htakes'⟩
      simp only [accept?_of_peek? hpeek', Parsed.exists_bind_iff, Parsed.exists_pure_iff]
      exact ⟨(), c', h₃, hclose, trivial, rfl⟩

theorem runs_function :
    (function inner).Runs c e c' ↔ ∃ l c₁, l.IsWord .functionWord ∧ c.Takes l c₁ ∧
      ∃ u c₂, (expect .leftParen .parametersStart).Runs c₁ u c₂ ∧
        ∃ params c₃, Parser.Runs (elements (name .variable .parameterName) .rightParen
            .parametersEnd) c₂ params c₃ ∧
          ∃ u c₄, (expect .leftBrace .bodyStart).Runs c₃ u c₄ ∧
            ∃ body c₅, Parser.Runs (statements inner) c₄ body c₅ ∧
              e = .function (c₅.site c.start) params body ∧ c' = c₅.numbered := by
  -- The reserved word decides whether the parser goes on at all.
  obtain ⟨hpeek, hword⟩ | ⟨l, c₁, h₁, hl, htakes, hword⟩ := acceptWord?_cases .functionWord c
  · constructor
    · rintro ⟨h, hrun⟩
      simp only [function, hword] at hrun
      cases hrun
    · rintro ⟨l, c₁, hl, htakes, -⟩
      exact absurd (hl ▸ htakes.peek?) hpeek
  · constructor
    · intro hrun
      simp only [Runs, function, hword, Parsed.exists_bind_iff, Parsed.exists_pure_iff,
        Parsed.value_node, Parsed.next_node, exists_and_right] at hrun
      exact ⟨l, c₁, hl, htakes, hrun⟩
    · rintro ⟨l', c₁', hl', htakes', hrun⟩
      simp only [Runs, function, acceptWord?_of_takes hl' htakes', Parsed.exists_bind_iff,
        Parsed.exists_pure_iff, Parsed.value_node, Parsed.next_node, exists_and_right]
      exact hrun

/-- A token that is a value by itself is read as it. -/
theorem primary_of_literal? {t : Token} {value : Literal} (hpeek : c.peek? = some t)
    (ht : t.literal? = some value) : primary inner c = literal value c := by
  unfold Token.literal? at ht
  split at ht <;> simp_all [primary]

/-- What an operand is, by the token that it begins with. -/
theorem runs_primary :
    (primary inner).Runs c e c' ↔
      (∃ t value, c.peek? = some t ∧ t.literal? = some value ∧ (literal value).Runs c e c') ∨
      (∃ n, (name .variable .expression).Runs c n c' ∧ e = .name n) ∨
      (array inner).Runs c e c' ∨ (parenthesized inner).Runs c e c' ∨
      (object inner).Runs c e c' ∨ (function inner).Runs c e c' := by
  constructor
  · rintro ⟨h, hrun⟩
    unfold primary at hrun
    split at hrun
    · cases hrun
    · rename_i token hpeek
      split at hrun
      · exact .inl ⟨_, _, hpeek, rfl, h, hrun⟩
      · exact .inl ⟨_, _, hpeek, rfl, h, hrun⟩
      · exact .inl ⟨_, _, hpeek, rfl, h, hrun⟩
      · exact .inl ⟨_, _, hpeek, rfl, h, hrun⟩
      · exact .inl ⟨_, _, hpeek, rfl, h, hrun⟩
      -- A name is read by the parser of names, whose result is wrapped.
      · rename_i x
        cases hname : name .variable .expression c with
        | error f =>
          rw [hname] at hrun
          cases hrun
        | ok q =>
          rw [hname] at hrun
          cases hrun
          exact .inr (.inl ⟨q.value, ⟨q.progress, hname⟩, rfl⟩)
      · exact .inr (.inr (.inl ⟨h, hrun⟩))
      · exact .inr (.inr (.inr (.inl ⟨h, hrun⟩)))
      · exact .inr (.inr (.inr (.inr (.inl ⟨h, hrun⟩))))
      · exact .inr (.inr (.inr (.inr (.inr ⟨h, hrun⟩))))
      · cases hrun
  · rintro (⟨t, value, hpeek, ht, h, hrun⟩ | ⟨n, hrun, rfl⟩ | hrun | hrun | hrun | hrun)
    · exact ⟨h, (primary_of_literal? hpeek ht).trans hrun⟩
    -- Conversely, each parser that succeeds tells which token comes first, and so which branch the
    -- parser of operands takes.
    · obtain ⟨words, hpasses, hphrase, -⟩ := (reads_name _ _ c n c').1 hrun
      obtain ⟨l, x, rfl, hl⟩ := exists_name_of_phrase hphrase
      obtain ⟨h, hrun⟩ := hrun
      refine ⟨h, ?_⟩
      simp only [primary, hpasses.peek?, hl, hrun]
      rfl
    · obtain ⟨u, c₁, hopen, -⟩ := runs_array.1 hrun
      obtain ⟨l, hl, htakes⟩ := runs_expect.1 hopen
      simpa only [Runs, primary, htakes.peek?, hl] using hrun
    · obtain ⟨l, c₁, hl, htakes, -⟩ := runs_parenthesized.1 hrun
      simpa only [Runs, primary, htakes.peek?, hl] using hrun
    · obtain ⟨u, c₁, hopen, -⟩ := runs_object.1 hrun
      obtain ⟨l, hl, htakes⟩ := runs_expect.1 hopen
      simpa only [Runs, primary, htakes.peek?, hl] using hrun
    · obtain ⟨l, c₁, hl, htakes, -⟩ := runs_function.1 hrun
      simpa only [Runs, primary, htakes.peek?, hl] using hrun

/-- Objects are lists of keys with values. -/
theorem Matches.reads_property (hinner : inner.Matches g) :
    (property inner).Reads (Property g) (fun p => Stops expressionMarks p.2) := by
  intro c p c'
  rw [runs_property]
  constructor
  · rintro ⟨key, c₁, hkey, u, c₂, hcolon, value, c₃, hvalue, rfl, rfl⟩
    obtain ⟨l, hl, htakes⟩ := runs_propertyKey.1 hkey
    obtain ⟨l', hl', htakes'⟩ := runs_expect.1 hcolon
    obtain ⟨w, hw, he, hstops⟩ := (hinner.expression _ _ _).1 hvalue
    rw [htakes'.2, htakes.2] at he
    exact ⟨[l] ++ ([l'] ++ w), htakes.1.append (htakes'.1.append hw), .property hl hl' he, hstops⟩
  · rintro ⟨words, hpasses, hphrase, hstops⟩
    generalize hi : c.nextId = i at hphrase
    generalize hj : c'.nextId = j at hphrase
    cases hphrase with
    | @property l l' w _ _ key e hkey hcolon he =>
      obtain ⟨c₁, hi₁, htakes, hpasses⟩ := (Cursor.passes_cons i).1 hpasses
      obtain ⟨c₂, hi₂, htakes', hw⟩ := (Cursor.passes_cons i).1 hpasses
      refine ⟨key, c₁, runs_propertyKey.2 ⟨l, hkey, htakes, hi₁.trans hi.symm⟩, (), c₂,
        runs_expect.2 ⟨l', hcolon, htakes', hi₂.trans hi₁.symm⟩, e, c', ?_, rfl, rfl⟩
      exact (hinner.expression _ _ _).2 ⟨w, hw, hi₂ ▸ hj ▸ he, hstops⟩

theorem Matches.reads_properties (hinner : inner.Matches g) :
    Parser.Reads (elements (property inner) .rightBrace .objectEnd)
      (Elements (Property g) .rightBrace) Anything := by
  refine Nesting.reads_elements hinner.reads_property (by decide) ?_ ?_
  -- A key is an identifier or a string, so it is not the closing brace.
  · rintro w i j p ⟨hkey, -, -⟩
    refine ⟨_, _, rfl, fun h => ?_⟩
    obtain hkey | hkey := hkey
    · exact absurd (h.symm.trans hkey) (by simp)
    · exact absurd (h.symm.trans hkey) (by simp)
  · rintro p l rest (hl | hl)
    · exact stops_cons hl (by decide)
    · exact stops_cons hl (by decide)

theorem reads_params :
    Parser.Reads (elements (name .variable .parameterName) .rightParen .parametersEnd)
      (Elements (NamePhrase .variable) .rightParen) Anything := by
  refine Nesting.reads_elements (reads_name _ _) (by decide) ?_ (fun _ => trivial)
  intro w i j n hn
  obtain ⟨l, x, rfl, hl⟩ := exists_name_of_phrase hn
  exact ⟨l, [], rfl, by simp [hl]⟩

/-- What is read in parentheses is a group or a tuple. -/
theorem Matches.exists_parenthesized (hinner : inner.Matches g)
    (h : (parenthesized inner).Runs c e c') :
    ∃ words, c.Passes words c' ∧ Primary g words c.nextId c'.nextId e := by
  obtain ⟨l, c₁, hl, htakes, ⟨l', c₂, hl', htakes', rfl, rfl⟩ | ⟨-, first, c₂, hfirst, hrun⟩⟩ :=
    runs_parenthesized.1 h
  · have hpasses : c.Passes ([l] ++ [l']) c₂ := htakes.1.append htakes'.1
    refine ⟨[l] ++ [l'], Cursor.passes_numbered.2 hpasses, ?_⟩
    rw [hpasses.site_eq (List.cons_ne_nil _ _), Cursor.nextId_numbered, htakes'.2, htakes.2]
    exact .emptyTuple hl hl'
  obtain ⟨w, hw, he, -⟩ := (hinner.expression _ _ _).1 hfirst
  rw [htakes.2] at he
  obtain ⟨l', c₃, hl', htakes', others, c₄, hothers, rfl, rfl⟩ | ⟨-, rfl, l', hl', htakes'⟩ := hrun
  · obtain ⟨w', hw', hitems, -⟩ :=
      (hinner.reads_elements (by decide) (by decide) rfl _ _ _).1 hothers
    rw [htakes'.2] at hitems
    have hpasses : c.Passes ([l] ++ w ++ ([l'] ++ w')) c₄ :=
      (htakes.1.append hw).append (htakes'.1.append hw')
    refine ⟨_, Cursor.passes_numbered.2 hpasses, ?_⟩
    rw [hpasses.site_eq (List.cons_ne_nil _ _), Cursor.nextId_numbered]
    exact .tuple hl he hl' hitems
  · rw [← htakes'.2] at he
    exact ⟨[l] ++ w ++ [l'], (htakes.1.append hw).append htakes'.1, .group hl he hl'⟩

/-- What is read as an operand without operators is one. -/
theorem Matches.exists_primary (hinner : inner.Matches g) (h : (primary inner).Runs c e c') :
    ∃ words, c.Passes words c' ∧ Primary g words c.nextId c'.nextId e := by
  -- The first token tells which of the six it is.
  obtain ⟨t, value, hpeek, ht, hrun⟩ | ⟨n, hrun, rfl⟩ | hrun | hrun | hrun | hrun :=
    runs_primary.1 h
  · obtain ⟨l, c₁, htakes, rfl, rfl⟩ := runs_literal.1 hrun
    obtain rfl : l.token = t := Option.some.inj (htakes.peek?.symm.trans hpeek)
    refine ⟨[l], Cursor.passes_numbered.2 htakes.1, ?_⟩
    rw [htakes.1.site_eq (List.cons_ne_nil _ _), Cursor.nextId_numbered, htakes.2]
    exact .literal ht
  · obtain ⟨w, hw, hn, -⟩ := (reads_name _ _ _ _ _).1 hrun
    exact ⟨w, hw, .name hn⟩
  · obtain ⟨u, c₁, hopen, items, c₂, hitems, rfl, rfl⟩ := runs_array.1 hrun
    obtain ⟨l, hl, htakes⟩ := runs_expect.1 hopen
    obtain ⟨w, hw, hitems, -⟩ :=
      (hinner.reads_elements (by decide) (by decide) rfl _ _ _).1 hitems
    have hpasses : c.Passes ([l] ++ w) c₂ := htakes.1.append hw
    refine ⟨[l] ++ w, Cursor.passes_numbered.2 hpasses, ?_⟩
    rw [hpasses.site_eq (List.cons_ne_nil _ _), Cursor.nextId_numbered]
    exact .array hl (htakes.2 ▸ hitems)
  · exact hinner.exists_parenthesized hrun
  · obtain ⟨u, c₁, hopen, properties, c₂, hproperties, rfl, rfl⟩ := runs_object.1 hrun
    obtain ⟨l, hl, htakes⟩ := runs_expect.1 hopen
    obtain ⟨w, hw, hproperties, -⟩ := (hinner.reads_properties _ _ _).1 hproperties
    have hpasses : c.Passes ([l] ++ w) c₂ := htakes.1.append hw
    refine ⟨[l] ++ w, Cursor.passes_numbered.2 hpasses, ?_⟩
    rw [hpasses.site_eq (List.cons_ne_nil _ _), Cursor.nextId_numbered]
    exact .object hl (htakes.2 ▸ hproperties)
  · obtain ⟨l, c₁, hl, htakes, u, c₂, hopen, params, c₃, hparams, u, c₄, hbrace, body, c₅, hbody,
      rfl, rfl⟩ := runs_function.1 hrun
    obtain ⟨l', hl', htakes'⟩ := runs_expect.1 hopen
    obtain ⟨w, hw, hparams, -⟩ := (reads_params _ _ _).1 hparams
    obtain ⟨l'', hl'', htakes''⟩ := runs_expect.1 hbrace
    obtain ⟨w', hw', hbraced⟩ :=
      (runs_braced hinner.statement hinner.separate).1 ⟨l'', c₄, hl'', htakes'', hbody⟩
    have hpasses : c.Passes ([l] ++ ([l'] ++ w) ++ w') c₅ :=
      (htakes.1.append (htakes'.1.append hw)).append hw'
    refine ⟨_, Cursor.passes_numbered.2 hpasses, ?_⟩
    rw [hpasses.site_eq (List.cons_ne_nil _ _), Cursor.nextId_numbered]
    rw [htakes'.2, htakes.2] at hparams
    exact .function hl hl' hparams hbraced

/-- An operand without operators is read. -/
theorem Matches.runs_primary_of_phrase (hinner : inner.Matches g) {words : List Lexeme}
    (hpasses : c.Passes words c') (h : Primary g words c.nextId c'.nextId e) :
    (primary inner).Runs c e c' := by
  -- The numbers are made variables, so that the derivation can be taken apart.
  rw [runs_primary]
  generalize hi : c.nextId = i at h
  generalize hm : c'.nextId = m at h
  cases h with
  | @literal l _ value hl =>
    obtain ⟨c₁, rfl, hi₁, hpasses⟩ := hpasses.exists_numbered hm
    refine .inl ⟨l.token, value, hpasses.peek?, hl,
      runs_literal.2 ⟨l, c₁, ⟨hpasses, hi₁.trans hi.symm⟩, ?_, rfl⟩⟩
    rw [hpasses.site_eq (List.cons_ne_nil _ _), hi₁]
  | name hn =>
    exact .inr (.inl ⟨_, (reads_name _ _ _ _ _).2 ⟨_, hpasses, hi ▸ hm ▸ hn, trivial⟩, rfl⟩)
  | @array l w _ j items hopen hitems =>
    obtain ⟨c₂, rfl, hj, hpasses⟩ := hpasses.exists_numbered hm
    obtain ⟨c₁, hi₁, htakes, hw⟩ := (Cursor.passes_cons i).1 hpasses
    refine .inr (.inr (.inl (runs_array.2 ⟨(), c₁,
      runs_expect.2 ⟨l, hopen, htakes, hi₁.trans hi.symm⟩, items, c₂, ?_, ?_, rfl⟩)))
    · exact (hinner.reads_elements (by decide) (by decide) rfl _ _ _).2
        ⟨w, hw, hi₁ ▸ hj ▸ hitems, trivial⟩
    · rw [hpasses.site_eq (List.cons_ne_nil _ _), hj]
  | @emptyTuple l l' _ hopen hclose =>
    obtain ⟨c₂, rfl, hi₂, hpasses⟩ := hpasses.exists_numbered hm
    obtain ⟨c₁, hi₁, htakes, htakes'⟩ := (Cursor.passes_cons i).1 hpasses
    refine .inr (.inr (.inr (.inl (runs_parenthesized.2 ⟨l, c₁, hopen,
      ⟨htakes, hi₁.trans hi.symm⟩,
      .inl ⟨l', c₂, hclose, ⟨htakes', hi₂.trans hi₁.symm⟩, ?_, rfl⟩⟩))))
    rw [hpasses.site_eq (List.cons_ne_nil _ _), hi₂]
  -- Parentheses alone make no node, so the expression keeps its number and its site.
  | @group l l' w _ _ e hopen he hclose =>
    obtain ⟨c₂, hj, hw, htakes'⟩ := (Cursor.passes_append m).1 hpasses
    obtain ⟨c₁, hi₁, htakes, hw⟩ := (Cursor.passes_cons i).1 hw
    refine .inr (.inr (.inr (.inl (runs_parenthesized.2 ⟨l, c₁, hopen,
      ⟨htakes, hi₁.trans hi.symm⟩, .inr ⟨hinner.peek?_ne hw he rfl, e, c₂, ?_, .inr
        ⟨?_, rfl, l', hclose, htakes', hm.trans hj.symm⟩⟩⟩))))
    · exact (hinner.expression _ _ _).2
        ⟨w, hw, hi₁ ▸ hj ▸ he, htakes'.rest ▸ stops_cons hclose (by decide)⟩
    · simp [htakes'.peek?, hclose]
  | @tuple l l' w w' _ j k e items hopen he hcomma hitems =>
    obtain ⟨c₄, rfl, hk, hpasses⟩ := hpasses.exists_numbered hm
    obtain ⟨c₂, hj, hw, htail⟩ := (Cursor.passes_append j).1 hpasses
    obtain ⟨c₁, hi₁, htakes, hw⟩ := (Cursor.passes_cons i).1 hw
    obtain ⟨c₃, hj₃, htakes', hw'⟩ := (Cursor.passes_cons j).1 htail
    refine .inr (.inr (.inr (.inl (runs_parenthesized.2 ⟨l, c₁, hopen,
      ⟨htakes, hi₁.trans hi.symm⟩, .inr ⟨hinner.peek?_ne hw he rfl, e, c₂, ?_, .inl
        ⟨l', c₃, hcomma, ⟨htakes', hj₃.trans hj.symm⟩, items, c₄, ?_, ?_, rfl⟩⟩⟩))))
    · exact (hinner.expression _ _ _).2
        ⟨w, hw, hi₁ ▸ hj ▸ he, htakes'.rest ▸ stops_cons hcomma (by decide)⟩
    · exact (hinner.reads_elements (by decide) (by decide) rfl _ _ _).2
        ⟨w', hw', hj₃ ▸ hk ▸ hitems, trivial⟩
    · rw [hpasses.site_eq (List.cons_ne_nil _ _), hk]
  | @object l w _ j properties hopen hproperties =>
    obtain ⟨c₂, rfl, hj, hpasses⟩ := hpasses.exists_numbered hm
    obtain ⟨c₁, hi₁, htakes, hw⟩ := (Cursor.passes_cons i).1 hpasses
    refine .inr (.inr (.inr (.inr (.inl (runs_object.2 ⟨(), c₁,
      runs_expect.2 ⟨l, hopen, htakes, hi₁.trans hi.symm⟩, properties, c₂, ?_, ?_, rfl⟩)))))
    · exact (hinner.reads_properties _ _ _).2 ⟨w, hw, hi₁ ▸ hj ▸ hproperties, trivial⟩
    · rw [hpasses.site_eq (List.cons_ne_nil _ _), hj]
  | @function l l' w w' _ j k params body hword hopen hparams hbody =>
    obtain ⟨c₅, rfl, hk, hpasses⟩ := hpasses.exists_numbered hm
    obtain ⟨c₃, hj, hw, hw'⟩ := (Cursor.passes_append j).1 hpasses
    obtain ⟨c₁, hi₁, htakes, hw⟩ := (Cursor.passes_cons i).1 hw
    obtain ⟨c₂, hi₂, htakes', hw⟩ := (Cursor.passes_cons i).1 hw
    obtain ⟨l'', c₄, hl'', htakes'', hbody⟩ :=
      (runs_braced hinner.statement hinner.separate).2 ⟨w', hw', hj ▸ hk ▸ hbody⟩
    refine .inr (.inr (.inr (.inr (.inr (runs_function.2 ⟨l, c₁, hword,
      ⟨htakes, hi₁.trans hi.symm⟩, (), c₂,
      runs_expect.2 ⟨l', hopen, htakes', hi₂.trans hi₁.symm⟩, params, c₃, ?_, (), c₄,
      runs_expect.2 ⟨l'', hl'', htakes''⟩, body, c₅, hbody, ?_, rfl⟩)))))
    · exact (reads_params _ _ _).2 ⟨w, hw, hi₂ ▸ hj ▸ hparams, trivial⟩
    · rw [hpasses.site_eq (List.cons_ne_nil _ _), hk]

/-! ### Suffixes -/

variable {start : Nat} {e' : Expr}

theorem stops_suffixMarks :
    Stops suffixMarks e c.rest ↔ c.peek? ≠ some (.symbol .leftParen) ∧
      c.peek? ≠ some (.symbol .dot) ∧ c.peek? ≠ some (.symbol .leftBracket) := by
  constructor
  · exact fun h => ⟨h.peek? (by decide), h.peek? (by decide), h.peek? (by decide)⟩
  -- There are three marks, and the parser has tested for each.
  · rintro ⟨hparen, hdot, hbracket⟩ l hl s hs h
    have hpeek : c.peek? = some (.symbol s) := by rw [Cursor.peek?, hl, ← h]; rfl
    simp only [suffixMarks, List.mem_cons, List.not_mem_nil, or_false] at hs
    obtain rfl | rfl | rfl := hs
    · exact hparen hpeek
    · exact hdot hpeek
    · exact hbracket hpeek

/-- An operand goes on with arguments, a property or an index, or else it ends. -/
theorem finishes_suffixes :
    Finishes (suffixes inner start e) c e' c' ↔
      (∃ l c₁, l.Is .leftParen ∧ c.Takes l c₁ ∧ ∃ args c₂,
        Parser.Runs (elements inner.expression .rightParen .argumentsEnd) c₁ args c₂ ∧
        Finishes (suffixes inner start (.call (c₂.site start) e args)) c₂.numbered e' c') ∨
      (∃ l c₁, l.Is .dot ∧ c.Takes l c₁ ∧ ∃ x c₂, propertyName.Runs c₁ x c₂ ∧
        Finishes (suffixes inner start (.member (c₂.site start) e x)) c₂.numbered e' c') ∨
      (∃ l c₁, l.Is .leftBracket ∧ c.Takes l c₁ ∧ ∃ index c₂, inner.expression.Runs c₁ index c₂ ∧
        ∃ u c₃, (expect .rightBracket .indexEnd).Runs c₂ u c₃ ∧
        Finishes (suffixes inner start (.index (c₃.site start) e index)) c₃.numbered e' c') ∨
      (Stops suffixMarks e c.rest ∧ e' = e ∧ c' = c) := by
  constructor
  · intro hrun
    rw [Finishes, suffixes] at hrun
    -- The three marks are tried in this order, each only when those in front of it are not there.
    obtain ⟨hparen, haccept⟩ | ⟨l, c₁, h₁, hl, htakes, haccept⟩ := accept?_cases .leftParen c
    · obtain ⟨hdot, haccept'⟩ | ⟨l, c₁, h₁, hl, htakes, haccept'⟩ := accept?_cases .dot c
      · obtain ⟨hbracket, haccept''⟩ | ⟨l, c₁, h₁, hl, htakes, haccept''⟩ :=
          accept?_cases .leftBracket c
        · simp only [haccept, haccept', haccept''] at hrun
          obtain ⟨h, hrun⟩ := hrun
          cases hrun
          exact .inr (.inr (.inr ⟨stops_suffixMarks.2 ⟨hparen, hdot, hbracket⟩, rfl, rfl⟩))
        · simp only [haccept, haccept', haccept'', Parsed.exists_bind_iff,
            Completed.exists_bind_iff, Completed.exists_pure_iff] at hrun
          obtain ⟨index, c₂, h₂, hindex, u, c₃, h₃, hclose, e₁, c₄, h₄, hrun, rfl, rfl⟩ := hrun
          exact .inr (.inr (.inl ⟨l, c₁, hl, htakes, index, c₂, ⟨h₂, hindex⟩, u, c₃,
            ⟨h₃, hclose⟩, ⟨h₄, hrun⟩⟩))
      · simp only [haccept, haccept', Parsed.exists_bind_iff, Completed.exists_bind_iff,
          Completed.exists_pure_iff] at hrun
        obtain ⟨x, c₂, h₂, hx, e₁, c₃, h₃, hrun, rfl, rfl⟩ := hrun
        exact .inr (.inl ⟨l, c₁, hl, htakes, x, c₂, ⟨h₂, hx⟩, ⟨h₃, hrun⟩⟩)
    · simp only [haccept, Parsed.exists_bind_iff, Completed.exists_bind_iff,
        Completed.exists_pure_iff] at hrun
      obtain ⟨args, c₂, h₂, hargs, e₁, c₃, h₃, hrun, rfl, rfl⟩ := hrun
      exact .inl ⟨l, c₁, hl, htakes, args, c₂, ⟨h₂, hargs⟩, ⟨h₃, hrun⟩⟩
  · rw [Finishes, suffixes]
    rintro (⟨l, c₁, hl, htakes, args, c₂, ⟨h₂, hargs⟩, h₃, hrun⟩ |
      ⟨l, c₁, hl, htakes, x, c₂, ⟨h₂, hx⟩, h₃, hrun⟩ |
      ⟨l, c₁, hl, htakes, index, c₂, ⟨h₂, hindex⟩, u, c₃, ⟨h₃, hclose⟩, h₄, hrun⟩ |
      ⟨hstops, rfl, rfl⟩)
    · simp only [accept?_of_takes hl htakes, Parsed.exists_bind_iff, Completed.exists_bind_iff,
        Completed.exists_pure_iff]
      exact ⟨args, c₂, h₂, hargs, e', c', h₃, hrun, rfl, rfl⟩
    · have hparen : c.peek? ≠ some (.symbol .leftParen) := by simp [htakes.peek?, hl]
      simp only [accept?_of_peek? hparen, accept?_of_takes hl htakes, Parsed.exists_bind_iff,
        Completed.exists_bind_iff, Completed.exists_pure_iff]
      exact ⟨x, c₂, h₂, hx, e', c', h₃, hrun, rfl, rfl⟩
    · have hparen : c.peek? ≠ some (.symbol .leftParen) := by simp [htakes.peek?, hl]
      have hdot : c.peek? ≠ some (.symbol .dot) := by simp [htakes.peek?, hl]
      simp only [accept?_of_peek? hparen, accept?_of_peek? hdot, accept?_of_takes hl htakes,
        Parsed.exists_bind_iff, Completed.exists_bind_iff, Completed.exists_pure_iff]
      exact ⟨index, c₂, h₂, hindex, u, c₃, h₃, hclose, e', c', h₄, hrun, rfl, rfl⟩
    · obtain ⟨hparen, hdot, hbracket⟩ := stops_suffixMarks.1 hstops
      simp only [accept?_of_peek? hparen, accept?_of_peek? hdot, accept?_of_peek? hbracket]
      exact ⟨Nat.le_refl _, trivial⟩

theorem runs_suffixed :
    (suffixed inner).Runs c e c' ↔ ∃ e₀ c₁, (primary inner).Runs c e₀ c₁ ∧
      Finishes (suffixes inner c.start e₀) c₁ e c' := by
  simp only [Runs, Finishes, suffixed, Parsed.exists_bind_iff, Completed.exists_bind_iff,
    Parsed.exists_pure_iff, exists_and_right]
  constructor
  · rintro ⟨e₀, c₁, hprimary, e₁, c₂, hsuffixes, rfl, rfl⟩
    exact ⟨e₀, c₁, hprimary, hsuffixes⟩
  · rintro ⟨e₀, c₁, hprimary, hsuffixes⟩
    exact ⟨e₀, c₁, hprimary, e, c', hsuffixes, rfl, rfl⟩

/-- What is read behind an operand makes an operand of it again. -/
theorem Matches.exists_suffixed (hinner : inner.Matches g) {c₀ : Cursor} {w : List Lexeme}
    (hw : c₀.Passes w c) (he : Suffixed g w c₀.nextId c.nextId e)
    (h : Finishes (suffixes inner c₀.start e) c e' c') :
    ∃ words, c₀.Passes words c' ∧ Suffixed g words c₀.nextId c'.nextId e' ∧
      Stops suffixMarks e' c'.rest := by
  -- Each suffix that is taken leaves fewer words.
  induction hn : c.rest.length using Nat.strongRecOn generalizing c e w with
  | ind n ih =>
    subst hn
    obtain ⟨l, c₁, hl, htakes, args, c₂, hargs, hrun⟩ | ⟨l, c₁, hl, htakes, x, c₂, hx, hrun⟩ |
      ⟨l, c₁, hl, htakes, index, c₂, hindex, u, c₃, hclose, hrun⟩ | ⟨hstops, rfl, rfl⟩ :=
      finishes_suffixes.1 h
    · have hlt : c₂.rest.length < c.rest.length := Nat.lt_trans hargs.length_lt htakes.length_lt
      obtain ⟨w', hw', hargs, -⟩ :=
        (hinner.reads_elements (by decide) (by decide) rfl _ _ _).1 hargs
      have hpasses : c₀.Passes (w ++ ([l] ++ w')) c₂ := hw.append (htakes.1.append hw')
      rw [hpasses.site_eq (by simp)] at hrun
      exact ih _ hlt (Cursor.passes_numbered.2 hpasses)
        (.call he hl (htakes.2 ▸ hargs)) hrun rfl
    · have hlt : c₂.rest.length < c.rest.length := Nat.lt_trans hx.length_lt htakes.length_lt
      obtain ⟨l', hl', htakes'⟩ := runs_propertyName.1 hx
      have hpasses : c₀.Passes (w ++ ([l] ++ [l'])) c₂ := hw.append (htakes.1.append htakes'.1)
      rw [hpasses.site_eq (by simp)] at hrun
      have hid : c₂.nextId = c.nextId := htakes'.2.trans htakes.2
      refine ih _ hlt (Cursor.passes_numbered.2 hpasses) ?_ hrun rfl
      rw [Cursor.nextId_numbered, hid]
      exact .member he hl hl'
    · have hlt : c₃.rest.length < c.rest.length :=
        Nat.lt_trans hclose.length_lt (Nat.lt_trans hindex.length_lt htakes.length_lt)
      obtain ⟨w', hw', hindex, -⟩ := (hinner.expression _ _ _).1 hindex
      obtain ⟨l', hl', htakes'⟩ := runs_expect.1 hclose
      have hpasses : c₀.Passes (w ++ ([l] ++ w') ++ [l']) c₃ :=
        (hw.append (htakes.1.append hw')).append htakes'.1
      rw [hpasses.site_eq (by simp)] at hrun
      refine ih _ hlt (Cursor.passes_numbered.2 hpasses) ?_ hrun rfl
      rw [Cursor.nextId_numbered, htakes'.2]
      exact .index he hl (htakes.2 ▸ hindex) hl'
    · exact ⟨w, hw, he, hstops⟩

/-- An operand is read suffix by suffix: what completes it completes what it begins with. -/
theorem Matches.runs_suffixed_of_phrase (hinner : inner.Matches g) {c₀ : Cursor} {w : List Lexeme}
    {i k : NodeId} (hw : c₀.Passes w c) (he : Suffixed g w i k e) (hi : c₀.nextId = i)
    (hk : c.nextId = k) (h : Finishes (suffixes inner c₀.start e) c e' c') :
    (suffixed inner).Runs c₀ e' c' := by
  induction he generalizing c with
  | primary he =>
    exact runs_suffixed.2 ⟨_, c, hinner.runs_primary_of_phrase hw (hi ▸ hk ▸ he), h⟩
  | @call l w w' i j k e args _ hopen hargs ih =>
    obtain ⟨c₂, rfl, hk₂, hw⟩ := hw.exists_numbered hk
    -- The call is what the suffix makes of its callee, so the parser has got this far once the
    -- callee has been read.
    rw [← hk₂, ← hw.site_eq (by simp)] at h
    obtain ⟨c₁, hj, hw, htail⟩ := (Cursor.passes_append j).1 hw
    obtain ⟨c₃, hj₃, htakes, hw'⟩ := (Cursor.passes_cons j).1 htail
    refine ih hw hi hj (finishes_suffixes.2 (.inl ⟨l, c₃, hopen, ⟨htakes, hj₃.trans hj.symm⟩,
      args, c₂, ?_, h⟩))
    exact (hinner.reads_elements (by decide) (by decide) rfl _ _ _).2
      ⟨w', hw', hj₃ ▸ hk₂ ▸ hargs, trivial⟩
  | @member l l' w i j e x _ hdot hx ih =>
    obtain ⟨c₂, rfl, hk₂, hw⟩ := hw.exists_numbered hk
    rw [← hk₂, ← hw.site_eq (by simp)] at h
    obtain ⟨c₁, hj, hw, htail⟩ := (Cursor.passes_append j).1 hw
    obtain ⟨c₃, hj₃, htakes, htakes'⟩ := (Cursor.passes_cons j).1 htail
    exact ih hw hi hj (finishes_suffixes.2 (.inr (.inl ⟨l, c₃, hdot,
      ⟨htakes, hj₃.trans hj.symm⟩, x, c₂,
      runs_propertyName.2 ⟨l', hx, htakes', hk₂.trans hj₃.symm⟩, h⟩)))
  | @index l l' w w' i j k e index _ hopen hindex hclose ih =>
    obtain ⟨c₂, rfl, hk₂, hw⟩ := hw.exists_numbered hk
    rw [← hk₂, ← hw.site_eq (by simp)] at h
    obtain ⟨c₄, hk₄, hw, htakes'⟩ := (Cursor.passes_append k).1 hw
    obtain ⟨c₁, hj, hw, htail⟩ := (Cursor.passes_append j).1 hw
    obtain ⟨c₃, hj₃, htakes, hw'⟩ := (Cursor.passes_cons j).1 htail
    refine ih hw hi hj (finishes_suffixes.2 (.inr (.inr (.inl ⟨l, c₃, hopen,
      ⟨htakes, hj₃.trans hj.symm⟩, index, c₄, ?_, (), c₂,
      runs_expect.2 ⟨l', hclose, htakes', hk₂.trans hk₄.symm⟩, h⟩))))
    exact (hinner.expression _ _ _).2
      ⟨w', hw', hj₃ ▸ hk₄ ▸ hindex, htakes'.rest ▸ stops_cons hclose (by decide)⟩

theorem Matches.reads_suffixed (hinner : inner.Matches g) :
    (suffixed inner).Reads (Suffixed g) (Stops suffixMarks) := by
  intro c e c'
  constructor
  · intro h
    obtain ⟨e₀, c₁, hprimary, hsuffixes⟩ := runs_suffixed.1 h
    obtain ⟨w, hw, hprimary⟩ := hinner.exists_primary hprimary
    exact hinner.exists_suffixed hw (.primary hprimary) hsuffixes
  · rintro ⟨words, hpasses, he, hstops⟩
    exact hinner.runs_suffixed_of_phrase hpasses he rfl rfl
      (finishes_suffixes.2 (.inr (.inr (.inr ⟨hstops, rfl, rfl⟩))))

/-! ### Operators -/

section

variable {ω : Type} {op? : Token → Option ω} {ops : List ω} {mark : ω → Symbol}

/-- The table reads exactly the marks of some operators. -/
def IsTable (op? : Token → Option ω) (ops : List ω) (mark : ω → Symbol) : Prop :=
  ∀ t op, op? t = some op ↔ op ∈ ops ∧ t = .symbol (mark op)

theorem IsTable.of_takes (htable : IsTable op? ops mark) {op : ω} {l : Lexeme} (hmem : op ∈ ops)
    (hl : l.Is (mark op)) (htakes : c.Takes l c') : c.peek?.bind op? = some op := by
  rw [htakes.peek?]
  exact (htable l.token op).2 ⟨hmem, hl⟩

theorem IsTable.of_stops (htable : IsTable op? ops mark) (h : Stops (ops.map mark) e c.rest) :
    c.peek?.bind op? = none := by
  rw [Option.eq_none_iff_forall_ne_some]
  intro op hop
  obtain ⟨t, ht, hop⟩ := Option.bind_eq_some_iff.1 hop
  obtain ⟨hmem, rfl⟩ := (htable t op).1 hop
  exact h.peek? (List.mem_map_of_mem hmem) ht

/-- Either one of the operators comes next, and can be taken, or what stands before it ends. -/
theorem IsTable.cases (htable : IsTable op? ops mark) (e : Expr) (c : Cursor) :
    Stops (ops.map mark) e c.rest ∨ ∃ op l c₁, op ∈ ops ∧ l.Is (mark op) ∧ c.Takes l c₁ := by
  cases hop : c.peek?.bind op? with
  | none =>
    refine .inl fun l hl s hs h => ?_
    obtain ⟨op, hmem, rfl⟩ := List.mem_map.1 hs
    have hpeek : c.peek? = some (.symbol (mark op)) := by rw [Cursor.peek?, hl, ← h]; rfl
    rw [hpeek, Option.bind_some, (htable _ op).2 ⟨hmem, rfl⟩] at hop
    cases hop
  | some op =>
    obtain ⟨t, hpeek, hop⟩ := Option.bind_eq_some_iff.1 hop
    obtain ⟨hmem, rfl⟩ := (htable t op).1 hop
    obtain ⟨l, c₁, hl, htakes⟩ := Cursor.exists_takes_of_peek? hpeek
    exact .inr ⟨op, l, c₁, hmem, hl, htakes⟩

end

theorem isTable_unaryOp? : IsTable unaryOp? [.not, .negate] UnaryOp.mark := by
  intro t op
  unfold unaryOp?
  split <;> cases op <;> simp_all [UnaryOp.mark]

/-- An operand begins with an operator, or with no operator at all. -/
theorem runs_unary :
    (unary inner).Runs c e c' ↔
      (∃ op l c₁, l.Is (UnaryOp.mark op) ∧ c.Takes l c₁ ∧ ∃ operand c₂,
        inner.operand.Runs c₁ operand c₂ ∧
        e = .unary (c₂.site c.start) op operand ∧ c' = c₂.numbered) ∨
      (Stops [.not, .minus] e c.rest ∧ (suffixed inner).Runs c e c') := by
  constructor
  · intro hrun
    obtain hstops | ⟨op, l, c₁, hmem, hl, htakes⟩ := isTable_unaryOp?.cases e c
    · simp only [Runs, unary, isTable_unaryOp?.of_stops hstops] at hrun
      exact .inr ⟨hstops, hrun⟩
    · simp only [Runs, unary, isTable_unaryOp?.of_takes hmem hl htakes, htakes.take?,
        Parsed.exists_bind_iff, Parsed.exists_pure_iff, Parsed.value_node, Parsed.next_node,
        exists_and_right] at hrun
      exact .inl ⟨op, l, c₁, hl, htakes, hrun⟩
  · rintro (⟨op, l, c₁, hl, htakes, hrun⟩ | ⟨hstops, hrun⟩)
    · have hmem : op ∈ [UnaryOp.not, .negate] := by cases op <;> decide
      simp only [Runs, unary, isTable_unaryOp?.of_takes hmem hl htakes, htakes.take?,
        Parsed.exists_bind_iff, Parsed.exists_pure_iff, Parsed.value_node, Parsed.next_node,
        exists_and_right]
      exact hrun
    · simp only [Runs, unary, isTable_unaryOp?.of_stops hstops]
      exact hrun

theorem Matches.reads_unary (hinner : inner.Matches g) :
    (unary inner).Reads (Unary g) (Stops suffixMarks) := by
  intro c e c'
  rw [runs_unary]
  constructor
  · rintro (⟨op, l, c₁, hl, htakes, operand, c₂, hrun, rfl, rfl⟩ | ⟨-, hrun⟩)
    · obtain ⟨w, hw, he, hstops⟩ := (hinner.operand _ _ _).1 hrun
      have hpasses : c.Passes ([l] ++ w) c₂ := htakes.1.append hw
      refine ⟨[l] ++ w, Cursor.passes_numbered.2 hpasses, ?_, hstops⟩
      rw [hpasses.site_eq (List.cons_ne_nil _ _), Cursor.nextId_numbered]
      exact .operator hl (htakes.2 ▸ he)
    · obtain ⟨w, hw, he, hstops⟩ := (hinner.reads_suffixed _ _ _).1 hrun
      exact ⟨w, hw, .suffixed he, hstops⟩
  · rintro ⟨words, hpasses, he, hstops⟩
    generalize hi : c.nextId = i at he
    generalize hm : c'.nextId = m at he
    cases he with
    | suffixed he =>
      -- The parser tests for an operator first, and an operand begins with none.
      obtain ⟨l, w, rfl, hl⟩ := he.exists_not_operator
      refine .inr ⟨?_, (hinner.reads_suffixed _ _ _).2 ⟨_, hpasses, hi ▸ hm ▸ he, hstops⟩⟩
      rw [hpasses.rest]
      rintro l' hl'
      cases hl'
      exact hl
    | @operator l w _ j op operand hop he =>
      obtain ⟨c₂, rfl, hj, hpasses⟩ := hpasses.exists_numbered hm
      obtain ⟨c₁, hi₁, htakes, hw⟩ := (Cursor.passes_cons i).1 hpasses
      refine .inl ⟨op, l, c₁, hop, ⟨htakes, hi₁.trans hi.symm⟩, operand, c₂, ?_, ?_, rfl⟩
      · exact (hinner.operand _ _ _).2 ⟨w, hw, hi₁ ▸ hj ▸ he, hstops⟩
      · rw [hpasses.site_eq (List.cons_ne_nil _ _), hj]

section

variable {ω : Type} {op? : Token → Option ω} {ops : List ω} {mark : ω → Symbol}
  {make : Site → ω → Expr → Expr → Expr} {operand : Parser Expr} {phrase : Phrase Expr}
  {marks : List Symbol}

/-- Operands go on with an operator of the table and another operand, or else they end. -/
theorem finishes_chainFrom (htable : IsTable op? ops mark) :
    Finishes (chainFrom op? make operand start e) c e' c' ↔
      (∃ op l c₁, op ∈ ops ∧ l.Is (mark op) ∧ c.Takes l c₁ ∧ ∃ right c₂, operand.Runs c₁ right c₂ ∧
        Finishes (chainFrom op? make operand start (make (c₂.site start) op e right))
          c₂.numbered e' c') ∨
      (Stops (ops.map mark) e c.rest ∧ e' = e ∧ c' = c) := by
  constructor
  · intro hrun
    rw [Finishes, chainFrom] at hrun
    obtain hstops | ⟨op, l, c₁, hmem, hl, htakes⟩ := htable.cases e c
    · simp only [htable.of_stops hstops] at hrun
      obtain ⟨h, hrun⟩ := hrun
      cases hrun
      exact .inr ⟨hstops, rfl, rfl⟩
    · simp only [htable.of_takes hmem hl htakes, htakes.take?, Parsed.exists_bind_iff,
        Completed.exists_bind_iff, Completed.exists_pure_iff] at hrun
      obtain ⟨right, c₂, h₂, hright, e₁, c₃, h₃, hrun, rfl, rfl⟩ := hrun
      exact .inl ⟨op, l, c₁, hmem, hl, htakes, right, c₂, ⟨h₂, hright⟩, ⟨h₃, hrun⟩⟩
  · rw [Finishes, chainFrom]
    rintro (⟨op, l, c₁, hmem, hl, htakes, right, c₂, ⟨h₂, hright⟩, h₃, hrun⟩ | ⟨hstops, rfl, rfl⟩)
    · simp only [htable.of_takes hmem hl htakes, htakes.take?, Parsed.exists_bind_iff,
        Completed.exists_bind_iff, Completed.exists_pure_iff]
      exact ⟨right, c₂, h₂, hright, e', c', h₃, hrun, rfl, rfl⟩
    · simp only [htable.of_stops hstops]
      exact ⟨Nat.le_refl _, trivial⟩

theorem runs_chain :
    (chain op? make operand).Runs c e c' ↔ ∃ e₀ c₁, operand.Runs c e₀ c₁ ∧
      Finishes (chainFrom op? make operand c.start e₀) c₁ e c' := by
  simp only [Runs, Finishes, chain, Parsed.exists_bind_iff, Completed.exists_bind_iff,
    Parsed.exists_pure_iff, exists_and_right]
  constructor
  · rintro ⟨e₀, c₁, hoperand, e₁, c₂, hchain, rfl, rfl⟩
    exact ⟨e₀, c₁, hoperand, hchain⟩
  · rintro ⟨e₀, c₁, hoperand, hchain⟩
    exact ⟨e₀, c₁, hoperand, e, c', hchain, rfl, rfl⟩

/-- What is read behind a chain makes a longer chain of it. -/
theorem exists_chain (htable : IsTable op? ops mark) (hoperand : operand.Reads phrase (Stops marks))
    {c₀ : Cursor} {w : List Lexeme} (hw : c₀.Passes w c)
    (he : Chain ops mark make phrase w c₀.nextId c.nextId e) (hstops : Stops marks e c.rest)
    (h : Finishes (chainFrom op? make operand c₀.start e) c e' c') :
    ∃ words, c₀.Passes words c' ∧ Chain ops mark make phrase words c₀.nextId c'.nextId e' ∧
      Stops (marks ++ ops.map mark) e' c'.rest := by
  -- Each operator that is taken leaves fewer words.
  induction hn : c.rest.length using Nat.strongRecOn generalizing c e w with
  | ind n ih =>
    subst hn
    obtain ⟨op, l, c₁, hmem, hl, htakes, right, c₂, hright, hrun⟩ | ⟨hstops', rfl, rfl⟩ :=
      (finishes_chainFrom htable).1 h
    · have hlt : c₂.rest.length < c.rest.length := Nat.lt_trans hright.length_lt htakes.length_lt
      obtain ⟨w', hw', hright, hstops'⟩ := (hoperand _ _ _).1 hright
      have hpasses : c₀.Passes (w ++ ([l] ++ w')) c₂ := hw.append (htakes.1.append hw')
      rw [hpasses.site_eq (by simp)] at hrun
      exact ih _ hlt (Cursor.passes_numbered.2 hpasses)
        (.operator he hmem hl (htakes.2 ▸ hright)) hstops' hrun rfl
    · exact ⟨w, hw, he, stops_append.2 ⟨hstops, hstops'⟩⟩

/-- A chain is read operand by operand: what completes it completes what it begins with. -/
theorem runs_chain_of_phrase (htable : IsTable op? ops mark)
    (hoperand : operand.Reads phrase (Stops marks)) (hmarks : ∀ op ∈ ops, mark op ∉ marks)
    {c₀ : Cursor} {w : List Lexeme} {i k : NodeId} (hw : c₀.Passes w c)
    (he : Chain ops mark make phrase w i k e) (hi : c₀.nextId = i) (hk : c.nextId = k)
    (hstops : Stops marks e c.rest)
    (h : Finishes (chainFrom op? make operand c₀.start e) c e' c') :
    (chain op? make operand).Runs c₀ e' c' := by
  induction he generalizing c with
  | operand he =>
    exact runs_chain.2 ⟨_, c, (hoperand _ _ _).2 ⟨_, hw, hi ▸ hk ▸ he, hstops⟩, h⟩
  | @operator l w w' i j k op e₁ e₂ _ hmem hop he₂ ih =>
    obtain ⟨c₂, rfl, hk₂, hw⟩ := hw.exists_numbered hk
    rw [← hk₂, ← hw.site_eq (by simp)] at h
    obtain ⟨c₁, hj, hw, htail⟩ := (Cursor.passes_append j).1 hw
    obtain ⟨c₃, hj₃, htakes, hw'⟩ := (Cursor.passes_cons j).1 htail
    have hright : operand.Runs c₃ e₂ c₂ :=
      (hoperand _ _ _).2 ⟨w', hw', hj₃ ▸ hk₂ ▸ he₂, hstops⟩
    -- The operator ends the operand before it, since it goes on with no tighter rank.
    refine ih hw hi hj (htakes.rest ▸ stops_cons hop (hmarks op hmem)) ?_
    exact (finishes_chainFrom htable).2
      (.inl ⟨op, l, c₃, hmem, hop, ⟨htakes, hj₃.trans hj.symm⟩, e₂, c₂, hright, h⟩)

/-- Operators of one rank are read when their operands are and their marks end an operand. -/
theorem reads_chain (htable : IsTable op? ops mark) (hoperand : operand.Reads phrase (Stops marks))
    (hmarks : ∀ op ∈ ops, mark op ∉ marks) :
    (chain op? make operand).Reads (Chain ops mark make phrase)
      (Stops (marks ++ ops.map mark)) := by
  intro c e c'
  constructor
  · intro h
    obtain ⟨e₀, c₁, hrun, hchain⟩ := runs_chain.1 h
    obtain ⟨w, hw, he, hstops⟩ := (hoperand _ _ _).1 hrun
    exact exists_chain htable hoperand hw (.operand he) hstops hchain
  · rintro ⟨words, hpasses, he, hstops⟩
    obtain ⟨hstops, hstops'⟩ := stops_append.1 hstops
    exact runs_chain_of_phrase htable hoperand hmarks hpasses he rfl rfl hstops
      ((finishes_chainFrom htable).2 (.inr ⟨hstops', rfl, rfl⟩))

end

theorem isTable_factorOp? : IsTable factorOp? [.multiply, .divide, .modulo] BinaryOp.mark := by
  intro t op
  unfold factorOp?
  split <;> cases op <;> simp_all [BinaryOp.mark]

theorem isTable_termOp? : IsTable termOp? [.add, .subtract] BinaryOp.mark := by
  intro t op
  unfold termOp?
  split <;> cases op <;> simp_all [BinaryOp.mark]

theorem isTable_comparisonOp? :
    IsTable comparisonOp? [.less, .lessEqual, .greater, .greaterEqual] BinaryOp.mark := by
  intro t op
  unfold comparisonOp?
  split <;> cases op <;> simp_all [BinaryOp.mark]

theorem isTable_equalityOp? : IsTable equalityOp? [.equal, .notEqual] BinaryOp.mark := by
  intro t op
  unfold equalityOp?
  split <;> cases op <;> simp_all [BinaryOp.mark]

theorem isTable_conjunctionOp? : IsTable conjunctionOp? [.and] LogicalOp.mark := by
  intro t op
  unfold conjunctionOp?
  split <;> cases op <;> simp_all [LogicalOp.mark]

theorem isTable_disjunctionOp? : IsTable disjunctionOp? [.or] LogicalOp.mark := by
  intro t op
  unfold disjunctionOp?
  split <;> cases op <;> simp_all [LogicalOp.mark]

/-- The ranks of operators, each on top of the next tighter one. -/
theorem Matches.reads_disjunction (hinner : inner.Matches g) :
    (disjunction inner).Reads (Disjunction g) (Stops operatorMarks) := by
  have hfactor : (factor inner).Reads (Factor g) _ :=
    reads_chain isTable_factorOp? hinner.reads_unary (by decide)
  have hterm : (term inner).Reads (Term g) _ := reads_chain isTable_termOp? hfactor (by decide)
  have hcomparison : (comparison inner).Reads (Comparison g) _ :=
    reads_chain isTable_comparisonOp? hterm (by decide)
  have hequality : (equality inner).Reads (Equality g) _ :=
    reads_chain isTable_equalityOp? hcomparison (by decide)
  have hconjunction : (conjunction inner).Reads (Conjunction g) _ :=
    reads_chain isTable_conjunctionOp? hequality (by decide)
  exact reads_chain isTable_disjunctionOp? hconjunction (by decide)

/-- An expression in front of an assignment mark has to be a name. -/
theorem runs_assignment :
    (assignment inner).Runs c e c' ↔
      ((disjunction inner).Runs c e c' ∧ c'.peek? ≠ some (.symbol .assign)) ∨
      ∃ target c₁, (disjunction inner).Runs c (.name target) c₁ ∧
        ∃ l c₂, l.Is .assign ∧ c₁.Takes l c₂ ∧ ∃ value c₃, inner.expression.Runs c₂ value c₃ ∧
          e = .assign (c₃.site c.start) target value ∧ c' = c₃.numbered := by
  constructor
  · intro hrun
    simp only [Runs, assignment, Parsed.exists_bind_iff] at hrun
    obtain ⟨e₁, c₁, h₁, he₁, hrun⟩ := hrun
    obtain ⟨hpeek, haccept⟩ | ⟨l, c₂, h₂, hl, htakes, haccept⟩ := accept?_cases .assign c₁
    · simp only [haccept, Parsed.exists_pure_iff] at hrun
      obtain ⟨rfl, rfl⟩ := hrun
      exact .inl ⟨⟨h₁, he₁⟩, hpeek⟩
    · simp only [haccept] at hrun
      cases e₁ with
      | name target =>
        simp only [Parsed.exists_bind_iff, Parsed.exists_pure_iff, Parsed.value_node,
          Parsed.next_node, exists_and_right] at hrun
        exact .inr ⟨target, c₁, ⟨h₁, he₁⟩, l, c₂, hl, htakes, hrun⟩
      -- Nothing but a name can be assigned to.
      | _ =>
        obtain ⟨h, hrun⟩ := hrun
        cases hrun
  · simp only [Runs, assignment, Parsed.exists_bind_iff]
    rintro (⟨⟨h, hrun⟩, hpeek⟩ | ⟨target, c₁, ⟨h₁, hrun⟩, l, c₂, hl, htakes, hvalue⟩)
    · refine ⟨e, c', h, hrun, ?_⟩
      simp only [accept?_of_peek? hpeek]
      exact ⟨h, rfl⟩
    · refine ⟨.name target, c₁, h₁, hrun, ?_⟩
      simp only [accept?_of_takes hl htakes, Parsed.exists_bind_iff, Parsed.exists_pure_iff,
        Parsed.value_node, Parsed.next_node, exists_and_right]
      exact hvalue

/-- Whole expressions are read up to a mark that goes on with none. -/
theorem Matches.reads_assignment (hinner : inner.Matches g) :
    (assignment inner).Reads (Assignment g) (Stops expressionMarks) := by
  intro c e c'
  rw [runs_assignment]
  constructor
  · rintro (⟨hrun, hpeek⟩ | ⟨target, c₁, hrun, l, c₂, hl, htakes, value, c₃, hvalue, rfl, rfl⟩)
    · obtain ⟨w, hw, he, hstops⟩ := (hinner.reads_disjunction _ _ _).1 hrun
      refine ⟨w, hw, .plain he, stops_append.2 ⟨hstops, ?_⟩⟩
      intro l hl s hs h
      rw [List.mem_singleton.1 hs] at h
      exact hpeek (by rw [Cursor.peek?, hl, ← h]; rfl)
    -- The value may hold further assignments: it is a whole expression, not a disjunction.
    · obtain ⟨w, hw, htarget, -⟩ := (hinner.reads_disjunction _ _ _).1 hrun
      obtain ⟨w', hw', hvalue, hstops⟩ := (hinner.expression _ _ _).1 hvalue
      have hpasses : c.Passes (w ++ ([l] ++ w')) c₃ := hw.append (htakes.1.append hw')
      refine ⟨_, Cursor.passes_numbered.2 hpasses, ?_, hstops⟩
      rw [hpasses.site_eq (by simp), Cursor.nextId_numbered]
      exact .assign htarget hl (htakes.2 ▸ hvalue)
  · rintro ⟨words, hpasses, he, hstops⟩
    generalize hi : c.nextId = i at he
    generalize hm : c'.nextId = m at he
    cases he with
    | plain he =>
      obtain ⟨hstops, hassign⟩ := stops_append.1 hstops
      exact .inl ⟨(hinner.reads_disjunction _ _ _).2 ⟨_, hpasses, hi ▸ hm ▸ he, hstops⟩,
        hassign.peek? (List.mem_singleton.2 rfl)⟩
    | @assign l w w' _ j k target value htarget hassign hvalue =>
      obtain ⟨c₃, rfl, hk, hpasses⟩ := hpasses.exists_numbered hm
      obtain ⟨c₁, hj, hw, htail⟩ := (Cursor.passes_append j).1 hpasses
      obtain ⟨c₂, hj₂, htakes, hw'⟩ := (Cursor.passes_cons j).1 htail
      refine .inr ⟨target, c₁, ?_, l, c₂, hassign, ⟨htakes, hj₂.trans hj.symm⟩, value, c₃, ?_, ?_,
        rfl⟩
      · exact (hinner.reads_disjunction _ _ _).2
          ⟨w, hw, hi ▸ hj ▸ htarget, htakes.rest ▸ stops_cons hassign (by decide)⟩
      · exact (hinner.expression _ _ _).2 ⟨w', hw', hj₂ ▸ hk ▸ hvalue, hstops⟩
      · rw [hpasses.site_eq (by simp), hk]

end Nesting

end LWorkbench
