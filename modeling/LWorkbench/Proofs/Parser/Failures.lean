import LWorkbench.Proofs.Parser.Lockstep

/-!
# Where parsing fails

All parsers of a program stay among the words they are given, and do the same with words that have
the same tokens in front. The one place where a parser looks further than it goes is the beginning
of a statement with an identifier, where a colon may follow. Both ways to go on begin by taking the
identifier, so that the colon makes no difference to what happens at the identifier itself.

Parsers that allow more nesting do the same as well, until nesting is refused.

## Main definitions

* `Nesting.StepsWith` — the parsers that count against the limit do the same with words alike
* `SameTarget` — expressions of which both are names, or neither is

## Main results

* `Nesting.within_stepsWith` — the parsers of a program do the same with words alike
* `Program.failure_in` — a failure of the whole parser tells the token where it was noticed
-/

namespace LWorkbench

variable {t t' : List Token}

/-- Both expressions can be assigned to, or neither can. -/
def SameTarget (e e' : Expr) : Prop :=
  (∃ n, e = .name n) ↔ ∃ n, e' = .name n

/-- Neither of two expressions that are no names can be assigned to. -/
theorem SameTarget.of_not_name {e e' : Expr} (h : ∀ n, e ≠ .name n) (h' : ∀ n, e' ≠ .name n) :
    SameTarget e e' :=
  iff_of_false (fun ⟨n, hn⟩ => h n hn) fun ⟨n, hn⟩ => h' n hn

namespace Parser

variable {α : Type} {same : α → α → Prop}

theorem StepsWith.anyhow {parser parser' : Parser α} (h : StepsWith t t' same parser parser') :
    StepsWith t t' Anyhow parser parser' := fun c =>
  ⟨(h c).within, fun p hp hshared c' =>
    let ⟨p', hp', hlike⟩ := (h c).read p hp hshared c'
    ⟨p', hp', trivial, hlike.2⟩, (h c).failed⟩

/-! ### Single tokens -/

/-- A parser that takes one token, or refuses it because something else is expected. -/
structure Single (parser : Parser α) (accepts : Token → Prop) (what : Expectation) : Prop where
  read : ∀ {c l c₁}, accepts l.token → c.Takes l c₁ →
    ∃ p, parser c = .ok p ∧ p.next.rest = c₁.rest
  refuse : ∀ {c}, (∀ token, c.peek? = some token → ¬ accepts token) →
    parser c = .error (c.expected what)

/-- A parser of one token does the same wherever this token comes next. -/
theorem Single.stepsWith {parser : Parser α} {accepts : Token → Prop} {what : Expectation}
    (h : parser.Single accepts what)
    (hsame : ∀ c c' p p', parser c = .ok p → parser c' = .ok p' → same p.value p'.value) :
    StepsWith t t' same parser parser := by
  intro c
  by_cases haccepts : ∃ token, c.peek? = some token ∧ accepts token
  -- The same token comes first everywhere, and behind it words alike are left as long as some are
  -- shared.
  · obtain ⟨token, hpeek, hl⟩ := haccepts
    obtain ⟨l, c₁, rfl, htakes⟩ := Cursor.exists_takes_of_peek? hpeek
    obtain ⟨p, hp, hrest⟩ := h.read hl htakes
    refine ⟨⟨fun q hq => ?_, fun f hf => by rw [hp] at hf; cases hf⟩, fun q hq hshared c' => ?_,
      fun f hf => by rw [hp] at hf; cases hf⟩
    · obtain rfl := Except.ok.inj (hp.symm.trans hq)
      exact ⟨[l], by rw [hrest, htakes.1.rest]⟩
    · obtain rfl := Except.ok.inj (hp.symm.trans hq)
      obtain ⟨l', c₁', hl', htakes', halike⟩ := c'.2.exists_takes htakes
      obtain ⟨p', hp', hrest'⟩ := h.read (hl' ▸ hl) htakes'
      rw [hrest] at hshared
      refine ⟨p', hp', hsame _ _ _ _ hp hp', ?_⟩
      rw [hrest, hrest']
      exact halike hshared
  · have hrefuse : ∀ token, c.peek? = some token → ¬ accepts token :=
      fun token hpeek hl => haccepts ⟨token, hpeek, hl⟩
    have hrefuse' : ∀ c' : {c' : Cursor // Alike t t' c.rest c'.rest},
        parser c'.1 = .error (c'.1.expected what) :=
      fun c' => h.refuse fun token hpeek => hrefuse token (c'.2.peek?.symm.trans hpeek)
    rw [h.refuse hrefuse, funext hrefuse']
    exact .expected (fun c' => c'.2) what

theorem single_expect (s : Symbol) (what : Expectation) :
    (expect s what).Single (· = .symbol s) what where
  read hl htakes := ⟨_, by rw [expect, accept?_of_takes hl htakes], rfl⟩
  refuse hpeek := by rw [expect, accept?_of_peek? fun h => hpeek _ h rfl]

theorem single_name (kind : ScopeKind) (what : Expectation) :
    (name kind what).Single (∃ x, · = .identifier x) what where
  read := by
    rintro c l c₁ ⟨x, hl⟩ htakes
    exact ⟨.node (⟨·, x, kind⟩) c₁ htakes.length_lt, by simp only [name, htakes.take?, hl], rfl⟩
  refuse hpeek := by
    unfold name
    split
    · rename_i htake
      exact absurd ⟨_, rfl⟩ (hpeek _ (Cursor.peek?_of_take? htake))
    · rfl

theorem single_propertyName : propertyName.Single (∃ x, · = .identifier x) .propertyName where
  read := by
    rintro c l c₁ ⟨x, hl⟩ htakes
    exact ⟨⟨x, c₁, htakes.length_lt⟩, by simp only [propertyName, htakes.take?, hl], rfl⟩
  refuse hpeek := by
    unfold propertyName
    split
    · rename_i htake
      exact absurd ⟨_, rfl⟩ (hpeek _ (Cursor.peek?_of_take? htake))
    · rfl

theorem single_propertyKey :
    propertyKey.Single (fun token => (∃ x, token = .identifier x) ∨ ∃ x, token = .string x)
      .propertyKey where
  read := by
    rintro c l c₁ (⟨x, hl⟩ | ⟨x, hl⟩) htakes
    · exact ⟨⟨x, c₁, htakes.length_lt⟩, by simp only [propertyKey, htakes.take?, hl], rfl⟩
    · exact ⟨⟨x, c₁, htakes.length_lt⟩, by simp only [propertyKey, htakes.take?, hl], rfl⟩
  refuse hpeek := by
    unfold propertyKey
    split
    · rename_i htake
      exact absurd (.inl ⟨_, rfl⟩) (hpeek _ (Cursor.peek?_of_take? htake))
    · rename_i htake
      exact absurd (.inr ⟨_, rfl⟩) (hpeek _ (Cursor.peek?_of_take? htake))
    · rfl

theorem expect_stepsWith (s : Symbol) (what : Expectation) :
    StepsWith t t' Anyhow (expect s what) (expect s what) :=
  (single_expect s what).stepsWith fun _ _ _ _ _ _ => trivial

theorem name_stepsWith (kind : ScopeKind) (what : Expectation) :
    StepsWith t t' Anyhow (name kind what) (name kind what) :=
  (single_name kind what).stepsWith fun _ _ _ _ _ _ => trivial

theorem propertyName_stepsWith : StepsWith t t' Anyhow propertyName propertyName :=
  single_propertyName.stepsWith fun _ _ _ _ _ _ => trivial

theorem propertyKey_stepsWith : StepsWith t t' Anyhow propertyKey propertyKey :=
  single_propertyKey.stepsWith fun _ _ _ _ _ _ => trivial

theorem suffix_of_accept? {c : Cursor} {s : Symbol} {p : Parsed Unit c}
    (h : accept? s c = some p) : p.next.rest <:+ c.rest := by
  obtain ⟨-, hnone⟩ | ⟨l, c₁, h₁, -, htakes, hsome⟩ := accept?_cases s c
  · rw [hnone] at h
    cases h
  · rw [hsome] at h
    cases h
    exact ⟨[l], htakes.1.rest.symm⟩

/-! ### Identifiers -/

/-- At an identifier the parser does not fail before it has taken it, unless nesting is refused. -/
def TakesName (parser : Parser α) : Prop :=
  ∀ c x f, c.peek? = some (.identifier x) → parser c = .error f → f.cause ≠ .nestedTooDeeply →
    f.rest.length < c.rest.length

theorem Single.takesName {parser : Parser α} {accepts : Token → Prop} {what : Expectation}
    (h : parser.Single accepts what) (haccepts : ∀ x, accepts (.identifier x)) :
    parser.TakesName := by
  intro c x f hpeek hf
  obtain ⟨l, c₁, hl, htakes⟩ := Cursor.exists_takes_of_peek? hpeek
  obtain ⟨p, hp, -⟩ := h.read (hl ▸ haccepts x) htakes
  rw [hp] at hf
  cases hf

/-- What goes on behind an identifier fails behind it. -/
theorem TakesName.bind {β : Type} {parser : Parser α}
    {k : (c : Cursor) → Parsed α c → Except Failure (Parsed β c)} (h : parser.TakesName)
    (hk : ∀ c p, Within p.next.rest Parsed.next (k c p)) :
    TakesName fun c => parser c >>= k c := by
  intro c x f hpeek hf hcause
  cases hp : parser c with
  | error g =>
    simp only [hp] at hf
    cases hf
    exact h c x f hpeek hp hcause
  | ok p =>
    simp only [hp, ok_bind] at hf
    exact Nat.lt_of_le_of_lt ((hk c p).failed f hf).rest.length_le p.progress

end Parser

namespace Nesting

open LWorkbench.Parser

variable {α ω : Type} {inner inner' : Nesting}

/-- At words alike the parsers of `inner'` that count against the limit do what those of `inner`
do. -/
structure StepsWith (t t' : List Token) (inner inner' : Nesting) : Prop where
  statement : inner.statement.StepsWith t t' Anyhow inner'.statement
  expression : inner.expression.StepsWith t t' SameTarget inner'.expression
  operand : inner.operand.StepsWith t t' SameTarget inner'.operand
  takesName : inner.expression.TakesName

/-! ### Lists -/

theorem elements_stepsWith {element element' : Parser α}
    (h : element.StepsWith t t' Anyhow element') (close : Symbol) (what : Expectation) :
    Parser.StepsWith t t' Anyhow (elements element close what) (elements element' close what) := by
  intro c
  -- Every element takes a token, so that the others are read from fewer of them.
  induction hlength : c.rest.length using Nat.strongRecOn generalizing c with
  | _ length ih =>
  rw [elements]
  simp only [fun c' : {c' : Cursor // Alike t t' c.rest c'.rest} =>
    elements.eq_def element' close what c'.1]
  refine .accept (fun c' => c'.2) close (fun c₁ h₁ cur₁ h₁' hclose hclose' => ?_)
    fun hclose hclose' => ?_
  · simp only [hclose, hclose']
    exact .ok List.suffix_rfl fun s => ⟨trivial, s.2⟩
  · simp only [hclose, hclose']
    refine (h c).bind fun ⟨first, c₁, h₁⟩ => ?_
    refine .accept (fun s => s.2.2) .comma (fun c₂ h₂ cur₂ h₂' hcomma hcomma' => ?_)
      fun hcomma hcomma' => ?_
    · simp only [hcomma, hcomma']
      dsimp only at h₂
      refine (InStep.along (ih _ (by omega) c₂ rfl) fun s => s.2).bind fun ⟨others, c₃, h₃⟩ => ?_
      exact .ok List.suffix_rfl fun s => ⟨trivial, s.2.2⟩
    · simp only [hcomma, hcomma']
      refine ((expect_stepsWith close what c₁).along fun s => s.2.2).bind fun ⟨_, c₂, h₂⟩ => ?_
      exact .ok List.suffix_rfl fun s => ⟨trivial, s.2.2⟩

theorem StepsWith.statements (h : inner.StepsWith t t' inner') :
    Parser.StepsWith t t' Anyhow (statements inner) (statements inner') := by
  intro c
  -- Every statement takes a token, as every element does.
  induction hlength : c.rest.length using Nat.strongRecOn generalizing c with
  | _ length ih =>
  rw [Nesting.statements]
  simp only [fun c' : {c' : Cursor // Alike t t' c.rest c'.rest} =>
    Nesting.statements.eq_def inner' c'.1]
  refine .accept (fun c' => c'.2) .rightBrace (fun c₁ h₁ cur₁ h₁' hclose hclose' => ?_)
    fun hclose hclose' => ?_
  · simp only [hclose, hclose']
    exact .ok List.suffix_rfl fun s => ⟨trivial, s.2⟩
  · simp only [hclose, hclose', fun c' : {c' : Cursor // Alike t t' c.rest c'.rest} => c'.2.isEmpty]
    split
    · exact .expected (fun c' => c'.2) .blockEnd
    · refine (h.statement c).bind fun ⟨first, c₁, h₁⟩ => ?_
      refine (InStep.along (ih _ (by omega) c₁ rfl) fun s => s.2.2).bind fun ⟨others, c₂, h₂⟩ => ?_
      exact .ok List.suffix_rfl fun s => ⟨trivial, s.2.2⟩

/-! ### Expressions -/

theorem single_literal (value : Literal) :
    (literal value).Single (fun _ => True) .expression where
  read {c l c₁} _ htakes :=
    ⟨.node (.literal · value) c₁ htakes.length_lt, by simp only [literal, htakes.take?], rfl⟩
  refuse hpeek := by
    unfold literal
    split
    · rename_i htake
      exact absurd trivial (hpeek _ (Cursor.peek?_of_take? htake))
    · rfl

theorem literal_stepsWith (value : Literal) :
    (literal value).StepsWith t t' SameTarget (literal value) := by
  refine (single_literal value).stepsWith fun c c' p p' hp hp' => ?_
  have hvalue {c p} (hp : literal value c = .ok p) (n : Name) : p.value ≠ .name n := by
    unfold literal at hp
    split at hp
    · cases hp
      exact Expr.noConfusion
    · cases hp
  exact .of_not_name (hvalue hp) (hvalue hp')

theorem StepsWith.array (h : inner.StepsWith t t' inner') :
    (array inner).StepsWith t t' SameTarget (array inner') := by
  intro c
  refine (expect_stepsWith .leftBracket .expression c).bind fun ⟨_, c₁, h₁⟩ => ?_
  refine ((elements_stepsWith h.expression.anyhow .rightBracket .arrayEnd c₁).along
    fun s => s.2.2).bind fun ⟨items, c₂, h₂⟩ => ?_
  exact .ok List.suffix_rfl fun s => ⟨.of_not_name nofun nofun, s.2.2⟩

theorem StepsWith.parenthesized (h : inner.StepsWith t t' inner') :
    (parenthesized inner).StepsWith t t' SameTarget (parenthesized inner') := by
  intro c
  refine (expect_stepsWith .leftParen .expression c).bind ?_
  rintro ⟨_, c₁, h₁⟩
  refine .accept (fun s => s.2.2) .rightParen (fun c₂ h₂ cur₂ h₂' hclose hclose' => ?_)
    fun hclose hclose' => ?_
  · simp only [hclose, hclose']
    exact .ok List.suffix_rfl fun s =>
      ⟨.of_not_name (by simp [Parsed.node]) (by simp [Parsed.node]), s.2⟩
  · simp only [hclose, hclose']
    refine ((h.expression c₁).along fun s => s.2.2).bind ?_
    rintro ⟨first, c₂, h₂⟩
    refine .accept (fun s => s.2.2) .comma (fun c₃ h₃ cur₃ h₃' hcomma hcomma' => ?_)
      fun hcomma hcomma' => ?_
    · simp only [hcomma, hcomma']
      refine ((elements_stepsWith h.expression.anyhow .rightParen .tupleEnd c₃).along
        fun s => s.2).bind ?_
      rintro ⟨others, c₄, h₄⟩
      exact .ok List.suffix_rfl fun s =>
        ⟨.of_not_name (by simp [Parsed.node]) (by simp [Parsed.node]), s.2.2⟩
    · simp only [hcomma, hcomma']
      refine ((expect_stepsWith .rightParen .groupEnd c₂).along fun s => s.2.2).bind ?_
      rintro ⟨_, c₃, h₃⟩
      exact .ok List.suffix_rfl fun s => ⟨s.1.1.2.1, s.2.2⟩

theorem StepsWith.property (h : inner.StepsWith t t' inner') :
    (property inner).StepsWith t t' Anyhow (property inner') := by
  intro c
  refine (propertyKey_stepsWith c).bind fun ⟨key, c₁, h₁⟩ => ?_
  refine ((expect_stepsWith .colon .propertyColon c₁).along fun s => s.2.2).bind
    fun ⟨_, c₂, h₂⟩ => ?_
  refine ((h.expression c₂).along fun s => s.2.2).bind fun ⟨value, c₃, h₃⟩ => ?_
  exact .ok List.suffix_rfl fun s => ⟨trivial, s.2.2⟩

theorem StepsWith.object (h : inner.StepsWith t t' inner') :
    (object inner).StepsWith t t' SameTarget (object inner') := by
  intro c
  refine (expect_stepsWith .leftBrace .expression c).bind fun ⟨_, c₁, h₁⟩ => ?_
  refine ((elements_stepsWith h.property .rightBrace .objectEnd c₁).along fun s => s.2.2).bind
    fun ⟨properties, c₂, h₂⟩ => ?_
  exact .ok List.suffix_rfl fun s => ⟨.of_not_name nofun nofun, s.2.2⟩

theorem StepsWith.function (h : inner.StepsWith t t' inner') :
    (function inner).StepsWith t t' SameTarget (function inner') := by
  intro c
  unfold Nesting.function
  refine .acceptWord (fun c' => c'.2) .functionWord (fun c₁ h₁ cur₁ h₁' hword hword' => ?_)
    fun hword hword' => ?_
  · simp only [hword, hword']
    refine ((expect_stepsWith .leftParen .parametersStart c₁).along fun s => s.2).bind
      fun ⟨_, c₂, h₂⟩ => ?_
    refine ((elements_stepsWith (name_stepsWith .variable .parameterName) .rightParen
      .parametersEnd c₂).along fun s => s.2.2).bind fun ⟨params, c₃, h₃⟩ => ?_
    refine ((expect_stepsWith .leftBrace .bodyStart c₃).along fun s => s.2.2).bind
      fun ⟨_, c₄, h₄⟩ => ?_
    refine ((h.statements c₄).along fun s => s.2.2).bind fun ⟨body, c₅, h₅⟩ => ?_
    exact .ok List.suffix_rfl fun s => ⟨.of_not_name nofun nofun, s.2.2⟩
  · simp only [hword, hword']
    exact .expected (fun c' => c'.2) .expression

theorem StepsWith.primary (h : inner.StepsWith t t' inner') :
    (primary inner).StepsWith t t' SameTarget (primary inner') := by
  intro c
  unfold Nesting.primary
  simp only [fun c' : {c' : Cursor // Alike t t' c.rest c'.rest} => c'.2.peek?]
  cases hpeek : c.peek? with
  | none => exact .expected (fun c' => c'.2) .expression
  | some token =>
    cases token with
    | number value => exact literal_stepsWith (.number value) c
    | string value => exact literal_stepsWith (.string value) c
    | boolean value => exact literal_stepsWith (.boolean value) c
    | identifier x =>
      refine (name_stepsWith .variable .expression c).map (fun p => rfl) fun s p p' hlike => ?_
      exact ⟨iff_of_true ⟨_, rfl⟩ ⟨_, rfl⟩, hlike.2⟩
    | keyword k =>
      cases k with
      | nullWord => exact literal_stepsWith .null c
      | undefinedWord => exact literal_stepsWith .undefined c
      | functionWord => exact h.function c
      | _ => exact .unexpected (fun c' => c'.2) hpeek
    | symbol s =>
      cases s with
      | leftBracket => exact h.array c
      | leftParen => exact h.parenthesized c
      | leftBrace => exact h.object c
      | _ => exact .unexpected (fun c' => c'.2) hpeek

theorem StepsWith.suffixes (h : inner.StepsWith t t' inner') {S : Type} {c : Cursor}
    {cur : S → Cursor} (hcur : ∀ s, Alike t t' c.rest (cur s).rest) (start : Nat)
    (start' : S → Nat) (e : Expr) {e' : S → Expr} (he : ∀ s, SameTarget e (e' s)) :
    InStep t t' c.rest Completed.next (fun _ => Completed.Like t t' SameTarget)
      (suffixes inner start e c) (fun s => suffixes inner' (start' s) (e' s) (cur s)) := by
  -- What follows a call, a property or an index is read from fewer tokens, with another operand.
  induction hlength : c.rest.length using Nat.strongRecOn generalizing S c e with
  | _ length ih =>
  rw [Nesting.suffixes]
  simp only [fun s => Nesting.suffixes.eq_def inner' (start' s) (e' s) (cur s)]
  refine .accept hcur .leftParen (fun c₁ h₁ cur₁ h₁' hparen hparen' => ?_) fun hparen hparen' => ?_
  · simp only [hparen, hparen']
    refine ((elements_stepsWith h.expression.anyhow .rightParen .argumentsEnd c₁).along
      fun s => s.2).bind ?_
    rintro ⟨args, c₂, h₂⟩
    refine (ih _ (by simp; omega) (c := c₂.numbered)
      (fun s => s.2.2) _ _ (fun s => .of_not_name (by simp) (by simp)) rfl).bind ?_
    rintro ⟨e, c₃, h₃⟩
    exact .ok List.suffix_rfl fun s => s.2
  · simp only [hparen, hparen']
    refine .accept hcur .dot (fun c₁ h₁ cur₁ h₁' hdot hdot' => ?_) fun hdot hdot' => ?_
    · simp only [hdot, hdot']
      refine ((propertyName_stepsWith c₁).along fun s => s.2).bind ?_
      rintro ⟨property, c₂, h₂⟩
      refine (ih _ (by simp; omega) (c := c₂.numbered)
        (fun s => s.2.2) _ _ (fun s => .of_not_name (by simp) (by simp)) rfl).bind ?_
      rintro ⟨e, c₃, h₃⟩
      exact .ok List.suffix_rfl fun s => s.2
    · simp only [hdot, hdot']
      refine .accept hcur .leftBracket (fun c₁ h₁ cur₁ h₁' hbracket hbracket' => ?_)
        fun hbracket hbracket' => ?_
      · simp only [hbracket, hbracket']
        refine ((h.expression c₁).along fun s => s.2).bind ?_
        rintro ⟨index, c₂, h₂⟩
        refine ((expect_stepsWith .rightBracket .indexEnd c₂).along fun s => s.2.2).bind ?_
        rintro ⟨_, c₃, h₃⟩
        refine (ih _ (by simp; omega) (c := c₃.numbered)
          (fun s => s.2.2) _ _ (fun s => .of_not_name (by simp) (by simp)) rfl).bind ?_
        rintro ⟨e, c₄, h₄⟩
        exact .ok List.suffix_rfl fun s => s.2
      · simp only [hbracket, hbracket']
        exact .ok List.suffix_rfl fun s => ⟨he s, hcur s⟩

/-- Parsers of expressions in step, the first of which takes identifiers. -/
structure Operands (t t' : List Token) (operand operand' : Parser Expr) : Prop where
  stepsWith : operand.StepsWith t t' SameTarget operand'
  takesName : operand.TakesName

theorem StepsWith.suffixed (h : inner.StepsWith t t' inner') :
    Operands t t' (suffixed inner) (suffixed inner') where
  stepsWith c := by
    refine (h.primary c).bind fun ⟨e, c₁, h₁⟩ => ?_
    refine (h.suffixes (fun s => s.2.2) c.start _ e fun s => s.2.1).bind fun ⟨e, c₂, h₂⟩ => ?_
    exact .ok List.suffix_rfl fun s => s.2
  takesName := by
    refine TakesName.bind (fun c x f hpeek hf _ => ?_) fun c ⟨e, c₁, h₁⟩ => ?_
    -- An identifier is a primary expression already, so that only what follows it can fail.
    · unfold Nesting.primary at hf
      simp only [hpeek] at hf
      obtain ⟨l, c₁, hl, htakes⟩ := Cursor.exists_takes_of_peek? hpeek
      obtain ⟨p, hp, -⟩ := (single_name .variable .expression).read ⟨x, hl⟩ htakes
      rw [hp] at hf
      cases hf
    · exact (h.suffixes (fun c' : {c' : Cursor // Alike t t' c₁.rest c'.rest} => c'.2) c.start
        (fun _ => c.start) e fun _ => .rfl).within.bind
        fun ⟨e, c₂, h₂⟩ => .ok List.suffix_rfl

theorem StepsWith.unary (h : inner.StepsWith t t' inner') :
    Operands t t' (unary inner) (unary inner') where
  stepsWith c := by
    unfold Nesting.unary
    simp only [fun c' : {c' : Cursor // Alike t t' c.rest c'.rest} => c'.2.peek?]
    cases hop : c.peek?.bind unaryOp? with
    | none => exact h.suffixed.stepsWith c
    | some op =>
      obtain ⟨token, hpeek, -⟩ := Option.bind_eq_some_iff.1 hop
      obtain ⟨l, c₁, -, htakes⟩ := Cursor.exists_takes_of_peek? hpeek
      obtain ⟨l', cur₁, -, htakes', halike⟩ :=
        InStep.exists_takes (fun c' : {c' : Cursor // Alike t t' c.rest c'.rest} => c'.2) htakes
      refine .of_shared ⟨[l], htakes.1.rest.symm⟩ halike ?_
      simp only [htakes.take?, fun s => (htakes' s).take?]
      refine ((h.operand c₁).along fun s => s.2).bind fun ⟨operand, c₂, h₂⟩ => ?_
      exact .ok List.suffix_rfl fun s => ⟨.of_not_name nofun nofun, s.2.2⟩
  takesName c x f hpeek hf := by
    -- An identifier is no operator, so that the operand begins with it.
    have hop : c.peek?.bind unaryOp? = none := by rw [hpeek]; rfl
    unfold Nesting.unary at hf
    simp only [hop] at hf
    exact h.suffixed.takesName c x f hpeek hf

/-- Operands in step are joined in step, when what joins them is no name. -/
theorem Operands.chainFrom (op? : Token → Option ω) {make : Site → ω → Expr → Expr → Expr}
    (hmake : ∀ site op left right n, make site op left right ≠ .name n)
    {operand operand' : Parser Expr} (h : Operands t t' operand operand') {S : Type} {c : Cursor}
    {cur : S → Cursor} (hcur : ∀ s, Alike t t' c.rest (cur s).rest) (start : Nat)
    (start' : S → Nat) (left : Expr) {left' : S → Expr} (hleft : ∀ s, SameTarget left (left' s)) :
    InStep t t' c.rest Completed.next (fun _ => Completed.Like t t' SameTarget)
      (Nesting.chainFrom op? make operand start left c)
      (fun s => Nesting.chainFrom op? make operand' (start' s) (left' s) (cur s)) := by
  -- By induction on the number of words that are left: every operator takes one at least.
  induction hlength : c.rest.length using Nat.strongRecOn generalizing S c left with
  | _ length ih =>
  rw [Nesting.chainFrom]
  simp only [fun s => Nesting.chainFrom.eq_def op? make operand' (start' s) (left' s) (cur s),
    fun s => (hcur s).peek?]
  cases hop : c.peek?.bind op? with
  | none => exact .ok List.suffix_rfl fun s => ⟨hleft s, hcur s⟩
  | some op =>
    obtain ⟨token, hpeek, -⟩ := Option.bind_eq_some_iff.1 hop
    obtain ⟨l, c₁, -, htakes⟩ := Cursor.exists_takes_of_peek? hpeek
    obtain ⟨l', cur₁, -, htakes', halike⟩ := InStep.exists_takes hcur htakes
    have h₁ := htakes.length_lt
    refine .of_shared ⟨[l], htakes.1.rest.symm⟩ halike ?_
    simp only [htakes.take?, fun s => (htakes' s).take?]
    refine ((h.stepsWith c₁).along fun s => s.2).bind ?_
    rintro ⟨right, c₂, h₂⟩
    refine (ih _ (by simp; omega) (c := c₂.numbered)
      (fun s => s.2.2) _ _ (fun s => .of_not_name (hmake _ _ _ _) (hmake _ _ _ _)) rfl).bind ?_
    rintro ⟨e, c₃, h₃⟩
    exact .ok List.suffix_rfl fun s => s.2

theorem Operands.chain (op? : Token → Option ω) {make : Site → ω → Expr → Expr → Expr}
    (hmake : ∀ site op left right n, make site op left right ≠ .name n)
    {operand operand' : Parser Expr} (h : Operands t t' operand operand') :
    Operands t t' (chain op? make operand) (chain op? make operand') where
  stepsWith c := by
    refine (h.stepsWith c).bind fun ⟨left, c₁, h₁⟩ => ?_
    refine (h.chainFrom op? hmake (fun s => s.2.2) c.start _ left fun s => s.2.1).bind
      fun ⟨e, c₂, h₂⟩ => ?_
    exact .ok List.suffix_rfl fun s => s.2
  takesName := by
    refine h.takesName.bind fun c ⟨left, c₁, h₁⟩ => ?_
    exact (h.chainFrom op? hmake (fun c' : {c' : Cursor // Alike t t' c₁.rest c'.rest} => c'.2)
      c.start (fun _ => c.start) left fun _ => .rfl).within.bind
      fun ⟨e, c₂, h₂⟩ => .ok List.suffix_rfl

theorem StepsWith.disjunction (h : inner.StepsWith t t' inner') :
    Operands t t' (disjunction inner) (disjunction inner') :=
  .chain _ nofun <| .chain _ nofun <| .chain _ nofun <| .chain _ nofun <| .chain _ nofun <|
    .chain _ nofun h.unary

theorem StepsWith.assignment (h : inner.StepsWith t t' inner') :
    Operands t t' (assignment inner) (assignment inner') where
  stepsWith c := by
    refine (h.disjunction.stepsWith c).bind fun ⟨e, c₁, h₁⟩ => ?_
    by_cases htarget : ∃ n, e = .name n
    · obtain ⟨n, rfl⟩ := htarget
      refine .accept (fun s => s.2.2) .assign (fun c₂ h₂ cur₂ h₂' hassign hassign' => ?_)
        fun hassign hassign' => ?_
      -- What stands in front of the mark is a name for all of them.
      · choose n' hn' using
          fun s : {s // Alike t t' c₂.rest (cur₂ s).rest} => s.1.2.1.1 ⟨n, rfl⟩
        simp only [hassign, hassign', hn']
        refine ((h.expression c₂).along fun s => s.2).bind fun ⟨value, c₃, h₃⟩ => ?_
        exact .ok List.suffix_rfl fun s => ⟨.of_not_name nofun nofun, s.2.2⟩
      · simp only [hassign, hassign']
        exact .ok List.suffix_rfl fun s => s.2
    · refine .accept_cases (fun s => s.2.2) .assign
        (fun c₂ h₂ cur₂ h₂' hassign hassign' _ _ => ?_) fun hassign hassign' => ?_
      -- The mark has been taken, but the failure is noticed in front of it.
      · simp only [hassign, hassign']
        refine .congr (.error ⟨.invalidTarget, c₁.rest⟩)
          (fun s => .error ⟨.invalidTarget, s.1.2.next.rest⟩) ?_ (fun s => ?_)
          (.error ⟨List.suffix_rfl, nofun, nofun⟩ fun s => ⟨rfl, s.2.2⟩)
        · split
          · exact absurd ⟨_, rfl⟩ htarget
          · rfl
        · split
          · rename_i n heq
            exact absurd (s.2.1.2 ⟨n, heq⟩) htarget
          · rfl
      · simp only [hassign, hassign']
        exact .ok List.suffix_rfl fun s => s.2
  takesName := by
    refine h.disjunction.takesName.bind fun c ⟨e, c₁, h₁⟩ => ?_
    dsimp only
    split
    · exact .ok List.suffix_rfl
    · rename_i c₂ h₂ hassign
      split
      · refine ((h.expression c₂).within.bind fun ⟨value, c₃, h₃⟩ => ?_).mono
          (suffix_of_accept? hassign)
        exact .ok List.suffix_rfl
      · exact .error ⟨List.suffix_rfl, nofun, nofun⟩

/-! ### Statements -/

theorem unless?_stepsWith (mark : Symbol) {parser parser' : Parser α}
    (h : parser.StepsWith t t' Anyhow parser') :
    Parser.TailStepsWith t t' Anyhow (unless? mark parser) (unless? mark parser') := by
  intro c
  unfold unless?
  simp only [fun c' : {c' : Cursor // Alike t t' c.rest c'.rest} => c'.2.peek?]
  split
  · exact .ok List.suffix_rfl fun c' => ⟨trivial, c'.2⟩
  · refine (h c).bind fun ⟨a, c₁, h₁⟩ => ?_
    exact .ok List.suffix_rfl fun s => ⟨trivial, s.2.2⟩

theorem afterMark?_stepsWith (mark : Symbol) {parser parser' : Parser α}
    (h : parser.StepsWith t t' Anyhow parser') :
    Parser.TailStepsWith t t' Anyhow (afterMark? mark parser) (afterMark? mark parser') := by
  intro c
  unfold afterMark?
  refine .accept (fun c' => c'.2) mark (fun c₁ h₁ cur₁ h₁' hmark hmark' => ?_)
    fun hmark hmark' => ?_
  · simp only [hmark, hmark']
    refine ((h c₁).along fun s => s.2).bind fun ⟨a, c₂, h₂⟩ => ?_
    exact .ok List.suffix_rfl fun s => ⟨trivial, s.2.2⟩
  · simp only [hmark, hmark']
    exact .ok List.suffix_rfl fun c' => ⟨trivial, c'.2⟩

theorem afterWord?_stepsWith (word : Keyword) {parser parser' : Parser α}
    (h : parser.StepsWith t t' Anyhow parser') :
    Parser.TailStepsWith t t' Anyhow (afterWord? word parser) (afterWord? word parser') := by
  intro c
  unfold afterWord?
  refine .acceptWord (fun c' => c'.2) word (fun c₁ h₁ cur₁ h₁' hword hword' => ?_)
    fun hword hword' => ?_
  · simp only [hword, hword']
    refine ((h c₁).along fun s => s.2).bind fun ⟨a, c₂, h₂⟩ => ?_
    exact .ok List.suffix_rfl fun s => ⟨trivial, s.2.2⟩
  · simp only [hword, hword']
    exact .ok List.suffix_rfl fun c' => ⟨trivial, c'.2⟩

theorem jumpLabel?_stepsWith : Parser.TailStepsWith t t' Anyhow jumpLabel? jumpLabel? := by
  intro c
  unfold jumpLabel?
  simp only [fun c' : {c' : Cursor // Alike t t' c.rest c'.rest} => c'.2.peek?]
  split
  · refine (name_stepsWith .label .jumpEnd c).bind fun ⟨label, c₁, h₁⟩ => ?_
    exact .ok List.suffix_rfl fun s => ⟨trivial, s.2.2⟩
  · exact .ok List.suffix_rfl fun c' => ⟨trivial, c'.2⟩

theorem StepsWith.condition (h : inner.StepsWith t t' inner') (k : Keyword) :
    (condition inner k).StepsWith t t' Anyhow (condition inner' k) := by
  intro c
  refine (expect_stepsWith .leftParen (.conditionStart k) c).bind fun ⟨_, c₁, h₁⟩ => ?_
  refine ((h.expression c₁).along fun s => s.2.2).bind fun ⟨e, c₂, h₂⟩ => ?_
  refine ((expect_stepsWith .rightParen .conditionEnd c₂).along fun s => s.2.2).bind
    fun ⟨_, c₃, h₃⟩ => ?_
  exact .ok List.suffix_rfl fun s => ⟨trivial, s.2.2⟩

theorem jump_stepsWith (make : Site → Option Name → Stmt) :
    (jump make).StepsWith t t' Anyhow (jump make) := by
  intro c
  refine (jumpLabel?_stepsWith c).bind fun ⟨label, c₁, h₁⟩ => ?_
  refine ((expect_stepsWith .semicolon .jumpEnd c₁).along fun s => s.2.2).bind
    fun ⟨_, c₂, h₂⟩ => ?_
  exact .ok List.suffix_rfl fun s => ⟨trivial, s.2.2⟩

/-- A reserved word begins a statement for both parsers, or for neither. -/
theorem StepsWith.afterKeyword (h : inner.StepsWith t t' inner') (k : Keyword) :
    (afterKeyword inner k = none ∧ afterKeyword inner' k = none) ∨
      ∃ tail tail', afterKeyword inner k = some tail ∧ afterKeyword inner' k = some tail' ∧
        tail.StepsWith t t' Anyhow tail' := by
  cases k with
  | varWord =>
    refine .inr ⟨_, _, rfl, rfl, fun c => ?_⟩
    refine (name_stepsWith .variable .variableName c).bind fun ⟨name, c₁, h₁⟩ => ?_
    refine ((afterMark?_stepsWith .assign h.expression.anyhow c₁).along fun s => s.2.2).bind
      fun ⟨init, c₂, h₂⟩ => ?_
    refine ((expect_stepsWith .semicolon .declarationEnd c₂).along fun s => s.2.2).bind
      fun ⟨_, c₃, h₃⟩ => ?_
    exact .ok List.suffix_rfl fun s => ⟨trivial, s.2.2⟩
  | ifWord =>
    refine .inr ⟨_, _, rfl, rfl, fun c => ?_⟩
    refine (h.condition .ifWord c).bind fun ⟨condition, c₁, h₁⟩ => ?_
    refine ((h.statement c₁).along fun s => s.2.2).bind fun ⟨thenBranch, c₂, h₂⟩ => ?_
    refine ((afterWord?_stepsWith .elseWord h.statement c₂).along fun s => s.2.2).bind
      fun ⟨elseBranch, c₃, h₃⟩ => ?_
    exact .ok List.suffix_rfl fun s => ⟨trivial, s.2.2⟩
  | whileWord =>
    refine .inr ⟨_, _, rfl, rfl, fun c => ?_⟩
    refine (h.condition .whileWord c).bind fun ⟨condition, c₁, h₁⟩ => ?_
    refine ((h.statement c₁).along fun s => s.2.2).bind fun ⟨body, c₂, h₂⟩ => ?_
    exact .ok List.suffix_rfl fun s => ⟨trivial, s.2.2⟩
  | breakWord => exact .inr ⟨_, _, rfl, rfl, jump_stepsWith .breakTo⟩
  | continueWord => exact .inr ⟨_, _, rfl, rfl, jump_stepsWith .continueTo⟩
  | returnWord =>
    refine .inr ⟨_, _, rfl, rfl, fun c => ?_⟩
    refine (unless?_stepsWith .semicolon h.expression.anyhow c).bind fun ⟨value, c₁, h₁⟩ => ?_
    refine ((expect_stepsWith .semicolon .returnEnd c₁).along fun s => s.2.2).bind
      fun ⟨_, c₂, h₂⟩ => ?_
    exact .ok List.suffix_rfl fun s => ⟨trivial, s.2.2⟩
  | _ => exact .inl ⟨rfl, rfl⟩

theorem StepsWith.evaluation (h : inner.StepsWith t t' inner') :
    (evaluation inner).StepsWith t t' Anyhow (evaluation inner') := by
  intro c
  refine (h.expression c).bind fun ⟨e, c₁, h₁⟩ => ?_
  refine ((expect_stepsWith .semicolon .expressionEnd c₁).along fun s => s.2.2).bind
    fun ⟨_, c₂, h₂⟩ => ?_
  exact .ok List.suffix_rfl fun s => ⟨trivial, s.2.2⟩

theorem StepsWith.labeled (h : inner.StepsWith t t' inner') :
    (labeled inner).StepsWith t t' Anyhow (labeled inner') := by
  intro c
  refine (name_stepsWith .label .statement c).bind fun ⟨label, c₁, h₁⟩ => ?_
  refine ((expect_stepsWith .colon .statement c₁).along fun s => s.2.2).bind fun ⟨_, c₂, h₂⟩ => ?_
  refine ((h.statement c₂).along fun s => s.2.2).bind fun ⟨body, c₃, h₃⟩ => ?_
  exact .ok List.suffix_rfl fun s => ⟨trivial, s.2.2⟩

theorem StepsWith.block (h : inner.StepsWith t t' inner') :
    (block inner).StepsWith t t' Anyhow (block inner') := by
  intro c
  refine (expect_stepsWith .leftBrace .statement c).bind fun ⟨_, c₁, h₁⟩ => ?_
  refine ((h.statements c₁).along fun s => s.2.2).bind fun ⟨body, c₂, h₂⟩ => ?_
  exact .ok List.suffix_rfl fun s => ⟨trivial, s.2.2⟩

theorem StepsWith.keywordStatement (h : inner.StepsWith t t' inner') (k : Keyword) :
    (keywordStatement inner k).StepsWith t t' Anyhow (keywordStatement inner' k) := by
  intro c
  obtain ⟨hnone, hnone'⟩ | ⟨tail, tail', hsome, hsome', htail⟩ := h.afterKeyword k
  -- A word that begins no statement may still begin an expression.
  · unfold Nesting.keywordStatement
    simp only [hnone, hnone']
    exact h.evaluation c
  · unfold Nesting.keywordStatement
    refine .acceptWord (fun c' => c'.2) k (fun c₁ h₁ cur₁ h₁' hword hword' => ?_)
      fun hword hword' => ?_
    · simp only [hsome, hsome', hword, hword']
      refine ((htail c₁).along fun s => s.2).bind fun ⟨make, c₂, h₂⟩ => ?_
      exact .ok List.suffix_rfl fun s => ⟨trivial, s.2.2⟩
    · simp only [hsome, hsome', hword, hword']
      exact h.evaluation c

/-- At an identifier a statement fails behind it, whether it is taken for a label or not. -/
theorem StepsWith.named_takesName (h : inner.StepsWith t t' inner') :
    (Nesting.labeled inner).TakesName ∧ (Nesting.evaluation inner).TakesName := by
  constructor
  · refine ((single_name .label .statement).takesName fun x => ⟨x, rfl⟩).bind
      fun c ⟨label, c₁, h₁⟩ => ?_
    have hcolon : Parser.StepsWith t t' Anyhow _ _ := expect_stepsWith .colon .statement
    refine (hcolon c₁).within.bind fun ⟨_, c₂, h₂⟩ => ?_
    exact (h.statement c₂).within.bind fun ⟨body, c₃, h₃⟩ => .ok List.suffix_rfl
  · refine h.takesName.bind fun c ⟨e, c₁, h₁⟩ => ?_
    have hsemicolon : Parser.StepsWith t t' Anyhow _ _ :=
      expect_stepsWith .semicolon .expressionEnd
    exact (hsemicolon c₁).within.bind fun ⟨_, c₂, h₂⟩ => .ok List.suffix_rfl

theorem StepsWith.statementBody (h : inner.StepsWith t t' inner') :
    (statementBody inner).StepsWith t t' Anyhow (statementBody inner') := by
  intro c
  unfold Nesting.statementBody
  simp only [fun c' : {c' : Cursor // Alike t t' c.rest c'.rest} => c'.2.peek?]
  cases hpeek : c.peek? with
  | none => exact .expected (fun c' => c'.2) .statement
  | some token =>
    cases token with
    | keyword k => exact h.keywordStatement k c
    | symbol s =>
      cases s with
      | leftBrace => exact h.block c
      | _ => exact h.evaluation c
    | identifier x =>
      by_cases hsecond : ∀ c' : {c' : Cursor // Alike t t' c.rest c'.rest},
          c'.1.peekSecond? = c.peekSecond?
      · simp only [hsecond]
        split
        · exact h.labeled c
        · exact h.evaluation c
      -- The identifier is the last token that is shared, and what is read goes beyond it.
      · obtain ⟨c', hc'⟩ := not_forall.1 hsecond
        obtain ⟨hne, hlength⟩ := c'.2.peekSecond?.resolve_left hc'
        have hbeyond {words : List Lexeme} (hlt : words.length < c.rest.length) :
            ¬ Shared t t' words := by
          rintro (hsame | hlonger)
          · exact hne hsame
          · omega
        dsimp only
        split
        · exact .of_not_shared (h.labeled c).within (fun p _ => hbeyond p.progress)
            fun f hf hcause => hbeyond (h.named_takesName.1 c x f hpeek hf hcause)
        · exact .of_not_shared (h.evaluation c).within (fun p _ => hbeyond p.progress)
            fun f hf hcause => hbeyond (h.named_takesName.2 c x f hpeek hf hcause)
    | string | number | boolean => exact h.evaluation c

/-! ### Programs -/

/-- Where nesting is refused nothing is said about other parsers. -/
theorem refuse_stepsWith {same : α → α → Prop} (parser : Parser α) :
    (refuse : Parser α).StepsWith t t' same parser := fun _ =>
  ⟨.error ⟨List.suffix_rfl, nofun, nofun⟩, nofun,
    fun _ hf _ hcause => absurd (Except.error.inj hf ▸ rfl) hcause⟩

/-- The parsers of a program do the same with words alike, also when more nesting is allowed. -/
theorem within_stepsWith {depth depth' : Nat} (hdepth : depth ≤ depth') :
    (within depth).StepsWith t t' (within depth') := by
  -- The parsers at one depth are built from those one level deeper.
  induction depth generalizing depth' with
  | zero =>
    refine ⟨refuse_stepsWith _, refuse_stepsWith _, refuse_stepsWith _, ?_⟩
    exact fun c x f _ hf hcause => absurd (Except.error.inj hf ▸ rfl) hcause
  | succ depth ih =>
    obtain ⟨depth', rfl⟩ := Nat.exists_eq_add_of_le' (Nat.lt_of_lt_of_le depth.succ_pos hdepth)
    have hinner := ih (Nat.le_of_succ_le_succ hdepth)
    exact ⟨hinner.statementBody, hinner.assignment.stepsWith, hinner.unary.stepsWith,
      hinner.assignment.takesName⟩

end Nesting

namespace Program

/-- Statements are read to the end in step, when each of them is. -/
theorem statementsToEnd_inStep {statement statement' : Parser Stmt}
    (h : statement.StepsWith t t' Anyhow statement') (c : Cursor) :
    InStep t t' c.rest (fun _ => ⟨[], 0, 0⟩)
      (S := {c' : Cursor // Alike t t' c.rest c'.rest}) (fun _ => Anyhow)
      (statementsToEnd statement c) (fun c' => statementsToEnd statement' c'.1) := by
  induction hlength : c.rest.length using Nat.strongRecOn generalizing c with
  | _ length ih =>
  -- As inside of blocks, only that the end of the words takes the place of a brace.
  rw [statementsToEnd]
  simp only [fun c' : {c' : Cursor // Alike t t' c.rest c'.rest} =>
    statementsToEnd.eq_def statement' c'.1, fun c' : {c' : Cursor // Alike t t' c.rest c'.rest} =>
    c'.2.isEmpty]
  split
  · exact .ok (List.nil_suffix ..) fun _ => trivial
  · refine (h c).bind fun ⟨first, c₁, h₁⟩ => ?_
    have hothers := ih _ (by omega) c₁ rfl
    refine (hothers.along_const fun s => s.2.2).bind fun others => ?_
    exact .ok (List.nil_suffix ..) fun _ => trivial

/-- What is left when a program is not parsed is the last part of its tokens, and a token that the
failure tells is the first one that is left. -/
theorem failure_in {words : List Lexeme} {f : Failure} (h : parseTokens words = .error f) :
    f.In words := by
  have hwithin : Nesting.StepsWith [] [] _ _ := Nesting.within_stepsWith (Nat.le_refl nestingLimit)
  exact (statementsToEnd_inStep hwithin.statement _).within.failed f h

end Program

end LWorkbench
