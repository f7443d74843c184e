import LWorkbench.Proofs.Parser.Contracts

/-!
# All routines keep their contracts

Every routine is followed next to the parser of the same phrase. Where the parser goes on behind
something that it has read, the script has called a routine, or taken a token, and stands at the
same place. A loop is followed for one round: what it still has to give before the round is what it
has to give after it, together with what the round has read.

## Main results

* `Routine.fulfils_body` — the moves of a routine meet its contract
* `Loop.fulfils_body` — a round of a loop gives what the loop still has to give, or goes on behind
  the place where it began
-/

namespace LWorkbench.Descent

open Script

variable {words : List Lexeme} {since h : Head words} {r : Routine} {floor : Nat}

/-! ### What can be called -/

section

variable (hlimit : since.depth ≤ nestingLimit)

include hlimit

theorem follows_expression (hrung : 0 < r.rung) :
    (invoke .expression : Script r Expr).Follows since since.nesting.expression :=
  follows_invoke .expression hlimit hrung (fun _ => trivial) fun _ _ _ => id

theorem follows_statement (hrung : 0 < r.rung) :
    (invoke .statement : Script r Stmt).Follows since since.nesting.statement :=
  follows_invoke .statement hlimit hrung (fun _ => trivial) fun _ _ _ => id

theorem follows_statements (hrung : 1 < r.rung) :
    (invoke .statements : Script r (List Stmt)).Follows since since.nesting.statements :=
  follows_invoke .statements hlimit hrung (fun _ => trivial) fun _ _ _ => id

theorem follows_elements {close : Symbol} {what : Expectation} (hrung : 1 < r.rung) :
    (invoke (.elements close what) : Script r (List Expr)).Follows since
      (Nesting.elements since.nesting.expression close what) :=
  follows_invoke (.elements close what) hlimit hrung (fun _ => trivial) fun _ _ _ => id

theorem follows_operand {k : Rank} :
    (operand k : Script (.operators k) Expr).Follows since (k.operandParser since.nesting) := by
  cases k <;> exact follows_invoke _ hlimit (by decide) (fun _ => trivial) fun _ _ _ => id

end

namespace Routine

variable (hlimit : since.depth ≤ nestingLimit)

include hlimit

/-! ### Statements -/

theorem fulfils_declaration (hdepth : h.depth = since.depth)
    (hpeek : h.cursor.peek? = some (.keyword .varWord)) :
    (declaration h.cursor.start).Fulfils since floor
      (Gives (since.nesting.keywordStatement .varWord h.cursor) Parsing) h := by
  simp only [Nesting.keywordStatement, Nesting.afterKeyword, Head.acceptWord?_eq hpeek,
    declaration, bind_assoc, pure_bind]
  refine fulfils_take hpeek ?_
  refine follows_name (h.perform .take) hdepth fun name h₁ _ hdepth₁ => ?_
  refine finishes_afterMark? (follows_expression hlimit (by decide)) h₁ hdepth₁
    fun init h₂ _ hdepth₂ => ?_
  refine follows_expect h₂ hdepth₂ fun _ h₃ _ hdepth₃ => ?_
  exact fulfils_last hdepth₃ ⟨rfl, rfl⟩

theorem fulfils_branch (hdepth : h.depth = since.depth)
    (hpeek : h.cursor.peek? = some (.keyword .ifWord)) :
    (branch h.cursor.start).Fulfils since floor
      (Gives (since.nesting.keywordStatement .ifWord h.cursor) Parsing) h := by
  simp only [Nesting.keywordStatement, Nesting.afterKeyword, Head.acceptWord?_eq hpeek,
    branch, bind_assoc, pure_bind]
  refine fulfils_take hpeek ?_
  refine follows_condition (follows_expression hlimit (by decide)) (h.perform .take) hdepth
    fun condition h₁ _ hdepth₁ => ?_
  refine follows_statement hlimit (by decide) h₁ hdepth₁ fun thenBranch h₂ _ hdepth₂ => ?_
  refine finishes_afterWord? (follows_statement hlimit (by decide)) h₂ hdepth₂
    fun elseBranch h₃ _ hdepth₃ => ?_
  exact fulfils_last hdepth₃ ⟨rfl, rfl⟩

theorem fulfils_whileLoop (hdepth : h.depth = since.depth)
    (hpeek : h.cursor.peek? = some (.keyword .whileWord)) :
    (whileLoop h.cursor.start).Fulfils since floor
      (Gives (since.nesting.keywordStatement .whileWord h.cursor) Parsing) h := by
  simp only [Nesting.keywordStatement, Nesting.afterKeyword, Head.acceptWord?_eq hpeek,
    whileLoop, bind_assoc, pure_bind]
  refine fulfils_take hpeek ?_
  refine follows_condition (follows_expression hlimit (by decide)) (h.perform .take) hdepth
    fun condition h₁ _ hdepth₁ => ?_
  refine follows_statement hlimit (by decide) h₁ hdepth₁ fun body h₂ _ hdepth₂ => ?_
  exact fulfils_last hdepth₂ ⟨rfl, rfl⟩

omit hlimit in
theorem fulfils_jump {k : Keyword} {make : Site → Option Name → Stmt}
    (hdepth : h.depth = since.depth) (hpeek : h.cursor.peek? = some (.keyword k))
    (hjump : since.nesting.afterKeyword k = some (Nesting.jump make)) :
    (jump h.cursor.start make).Fulfils since floor
      (Gives (since.nesting.keywordStatement k h.cursor) Parsing) h := by
  simp only [Nesting.keywordStatement, hjump, Head.acceptWord?_eq hpeek, Nesting.jump,
    jump, bind_assoc, pure_bind]
  refine fulfils_take hpeek ?_
  refine finishes_jumpLabel? (h.perform .take) hdepth fun label h₁ _ hdepth₁ => ?_
  refine follows_expect h₁ hdepth₁ fun _ h₂ _ hdepth₂ => ?_
  exact fulfils_last hdepth₂ ⟨rfl, rfl⟩

theorem fulfils_returning (hdepth : h.depth = since.depth)
    (hpeek : h.cursor.peek? = some (.keyword .returnWord)) :
    (returning h.cursor.start).Fulfils since floor
      (Gives (since.nesting.keywordStatement .returnWord h.cursor) Parsing) h := by
  simp only [Nesting.keywordStatement, Nesting.afterKeyword, Head.acceptWord?_eq hpeek,
    returning, bind_assoc, pure_bind]
  refine fulfils_take hpeek ?_
  refine finishes_unless? (follows_expression hlimit (by decide)) (h.perform .take) hdepth
    fun value h₁ _ hdepth₁ => ?_
  refine follows_expect h₁ hdepth₁ fun _ h₂ _ hdepth₂ => ?_
  exact fulfils_last hdepth₂ ⟨rfl, rfl⟩

theorem fulfils_block (hdepth : h.depth = since.depth)
    (hpeek : h.cursor.peek? = some (.symbol .leftBrace)) :
    (block h.cursor.start).Fulfils since floor
      (Gives (since.nesting.block h.cursor) Parsing) h := by
  simp only [Nesting.block, Parser.expect, Head.accept?_eq hpeek, block]
  refine fulfils_take hpeek ?_
  refine follows_statements hlimit (by decide) (h.perform .take) hdepth fun body h₁ _ hdepth₁ => ?_
  exact fulfils_last hdepth₁ ⟨rfl, rfl⟩

theorem fulfils_evaluation (hdepth : h.depth = since.depth) :
    (evaluation h.cursor.start).Fulfils since floor
      (Gives (since.nesting.evaluation h.cursor) Parsing) h := by
  simp only [Nesting.evaluation, evaluation]
  refine follows_expression hlimit (by decide) h hdepth fun e h₁ _ hdepth₁ => ?_
  refine follows_expect h₁ hdepth₁ fun _ h₂ _ hdepth₂ => ?_
  exact fulfils_last hdepth₂ ⟨rfl, rfl⟩

theorem fulfils_labeled {x : String} (hdepth : h.depth = since.depth)
    (hpeek : h.cursor.peek? = some (.identifier x))
    (hcolon : h.cursor.peekSecond? = some (.symbol .colon)) :
    (labeled h.cursor.start).Fulfils since floor
      (Gives (since.nesting.labeled h.cursor) Parsing) h := by
  -- The colon has been seen before the name was taken, so it is still there.
  have hpeek₁ : ((h.perform .take).perform .number).cursor.peek? = some (.symbol .colon) :=
    h.peek?_take.trans hcolon
  simp only [Nesting.labeled, labeled, Head.name_eq hpeek]
  refine fulfils_name hpeek (fulfils_take hpeek₁ ?_)
  simp only [ok_bind, Parsed.node, ← Head.cursor_number, Parser.expect, Head.accept?_eq hpeek₁]
  refine follows_statement hlimit (by decide) (((h.perform .take).perform .number).perform .take)
    hdepth fun body h₂ _ hdepth₂ => ?_
  exact fulfils_last hdepth₂ ⟨rfl, rfl⟩

/-- A statement is what its first token tells, and for an identifier the one behind it. -/
theorem fulfils_dispatch (hdepth : h.depth = since.depth) :
    (dispatch h.cursor).Fulfils since floor
      (Gives (since.nesting.statementBody h.cursor) Parsing) h := by
  unfold dispatch Nesting.statementBody
  cases hpeek : h.cursor.peek? with
  | none => exact ⟨rfl, .of_eq hdepth⟩
  | some token =>
    cases token with
    | keyword k =>
      cases k with
      | varWord => exact fulfils_declaration hlimit hdepth hpeek
      | ifWord => exact fulfils_branch hlimit hdepth hpeek
      | whileWord => exact fulfils_whileLoop hlimit hdepth hpeek
      | breakWord => exact fulfils_jump hdepth hpeek rfl
      | continueWord => exact fulfils_jump hdepth hpeek rfl
      | returnWord => exact fulfils_returning hlimit hdepth hpeek
      | elseWord | functionWord | nullWord | undefinedWord =>
        exact fulfils_evaluation hlimit hdepth
    | symbol s =>
      cases s with
      | leftBrace => exact fulfils_block hlimit hdepth hpeek
      | _ => exact fulfils_evaluation hlimit hdepth
    | identifier x =>
      by_cases hcolon : h.cursor.peekSecond? = some (.symbol .colon)
      · simp only [if_pos hcolon]
        exact fulfils_labeled hlimit hdepth hpeek hcolon
      · simp only [if_neg hcolon]
        exact fulfils_evaluation hlimit hdepth
    | boolean | string | number => exact fulfils_evaluation hlimit hdepth

/-! ### Expressions -/

/-- Nothing is taken in front of an assignment unless it has a name for its target. -/
theorem fulfils_assigning (hdepth : h.depth = since.depth) :
    (assigning h.cursor).Fulfils since floor
      (Gives (since.nesting.assignment h.cursor) Parsing) h := by
  simp only [assigning, Nesting.assignment]
  refine follows_invoke (operators .disjunction) hlimit (by decide) (fun _ => trivial)
    (fun _ _ _ => id) h hdepth fun e h₁ _ hdepth₁ => ?_
  refine fulfils_of_look ?_
  by_cases hpeek : h₁.cursor.peek? = some (.symbol .assign)
  · rw [if_pos hpeek]
    simp only [Head.accept?_eq hpeek]
    cases e with
    | name target =>
      refine fulfils_take hpeek ?_
      refine follows_expression hlimit (by decide) (h₁.perform .take) hdepth₁
        fun value h₂ _ hdepth₂ => ?_
      exact fulfils_last hdepth₂ ⟨rfl, rfl⟩
    | _ => exact ⟨rfl, .of_eq hdepth₁⟩
  · rw [if_neg hpeek]
    simp only [Parser.accept?_of_peek? hpeek]
    exact fulfils_pure hdepth₁ ⟨rfl, rfl⟩

/-- An operand has its operators in front, or it begins with what they are for. -/
theorem fulfils_operating (hdepth : h.depth = since.depth) :
    (operating h.cursor).Fulfils since floor
      (Gives (since.nesting.unary h.cursor) Parsing) h := by
  unfold operating Nesting.unary
  cases hop : h.cursor.peek?.bind Nesting.unaryOp? with
  | none =>
    refine Performs.fulfils ?_
    exact performs_invoke suffixed hdepth hlimit (by decide) trivial fun _ _ => id
  | some op =>
    obtain ⟨token, hpeek, -⟩ := Option.bind_eq_some_iff.1 hop
    simp only [Head.take?_eq hpeek]
    refine fulfils_take hpeek ?_
    refine follows_nested unary Nesting.operand hlimit (fun _ => trivial) (fun _ _ _ _ => id) rfl
      (h.perform .take) hdepth fun operand h₁ _ hdepth₁ => ?_
    exact fulfils_last hdepth₁ ⟨rfl, rfl⟩

omit hlimit in
theorem fulfils_literal {token : Token} {value : Literal} (hdepth : h.depth = since.depth)
    (hpeek : h.cursor.peek? = some token) :
    (literal h.cursor.start value).Fulfils since floor
      (Gives (Nesting.literal value h.cursor) Parsing) h := by
  simp only [literal, Nesting.literal, Head.take?_eq hpeek]
  exact fulfils_take hpeek (fulfils_last hdepth ⟨rfl, rfl⟩)

theorem fulfils_array (hdepth : h.depth = since.depth)
    (hpeek : h.cursor.peek? = some (.symbol .leftBracket)) :
    (array h.cursor.start).Fulfils since floor
      (Gives (since.nesting.array h.cursor) Parsing) h := by
  simp only [array, Nesting.array, Parser.expect, Head.accept?_eq hpeek]
  refine fulfils_take hpeek ?_
  refine follows_elements hlimit (by decide) (h.perform .take) hdepth fun items h₁ _ hdepth₁ => ?_
  exact fulfils_last hdepth₁ ⟨rfl, rfl⟩

/-- An expression that no operator takes apart is what its first token tells. -/
theorem fulfils_dispatchPrimary (hdepth : h.depth = since.depth) :
    (dispatchPrimary h.cursor).Fulfils since floor
      (Gives (since.nesting.primary h.cursor) Parsing) h := by
  unfold dispatchPrimary Nesting.primary
  cases hpeek : h.cursor.peek? with
  | none => exact ⟨rfl, .of_eq hdepth⟩
  | some token =>
    cases token with
    | number value => exact fulfils_literal hdepth hpeek
    | string value => exact fulfils_literal hdepth hpeek
    | boolean value => exact fulfils_literal hdepth hpeek
    | identifier x =>
      simp only [Head.name_eq hpeek]
      exact fulfils_name hpeek (fulfils_pure hdepth ⟨rfl, rfl⟩)
    | keyword k =>
      cases k with
      | nullWord => exact fulfils_literal hdepth hpeek
      | undefinedWord => exact fulfils_literal hdepth hpeek
      | functionWord =>
        refine Performs.fulfils ?_
        exact performs_invoke function hdepth hlimit (by decide) hpeek fun _ _ => id
      | _ => exact ⟨rfl, .of_eq hdepth⟩
    | symbol s =>
      cases s with
      | leftBracket => exact fulfils_array hlimit hdepth hpeek
      | leftParen =>
        refine Performs.fulfils ?_
        exact performs_invoke parenthesized hdepth hlimit (by decide) hpeek fun _ _ => id
      | leftBrace =>
        refine Performs.fulfils ?_
        exact performs_invoke object hdepth hlimit (by decide) hpeek fun _ _ => id
      | _ => exact ⟨rfl, .of_eq hdepth⟩

theorem fulfils_grouping (hdepth : h.depth = since.depth)
    (hpeek : h.cursor.peek? = some (.symbol .leftParen)) :
    (grouping h.cursor.start).Fulfils since floor
      (Gives (since.nesting.parenthesized h.cursor) Parsing) h := by
  simp only [grouping, Nesting.parenthesized, Parser.expect, Head.accept?_eq hpeek]
  refine fulfils_take hpeek (fulfils_eat (fun hclose => ?_) fun hclose => ?_)
  · simp only [ok_bind, Head.accept?_eq hclose]
    exact fulfils_last hdepth ⟨rfl, rfl⟩
  · simp only [ok_bind, Parser.accept?_of_peek? hclose]
    refine follows_expression hlimit (by decide) (h.perform .take) hdepth
      fun first h₁ _ hdepth₁ => ?_
    refine fulfils_eat (fun hcomma => ?_) fun hcomma => ?_
    · simp only [Head.accept?_eq hcomma]
      refine follows_elements hlimit (by decide) (h₁.perform .take) hdepth₁
        fun others h₂ _ hdepth₂ => ?_
      exact fulfils_last hdepth₂ ⟨rfl, rfl⟩
    · simp only [Parser.accept?_of_peek? hcomma]
      refine follows_expect h₁ hdepth₁ fun _ h₂ _ hdepth₂ => ?_
      exact fulfils_pure hdepth₂ ⟨rfl, rfl⟩

/-! ### Bodies -/

omit hlimit in
/-- The moves of a routine meet its contract, where it finds what it relies on. -/
theorem fulfils_body (q : Routine) (hlimit : h.depth ≤ nestingLimit) (hready : q.Ready h.cursor) :
    q.body.Fulfils h 0 (q.Means h.nesting h.cursor) h := by
  cases q with
  | program => exact ⟨Nat.zero_le _, rfl, fun result c hrest => hrest⟩
  | statement =>
    exact Performs.fulfils (follows_nested statementBody Nesting.statement hlimit
      (fun _ => trivial) (fun _ _ _ _ => id) rfl h rfl)
  | statementBody => exact fulfils_dispatch hlimit rfl
  | statements => exact ⟨Nat.zero_le _, rfl, fun result c hrest => hrest⟩
  | expression =>
    exact Performs.fulfils (follows_nested assignment Nesting.expression hlimit
      (fun _ => trivial) (fun _ _ _ _ => id) rfl h rfl)
  | assignment => exact fulfils_assigning hlimit rfl
  | operators k =>
    simp only [Means, Rank.parser_eq, Nesting.chain]
    refine follows_operand hlimit h rfl fun left h₁ _ hdepth₁ => ?_
    exact fulfils_again (Nat.zero_le _) hdepth₁ fun _ _ => id
  | unary => exact fulfils_operating hlimit rfl
  | suffixed =>
    simp only [Means, Nesting.suffixed]
    refine follows_invoke primary hlimit (by decide) (fun _ => trivial) (fun _ _ _ => id) h rfl
      fun e h₁ _ hdepth₁ => ?_
    exact fulfils_again (Nat.zero_le _) hdepth₁ fun _ _ => id
  | primary => exact fulfils_dispatchPrimary hlimit rfl
  | elements close what => exact ⟨Nat.zero_le _, rfl, fun result c hrest => hrest⟩
  | parenthesized => exact fulfils_grouping hlimit rfl hready
  | object =>
    simp only [Means, Nesting.object, Parser.expect, Head.accept?_eq hready]
    exact fulfils_take hready (fulfils_again (Nat.zero_le _) rfl fun _ _ => id)
  | function =>
    simp only [Means, function_eq _ (Head.acceptWord?_eq hready)]
    refine fulfils_take hready ?_
    refine follows_expect (h.perform .take) (Head.depth_take h) fun _ h₁ _ hdepth₁ => ?_
    exact fulfils_again (Nat.zero_le _) hdepth₁ fun _ _ => id

end Routine

namespace Loop

/-! ### Rounds -/

/-- An element is followed by a comma, behind which the list goes on, or by its closing mark. -/
theorem fulfils_item {α σ : Type} {element : Script r α} {parser : Parser α} {close : Symbol}
    {what : Expectation} {last : α → Script r r.Result} {more : α → Loop r}
    {k : Parsed (List α) h.cursor → Except Failure σ} {reads : σ → r.Result → Cursor → Prop}
    (hparser : element.Follows since parser) (hdepth : h.depth = since.depth)
    (hopen : h.cursor.peek? ≠ some (.symbol close))
    (hlast : ∀ a (h' : Head words) hless, h'.depth = since.depth →
      (last a).Fulfils since (h.pos + 1) (Gives (k ⟨[a], h'.cursor, hless⟩) reads) h')
    (hmore : ∀ a (h' : Head words) (hless : h'.cursor.rest.length < h.cursor.rest.length) result c,
      (more a).Rest since.nesting h'.cursor result c →
        Gives (Nesting.elements parser close what h'.cursor >>= fun p =>
          k ⟨a :: p.value, p.next, Nat.lt_trans p.progress hless⟩) reads result c) :
    (item element close what last more).Fulfils since (h.pos + 1)
      (Gives (Nesting.elements parser close what h.cursor >>= k) reads) h := by
  rw [Nesting.elements, Parser.accept?_of_peek? hopen]
  simp only [item, bind_assoc]
  refine hparser h hdepth fun a h₁ hless₁ hdepth₁ => ?_
  refine fulfils_eat (fun hpeek => ?_) fun hpeek => ?_
  · simp only [Head.accept?_eq hpeek, bind_assoc, pure_bind]
    have hless := Nat.lt_trans (Head.length_take_lt hpeek) hless₁
    exact ⟨Head.pos_lt hless, hdepth₁, hmore a (h₁.perform .take) hless⟩
  · simp only [Parser.accept?_of_peek? hpeek, bind_assoc, pure_bind]
    exact follows_expect h₁ hdepth₁ fun _ h₂ hless₂ hdepth₂ =>
      hlast a h₂ (Nat.lt_trans hless₂ hless₁) hdepth₂

variable (hlimit : since.depth ≤ nestingLimit)

include hlimit

theorem follows_property : property.Follows since since.nesting.property := by
  intro h hdepth σ floor k reads f hf
  simp only [property, Nesting.property, bind_assoc, pure_bind]
  refine follows_propertyKey h hdepth fun key h₁ _ hdepth₁ => ?_
  refine follows_expect h₁ hdepth₁ fun _ h₂ _ hdepth₂ => ?_
  refine follows_expression hlimit (by decide) h₂ hdepth₂ fun value h₃ _ hdepth₃ => ?_
  exact hf (key, value) h₃ _ hdepth₃

theorem fulfils_program {body : List Stmt} (hdepth : h.depth = since.depth) :
    (program body).body.Fulfils since (h.pos + 1)
      ((program body).Rest since.nesting h.cursor) h := by
  simp only [Rest]
  rw [Program.statementsToEnd]
  refine fulfils_of_look ?_
  split
  · exact fulfils_pure hdepth (List.append_nil _).symm
  · refine follows_statement hlimit (by decide) h hdepth fun s h₁ hless hdepth₁ => ?_
    refine fulfils_again (Head.pos_lt hless) hdepth₁ fun result c hrest =>
      hrest.imp fun others all c hall => ?_
    rw [hall, List.append_assoc]
    rfl

theorem fulfils_statements {body : List Stmt} (hdepth : h.depth = since.depth) :
    (statements body).body.Fulfils since (h.pos + 1)
      ((statements body).Rest since.nesting h.cursor) h := by
  simp only [Rest]
  rw [Nesting.statements]
  refine fulfils_eat (fun hpeek => ?_) fun hpeek => ?_
  · simp only [Head.accept?_eq hpeek]
    exact fulfils_pure hdepth ⟨(List.append_nil _).symm, rfl⟩
  · simp only [Parser.accept?_of_peek? hpeek]
    refine fulfils_of_look ?_
    split
    · exact ⟨rfl, .of_eq hdepth⟩
    · refine follows_statement hlimit (by decide) h hdepth fun s h₁ hless hdepth₁ => ?_
      refine fulfils_again (Head.pos_lt hless) hdepth₁ fun result c hrest =>
        hrest.imp fun p all c hall => ⟨?_, hall.2⟩
      rw [hall.1, List.append_assoc]
      rfl

theorem fulfils_operators {k : Rank} {start : Nat} {left : Expr} (hdepth : h.depth = since.depth) :
    (operators k start left).body.Fulfils since (h.pos + 1)
      ((operators k start left).Rest since.nesting h.cursor) h := by
  simp only [Rest]
  rw [Nesting.chainFrom]
  refine fulfils_of_look ?_
  cases hop : h.cursor.peek?.bind k.op? with
  | none => exact fulfils_pure hdepth ⟨rfl, rfl⟩
  | some op =>
    obtain ⟨token, hpeek, -⟩ := Option.bind_eq_some_iff.1 hop
    simp only [Head.take?_eq hpeek]
    refine fulfils_take hpeek ?_
    refine follows_operand hlimit (h.perform .take) hdepth fun right h₁ hless₁ hdepth₁ => ?_
    have hless := Nat.lt_trans hless₁ (Head.length_take_lt hpeek)
    exact fulfils_node (fulfils_again (Head.pos_lt hless) hdepth₁ fun _ _ => id)

theorem fulfils_suffixes {start : Nat} {e : Expr} (hdepth : h.depth = since.depth) :
    (suffixes start e).body.Fulfils since (h.pos + 1)
      ((suffixes start e).Rest since.nesting h.cursor) h := by
  simp only [Rest]
  rw [Nesting.suffixes]
  -- Each of the three goes on with the loop further behind, because a token was taken.
  refine fulfils_eat (fun hparen => ?_) fun hparen => ?_
  · simp only [Head.accept?_eq hparen]
    refine follows_elements hlimit (by decide) (h.perform .take) hdepth
      fun args h₁ hless₁ hdepth₁ => ?_
    have hless := Nat.lt_trans hless₁ (Head.length_take_lt hparen)
    exact fulfils_node (fulfils_again (Head.pos_lt hless) hdepth₁ fun _ _ => id)
  simp only [Parser.accept?_of_peek? hparen]
  refine fulfils_eat (fun hdot => ?_) fun hdot => ?_
  · simp only [Head.accept?_eq hdot]
    refine follows_propertyName (h.perform .take) hdepth fun property h₁ hless₁ hdepth₁ => ?_
    have hless := Nat.lt_trans hless₁ (Head.length_take_lt hdot)
    exact fulfils_node (fulfils_again (Head.pos_lt hless) hdepth₁ fun _ _ => id)
  simp only [Parser.accept?_of_peek? hdot]
  refine fulfils_eat (fun hbracket => ?_) fun hbracket => ?_
  · simp only [Head.accept?_eq hbracket]
    refine follows_expression hlimit (by decide) (h.perform .take) hdepth
      fun index h₁ hless₁ hdepth₁ => ?_
    refine follows_expect h₁ hdepth₁ fun _ h₂ hless₂ hdepth₂ => ?_
    have hless := Nat.lt_trans hless₂ (Nat.lt_trans hless₁ (Head.length_take_lt hbracket))
    exact fulfils_node (fulfils_again (Head.pos_lt hless) hdepth₂ fun _ _ => id)
  · simp only [Parser.accept?_of_peek? hbracket]
    exact fulfils_pure hdepth ⟨rfl, rfl⟩

theorem fulfils_elements {close : Symbol} {what : Expectation} {items : List Expr}
    (hdepth : h.depth = since.depth) :
    (elements close what items).body.Fulfils since (h.pos + 1)
      ((elements close what items).Rest since.nesting h.cursor) h := by
  simp only [Rest]
  refine fulfils_eat (fun hclose => ?_) fun hclose => ?_
  · rw [Nesting.elements, Head.accept?_eq hclose]
    exact fulfils_pure hdepth ⟨(List.append_nil _).symm, rfl⟩
  · rw [← bind_pure (Nesting.elements _ _ _ _)]
    refine fulfils_item (follows_expression hlimit Nat.zero_lt_one) hdepth hclose
      (fun e h₁ _ hdepth₁ => fulfils_pure hdepth₁ ⟨rfl, rfl⟩) fun e h₁ _ result c hrest => ?_
    refine Gives.map (hrest.imp fun p all c hall => ⟨?_, hall.2⟩)
    rw [hall.1, List.append_assoc]
    rfl

theorem fulfils_properties {start : Nat} {pairs : List (String × Expr)}
    (hdepth : h.depth = since.depth) :
    (properties start pairs).body.Fulfils since (h.pos + 1)
      ((properties start pairs).Rest since.nesting h.cursor) h := by
  simp only [Rest]
  refine fulfils_eat (fun hclose => ?_) fun hclose => ?_
  · rw [Nesting.elements, Head.accept?_eq hclose]
    exact fulfils_last hdepth ⟨by rw [List.append_nil], rfl⟩
  · rw [← bind_pure (Nesting.elements _ _ _ _)]
    refine fulfils_item (follows_property hlimit) hdepth hclose
      (fun e h₁ _ hdepth₁ => fulfils_last hdepth₁ ⟨rfl, rfl⟩) fun e h₁ _ result c hrest => ?_
    refine Gives.map (hrest.imp fun p all c hall => ⟨?_, hall.2⟩)
    rw [hall.1, List.append_assoc]
    rfl

/-- Behind the last parameter comes the body. -/
theorem fulfils_functionBody {start : Nat} {names params : List Name} {c : Cursor}
    (hless : h.cursor.rest.length < c.rest.length) (hdepth : h.depth = since.depth) :
    (functionBody start (names ++ params)).Fulfils since floor
      (Gives (do
        let brace ← Parser.expect .leftBrace .bodyStart h.cursor
        let body ← since.nesting.statements brace.next
        return (⟨(params, body.value), body.next,
          Nat.lt_trans body.progress (Nat.lt_trans brace.progress hless)⟩ :
          Parsed (List Name × List Stmt) c)) (FunctionOf start names)) h := by
  refine follows_expect h hdepth fun _ h₁ _ hdepth₁ => ?_
  refine follows_statements hlimit (by decide) h₁ hdepth₁ fun body h₂ _ hdepth₂ => ?_
  exact fulfils_last hdepth₂ ⟨rfl, rfl⟩

theorem fulfils_params {start : Nat} {names : List Name} (hdepth : h.depth = since.depth) :
    (params start names).body.Fulfils since (h.pos + 1)
      ((params start names).Rest since.nesting h.cursor) h := by
  simp only [Rest, parametersAndBody]
  refine fulfils_eat (fun hclose => ?_) fun hclose => ?_
  · rw [Nesting.elements, Head.accept?_eq hclose]
    refine Eq.mp (congrArg (fun ns => (functionBody start ns).Fulfils _ _ _ _) names.append_nil) ?_
    exact fulfils_functionBody hlimit (Head.length_take_lt hclose) hdepth
  · refine fulfils_item follows_name hdepth hclose
      (fun name h₁ hless hdepth₁ => fulfils_functionBody hlimit hless hdepth₁)
      fun name h₁ hless result c hrest => ?_
    -- What is behind the comma is read as it would be behind the parenthesis.
    have hgives : Gives (parametersAndBody since.nesting h₁.cursor >>= fun p =>
        .ok (⟨(name :: p.value.1, p.value.2), p.next, Nat.lt_trans p.progress hless⟩ :
          Parsed (List Name × List Stmt) h.cursor)) (FunctionOf start names) result c := by
      refine Gives.map (hrest.imp fun p e c hp => ⟨?_, hp.2⟩)
      rw [hp.1, List.append_assoc]
      rfl
    simp only [parametersAndBody, bind_assoc, pure_bind] at hgives
    exact hgives

/-- A round of a loop gives what the loop still has to give, or begins another round further on. -/
theorem fulfils_body (l : Loop r) (hdepth : h.depth = since.depth) :
    l.body.Fulfils since (h.pos + 1) (l.Rest since.nesting h.cursor) h := by
  cases l with
  | program body => exact fulfils_program hlimit hdepth
  | statements body => exact fulfils_statements hlimit hdepth
  | operators k start left => exact fulfils_operators hlimit hdepth
  | suffixes start e => exact fulfils_suffixes hlimit hdepth
  | elements close what items => exact fulfils_elements hlimit hdepth
  | properties start pairs => exact fulfils_properties hlimit hdepth
  | params start names => exact fulfils_params hlimit hdepth

end Loop

end LWorkbench.Descent
