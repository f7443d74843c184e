import LWorkbench.Program
import LWorkbench.Token.Lexer

/-!
# Parsing

The parser reads a list of tokens from the left and decides by the next token, or the next two, what
to read. Operators bind, from loosest to tightest: `||`, `&&`, equality, order, sums, products; all
of them group to the left. An assignment groups to the right and its target is a name.

A cursor holds what is left of the tokens, where the last token taken ended, and the number for the
next node. What a parser reads is shorter than what it was given, which its result proves, so lists
of statements, arguments and operands end.

Statements, whole expressions and operands of unary operators nest at most `nestingLimit` deep.
The parsers of these three at one depth are built from the parsers one level deeper, and beyond
the limit they refuse, so the recursion follows the depth that is left.

## Main definitions

* `Cursor`, `Parsed`, `Parser` — the state of parsing, a result with what is left, and a parser
* `Failure` — a cause with the tokens that were left when it was noticed
* `Nesting` — the parsers that count against the limit; `Nesting.within` builds them by depth
* `Program.parse` — the program of a text
-/

namespace LWorkbench

/-- What is left of the tokens, where the last token taken ended, and the number for the
next node. -/
structure Cursor where
  rest : List Lexeme
  lastEnd : Nat
  nextId : NodeId

/-- Why parsing stopped, with the tokens that were left. -/
structure Failure where
  cause : ParseError.Cause
  rest : List Lexeme

/-- Something read at a cursor, with the cursor after it, which has fewer tokens left. -/
structure Parsed (α : Type) (c : Cursor) where
  value : α
  next : Cursor
  progress : next.rest.length < c.rest.length

/-- Something completed at a cursor, with the cursor after it, which may be the same. -/
structure Completed (α : Type) (c : Cursor) where
  value : α
  next : Cursor
  noLonger : next.rest.length ≤ c.rest.length

/-- A parser of an `α`. -/
abbrev Parser (α : Type) := (c : Cursor) → Except Failure (Parsed α c)

namespace Cursor

/-- The next token. -/
def peek? (c : Cursor) : Option Token :=
  c.rest.head?.map Lexeme.token

/-- The token after the next one. -/
def peekSecond? (c : Cursor) : Option Token :=
  c.rest.tail.head?.map Lexeme.token

/-- Where the next token starts. -/
def start (c : Cursor) : Nat :=
  (c.rest.head?.map (·.span.start)).getD c.lastEnd

/-- Takes the next token. -/
def take? (c : Cursor) : Option (Parsed Token c) :=
  match h : c.rest with
  | lexeme :: rest =>
    some ⟨lexeme.token, { c with rest, lastEnd := lexeme.span.stop }, by simp [h]⟩
  | [] => none

/-- The site of a node that starts at `start` and ends with the last token taken. -/
def site (c : Cursor) (start : Nat) : Site :=
  ⟨c.nextId, ⟨start, c.lastEnd⟩⟩

/-- The cursor after the next node has been numbered. -/
def numbered (c : Cursor) : Cursor :=
  { c with nextId := c.nextId + 1 }

@[simp] theorem rest_numbered (c : Cursor) : c.numbered.rest = c.rest := rfl

/-- The failure of having found the next token where something else was expected. -/
def expected (c : Cursor) (what : Expectation) : Failure :=
  ⟨.expected what c.peek?, c.rest⟩

end Cursor

namespace Parsed

variable {α β : Type} {c : Cursor}

/-- A node that starts at the first token of `c` and ends before `next`. -/
def node (make : Site → α) (next : Cursor) (h : next.rest.length < c.rest.length) : Parsed α c :=
  ⟨make (next.site c.start), next.numbered, h⟩

/-- Changes what was read. -/
def map (f : α → β) (p : Parsed α c) : Parsed β c :=
  ⟨f p.value, p.next, p.progress⟩

end Parsed

/-- A node that starts at `start` and ends before `next`. -/
def Completed.node {α : Type} {c : Cursor} (start : Nat) (make : Site → α) (next : Cursor)
    (h : next.rest.length ≤ c.rest.length) : Completed α c :=
  ⟨make (next.site start), next.numbered, h⟩

namespace Parser

/-! ### Single tokens -/

/-- Takes the next token if it is the given mark. -/
def accept? (s : Symbol) (c : Cursor) : Option (Parsed Unit c) :=
  if c.peek? = some (.symbol s) then c.take?.map (·.map fun _ => ()) else none

/-- Takes the next token if it is the given reserved word. -/
def acceptWord? (k : Keyword) (c : Cursor) : Option (Parsed Unit c) :=
  if c.peek? = some (.keyword k) then c.take?.map (·.map fun _ => ()) else none

/-- Takes the given mark, which has to come next. -/
def expect (s : Symbol) (what : Expectation) : Parser Unit := fun c =>
  match accept? s c with
  | some p => .ok p
  | none => .error (c.expected what)

/-- Takes an identifier, which has to come next, as a name. -/
def name (kind : ScopeKind) (what : Expectation) : Parser Name := fun c =>
  match c.take? with
  | some ⟨.identifier identifier, c₁, h₁⟩ =>
    .ok (.node (fun site => ⟨site, identifier, kind⟩) c₁ h₁)
  | _ => .error (c.expected what)

/-- Takes the name of a property, which has to come next. -/
def propertyName : Parser String := fun c =>
  match c.take? with
  | some ⟨.identifier identifier, c₁, h₁⟩ => .ok ⟨identifier, c₁, h₁⟩
  | _ => .error (c.expected .propertyName)

/-- Takes the key of a property, an identifier or a string, which has to come next. -/
def propertyKey : Parser String := fun c =>
  match c.take? with
  | some ⟨.identifier identifier, c₁, h₁⟩ => .ok ⟨identifier, c₁, h₁⟩
  | some ⟨.string key, c₁, h₁⟩ => .ok ⟨key, c₁, h₁⟩
  | _ => .error (c.expected .propertyKey)

end Parser

/-- The parsers that count against the nesting limit, at some depth. -/
structure Nesting where
  statement : Parser Stmt
  expression : Parser Expr
  operand : Parser Expr

namespace Nesting

open LWorkbench.Parser

/-! ### Lists -/

/-- Reads the elements of a list with commas between them up to the mark `close`; a comma may follow
the last one. -/
def elements {α : Type} (element : Parser α) (close : Symbol) (what : Expectation) (c : Cursor) :
    Except Failure (Parsed (List α) c) :=
  match accept? close c with
  | some ⟨_, c₁, h₁⟩ => .ok ⟨[], c₁, h₁⟩
  | none => do
    let ⟨first, c₁, h₁⟩ ← element c
    match accept? .comma c₁ with
    | some ⟨_, c₂, h₂⟩ =>
      let ⟨others, c₃, h₃⟩ ← elements element close what c₂
      return ⟨first :: others, c₃, by omega⟩
    | none =>
      let ⟨_, c₂, h₂⟩ ← expect close what c₁
      return ⟨[first], c₂, by omega⟩
termination_by c.rest.length

/-- Reads statements up to the closing brace. -/
def statements (inner : Nesting) (c : Cursor) : Except Failure (Parsed (List Stmt) c) :=
  match accept? .rightBrace c with
  | some ⟨_, c₁, h₁⟩ => .ok ⟨[], c₁, h₁⟩
  | none =>
    if c.rest.isEmpty then .error (c.expected .blockEnd)
    else do
      let ⟨first, c₁, h₁⟩ ← inner.statement c
      let ⟨others, c₂, h₂⟩ ← statements inner c₁
      return ⟨first :: others, c₂, by omega⟩
termination_by c.rest.length

/-! ### Expressions -/

/-- Reads a token that is a value by itself. -/
def literal (value : Literal) : Parser Expr := fun c =>
  match c.take? with
  | some ⟨_, c₁, h₁⟩ => .ok (.node (.literal · value) c₁ h₁)
  | none => .error (c.expected .expression)

/-- Reads a list in brackets. -/
def array (inner : Nesting) : Parser Expr := fun c => do
  let ⟨_, c₁, h₁⟩ ← expect .leftBracket .expression c
  let ⟨items, c₂, h₂⟩ ← elements inner.expression .rightBracket .arrayEnd c₁
  return .node (.array · items) c₂ (by omega)

/-- Reads what stands in parentheses: one expression without a comma is grouped and is no node of
its own, everything else is a tuple. -/
def parenthesized (inner : Nesting) : Parser Expr := fun c => do
  let ⟨_, c₁, h₁⟩ ← expect .leftParen .expression c
  match accept? .rightParen c₁ with
  | some ⟨_, c₂, h₂⟩ => return .node (.tuple · []) c₂ (by omega)
  | none =>
    let ⟨first, c₂, h₂⟩ ← inner.expression c₁
    match accept? .comma c₂ with
    | some ⟨_, c₃, h₃⟩ =>
      let ⟨others, c₄, h₄⟩ ← elements inner.expression .rightParen .tupleEnd c₃
      return .node (.tuple · (first :: others)) c₄ (by omega)
    | none =>
      let ⟨_, c₃, h₃⟩ ← expect .rightParen .groupEnd c₂
      return ⟨first, c₃, by omega⟩

/-- Reads a key, a colon and a value. -/
def property (inner : Nesting) : Parser (String × Expr) := fun c => do
  let ⟨key, c₁, h₁⟩ ← propertyKey c
  let ⟨_, c₂, h₂⟩ ← expect .colon .propertyColon c₁
  let ⟨value, c₃, h₃⟩ ← inner.expression c₂
  return ⟨(key, value), c₃, by omega⟩

/-- Reads an object. -/
def object (inner : Nesting) : Parser Expr := fun c => do
  let ⟨_, c₁, h₁⟩ ← expect .leftBrace .expression c
  let ⟨properties, c₂, h₂⟩ ← elements (property inner) .rightBrace .objectEnd c₁
  return .node (.object · properties) c₂ (by omega)

/-- Reads a function, from its parameters on. -/
def function (inner : Nesting) : Parser Expr := fun c => do
  match acceptWord? .functionWord c with
  | none => throw (c.expected .expression)
  | some ⟨_, c₁, h₁⟩ =>
    let ⟨_, c₂, h₂⟩ ← expect .leftParen .parametersStart c₁
    let ⟨params, c₃, h₃⟩ ← elements (name .variable .parameterName) .rightParen .parametersEnd c₂
    let ⟨_, c₄, h₄⟩ ← expect .leftBrace .bodyStart c₃
    let ⟨body, c₅, h₅⟩ ← statements inner c₄
    return .node (.function · params body) c₅ (by omega)

/-- Reads an expression that no operator takes apart. -/
def primary (inner : Nesting) : Parser Expr := fun c =>
  match c.peek? with
  | none => .error (c.expected .expression)
  | some token =>
    match token with
    | .number value => literal (.number value) c
    | .string value => literal (.string value) c
    | .boolean value => literal (.boolean value) c
    | .keyword .nullWord => literal .null c
    | .keyword .undefinedWord => literal .undefined c
    | .identifier _ => (name .variable .expression c).map (·.map .name)
    | .symbol .leftBracket => array inner c
    | .symbol .leftParen => parenthesized inner c
    | .symbol .leftBrace => object inner c
    | .keyword .functionWord => function inner c
    | found => .error ⟨.unexpectedToken found, c.rest⟩

/-- Reads the calls, properties and indices that follow an expression which began at `start`. -/
def suffixes (inner : Nesting) (start : Nat) (e : Expr) (c : Cursor) :
    Except Failure (Completed Expr c) :=
  match accept? .leftParen c with
  | some ⟨_, c₁, h₁⟩ => do
    let ⟨args, c₂, h₂⟩ ← elements inner.expression .rightParen .argumentsEnd c₁
    let call := Expr.call (c₂.site start) e args
    let ⟨e, c₃, h₃⟩ ← suffixes inner start call c₂.numbered
    return ⟨e, c₃, by simp at h₃; omega⟩
  | none =>
    match accept? .dot c with
    | some ⟨_, c₁, h₁⟩ => do
      let ⟨property, c₂, h₂⟩ ← propertyName c₁
      let member := Expr.member (c₂.site start) e property
      let ⟨e, c₃, h₃⟩ ← suffixes inner start member c₂.numbered
      return ⟨e, c₃, by simp at h₃; omega⟩
    | none =>
      match accept? .leftBracket c with
      | some ⟨_, c₁, h₁⟩ => do
        let ⟨index, c₂, h₂⟩ ← inner.expression c₁
        let ⟨_, c₃, h₃⟩ ← expect .rightBracket .indexEnd c₂
        let index := Expr.index (c₃.site start) e index
        let ⟨e, c₄, h₄⟩ ← suffixes inner start index c₃.numbered
        return ⟨e, c₄, by simp at h₄; omega⟩
      | none => .ok ⟨e, c, Nat.le_refl _⟩
termination_by c.rest.length
decreasing_by all_goals (simp; omega)

/-- Reads an expression with the calls, properties and indices that follow it. -/
def suffixed (inner : Nesting) : Parser Expr := fun c => do
  let ⟨e, c₁, h₁⟩ ← primary inner c
  let ⟨e, c₂, h₂⟩ ← suffixes inner c.start e c₁
  return ⟨e, c₂, by omega⟩

/-- The unary operator that a token stands for. -/
def unaryOp? : Token → Option UnaryOp
  | .symbol .not => some .not
  | .symbol .minus => some .negate
  | _ => none

/-- Reads an operand with the unary operators in front of it. -/
def unary (inner : Nesting) : Parser Expr := fun c => do
  match c.peek?.bind unaryOp?, c.take? with
  | some op, some ⟨_, c₁, h₁⟩ =>
    let ⟨operand, c₂, h₂⟩ ← inner.operand c₁
    return .node (.unary · op operand) c₂ (by omega)
  | _, _ => suffixed inner c

/-- Reads the operators of one rank with their right operands, after a left operand that began at
`start`. -/
def chainFrom {ω : Type} (op? : Token → Option ω) (make : Site → ω → Expr → Expr → Expr)
    (operand : Parser Expr) (start : Nat) (left : Expr) (c : Cursor) :
    Except Failure (Completed Expr c) :=
  match c.peek?.bind op?, c.take? with
  | some op, some ⟨_, c₁, h₁⟩ => do
    let ⟨right, c₂, h₂⟩ ← operand c₁
    let joined := make (c₂.site start) op left right
    let ⟨e, c₃, h₃⟩ ← chainFrom op? make operand start joined c₂.numbered
    return ⟨e, c₃, by simp at h₃; omega⟩
  | _, _ => .ok ⟨left, c, Nat.le_refl _⟩
termination_by c.rest.length
decreasing_by all_goals (simp; omega)

/-- Reads operands with operators of one rank between them, grouped to the left. -/
def chain {ω : Type} (op? : Token → Option ω) (make : Site → ω → Expr → Expr → Expr)
    (operand : Parser Expr) : Parser Expr := fun c => do
  let ⟨left, c₁, h₁⟩ ← operand c
  let ⟨e, c₂, h₂⟩ ← chainFrom op? make operand c.start left c₁
  return ⟨e, c₂, by omega⟩

/-- The operators of products. -/
def factorOp? : Token → Option BinaryOp
  | .symbol .star => some .multiply
  | .symbol .slash => some .divide
  | .symbol .percent => some .modulo
  | _ => none

/-- The operators of sums. -/
def termOp? : Token → Option BinaryOp
  | .symbol .plus => some .add
  | .symbol .minus => some .subtract
  | _ => none

/-- The operators of order. -/
def comparisonOp? : Token → Option BinaryOp
  | .symbol .less => some .less
  | .symbol .lessEqual => some .lessEqual
  | .symbol .greater => some .greater
  | .symbol .greaterEqual => some .greaterEqual
  | _ => none

/-- The operators of equality. -/
def equalityOp? : Token → Option BinaryOp
  | .symbol .equal => some .equal
  | .symbol .notEqual => some .notEqual
  | _ => none

/-- The operator of conjunctions. -/
def conjunctionOp? : Token → Option LogicalOp
  | .symbol .and => some .and
  | _ => none

/-- The operator of disjunctions. -/
def disjunctionOp? : Token → Option LogicalOp
  | .symbol .or => some .or
  | _ => none

/-- Reads a product. -/
def factor (inner : Nesting) : Parser Expr := chain factorOp? .binary (unary inner)

/-- Reads a sum. -/
def term (inner : Nesting) : Parser Expr := chain termOp? .binary (factor inner)

/-- Reads an order comparison. -/
def comparison (inner : Nesting) : Parser Expr := chain comparisonOp? .binary (term inner)

/-- Reads an equality comparison. -/
def equality (inner : Nesting) : Parser Expr := chain equalityOp? .binary (comparison inner)

/-- Reads a conjunction. -/
def conjunction (inner : Nesting) : Parser Expr := chain conjunctionOp? .logical (equality inner)

/-- Reads a disjunction. -/
def disjunction (inner : Nesting) : Parser Expr := chain disjunctionOp? .logical (conjunction inner)

/-- Reads an assignment, or an expression without one. -/
def assignment (inner : Nesting) : Parser Expr := fun c => do
  let ⟨e, c₁, h₁⟩ ← disjunction inner c
  match accept? .assign c₁ with
  | none => return ⟨e, c₁, h₁⟩
  | some ⟨_, c₂, h₂⟩ =>
    match e with
    | .name target =>
      let ⟨value, c₃, h₃⟩ ← inner.expression c₂
      return .node (.assign · target value) c₃ (by omega)
    | _ => throw ⟨.invalidTarget, c₁.rest⟩

/-! ### Statements -/

/-- Reads something if the next token is not the given mark. -/
def unless? {α : Type} (s : Symbol) (parser : Parser α) (c : Cursor) :
    Except Failure (Completed (Option α) c) :=
  if c.peek? = some (.symbol s) then .ok ⟨none, c, Nat.le_refl _⟩
  else do
    let ⟨a, c₁, h₁⟩ ← parser c
    return ⟨some a, c₁, Nat.le_of_lt h₁⟩

/-- Reads something if the given mark comes next, which is taken. -/
def afterMark? {α : Type} (s : Symbol) (parser : Parser α) (c : Cursor) :
    Except Failure (Completed (Option α) c) :=
  match accept? s c with
  | none => .ok ⟨none, c, Nat.le_refl _⟩
  | some ⟨_, c₁, h₁⟩ => do
    let ⟨a, c₂, h₂⟩ ← parser c₁
    return ⟨some a, c₂, by omega⟩

/-- Reads something if the given word comes next, which is taken. -/
def afterWord? {α : Type} (k : Keyword) (parser : Parser α) (c : Cursor) :
    Except Failure (Completed (Option α) c) :=
  match acceptWord? k c with
  | none => .ok ⟨none, c, Nat.le_refl _⟩
  | some ⟨_, c₁, h₁⟩ => do
    let ⟨a, c₂, h₂⟩ ← parser c₁
    return ⟨some a, c₂, by omega⟩

/-- Reads the label of a jump, if there is one. -/
def jumpLabel? (c : Cursor) : Except Failure (Completed (Option Name) c) :=
  match c.peek? with
  | some (.identifier _) => do
    let ⟨label, c₁, h₁⟩ ← name .label .jumpEnd c
    return ⟨some label, c₁, Nat.le_of_lt h₁⟩
  | _ => .ok ⟨none, c, Nat.le_refl _⟩

/-- Reads a condition in parentheses. -/
def condition (inner : Nesting) (keyword : Keyword) : Parser Expr := fun c => do
  let ⟨_, c₁, h₁⟩ ← expect .leftParen (.conditionStart keyword) c
  let ⟨condition, c₂, h₂⟩ ← inner.expression c₁
  let ⟨_, c₃, h₃⟩ ← expect .rightParen .conditionEnd c₂
  return ⟨condition, c₃, by omega⟩

/-- Reads a jump after its keyword. -/
def jump (make : Site → Option Name → Stmt) : Parser (Site → Stmt) := fun c => do
  let ⟨label, c₁, h₁⟩ ← jumpLabel? c
  let ⟨_, c₂, h₂⟩ ← expect .semicolon .jumpEnd c₁
  return ⟨(make · label), c₂, by omega⟩

/-- Reads the rest of a statement that begins with a reserved word. -/
def afterKeyword (inner : Nesting) : Keyword → Option (Parser (Site → Stmt))
  | .varWord => some fun c => do
    let ⟨name, c₁, h₁⟩ ← name .variable .variableName c
    let ⟨init, c₂, h₂⟩ ← afterMark? .assign inner.expression c₁
    let ⟨_, c₃, h₃⟩ ← expect .semicolon .declarationEnd c₂
    return ⟨(.declare · name init), c₃, by omega⟩
  | .ifWord => some fun c => do
    let ⟨condition, c₁, h₁⟩ ← condition inner .ifWord c
    let ⟨thenBranch, c₂, h₂⟩ ← inner.statement c₁
    let ⟨elseBranch, c₃, h₃⟩ ← afterWord? .elseWord inner.statement c₂
    return ⟨(.branch · condition thenBranch elseBranch), c₃, by omega⟩
  | .whileWord => some fun c => do
    let ⟨condition, c₁, h₁⟩ ← condition inner .whileWord c
    let ⟨body, c₂, h₂⟩ ← inner.statement c₁
    return ⟨(.loop · condition body), c₂, by omega⟩
  | .breakWord => some (jump .breakTo)
  | .continueWord => some (jump .continueTo)
  | .returnWord => some fun c => do
    let ⟨value, c₁, h₁⟩ ← unless? .semicolon inner.expression c
    let ⟨_, c₂, h₂⟩ ← expect .semicolon .returnEnd c₁
    return ⟨(.returnWith · value), c₂, by omega⟩
  | _ => none

/-- Reads a statement that is an expression. -/
def evaluation (inner : Nesting) : Parser Stmt := fun c => do
  let ⟨e, c₁, h₁⟩ ← inner.expression c
  let ⟨_, c₂, h₂⟩ ← expect .semicolon .expressionEnd c₁
  return .node (.evaluate · e) c₂ (by omega)

/-- Reads a statement behind a label. -/
def labeled (inner : Nesting) : Parser Stmt := fun c => do
  let ⟨label, c₁, h₁⟩ ← name .label .statement c
  let ⟨_, c₂, h₂⟩ ← expect .colon .statement c₁
  let ⟨body, c₃, h₃⟩ ← inner.statement c₂
  return .node (.labeled · label body) c₃ (by omega)

/-- Reads a block. -/
def block (inner : Nesting) : Parser Stmt := fun c => do
  let ⟨_, c₁, h₁⟩ ← expect .leftBrace .statement c
  let ⟨body, c₂, h₂⟩ ← statements inner c₁
  return .node (.block · body) c₂ (by omega)

/-- Reads a statement that begins with a reserved word for statements, or else an expression. -/
def keywordStatement (inner : Nesting) (k : Keyword) : Parser Stmt := fun c => do
  match afterKeyword inner k, acceptWord? k c with
  | some tail, some ⟨_, c₁, h₁⟩ =>
    let ⟨make, c₂, h₂⟩ ← tail c₁
    return .node make c₂ (by omega)
  | _, _ => evaluation inner c

/-- Reads a statement. -/
def statementBody (inner : Nesting) : Parser Stmt := fun c =>
  match c.peek? with
  | none => .error (c.expected .statement)
  | some (.keyword k) => keywordStatement inner k c
  | some (.symbol .leftBrace) => block inner c
  | some (.identifier _) =>
    if c.peekSecond? = some (.symbol .colon) then labeled inner c else evaluation inner c
  | some _ => evaluation inner c

/-- The refusal to nest any deeper. -/
def refuse {α : Type} : Parser α := fun c => .error ⟨.nestedTooDeeply, c.rest⟩

/-- The parsers when `depth` more levels of nesting are allowed. -/
def within : (depth : Nat) → Nesting
  | 0 => ⟨refuse, refuse, refuse⟩
  | depth + 1 =>
    let inner := within depth
    ⟨statementBody inner, assignment inner, unary inner⟩

end Nesting

/-- Statements, whole expressions and operands of unary operators nest at most this deep. -/
def nestingLimit : Nat := 200

namespace Program

/-- Reads statements up to the end of the tokens. -/
def statementsToEnd (statement : Parser Stmt) (c : Cursor) : Except Failure (List Stmt) :=
  if c.rest.isEmpty then .ok []
  else do
    let ⟨first, c₁, _⟩ ← statement c
    let others ← statementsToEnd statement c₁
    return first :: others
termination_by c.rest.length

/-- The statements of a list of tokens. -/
def parseTokens (lexemes : List Lexeme) : Except Failure (List Stmt) :=
  statementsToEnd (Nesting.within nestingLimit).statement ⟨lexemes, 0, 0⟩

/-- The offset of a failure: where the next token starts, or the end of the text. -/
def failureOffset (text : String) (f : Failure) : Nat :=
  (f.rest.head?.map (·.span.start)).getD text.utf8ByteSize

/-- The program of a text. -/
def parse (text : String) : Except ParseError Program := do
  let lexemes ← Lexeme.scan text
  match parseTokens lexemes with
  | .ok body => return ofBody body
  | .error f => throw (.atOffset text f.cause (failureOffset text f))

end Program

end LWorkbench
