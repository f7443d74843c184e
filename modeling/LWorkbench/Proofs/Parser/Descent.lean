import LWorkbench.Program.Parser

/-!
# Descending into phrases

The parsers of a program are built from parsers one level deeper, and what they read is shorter by
their types. Here parsing is taken apart into single moves of routines that call each other. A head
stands at a position in the words, and a count of depth goes up when a statement, an expression or
an operand is entered and down when it is left. Nothing is promised: the head moves on without
looking where it goes, loops go round until something ends them, the count is only compared with the
limit, and calls pile up on a stack.

The routines for operators of all ranks share one body. Each of them calls only the next tighter
one, so there is one routine for each rank.

## Main definitions

* `Routine`, `Loop` — what can be called, and the points to which a routine comes back
* `Script` — what a routine does, one move after another
* `Routine.body`, `Loop.body` — the moves of each routine, and of one round of each loop
* `Head`, `Stack`, `Moment` — the state of parsing; `Moment.next` makes one move
* `Routine.CallsDirectly` — one routine calls another without having entered anything
-/

namespace LWorkbench.Descent

/-- The ranks of operators with two operands, from the tightest. -/
inductive Rank where
  | product
  | sum
  | order
  | equality
  | conjunction
  | disjunction
  deriving DecidableEq

/-- The operators of a rank. -/
abbrev Rank.Op : Rank → Type
  | product | sum | order | equality => BinaryOp
  | conjunction | disjunction => LogicalOp

/-- The operator of a rank that a token stands for. -/
def Rank.op? : (k : Rank) → Token → Option k.Op
  | product => Nesting.factorOp?
  | sum => Nesting.termOp?
  | order => Nesting.comparisonOp?
  | equality => Nesting.equalityOp?
  | conjunction => Nesting.conjunctionOp?
  | disjunction => Nesting.disjunctionOp?

/-- The node of an operator with its operands. -/
def Rank.join : (k : Rank) → Site → k.Op → Expr → Expr → Expr
  | product | sum | order | equality => .binary
  | conjunction | disjunction => .logical

/-- What can be called while a program is parsed. -/
inductive Routine where
  | program
  | statement
  /-- A statement that has been entered. -/
  | statementBody
  /-- Statements up to the closing brace. -/
  | statements
  | expression
  | assignment
  | operators (k : Rank)
  | unary
  | suffixed
  | primary
  /-- Expressions with commas between them up to a closing mark. -/
  | elements (close : Symbol) (what : Expectation)
  | parenthesized
  | object
  | function
  deriving DecidableEq

/-- What a routine reads. -/
abbrev Routine.Result : Routine → Type
  | program | statements => List Stmt
  | statement | statementBody => Stmt
  | elements _ _ => List Expr
  | _ => Expr

/-- Both are one routine, whatever marks they were given. -/
def Routine.Same : Routine → Routine → Prop
  | elements _ _, elements _ _ => True
  | r, q => r = q

/-- The point to which a routine comes back in its loop, with what it has read so far. -/
inductive Loop : Routine → Type where
  | program (body : List Stmt) : Loop .program
  | statements (body : List Stmt) : Loop .statements
  | operators (k : Rank) (start : Nat) (left : Expr) : Loop (.operators k)
  | suffixes (start : Nat) (e : Expr) : Loop .suffixed
  | elements (close : Symbol) (what : Expectation) (items : List Expr) :
      Loop (.elements close what)
  | properties (start : Nat) (pairs : List (String × Expr)) : Loop .object
  | params (start : Nat) (names : List Name) : Loop .function

/-- A move of the head. -/
inductive Action where
  /-- Goes behind the next token, whether there is one or not. -/
  | take
  /-- Gives a number to a node. -/
  | number
  /-- Goes one level deeper. -/
  | enter
  /-- Comes back from one level. -/
  | leave
  deriving DecidableEq

/-- What a routine does. -/
inductive Script (r : Routine) (α : Type) where
  /-- Ends with something read, or with a failure. -/
  | give (result : Except Failure α)
  /-- Looks at what is left, and at the depth. -/
  | look (go : Cursor → Nat → Script r α)
  | act (a : Action) (next : Script r α)
  /-- Calls a routine and goes on with its result, a failure as well. -/
  | call (q : Routine) (go : Except Failure q.Result → Script r α)
  /-- Begins a round of the loop. -/
  | again (l : Loop r)

namespace Script

variable {r : Routine} {α β : Type}

/-- Goes on with what has been read; a failure ends the routine. -/
protected def bind : Script r α → (α → Script r β) → Script r β
  | give (.ok a), f => f a
  | give (.error e), _ => give (.error e)
  | look go, f => look fun c depth => (go c depth).bind f
  | act a next, f => act a (next.bind f)
  | call q go, f => call q fun result => (go result).bind f
  | again l, _ => again l

instance : Monad (Script r) where
  pure a := give (.ok a)
  bind := Script.bind

instance : LawfulMonad (Script r) :=
  .mk' (Script r)
    (fun x => by
      induction x with
      | give result => cases result <;> rfl
      | look go ih => exact congrArg look (funext fun c => funext fun depth => ih c depth)
      | act a next ih => exact congrArg (act a) ih
      | call q go ih => exact congrArg (call q) (funext ih)
      | again l => rfl)
    (fun _ _ => rfl)
    (fun x f g => by
      induction x with
      | give result => cases result <;> rfl
      | look go ih => exact congrArg look (funext fun c => funext fun depth => ih c depth)
      | act a next ih => exact congrArg (act a) ih
      | call q go ih => exact congrArg (call q) (funext ih)
      | again l => rfl)

/-! ### Small scripts -/

/-- Fails where the head stands. -/
def refuse (failure : Cursor → Failure) : Script r α :=
  look fun c _ => give (.error (failure c))

/-- Fails because something else was found than what is expected. -/
def expected (what : Expectation) : Script r α := refuse (·.expected what)

/-- Goes behind the next token. -/
def take : Script r Unit := act .take (pure ())

/-- Takes the next token if it is the given one, and tells whether it was. -/
def eat (token : Token) : Script r Bool :=
  look fun c _ => if c.peek? = some token then act .take (pure true) else pure false

/-- Takes the given mark, which has to come next. -/
def expect (s : Symbol) (what : Expectation) : Script r Unit := do
  match ← eat (.symbol s) with
  | true => pure ()
  | false => expected what

/-- Numbers a node that starts at `start` and ends with the last token taken. -/
def node (start : Nat) (make : Site → α) : Script r α :=
  look fun c _ => act .number (pure (make (c.site start)))

/-- Takes an identifier, which has to come next, as a name. -/
def name (kind : ScopeKind) (what : Expectation) : Script r Name :=
  look fun c _ =>
    match c.peek? with
    | some (.identifier identifier) => do
      take
      node c.start (⟨·, identifier, kind⟩)
    | _ => expected what

/-- Takes the name of a property, which has to come next. -/
def propertyName : Script r String :=
  look fun c _ =>
    match c.peek? with
    | some (.identifier identifier) => act .take (pure identifier)
    | _ => expected .propertyName

/-- Takes the key of a property, which has to come next. -/
def propertyKey : Script r String :=
  look fun c _ =>
    match c.peek? with
    | some (.identifier identifier) => act .take (pure identifier)
    | some (.string key) => act .take (pure key)
    | _ => expected .propertyKey

/-- Calls a routine. -/
def invoke (q : Routine) : Script r q.Result := call q give

/-- Calls a routine one level deeper, unless that is too deep. The level is left even when the
routine fails. -/
def nested (q : Routine) : Script r q.Result :=
  act .enter <| look fun c depth =>
    if nestingLimit < depth then give (.error ⟨.nestedTooDeeply, c.rest⟩)
    else call q fun result => act .leave (give result)

/-- Calls a routine if the given token comes next, which is taken. -/
def after? (token : Token) (q : Routine) : Script r (Option q.Result) := do
  match ← eat token with
  | true => return some (← invoke q)
  | false => return none

/-- Calls a routine if the next token is not the given mark. -/
def unless? (s : Symbol) (q : Routine) : Script r (Option q.Result) :=
  look fun c _ =>
    if c.peek? = some (.symbol s) then pure none else do return some (← invoke q)

/-- Takes the label of a jump, if there is one. -/
def jumpLabel? : Script r (Option Name) :=
  look fun c _ =>
    match c.peek? with
    | some (.identifier _) => do return some (← name .label .jumpEnd)
    | _ => pure none

/-- Reads a condition in parentheses. -/
def condition (keyword : Keyword) : Script r Expr := do
  expect .leftParen (.conditionStart keyword)
  let condition ← invoke .expression
  expect .rightParen .conditionEnd
  return condition

/-- Reads an operand of an operator. -/
def operand : Rank → Script r Expr
  | .product => invoke .unary
  | .sum => invoke (.operators .product)
  | .order => invoke (.operators .sum)
  | .equality => invoke (.operators .order)
  | .conjunction => invoke (.operators .equality)
  | .disjunction => invoke (.operators .conjunction)

end Script

open Script

/-! ### What the routines do -/

namespace Routine

/-- The jump that a statement takes after its keyword. -/
def jump (start : Nat) (make : Site → Option Name → Stmt) : Script statementBody Stmt := do
  take
  let label ← jumpLabel?
  expect .semicolon .jumpEnd
  node start (make · label)

/-- The declaration that begins at `start`. -/
def declaration (start : Nat) : Script statementBody Stmt := do
  take
  let name ← name .variable .variableName
  let init ← after? (.symbol .assign) expression
  expect .semicolon .declarationEnd
  node start (.declare · name init)

/-- The branch that begins at `start`. -/
def branch (start : Nat) : Script statementBody Stmt := do
  take
  let condition ← condition .ifWord
  let thenBranch ← invoke statement
  let elseBranch ← after? (.keyword .elseWord) statement
  node start (.branch · condition thenBranch elseBranch)

/-- The loop that begins at `start`. -/
def whileLoop (start : Nat) : Script statementBody Stmt := do
  take
  let condition ← condition .whileWord
  let body ← invoke statement
  node start (.loop · condition body)

/-- The return that begins at `start`. -/
def returning (start : Nat) : Script statementBody Stmt := do
  take
  let value ← unless? .semicolon expression
  expect .semicolon .returnEnd
  node start (.returnWith · value)

/-- The block that begins at `start`. -/
def block (start : Nat) : Script statementBody Stmt := do
  take
  let body ← invoke statements
  node start (.block · body)

/-- The statement behind a label that begins at `start`. -/
def labeled (start : Nat) : Script statementBody Stmt := do
  let label ← name .label .statement
  take
  let body ← invoke statement
  node start (.labeled · label body)

/-- The expression that begins at `start` and is a statement. -/
def evaluation (start : Nat) : Script statementBody Stmt := do
  let e ← invoke expression
  expect .semicolon .expressionEnd
  node start (.evaluate · e)

/-- A statement is told by its first token, or its first two. -/
def dispatch (c : Cursor) : Script statementBody Stmt :=
  match c.peek? with
  | none => expected .statement
  | some (.keyword .varWord) => declaration c.start
  | some (.keyword .ifWord) => branch c.start
  | some (.keyword .whileWord) => whileLoop c.start
  | some (.keyword .breakWord) => jump c.start .breakTo
  | some (.keyword .continueWord) => jump c.start .continueTo
  | some (.keyword .returnWord) => returning c.start
  | some (.symbol .leftBrace) => block c.start
  | some (.identifier _) =>
    if c.peekSecond? = some (.symbol .colon) then labeled c.start else evaluation c.start
  | some _ => evaluation c.start

/-- An assignment has a name in front of its mark. -/
def assigning (c : Cursor) : Script assignment Expr := do
  let e ← invoke (operators .disjunction)
  look fun c₁ _ =>
    if c₁.peek? = some (.symbol .assign) then
      match e with
      | .name target => do
        take
        let value ← invoke expression
        node c.start (.assign · target value)
      | _ => refuse fun c => ⟨.invalidTarget, c.rest⟩
    else pure e

/-- An operand has its unary operators in front of it. -/
def operating (c : Cursor) : Script unary Expr :=
  match c.peek?.bind Nesting.unaryOp? with
  | some op => do
    take
    let operand ← nested unary
    node c.start (.unary · op operand)
  | none => invoke suffixed

/-- The value that the next token stands for. -/
def literal (start : Nat) (value : Literal) : Script primary Expr := do
  take
  node start (.literal · value)

/-- The list in brackets that begins at `start`. -/
def array (start : Nat) : Script primary Expr := do
  take
  let items ← invoke (elements .rightBracket .arrayEnd)
  node start (.array · items)

/-- An expression that no operator takes apart is told by its first token. -/
def dispatchPrimary (c : Cursor) : Script primary Expr :=
  match c.peek? with
  | none => expected .expression
  | some (.number value) => literal c.start (.number value)
  | some (.string value) => literal c.start (.string value)
  | some (.boolean value) => literal c.start (.boolean value)
  | some (.keyword .nullWord) => literal c.start .null
  | some (.keyword .undefinedWord) => literal c.start .undefined
  | some (.identifier _) => do return .name (← name .variable .expression)
  | some (.symbol .leftBracket) => array c.start
  | some (.symbol .leftParen) => invoke parenthesized
  | some (.symbol .leftBrace) => invoke object
  | some (.keyword .functionWord) => invoke function
  | some found => refuse fun c => ⟨.unexpectedToken found, c.rest⟩

/-- What stands in parentheses is grouped, or it is a tuple. -/
def grouping (start : Nat) : Script parenthesized Expr := do
  take
  match ← eat (.symbol .rightParen) with
  | true => node start (.tuple · [])
  | false =>
    let first ← invoke expression
    match ← eat (.symbol .comma) with
    | true =>
      let others ← invoke (elements .rightParen .tupleEnd)
      node start (.tuple · (first :: others))
    | false =>
      expect .rightParen .groupEnd
      return first

/-- The moves of a routine, up to its loop if it has one. -/
def body : (r : Routine) → Script r r.Result
  | program => again (.program [])
  | statement => nested statementBody
  | statementBody => look fun c _ => dispatch c
  | statements => again (.statements [])
  | expression => nested assignment
  | assignment => look fun c _ => assigning c
  | operators k => look fun c _ => do
    let left ← operand k
    again (.operators k c.start left)
  | unary => look fun c _ => operating c
  | suffixed => look fun c _ => do
    let e ← invoke primary
    again (.suffixes c.start e)
  | primary => look fun c _ => dispatchPrimary c
  | elements close what => again (.elements close what [])
  | parenthesized => look fun c _ => grouping c.start
  | object => look fun c _ => do
    take
    again (.properties c.start [])
  | function => look fun c _ => do
    take
    expect .leftParen .parametersStart
    again (.params c.start [])

end Routine

namespace Loop

/-- Reads an element of a list and the comma behind it, or the closing mark; `last` is done behind
the closing mark, and `more` behind a comma. -/
def item {r : Routine} {α : Type} (element : Script r α) (close : Symbol) (what : Expectation)
    (last : α → Script r r.Result) (more : α → Loop r) : Script r r.Result := do
  let a ← element
  match ← eat (.symbol .comma) with
  | true => again (more a)
  | false =>
    expect close what
    last a

/-- What a function has behind its parameters. -/
def functionBody (start : Nat) (params : List Name) : Script .function Expr := do
  expect .leftBrace .bodyStart
  let body ← invoke .statements
  node start (.function · params body)

/-- Reads the key and the value of a property. -/
def property : Script .object (String × Expr) := do
  let key ← propertyKey
  expect .colon .propertyColon
  let value ← invoke .expression
  return (key, value)

/-- The moves of one round, and of what follows the loop when it ends. -/
def body : {r : Routine} → Loop r → Script r r.Result
  | _, program body => look fun c _ =>
    if c.rest.isEmpty then pure body
    else do
      let s ← invoke .statement
      again (program (body ++ [s]))
  | _, statements body => do
    match ← eat (.symbol .rightBrace) with
    | true => return body
    | false => look fun c _ =>
      if c.rest.isEmpty then expected .blockEnd
      else do
        let s ← invoke .statement
        again (statements (body ++ [s]))
  | _, operators k start left => look fun c _ =>
    match c.peek?.bind k.op? with
    | some op => do
      take
      let right ← operand k
      let joined ← node start (k.join · op left right)
      again (operators k start joined)
    | none => pure left
  | _, suffixes start e => do
    match ← eat (.symbol .leftParen) with
    | true =>
      let args ← invoke (.elements .rightParen .argumentsEnd)
      let call ← node start (Expr.call · e args)
      again (suffixes start call)
    | false =>
      match ← eat (.symbol .dot) with
      | true =>
        let property ← propertyName
        let member ← node start (Expr.member · e property)
        again (suffixes start member)
      | false =>
        match ← eat (.symbol .leftBracket) with
        | true =>
          let index ← invoke .expression
          expect .rightBracket .indexEnd
          let index ← node start (Expr.index · e index)
          again (suffixes start index)
        | false => return e
  | _, elements close what items => do
    match ← eat (.symbol close) with
    | true => return items
    | false =>
      item (invoke .expression) close what (fun e => pure (items ++ [e]))
        (fun e => elements close what (items ++ [e]))
  | _, properties start pairs => do
    match ← eat (.symbol .rightBrace) with
    | true => node start (.object · pairs)
    | false =>
      item property .rightBrace .objectEnd (fun p => node start (.object · (pairs ++ [p])))
        (fun p => properties start (pairs ++ [p]))
  | _, params start names => do
    match ← eat (.symbol .rightParen) with
    | true => functionBody start names
    | false =>
      item (name .variable .parameterName) .rightParen .parametersEnd
        (fun p => functionBody start (names ++ [p])) (fun p => params start (names ++ [p]))

end Loop

/-! ### The state of parsing -/

/-- Where parsing stands: how many words have been taken, how deep it is, and the number for the
next node. -/
structure Head (words : List Lexeme) where
  pos : Nat
  depth : Nat
  nextId : NodeId

namespace Head

variable {words : List Lexeme}

/-- Where the last word taken ends. -/
def lastEnd (h : Head words) : Nat :=
  match h.pos with
  | 0 => 0
  | before + 1 => (words[before]?.map (·.span.stop)).getD 0

/-- What can be seen from the head. -/
def cursor (h : Head words) : Cursor :=
  ⟨words.drop h.pos, h.lastEnd, h.nextId⟩

/-- One move. -/
def perform (h : Head words) : Action → Head words
  | .take => { h with pos := h.pos + 1 }
  | .number => { h with nextId := h.nextId + 1 }
  | .enter => { h with depth := h.depth + 1 }
  | .leave => { h with depth := h.depth - 1 }

/-- The parsers for the levels that are left. -/
def nesting (h : Head words) : Nesting :=
  .within (nestingLimit - h.depth)

end Head

/-- The calls that have not ended, where the innermost one is of the given routine. Each of them
knows the head at which it was made, and what its caller does with the result. -/
inductive Stack (words : List Lexeme) : Routine → Type where
  | entry {r : Routine} (since : Head words) : Stack words r
  | call {r q : Routine} (below : Stack words r)
      (resume : Except Failure q.Result → Script r r.Result) (since : Head words) : Stack words q

namespace Stack

variable {words : List Lexeme}

/-- The head at which the innermost call was made. -/
def since : {r : Routine} → Stack words r → Head words
  | _, entry since => since
  | _, call _ _ since => since

/-- The calls with the heads at which they were made, the innermost first. -/
def calls : {r : Routine} → Stack words r → List (Routine × Head words)
  | r, entry since => [(r, since)]
  | r, call below _ since => (r, since) :: below.calls

end Stack

/-- A moment of parsing: what the innermost routine is going to do, the calls that wait for it, and
where the head is. -/
structure Moment (words : List Lexeme) where
  routine : Routine
  script : Script routine routine.Result
  stack : Stack words routine
  head : Head words

namespace Moment

variable {words : List Lexeme}

/-- The moment at which a routine is called. -/
def entering (q : Routine) (stack : Stack words q) (h : Head words) : Moment words :=
  ⟨q, q.body, stack, h⟩

/-- Before the first word. -/
def start (words : List Lexeme) : Moment words :=
  entering .program (.entry ⟨0, 0, 0⟩) ⟨0, 0, 0⟩

/-- One move. When the first call has ended, nothing happens any more. -/
def next : Moment words → Moment words
  | ⟨r, .give result, .entry since, h⟩ => ⟨r, .give result, .entry since, h⟩
  | ⟨_, .give result, .call below resume _, h⟩ => ⟨_, resume result, below, h⟩
  | ⟨r, .look go, stack, h⟩ => ⟨r, go h.cursor h.depth, stack, h⟩
  | ⟨r, .act a script, stack, h⟩ => ⟨r, script, stack, h.perform a⟩
  | ⟨_, .call q go, stack, h⟩ => entering q (.call stack go h) h
  | ⟨r, .again l, stack, h⟩ => ⟨r, l.body, stack, h⟩

/-- A number of moves. -/
def after (m : Moment words) : Nat → Moment words
  | 0 => m
  | n + 1 => (m.after n).next

/-- The calls that have not ended, the innermost first. -/
def calls (m : Moment words) : List (Routine × Head words) := m.stack.calls

end Moment

/-! ### Calls that do not count -/

/-- The script calls `q` at some point before it has entered anything. -/
def Script.CallsDirectly {r : Routine} {α : Type} (q : Routine) : Script r α → Prop
  | give _ => False
  | look go => ∃ c depth, (go c depth).CallsDirectly q
  | act a next => a ≠ .enter ∧ next.CallsDirectly q
  | call p go => p = q ∨ ∃ result, (go result).CallsDirectly q
  | again _ => False

/-- The routine `r` calls `q` without having entered anything, in its loop or before, with whatever
marks the two are given. -/
def Routine.CallsDirectly (r q : Routine) : Prop :=
  ∃ r' q' : Routine, r'.Same r ∧ q'.Same q ∧
    (r'.body.CallsDirectly q' ∨ ∃ l : Loop r', l.body.CallsDirectly q')

end LWorkbench.Descent
