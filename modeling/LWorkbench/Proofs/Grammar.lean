import LWorkbench.Program.Parser

/-!
# The grammar

Which lists of words are programs, and of which tree. A kind of phrase relates words to what they
are read as. Trees know their sites, so a phrase also says from which number on its nodes are
numbered and up to which: a node is numbered after everything inside it, and it spans the words
that it is read from.

Operators of one rank group to the left, which the rules say by asking for the same rank on the left
of an operator and for the next tighter one on the right. Where words could be read in two ways, the
rules say which one counts: a statement that begins with a brace is a block and no object, and
an `else` belongs to the nearest `if`, so that what stands before it cannot be a statement that
could take it.

Statements, whole expressions and operands of unary operators nest. The phrases of some depth are
made of phrases one level less deep.

## Main definitions

* `Phrase` — a kind of phrase; `Site.ofWords` is the site of a node
* `Grammar` — the phrases that count against the nesting limit
* `Grammar.Elements`, `Grammar.Statements` — lists
* `Grammar.Primary`, `Grammar.Suffixed`, `Grammar.Unary`, `Grammar.Chain`, `Grammar.Assignment` —
  expressions, from tightest to loosest
* `Grammar.Statement` — statements
* `Grammar.within` — phrases up to a depth of nesting
* `Grammar.Derives` — programs
-/

namespace LWorkbench

/-- A kind of phrase: `R words first next a` says that the words are read as `a`, whose nodes have
the numbers from `first` up to, but not including, `next`. -/
abbrev Phrase (α : Type) := (words : List Lexeme) → (first next : NodeId) → α → Prop

/-- The bytes from the start of the first word to the end of the last one. -/
def Span.ofWords (words : List Lexeme) : Span :=
  ⟨(words.head?.map (·.span.start)).getD 0, (words.getLast?.map (·.span.stop)).getD 0⟩

/-- The site of a node that is read from words and has a number. -/
def Site.ofWords (words : List Lexeme) (id : NodeId) : Site :=
  ⟨id, .ofWords words⟩

/-- A word that is a mark. -/
abbrev Lexeme.Is (l : Lexeme) (s : Symbol) : Prop := l.token = .symbol s

/-- A word that is a reserved word. -/
abbrev Lexeme.IsWord (l : Lexeme) (k : Keyword) : Prop := l.token = .keyword k

/-- A word that is an identifier. -/
abbrev Lexeme.IsName (l : Lexeme) (x : String) : Prop := l.token = .identifier x

/-- The value that a word stands for by itself. -/
def Token.literal? : Token → Option Literal
  | .number value => some (.number value)
  | .string value => some (.string value)
  | .boolean value => some (.boolean value)
  | .keyword .nullWord => some .null
  | .keyword .undefinedWord => some .undefined
  | _ => none

/-- The mark of a unary operator. -/
def UnaryOp.mark : UnaryOp → Symbol
  | .not => .not
  | .negate => .minus

/-- The mark of a binary operator. -/
def BinaryOp.mark : BinaryOp → Symbol
  | .add => .plus
  | .subtract => .minus
  | .multiply => .star
  | .divide => .slash
  | .modulo => .percent
  | .equal => .equal
  | .notEqual => .notEqual
  | .less => .less
  | .lessEqual => .lessEqual
  | .greater => .greater
  | .greaterEqual => .greaterEqual

/-- The mark of a logical operator. -/
def LogicalOp.mark : LogicalOp → Symbol
  | .and => .and
  | .or => .or

/-- Whether a statement ends with an `if` that could still take an `else`. -/
def Stmt.isOpen : Stmt → Bool
  | .branch _ _ _ none => true
  | .branch _ _ _ (some s) => s.isOpen
  | .loop _ _ s => s.isOpen
  | .labeled _ _ s => s.isOpen
  | _ => false

/-- The phrases that count against the nesting limit, up to some depth. -/
structure Grammar where
  statement : Phrase Stmt
  expression : Phrase Expr
  operand : Phrase Expr

namespace Grammar

/-! ### Lists and names -/

/-- A name of some kind. -/
inductive NamePhrase (kind : ScopeKind) : Phrase Name
  | name {l : Lexeme} {i : NodeId} {x : String} (hl : l.IsName x) :
    NamePhrase kind [l] i (i + 1) ⟨.ofWords [l] i, x, kind⟩

/-- Elements with commas between them up to the mark `close`; a comma may follow the last one. -/
inductive Elements {α : Type} (element : Phrase α) (close : Symbol) : Phrase (List α)
  | nil {l : Lexeme} {i : NodeId} (hclose : l.Is close) : Elements element close [l] i i []
  | last {l : Lexeme} {w : List Lexeme} {i j : NodeId} {x : α} (hx : element w i j x)
      (hclose : l.Is close) : Elements element close (w ++ [l]) i j [x]
  | cons {l : Lexeme} {w w' : List Lexeme} {i j k : NodeId} {x : α} {xs : List α}
      (hx : element w i j x) (hcomma : l.Is .comma) (hxs : Elements element close w' j k xs) :
    Elements element close (w ++ l :: w') i k (x :: xs)

/-- Statements one after another. -/
inductive Statements (statement : Phrase Stmt) : Phrase (List Stmt)
  | nil {i : NodeId} : Statements statement [] i i []
  | cons {w w' : List Lexeme} {i j k : NodeId} {s : Stmt} {ss : List Stmt}
      (hs : statement w i j s) (hss : Statements statement w' j k ss) :
    Statements statement (w ++ w') i k (s :: ss)

/-- Statements in braces. -/
inductive Braced (statement : Phrase Stmt) : Phrase (List Stmt)
  | braced {l l' : Lexeme} {w : List Lexeme} {i j : NodeId} {body : List Stmt}
      (hopen : l.Is .leftBrace) (hbody : Statements statement w i j body)
      (hclose : l'.Is .rightBrace) :
    Braced statement (l :: w ++ [l']) i j body

/-! ### Expressions -/

/-- A key, which is an identifier or a string, a colon and a value. -/
inductive Property (g : Grammar) : Phrase (String × Expr)
  | property {l l' : Lexeme} {w : List Lexeme} {i j : NodeId} {key : String} {e : Expr}
      (hkey : l.IsName key ∨ l.token = .string key) (hcolon : l'.Is .colon)
      (he : g.expression w i j e) :
    Property g (l :: l' :: w) i j (key, e)

/-- Expressions that no operator takes apart. -/
inductive Primary (g : Grammar) : Phrase Expr
  | literal {l : Lexeme} {i : NodeId} {value : Literal} (hl : l.token.literal? = some value) :
    Primary g [l] i (i + 1) (.literal (.ofWords [l] i) value)
  | name {w : List Lexeme} {i j : NodeId} {n : Name} (hn : NamePhrase .variable w i j n) :
    Primary g w i j (.name n)
  | array {l : Lexeme} {w : List Lexeme} {i j : NodeId} {items : List Expr}
      (hopen : l.Is .leftBracket) (hitems : Elements g.expression .rightBracket w i j items) :
    Primary g (l :: w) i (j + 1) (.array (.ofWords (l :: w) j) items)
  | emptyTuple {l l' : Lexeme} {i : NodeId} (hopen : l.Is .leftParen) (hclose : l'.Is .rightParen) :
    Primary g [l, l'] i (i + 1) (.tuple (.ofWords [l, l'] i) [])
  | group {l l' : Lexeme} {w : List Lexeme} {i j : NodeId} {e : Expr} (hopen : l.Is .leftParen)
      (he : g.expression w i j e) (hclose : l'.Is .rightParen) :
    Primary g (l :: w ++ [l']) i j e
  | tuple {l l' : Lexeme} {w w' : List Lexeme} {i j k : NodeId} {e : Expr} {items : List Expr}
      (hopen : l.Is .leftParen) (he : g.expression w i j e) (hcomma : l'.Is .comma)
      (hitems : Elements g.expression .rightParen w' j k items) :
    Primary g (l :: w ++ l' :: w') i (k + 1)
      (.tuple (.ofWords (l :: w ++ l' :: w') k) (e :: items))
  | object {l : Lexeme} {w : List Lexeme} {i j : NodeId} {properties : List (String × Expr)}
      (hopen : l.Is .leftBrace)
      (hproperties : Elements (Property g) .rightBrace w i j properties) :
    Primary g (l :: w) i (j + 1) (.object (.ofWords (l :: w) j) properties)
  | function {l l' : Lexeme} {w w' : List Lexeme} {i j k : NodeId} {params : List Name}
      {body : List Stmt} (hword : l.IsWord .functionWord) (hopen : l'.Is .leftParen)
      (hparams : Elements (NamePhrase .variable) .rightParen w i j params)
      (hbody : Braced g.statement w' j k body) :
    Primary g (l :: l' :: w ++ w') i (k + 1)
      (.function (.ofWords (l :: l' :: w ++ w') k) params body)

/-- Expressions with calls, properties and indices behind them. -/
inductive Suffixed (g : Grammar) : Phrase Expr
  | primary {w : List Lexeme} {i j : NodeId} {e : Expr} (he : Primary g w i j e) :
    Suffixed g w i j e
  | call {l : Lexeme} {w w' : List Lexeme} {i j k : NodeId} {e : Expr} {args : List Expr}
      (he : Suffixed g w i j e) (hopen : l.Is .leftParen)
      (hargs : Elements g.expression .rightParen w' j k args) :
    Suffixed g (w ++ l :: w') i (k + 1) (.call (.ofWords (w ++ l :: w') k) e args)
  | member {l l' : Lexeme} {w : List Lexeme} {i j : NodeId} {e : Expr} {x : String}
      (he : Suffixed g w i j e) (hdot : l.Is .dot) (hx : l'.IsName x) :
    Suffixed g (w ++ [l, l']) i (j + 1) (.member (.ofWords (w ++ [l, l']) j) e x)
  | index {l l' : Lexeme} {w w' : List Lexeme} {i j k : NodeId} {e e' : Expr}
      (he : Suffixed g w i j e) (hopen : l.Is .leftBracket) (he' : g.expression w' j k e')
      (hclose : l'.Is .rightBracket) :
    Suffixed g (w ++ l :: w' ++ [l']) i (k + 1) (.index (.ofWords (w ++ l :: w' ++ [l']) k) e e')

/-- Expressions with unary operators in front of them. -/
inductive Unary (g : Grammar) : Phrase Expr
  | suffixed {w : List Lexeme} {i j : NodeId} {e : Expr} (he : Suffixed g w i j e) :
    Unary g w i j e
  | operator {l : Lexeme} {w : List Lexeme} {i j : NodeId} {op : UnaryOp} {e : Expr}
      (hop : l.Is op.mark) (he : g.operand w i j e) :
    Unary g (l :: w) i (j + 1) (.unary (.ofWords (l :: w) j) op e)

/-- Operands with operators of one rank between them, grouped to the left. -/
inductive Chain {ω : Type} (ops : List ω) (mark : ω → Symbol)
    (make : Site → ω → Expr → Expr → Expr) (operand : Phrase Expr) : Phrase Expr
  | operand {w : List Lexeme} {i j : NodeId} {e : Expr} (he : operand w i j e) :
    Chain ops mark make operand w i j e
  | operator {l : Lexeme} {w w' : List Lexeme} {i j k : NodeId} {op : ω} {e₁ e₂ : Expr}
      (he₁ : Chain ops mark make operand w i j e₁) (hmem : op ∈ ops) (hop : l.Is (mark op))
      (he₂ : operand w' j k e₂) :
    Chain ops mark make operand (w ++ l :: w') i (k + 1)
      (make (.ofWords (w ++ l :: w') k) op e₁ e₂)

/-- Products. -/
def Factor (g : Grammar) : Phrase Expr :=
  Chain [.multiply, .divide, .modulo] BinaryOp.mark .binary (Unary g)

/-- Sums. -/
def Term (g : Grammar) : Phrase Expr := Chain [.add, .subtract] BinaryOp.mark .binary (Factor g)

/-- Order comparisons. -/
def Comparison (g : Grammar) : Phrase Expr :=
  Chain [.less, .lessEqual, .greater, .greaterEqual] BinaryOp.mark .binary (Term g)

/-- Equality comparisons. -/
def Equality (g : Grammar) : Phrase Expr :=
  Chain [.equal, .notEqual] BinaryOp.mark .binary (Comparison g)

/-- Conjunctions. -/
def Conjunction (g : Grammar) : Phrase Expr := Chain [.and] LogicalOp.mark .logical (Equality g)

/-- Disjunctions. -/
def Disjunction (g : Grammar) : Phrase Expr := Chain [.or] LogicalOp.mark .logical (Conjunction g)

/-- Whole expressions: assignments to a name, which group to the right, and all others. -/
inductive Assignment (g : Grammar) : Phrase Expr
  | plain {w : List Lexeme} {i j : NodeId} {e : Expr} (he : Disjunction g w i j e) :
    Assignment g w i j e
  | assign {l : Lexeme} {w w' : List Lexeme} {i j k : NodeId} {target : Name} {e : Expr}
      (htarget : Disjunction g w i j (.name target)) (hassign : l.Is .assign)
      (he : g.expression w' j k e) :
    Assignment g (w ++ l :: w') i (k + 1) (.assign (.ofWords (w ++ l :: w') k) target e)

/-! ### Statements -/

/-- A condition in parentheses. -/
inductive Condition (g : Grammar) : Phrase Expr
  | condition {l l' : Lexeme} {w : List Lexeme} {i j : NodeId} {e : Expr} (hopen : l.Is .leftParen)
      (he : g.expression w i j e) (hclose : l'.Is .rightParen) :
    Condition g (l :: w ++ [l']) i j e

/-- The label of a jump, if there is one. -/
inductive JumpLabel : Phrase (Option Name)
  | none {i : NodeId} : JumpLabel [] i i none
  | some {w : List Lexeme} {i j : NodeId} {n : Name} (hn : NamePhrase .label w i j n) :
    JumpLabel w i j (some n)

/-- Statements. -/
inductive Statement (g : Grammar) : Phrase Stmt
  | declare {l l' : Lexeme} {w : List Lexeme} {i j : NodeId} {n : Name} (hword : l.IsWord .varWord)
      (hn : NamePhrase .variable w i j n) (hend : l'.Is .semicolon) :
    Statement g (l :: w ++ [l']) i (j + 1) (.declare (.ofWords (l :: w ++ [l']) j) n none)
  | declareWith {l l' l'' : Lexeme} {w w' : List Lexeme} {i j k : NodeId} {n : Name} {e : Expr}
      (hword : l.IsWord .varWord) (hn : NamePhrase .variable w i j n) (hassign : l'.Is .assign)
      (he : g.expression w' j k e) (hend : l''.Is .semicolon) :
    Statement g (l :: w ++ l' :: w' ++ [l'']) i (k + 1)
      (.declare (.ofWords (l :: w ++ l' :: w' ++ [l'']) k) n (some e))
  | evaluate {l : Lexeme} {w : List Lexeme} {i j : NodeId} {e : Expr}
      (hbrace : ∀ l, w.head? = some l → ¬ l.Is .leftBrace) (he : g.expression w i j e)
      (hend : l.Is .semicolon) :
    Statement g (w ++ [l]) i (j + 1) (.evaluate (.ofWords (w ++ [l]) j) e)
  | block {w : List Lexeme} {i j : NodeId} {body : List Stmt}
      (hbody : Braced g.statement w i j body) :
    Statement g w i (j + 1) (.block (.ofWords w j) body)
  | labeled {l : Lexeme} {w w' : List Lexeme} {i j k : NodeId} {n : Name} {s : Stmt}
      (hn : NamePhrase .label w i j n) (hcolon : l.Is .colon) (hs : g.statement w' j k s) :
    Statement g (w ++ l :: w') i (k + 1) (.labeled (.ofWords (w ++ l :: w') k) n s)
  | branch {l : Lexeme} {w w' : List Lexeme} {i j k : NodeId} {e : Expr} {s : Stmt}
      (hword : l.IsWord .ifWord) (he : Condition g w i j e) (hs : g.statement w' j k s) :
    Statement g (l :: w ++ w') i (k + 1) (.branch (.ofWords (l :: w ++ w') k) e s none)
  | branchElse {l l' : Lexeme} {w w' w'' : List Lexeme} {i j k m : NodeId} {e : Expr}
      {s₁ s₂ : Stmt} (hword : l.IsWord .ifWord) (he : Condition g w i j e)
      (hs₁ : g.statement w' j k s₁) (hopen : s₁.isOpen = false) (helse : l'.IsWord .elseWord)
      (hs₂ : g.statement w'' k m s₂) :
    Statement g (l :: w ++ w' ++ l' :: w'') i (m + 1)
      (.branch (.ofWords (l :: w ++ w' ++ l' :: w'') m) e s₁ (some s₂))
  | loop {l : Lexeme} {w w' : List Lexeme} {i j k : NodeId} {e : Expr} {s : Stmt}
      (hword : l.IsWord .whileWord) (he : Condition g w i j e) (hs : g.statement w' j k s) :
    Statement g (l :: w ++ w') i (k + 1) (.loop (.ofWords (l :: w ++ w') k) e s)
  | breakTo {l l' : Lexeme} {w : List Lexeme} {i j : NodeId} {label : Option Name}
      (hword : l.IsWord .breakWord) (hlabel : JumpLabel w i j label) (hend : l'.Is .semicolon) :
    Statement g (l :: w ++ [l']) i (j + 1) (.breakTo (.ofWords (l :: w ++ [l']) j) label)
  | continueTo {l l' : Lexeme} {w : List Lexeme} {i j : NodeId} {label : Option Name}
      (hword : l.IsWord .continueWord) (hlabel : JumpLabel w i j label)
      (hend : l'.Is .semicolon) :
    Statement g (l :: w ++ [l']) i (j + 1) (.continueTo (.ofWords (l :: w ++ [l']) j) label)
  | returnNothing {l l' : Lexeme} {i : NodeId} (hword : l.IsWord .returnWord)
      (hend : l'.Is .semicolon) :
    Statement g [l, l'] i (i + 1) (.returnWith (.ofWords [l, l'] i) none)
  | returnWith {l l' : Lexeme} {w : List Lexeme} {i j : NodeId} {e : Expr}
      (hword : l.IsWord .returnWord) (he : g.expression w i j e) (hend : l'.Is .semicolon) :
    Statement g (l :: w ++ [l']) i (j + 1) (.returnWith (.ofWords (l :: w ++ [l']) j) (some e))

/-! ### Programs -/

/-- The phrases that nest at most `depth` deep. -/
def within : (depth : Nat) → Grammar
  | 0 => ⟨fun _ _ _ _ => False, fun _ _ _ _ => False, fun _ _ _ _ => False⟩
  | depth + 1 => ⟨Statement (within depth), Assignment (within depth), Unary (within depth)⟩

/-- The words are a program with the given statements, whose nodes are numbered from zero and nest
at most `depth` deep. -/
def Derives (depth : Nat) (words : List Lexeme) (body : List Stmt) : Prop :=
  ∃ next, Statements (within depth).statement words 0 next body

end Grammar

end LWorkbench
