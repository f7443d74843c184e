import LWorkbench.Number.Shortest
import LWorkbench.Text.Span

/-!
# Tokens

The words and marks of the language. Marks and keywords have one spelling each, which also appears
in error messages; literals and identifiers carry what was written.

## Main definitions

* `Symbol`, `Keyword` — the fixed marks and words, with their spelling
* `Token` — a mark, a word, a literal or an identifier
* `Token.describe` — how an error message names a token
* `Lexeme` — a token with the span it was read from
-/

namespace LWorkbench

/-- The punctuation marks and operators. -/
inductive Symbol where
  | leftParen
  | rightParen
  | leftBrace
  | rightBrace
  | leftBracket
  | rightBracket
  | dot
  | colon
  | comma
  | semicolon
  | assign
  | equal
  | notEqual
  | greater
  | less
  | greaterEqual
  | lessEqual
  | and
  | or
  | not
  | plus
  | minus
  | star
  | slash
  | percent
  deriving DecidableEq, Repr

/-- The spelling of a mark. -/
def Symbol.spelling : Symbol → String
  | leftParen => "("
  | rightParen => ")"
  | leftBrace => "\x7b"
  | rightBrace => "\x7d"
  | leftBracket => "["
  | rightBracket => "]"
  | dot => "."
  | colon => ":"
  | comma => ","
  | semicolon => ";"
  | assign => "="
  | equal => "=="
  | notEqual => "!="
  | greater => ">"
  | less => "<"
  | greaterEqual => ">="
  | lessEqual => "<="
  | and => "&&"
  | or => "||"
  | not => "!"
  | plus => "+"
  | minus => "-"
  | star => "*"
  | slash => "/"
  | percent => "%"

/-- The reserved words, apart from the two truth values. -/
inductive Keyword where
  | varWord
  | ifWord
  | elseWord
  | whileWord
  | breakWord
  | continueWord
  | returnWord
  | functionWord
  | nullWord
  | undefinedWord
  deriving DecidableEq, Repr

/-- The spelling of a reserved word. -/
def Keyword.spelling : Keyword → String
  | varWord => "var"
  | ifWord => "if"
  | elseWord => "else"
  | whileWord => "while"
  | breakWord => "break"
  | continueWord => "continue"
  | returnWord => "return"
  | functionWord => "function"
  | nullWord => "null"
  | undefinedWord => "undefined"

/-- One token of a program. -/
inductive Token where
  | symbol (s : Symbol)
  | keyword (k : Keyword)
  | boolean (value : Bool)
  | string (value : String)
  | number (value : Float)
  | identifier (name : String)
  deriving DecidableEq

/-- Puts a text between single quotes. -/
def inQuotes (text : String) : String :=
  s!"'{text}'"

/-- How an error message names the token. -/
def Token.describe : Token → String
  | symbol s => inQuotes s.spelling
  | keyword k => inQuotes k.spelling
  | boolean true => inQuotes "true"
  | boolean false => inQuotes "false"
  | string value => "string \"" ++ value ++ "\""
  | number value => "number " ++ Number.shortestText value
  | identifier name => "identifier " ++ inQuotes name

/-- The token that a word stands for: a reserved word, a truth value or an identifier. -/
def Token.ofWord (word : String) : Token :=
  match word with
  | "var" => keyword .varWord
  | "if" => keyword .ifWord
  | "else" => keyword .elseWord
  | "while" => keyword .whileWord
  | "break" => keyword .breakWord
  | "continue" => keyword .continueWord
  | "return" => keyword .returnWord
  | "function" => keyword .functionWord
  | "null" => keyword .nullWord
  | "undefined" => keyword .undefinedWord
  | "true" => boolean true
  | "false" => boolean false
  | name => identifier name

/-- A token with the bytes it was read from. -/
structure Lexeme where
  token : Token
  span : Span
  deriving DecidableEq

end LWorkbench
