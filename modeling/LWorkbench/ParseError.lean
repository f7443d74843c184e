import LWorkbench.Text.Position
import LWorkbench.Token

/-!
# Errors of reading a program

A text that is not a program is rejected with one cause and the place where it was noticed. The
wording of every cause is fixed here and nowhere else.

## Main definitions

* `Expectation` — what the parser was looking for, with its wording
* `ParseError.Cause` — why a text was rejected, with `Cause.message`
* `ParseError` — a cause with its place, shown as `Line L, col C: message`
-/

namespace LWorkbench

/-- What the parser was looking for when it met something else. -/
inductive Expectation where
  | statement
  | expression
  | variableName
  | declarationEnd
  | conditionStart (keyword : Keyword)
  | conditionEnd
  | jumpEnd
  | returnEnd
  | expressionEnd
  | blockEnd
  | argumentsEnd
  | propertyName
  | indexEnd
  | arrayEnd
  | tupleEnd
  | groupEnd
  | propertyKey
  | propertyColon
  | objectEnd
  | parametersStart
  | parameterName
  | parametersEnd
  | bodyStart
  deriving DecidableEq, Repr

/-- The wording of an expectation. -/
def Expectation.describe : Expectation → String
  | statement => "statement"
  | expression => "expression"
  | variableName => "identifier after 'var'"
  | declarationEnd => "';' after variable declaration"
  | conditionStart keyword => "'(' after " ++ inQuotes keyword.spelling
  | conditionEnd => "')' after condition"
  | jumpEnd => "';' after jump statement"
  | returnEnd => "';' after return value"
  | expressionEnd => "';' after expression"
  | blockEnd => "'\x7d'"
  | argumentsEnd => "')' after arguments"
  | propertyName => "property name after '.'"
  | indexEnd => "']' after index"
  | arrayEnd => "']' after array elements"
  | tupleEnd => "')' after tuple elements"
  | groupEnd => "')' after expression"
  | propertyKey => "property key"
  | propertyColon => "':' after property key"
  | objectEnd => "'\x7d' after object properties"
  | parametersStart => "'(' after 'function'"
  | parameterName => "parameter name"
  | parametersEnd => "')' after parameters"
  | bodyStart => "'\x7b' before function body"

/-- Why a text is not a program. -/
inductive ParseError.Cause where
  | unexpectedCharacter (c : Char)
  | openComment
  | openString
  | expected (what : Expectation) (found : Option Token)
  | unexpectedToken (found : Token)
  | invalidTarget
  | nestedTooDeeply
  deriving DecidableEq

/-- The wording of a cause. -/
def ParseError.Cause.message : Cause → String
  | unexpectedCharacter c => "Unexpected character " ++ inQuotes (String.singleton c)
  | openComment => "Block comment not closed"
  | openString => "String not closed"
  | expected what (some found) => s!"Expected {what.describe}, found {found.describe}"
  | expected what none => s!"Expected {what.describe}, found end of input"
  | unexpectedToken found => "Unexpected " ++ found.describe
  | invalidTarget => "Invalid assignment target"
  | nestedTooDeeply => "Program nested too deeply"

/-- Why and where a text is not a program. -/
structure ParseError where
  cause : ParseError.Cause
  position : Position
  deriving DecidableEq

namespace ParseError

/-- The error with the given cause at a byte offset of the text. -/
def atOffset (text : String) (cause : Cause) (offset : Nat) : ParseError :=
  ⟨cause, Position.ofOffset text offset⟩

/-- The reason alone. -/
def reason (e : ParseError) : String :=
  e.cause.message

/-- The error as shown to a reader, with its place in front. -/
def display (e : ParseError) : String :=
  s!"Line {e.position.line}, col {e.position.column}: {e.reason}"

end ParseError

end LWorkbench
