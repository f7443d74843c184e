import LWorkbench.Editor.Caret
import LWorkbench.Analysis
import LWorkbench.ParseError

/-!
# Diagnostics

An editor marks what is wrong with a text. A text that does not parse has one diagnostic, at the
character where parsing stopped; every violation in a text that parses has one, over the node that
breaks the rule.

The diagnostic of a parse error is made from the message as shown to a reader, of which only the
reason is kept. A message that is not of the usual form, which also happens when the reason runs
over several lines, is shown whole at the beginning of the text.

## Main definitions

* `Diagnostic` — a range and a message
* `Diagnostic.split?` — line, column and reason of a message
* `Diagnostic.ofMessage`, `Diagnostic.ofParseError` — for a message alone, and for an error in a
  text
* `Diagnostic.ofAnnotated` — for the violations of a program
-/

namespace LWorkbench

/-- Something that is wrong with a part of a text. -/
structure Diagnostic where
  range : TextRange
  message : String
  deriving DecidableEq, Repr

namespace Diagnostic

/-- What comes after the given characters at the head of a text. -/
def skip? : (expected text : List Char) → Option (List Char)
  | [], text => some text
  | c :: expected, d :: text => if c = d then skip? expected text else none
  | _ :: _, [] => none

/-- The whole number at the head of a text, if it fits into 32 bits, and what comes after it. -/
def number? (text : List Char) : Option (Nat × List Char) :=
  let digits := text.takeWhile Char.isDigit
  let value := digits.foldl (fun n c => 10 * n + (c.toNat - '0'.toNat)) 0
  if digits.isEmpty || Nat.pow 2 32 ≤ value then none else some (value, text.drop digits.length)

/-- The line, the column and the reason of a message of the form `Line L, col C: reason`, where the
reason has no line feed. -/
def split? (message : String) : Option (Nat × Nat × String) := do
  let text ← skip? "Line ".toList message.toList
  let (line, text) ← number? text
  let text ← skip? ", col ".toList text
  let (column, text) ← number? text
  let reason ← skip? ": ".toList text
  if reason.contains '\n' then none else some (line, column, String.ofList reason)

/-- The diagnostic of a message alone, one column wide at the place that it tells. -/
def ofMessage (message : String) : Diagnostic :=
  match split? message with
  | some (line, column, reason) => ⟨.onLine ⟨line - 1, column - 1⟩ 1, reason⟩
  | none => ⟨.onLine .origin 1, message⟩

/-- The width of the mark at a character: as wide as it is, or one at a break or at the end. -/
def markWidth : Option Char → Nat
  | some c => if c = '\n' || c = '\r' then 1 else utf16Width c
  | none => 1

/-- The character that a byte offset lies in or in front of. -/
def charAt? (offset : Nat) : List Char → (index : Nat) → Option Char
  | [], _ => none
  | c :: rest, index =>
    if offset < index + c.utf8Size then some c else charAt? offset rest (index + c.utf8Size)

/-- The diagnostic of an error in a text, over the character where it is. -/
def ofParseError (text : String) (e : ParseError) : Diagnostic :=
  match split? e.display with
  | none => ofMessage e.display
  | some (_, _, reason) =>
    let offset := e.position.offset
    ⟨.onLine (Caret.ofOffset text offset) (markWidth (charAt? offset text.toList 0)), reason⟩

/-- The diagnostics of the violations of a program, in the order of the text. -/
def ofAnnotated (text : String) (a : Annotated) : List Diagnostic :=
  a.program.preorder.filterMap fun n =>
    (a.notes[n.id]?.bind Note.violation).map fun v => ⟨.ofSpan text n.span, v.message⟩

end Diagnostic

end LWorkbench
