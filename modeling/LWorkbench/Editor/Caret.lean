import LWorkbench.Text.Position
import LWorkbench.Text.Span

/-!
# Carets

Editors count lines and columns from zero, and a column counts the units of UTF-16, of which a
character beyond U+FFFF takes two. A line ends after a line feed, a carriage return, the two
together, a vertical tab, a form feed, U+0085, U+2028 or U+2029; the break belongs to the line it
ends.

A caret need not stand at a character. One that points past the end of its line stands after the
break of that line, one inside a character stands before it, and one past the last line stands at
the end of the text.

## Main definitions

* `Caret` — line and column
* `Caret.after` — where reading a character leads
* `Caret.ofOffset` — the caret at a byte offset
* `Caret.index`, `Caret.offset` — the character index and the byte offset of a caret
* `TextRange`, `TextRange.ofSpan` — two carets, and those of a span
* `lineCount` — the number of lines of a text
-/

namespace LWorkbench

/-- The number of UTF-16 units of a character. -/
def utf16Width (c : Char) : Nat :=
  if c.toNat < 0x10000 then 1 else 2

/-- Whether a line ends after a character, given the one behind it. A carriage return leaves that to
a line feed. -/
def endsLine (c : Char) (next : Option Char) : Bool :=
  if c = '\r' then next != some '\n'
  else [0x0A, 0x0B, 0x0C, 0x85, 0x2028, 0x2029].contains c.toNat

/-- A place in a text as editors count: line and column from zero. -/
structure Caret where
  line : Nat
  column : Nat
  deriving DecidableEq, Repr

namespace Caret

/-- Where every text begins. -/
def origin : Caret := ⟨0, 0⟩

/-- Where reading a character leads, given the one behind it. -/
def after (caret : Caret) (c : Char) (next : Option Char) : Caret :=
  if endsLine c next then ⟨caret.line + 1, 0⟩ else ⟨caret.line, caret.column + utf16Width c⟩

/-- The caret reached from `caret` by reading the characters that end at `offset` or before, where
the first of them starts at byte `index`. -/
def reach (offset : Nat) : List Char → (index : Nat) → (caret : Caret) → Caret
  | [], _, caret => caret
  | c :: rest, index, caret =>
    if offset < index + c.utf8Size then caret
    else reach offset rest (index + c.utf8Size) (caret.after c rest.head?)

/-- The caret at a byte offset. An offset inside a character counts as lying before it, and one past
the end as lying at the end. -/
def ofOffset (text : String) (offset : Nat) : Caret :=
  reach offset text.toList 0 origin

/-- The number of characters in front of `target`, where `index` characters lead to `caret`. -/
def seek (target : Caret) : List Char → (index : Nat) → (caret : Caret) → Nat
  | [], index, _ => index
  | c :: rest, index, caret =>
    if target.line < caret.line ||
        (caret.line == target.line && target.column < caret.column + utf16Width c) then index
    else seek target rest (index + 1) (caret.after c rest.head?)

/-- The number of characters in front of a caret. -/
def index (text : String) (caret : Caret) : Nat :=
  seek caret text.toList 0 origin

/-- The byte offset of a caret. -/
def offset (text : String) (caret : Caret) : Nat :=
  utf8Length (text.toList.take (caret.index text))

end Caret

/-- The number of lines of a text. The last one may be empty. -/
def lineCount (text : String) : Nat :=
  (Caret.ofOffset text (utf8Length text.toList)).line + 1

/-- The part of a text between two carets. -/
structure TextRange where
  start : Caret
  stop : Caret
  deriving DecidableEq, Repr

namespace TextRange

/-- The carets of a span. -/
def ofSpan (text : String) (span : Span) : TextRange :=
  ⟨Caret.ofOffset text span.start, Caret.ofOffset text span.stop⟩

/-- The part of a line from a caret on with the given width. -/
def onLine (start : Caret) (width : Nat) : TextRange :=
  ⟨start, ⟨start.line, start.column + width⟩⟩

end TextRange

end LWorkbench
