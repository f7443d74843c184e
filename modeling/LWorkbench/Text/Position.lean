/-!
# Positions for readers

Errors and stack traces name a place by line and column. Both count from one, a column counts
characters, and only a line feed ends a line. A place keeps the byte offset it was computed from.

## Main definitions

* `utf8Length` — how many bytes a list of characters takes in UTF-8
* `Position` — line, column and byte offset
* `Position.ofOffset` — the place of a byte offset in a text. An offset inside a character counts as
  lying after it, and an offset past the end has the place of the end.
-/

namespace LWorkbench

/-- The number of bytes that the characters take in UTF-8. -/
def utf8Length (chars : List Char) : Nat :=
  chars.foldr (fun c total => c.utf8Size + total) 0

@[simp] theorem utf8Length_nil : utf8Length [] = 0 := rfl

@[simp] theorem utf8Length_cons (c : Char) (chars : List Char) :
    utf8Length (c :: chars) = c.utf8Size + utf8Length chars := rfl

@[simp] theorem utf8Length_append (xs ys : List Char) :
    utf8Length (xs ++ ys) = utf8Length xs + utf8Length ys := by
  induction xs with
  | nil => simp
  | cons c xs ih =>
    rw [List.cons_append, utf8Length_cons, utf8Length_cons, ih]
    omega

/-- A place in a text: line and column from one, and the byte offset. -/
structure Position where
  line : Nat
  column : Nat
  offset : Nat
  deriving DecidableEq, Repr, Inhabited

namespace Position

/-- The place where every text begins. -/
def origin : Position := ⟨1, 1, 0⟩

/-- The line and column reached from `line` and `column` by reading the characters of `chars`
that start before `offset`, where the first of them starts at byte `index`. -/
def reach (offset : Nat) : List Char → (index line column : Nat) → Nat × Nat
  | [], _, line, column => (line, column)
  | c :: rest, index, line, column =>
    if offset ≤ index then (line, column)
    else if c = '\n' then reach offset rest (index + c.utf8Size) (line + 1) 1
    else reach offset rest (index + c.utf8Size) line (column + 1)

/-- The place of a byte offset in a text. -/
def ofOffset (text : String) (offset : Nat) : Position :=
  let (line, column) := reach offset text.toList 0 1 1
  ⟨line, column, offset⟩

/-- The place as shown to a reader: `line:column`. -/
def display (p : Position) : String :=
  s!"{p.line}:{p.column}"

@[simp] theorem offset_ofOffset (text : String) (offset : Nat) :
    (ofOffset text offset).offset = offset := rfl

end Position

end LWorkbench
