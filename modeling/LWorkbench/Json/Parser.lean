import LWorkbench.Json
import LWorkbench.Json.Numeral
import LWorkbench.Text.Digit

/-!
# Reading JSON

A text is one JSON value with blanks around it. Lists and objects nest at most `depthLimit` deep.

A part of a message that nobody looks at is only checked for its shape: there a number may be too
large, a surrogate may stand alone, and nesting is not limited. The parameter `checked` tells the
two apart.

Every reader takes at least one character, which its result proves, so that lists end.

## Main definitions

* `Json.Parser.Read` — a value read from the head of a text, with what is left
* `Json.Parser.value` — reads one value, given the nesting that is still allowed
* `Json.parse?` — the value of a whole text
* `Json.objectFields?` — the fields of a text that is an object, of which only some are looked at
-/

namespace LWorkbench.Json.Parser

/-- Lists and objects nest at most this deep. -/
def depthLimit : Nat := 127

/-- Something read from the head of a text, with what is left, which is shorter than the text. -/
structure Read (α : Type) (text : List Char) where
  value : α
  rest : List Char
  shorter : rest.length < text.length

/-- A reader of an `α` at the head of a text. -/
abbrev Reader (α : Type) := (text : List Char) → Option (Read α text)

/-- Whether a character may stand between the parts of a JSON text. -/
def isSpace (c : Char) : Bool :=
  c == ' ' || c == '\n' || c == '\t' || c == '\r'

/-- The text without leading blanks. -/
def skipSpace (text : List Char) : List Char :=
  text.dropWhile isSpace

theorem length_skipSpace_le (text : List Char) : (skipSpace text).length ≤ text.length :=
  (List.dropWhile_suffix isSpace).length_le

/-! ### Strings -/

/-- The value of four hexadecimal digits. -/
def hexUnit? (a b c d : Char) : Option Nat :=
  Digit.number? 16 [a, b, c, d]

/-- The character that an escape of one letter stands for. -/
def shortEscape? (c : Char) : Option Char :=
  if c = '"' || c = '\\' || c = '/' then some c
  else if c = 'b' then some (Char.ofNat 8)
  else if c = 'f' then some (Char.ofNat 12)
  else if c = 'n' then some '\n'
  else if c = 'r' then some '\r'
  else if c = 't' then some '\t'
  else none

/-- Whether a 16-bit unit is the first of a surrogate pair. -/
def isHighSurrogate (unit : Nat) : Bool :=
  0xD800 ≤ unit && unit < 0xDC00

/-- Whether a 16-bit unit is the second of a surrogate pair. -/
def isLowSurrogate (unit : Nat) : Bool :=
  0xDC00 ≤ unit && unit < 0xE000

/-- The character that stands for a surrogate without its partner. -/
def replacement : Char := Char.ofNat 0xFFFD

/-- Reads the escape of the second unit of a surrogate pair. -/
def lowSurrogate : Reader Nat
  | '\\' :: 'u' :: a :: b :: c :: d :: rest =>
    ((hexUnit? a b c d).filter isLowSurrogate).map fun unit =>
      ⟨unit, rest, by simp only [List.length_cons]; omega⟩
  | _ => none

/-- The character of a pair of surrogates. -/
def ofSurrogates (high low : Nat) : Char :=
  Char.ofNat (0x10000 + (high - 0xD800) * 0x400 + (low - 0xDC00))

/-- Reads a character from the four hexadecimal digits of its first unit on. -/
def unicodeEscape (checked : Bool) : Reader Char
  | a :: b :: c :: d :: rest => do
    let unit ← hexUnit? a b c d
    let alone : Option (Read Char (a :: b :: c :: d :: rest)) :=
      if checked then none else some ⟨replacement, rest, by simp only [List.length_cons]; omega⟩
    if isHighSurrogate unit then
      match lowSurrogate rest with
      | some ⟨low, after, h⟩ =>
        return ⟨ofSurrogates unit low, after, by simp only [List.length_cons]; omega⟩
      | none => alone
    else if isLowSurrogate unit then alone
    else return ⟨Char.ofNat unit, rest, by simp only [List.length_cons]; omega⟩
  | _ => none

/-- Reads one character of the inside of a string. -/
def stringChar (checked : Bool) : Reader Char
  | '\\' :: 'u' :: rest =>
    (unicodeEscape checked rest).map fun r =>
      ⟨r.value, r.rest, by have := r.shorter; simp only [List.length_cons]; omega⟩
  | '\\' :: c :: rest => (shortEscape? c).map fun escaped =>
    ⟨escaped, rest, by simp only [List.length_cons]; omega⟩
  | c :: rest => if c.toNat < 32 || c = '\\' then none else some ⟨c, rest, by simp⟩
  | [] => none

/-- Reads the inside of a string up to the closing quote. -/
def stringBody (checked : Bool) (text : List Char) : Option (Read (List Char) text) :=
  match text with
  | '"' :: rest => some ⟨[], rest, by simp⟩
  | text => do
    let ⟨first, text₁, h₁⟩ ← stringChar checked text
    let ⟨others, rest, h₂⟩ ← stringBody checked text₁
    return ⟨first :: others, rest, by omega⟩
termination_by text.length

/-- Reads a string, from its opening quote on. -/
def string (checked : Bool) : Reader String
  | '"' :: text => (stringBody checked text).map fun r =>
    ⟨String.ofList r.value, r.rest, Nat.lt_succ_of_lt r.shorter⟩
  | _ => none

/-! ### Numbers -/

/-- Reads a number. One that is too large stands for nothing where nobody looks at it. -/
def number (checked : Bool) : Reader Json := fun text => do
  let (numeral, rest) ← Numeral.read? text
  let value ← if checked then numeral.value? else some (numeral.value?.getD .null)
  if h : rest.length < text.length then return ⟨value, rest, h⟩ else none

/-! ### Values -/

/-- Reads a fixed word as the given value. -/
def word (letters : List Char) (value : Json) : Reader Json := fun text =>
  if letters.isPrefixOf text then
    if h : (text.drop letters.length).length < text.length then
      some ⟨value, text.drop letters.length, h⟩
    else none
  else none

/-- Reads a value that is neither a list nor an object. -/
def scalar (checked : Bool) : Reader Json := fun text =>
  match text.head? with
  | some 'n' => word ['n', 'u', 'l', 'l'] .null text
  | some 't' => word ['t', 'r', 'u', 'e'] (.bool true) text
  | some 'f' => word ['f', 'a', 'l', 's', 'e'] (.bool false) text
  | some '"' => (string checked text).map fun r => ⟨.string r.value, r.rest, r.shorter⟩
  | _ => number checked text

/-- Reads something after leading blanks. -/
def afterSpace {α : Type} (reader : Reader α) : Reader α := fun text =>
  (reader (skipSpace text)).map fun r =>
    ⟨r.value, r.rest, Nat.lt_of_lt_of_le r.shorter (length_skipSpace_le text)⟩

/-- Reads a fixed character after leading blanks. -/
def mark (c : Char) : Reader Unit :=
  afterSpace fun text =>
    match text with
    | d :: rest => if d = c then some ⟨(), rest, Nat.lt_succ_self _⟩ else none
    | [] => none

/-- Reads items with commas between them up to the closing character; there is at least one. -/
def sequence {α : Type} (item : Reader α) (close : Char) (text : List Char) :
    Option (Read (List α) text) := do
  let ⟨first, text₁, h₁⟩ ← item text
  match mark ',' text₁ with
  | some ⟨_, text₂, h₂⟩ =>
    let ⟨others, rest, h₃⟩ ← sequence item close text₂
    return ⟨first :: others, rest, by omega⟩
  | none =>
    let ⟨_, rest, h₂⟩ ← mark close text₁
    return ⟨[first], rest, by omega⟩
termination_by text.length

/-- Reads items with commas between them up to the closing character; there may be none. -/
def items {α : Type} (item : Reader α) (close : Char) : Reader (List α) := fun text =>
  match mark close text with
  | some ⟨_, rest, h⟩ => some ⟨[], rest, h⟩
  | none => sequence item close text

/-- Reads the name of a field, a colon and the value of the field, which may depend on the name. -/
def field (checked : Bool) (value : String → Reader Json) : Reader (String × Json) := fun text => do
  let ⟨name, text₁, h₁⟩ ← afterSpace (string checked) text
  let ⟨_, text₂, h₂⟩ ← mark ':' text₁
  let ⟨value, rest, h₃⟩ ← value name text₂
  return ⟨(name, value), rest, by omega⟩

/-- Reads one value, after leading blanks. Lists and objects nest at most `depth` deep in it. -/
def value (checked : Bool) : (depth : Nat) → Reader Json
  | 0 => afterSpace fun text =>
    if text.head? = some '[' || text.head? = some '\x7b' then none else scalar checked text
  | depth + 1 => afterSpace fun text =>
    match text with
    | '[' :: text => (items (value checked depth) ']' text).map fun r =>
      ⟨.array r.value, r.rest, Nat.lt_succ_of_lt r.shorter⟩
    | '\x7b' :: text =>
      (items (field checked fun _ => value checked depth) '\x7d' text).map fun r =>
        ⟨.object r.value, r.rest, Nat.lt_succ_of_lt r.shorter⟩
    | text => scalar checked text

/-- What was read, when nothing but blanks is left. -/
def Read.whole? {α : Type} {text : List Char} (r : Read α text) : Option α :=
  if (skipSpace r.rest).isEmpty then some r.value else none

end Parser

open LWorkbench.Json.Parser

/-- The value of a whole text. -/
def parse? (text : String) : Option Json := do
  (← value true depthLimit text.toList).whole?

/-- The fields of a whole text that is an object. Only the values of the fields in `known` are
looked at; of the others only the shape is checked, and they are left out. -/
def objectFields? (known : List String) (text : String) : Option (List (String × Json)) := do
  let chars := text.toList
  let ⟨_, inside, _⟩ ← mark '\x7b' chars
  let look (name : String) : Reader Json :=
    if known.contains name then value true (depthLimit - 1) else value false chars.length
  let fields ← (← items (field true look) '\x7d' inside).whole?
  return fields.filter fun f => known.contains f.1

end LWorkbench.Json
