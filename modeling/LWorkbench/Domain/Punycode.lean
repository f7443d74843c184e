/-!
# Names in plain characters

A name with characters beyond U+007F is written in plain letters, digits and hyphens: first its
plain characters, then, after a hyphen, where the others go. The others are put in one after the
other, in the order of their numbers. The state of a reader counts through all places of the text
for one number, then for the next number, and what is written is how many steps to skip before a
character is put in. Steps are written in base 36 with digits of varying weight, which adapt to
the steps before.

## Main definitions

* `Punycode.encode` — a text in plain characters
* `Punycode.decode?` — the text that plain characters stand for
-/

namespace LWorkbench.Punycode

/-- The number of digits. -/
def base : Nat := 36

/-- The character of a digit. -/
def digit (n : Nat) : Char :=
  if n < 26 then Char.ofNat (97 + n) else Char.ofNat (48 + (n - 26))

/-- The digit of a character. -/
def digitValue? (c : Char) : Option Nat :=
  if c.isLower then some (c.toNat - 97)
  else if c.isUpper then some (c.toNat - 65)
  else if c.isDigit then some (c.toNat - 48 + 26)
  else none

/-- The digit from which on a further digit follows, at a position and with a bias. -/
def threshold (position bias : Nat) : Nat :=
  min 26 (max 1 (position - bias))

theorem threshold_pos (position bias : Nat) : 1 ≤ threshold position bias := by
  simp only [threshold]; omega

/-- Brings a step into the range of the bias, counting the divisions from `count` on. -/
def shrink (delta count : Nat) : Nat :=
  if 455 < delta then shrink (delta / 35) (count + base)
  else count + base * delta / (delta + 38)
termination_by delta
decreasing_by exact Nat.div_lt_self (by omega) (by omega)

/-- The bias after a step, with the number of characters then; the first step counts less. -/
def adapt (delta count : Nat) (isFirst : Bool) : Nat :=
  let delta := if isFirst then delta / 700 else delta / 2
  shrink (delta + delta / count) 0

/-! ### Writing -/

/-- A step in digits. -/
def stepDigits (bias position step : Nat) : List Char :=
  let t := threshold position bias
  if step < t then [digit step]
  else
    digit (t + (step - t) % (base - t)) ::
      stepDigits bias (position + base) ((step - t) / (base - t))
termination_by step
decreasing_by
  have hpos := threshold_pos position bias
  exact Nat.lt_of_le_of_lt (Nat.div_le_self _ _) (by omega)

/-- What has been written, the steps since the last character, the bias, and how many characters
have been dealt with. -/
structure Writer where
  written : List Char
  step : Nat
  bias : Nat
  count : Nat

/-- Goes over one character of the text while characters with the number `code` are put in. -/
def Writer.pass (plain code : Nat) (w : Writer) (c : Char) : Writer :=
  if c.toNat < code then { w with step := w.step + 1 }
  else if c.toNat = code then
    { written := w.written ++ stepDigits w.bias base w.step
      step := 0
      bias := adapt w.step (w.count + 1) (w.count = plain)
      count := w.count + 1 }
  else w

/-- Puts in the characters with the given numbers, which are in increasing order, from the number
`next` on. -/
def Writer.putIn (plain : Nat) (text : List Char) (w : Writer) (next : Nat) : List Nat → Writer
  | [] => w
  | code :: codes =>
    let w := { w with step := w.step + (code - next) * (w.count + 1) }
    let w := text.foldl (pass plain code) w
    { w with step := w.step + 1 }.putIn plain text (code + 1) codes

/-- The numbers of the characters beyond U+007F, each once and in increasing order. -/
def codes (text : List Char) : List Nat :=
  (((text.map Char.toNat).filter (0x80 ≤ ·)).mergeSort (· ≤ ·)).eraseDups

/-- A text in plain characters. -/
def encode (text : List Char) : List Char :=
  let plain := text.filter (·.toNat < 0x80)
  let start := if plain.isEmpty then [] else plain ++ ['-']
  let w : Writer := ⟨start, 0, 72, plain.length⟩
  (w.putIn plain.length text 0x80 (codes text)).written

/-! ### Reading -/

/-- Numbers that do not fit into 32 bits are refused. -/
def fitting? (n : Nat) : Option Nat :=
  if n < Nat.pow 2 32 then some n else none

/-- Something read from the head of a text, with what is left, which is shorter than the text. -/
abbrev Step (text : List Char) := { read : Nat × List Char // read.2.length < text.length }

/-- Reads the digits of a step, which is added to `i`, and gives what is left. -/
def readStep? (bias position weight i : Nat) : (text : List Char) → Option (Step text)
  | [] => none
  | c :: rest => do
    let value ← digitValue? c
    let i ← fitting? (i + value * weight)
    let t := threshold position bias
    if value < t then return ⟨(i, rest), Nat.lt_succ_self _⟩
    else
      let weight ← fitting? (weight * (base - t))
      let ⟨read, h⟩ ← readStep? bias (position + base) weight i rest
      return ⟨read, Nat.lt_succ_of_lt h⟩

/-- The character with a number, if there is one. -/
def char? (code : Nat) : Option Char :=
  let c := Char.ofNat code
  if c.toNat = code then some c else none

/-- The text after all steps have been read: `code` is the number of the character to be put in, and
`i` the place. -/
def readFrom? (text : List Char) (code i bias : Nat) (input : List Char) : Option (List Char) :=
  if input.isEmpty then some text
  else do
    let ⟨(j, rest), _⟩ ← readStep? bias base 1 i input
    let count := text.length + 1
    let code := code + j / count
    let c ← char? code
    let place := j % count
    readFrom? (text.take place ++ c :: text.drop place) code (place + 1)
      (adapt (j - i) count (i = 0)) rest
termination_by input.length

/-- The plain characters before the last hyphen, and what comes after it. A hyphen at the very
beginning does not count. -/
def splitPlain (input : List Char) : List Char × List Char :=
  let rest := (input.reverse.takeWhile (· != '-')).reverse
  if rest.length + 1 < input.length then (input.take (input.length - rest.length - 1), rest)
  else ([], input)

/-- The text that plain characters stand for. -/
def decode? (input : List Char) : Option (List Char) :=
  let (plain, steps) := splitPlain input
  readFrom? plain 0x80 0 72 steps

end LWorkbench.Punycode
