import LWorkbench.Json

/-!
# Numbers in JSON

A number is written with an optional sign, whole digits, a fraction and an exponent. Without
fraction and exponent it is a whole number if it fits into 64 bits, signed or not, and minus zero
is fractional like every other number.

A fractional number is read as a significand of 64 bits times a power of ten. Digits that do not
fit into the significand any more only count as powers of ten when they are whole, and not at all
when they are in the fraction. The double is the one nearest to the significand, multiplied or
divided by the double nearest to the power of ten, so it may be next to the double nearest to the
number. A number is too large when that product is.

## Main definitions

* `Json.Numeral`, `Json.Numeral.read?` — the parts of a written number
* `Json.Scaled`, `Json.Scaled.toFloat?` — a significand times a power of ten, and its double
* `Json.Numeral.value?` — the value of a written number, unless it is too large
-/

namespace LWorkbench.Json

/-! ### Reading the parts -/

/-- An exponent: its sign and its value. -/
structure Exponent where
  negative : Bool
  magnitude : Nat
  deriving DecidableEq, Repr

/-- The parts of a written number: its sign, whole digits, fraction digits and exponent. -/
structure Numeral where
  negative : Bool
  whole : List Char
  places : List Char
  exponent : Option Exponent
  deriving DecidableEq, Repr

namespace Numeral

/-- The value of a decimal digit. -/
def digitValue (c : Char) : Nat := c.toNat - 48

/-- The value of decimal digits. -/
def digitsValue (digits : List Char) : Nat :=
  digits.foldl (fun n c => 10 * n + digitValue c) 0

/-- Splits a text after its leading digits. -/
def digits (text : List Char) : List Char × List Char :=
  (text.takeWhile Char.isDigit, text.dropWhile Char.isDigit)

/-- The digits of an exponent, which there must be, with the given sign. -/
def exponentDigits (negative : Bool) (text : List Char) : Option (Exponent × List Char) :=
  match digits text with
  | ([], _) => none
  | (ds, rest) => some (⟨negative, digitsValue ds⟩, rest)

/-- The optional exponent of a number. -/
def readExponent (text : List Char) : Option (Option Exponent × List Char) :=
  match text with
  | c :: rest =>
    if c = 'e' || c = 'E' then
      let signed :=
        match rest with
        | '+' :: rest => exponentDigits false rest
        | '-' :: rest => exponentDigits true rest
        | rest => exponentDigits false rest
      signed.map fun (value, rest) => (some value, rest)
    else some (none, text)
  | [] => some (none, [])

/-- The optional fraction of a number: a point with at least one digit after it. -/
def readPlaces (text : List Char) : Option (List Char × List Char) :=
  match text with
  | '.' :: rest =>
    match digits rest with
    | ([], _) => none
    | (ds, rest) => some (ds, rest)
  | _ => some ([], text)

/-- The whole digits of a number: a single zero, or digits that do not begin with one. -/
def readWhole (text : List Char) : Option (List Char × List Char) :=
  match digits text with
  | ([], _) => none
  | ('0' :: _ :: _, _) => none
  | (ds, rest) => some (ds, rest)

/-- Reads the parts of a number after its sign, and gives what is left of the text. -/
def readAfterSign (negative : Bool) (text : List Char) : Option (Numeral × List Char) := do
  let (whole, text) ← readWhole text
  let (places, text) ← readPlaces text
  let (exponent, rest) ← readExponent text
  return (⟨negative, whole, places, exponent⟩, rest)

/-- Reads the parts of a number, and gives what is left of the text. -/
def read? : List Char → Option (Numeral × List Char)
  | '-' :: text => readAfterSign true text
  | text => readAfterSign false text

end Numeral

/-! ### Fractional numbers -/

/-- The number `significand * 10 ^ exponent`. -/
structure Scaled where
  significand : Nat
  exponent : Int
  deriving DecidableEq, Repr

namespace Scaled

/-- The number zero. -/
def zero : Scaled := ⟨0, 0⟩

/-- The significand with one more digit, if it still fits into 64 bits. -/
def append? (s : Scaled) (digit : Char) : Option Nat :=
  let longer := s.significand * 10 + Numeral.digitValue digit
  if longer < Nat.pow 2 64 then some longer else none

/-- Takes a whole digit. From the first digit on that does not fit, digits only scale. -/
def appendWhole (s : Scaled) (digit : Char) : Scaled :=
  match if s.exponent = 0 then s.append? digit else none with
  | some longer => ⟨longer, s.exponent⟩
  | none => ⟨s.significand, s.exponent + 1⟩

/-- Takes the digits of a fraction, up to the first that does not fit. -/
def appendPlaces (s : Scaled) : List Char → Scaled
  | [] => s
  | digit :: digits =>
    match s.append? digit with
    | some longer => appendPlaces ⟨longer, s.exponent - 1⟩ digits
    | none => s

/-- The number that whole digits and fraction digits stand for. -/
def ofDigits (whole places : List Char) : Scaled :=
  (whole.foldl appendWhole zero).appendPlaces places

/-- The largest power of ten that is a double. -/
def largestPower : Nat := 308

/-- The double nearest to a power of ten. -/
def powerOfTen (n : Nat) : Float := Float.ofScientific 1 false n

/-- The double divided by a power of ten, in steps of the largest one. -/
def divide (x : Float) (n : Nat) : Float :=
  if n ≤ largestPower then x / powerOfTen n
  else if x == 0.0 then x
  else divide (x / powerOfTen largestPower) (n - largestPower)
termination_by n
decreasing_by unfold largestPower at *; omega

/-- The double multiplied by a power of ten, unless that is too large. -/
def multiply? (x : Float) (n : Nat) : Option Float :=
  if x == 0.0 then some x
  else if n ≤ largestPower then
    let product := x * powerOfTen n
    if product.isInf then none else some product
  else none

/-- The double for the number; none if it is too large. -/
def toFloat? (s : Scaled) : Option Float :=
  let x := Float.ofScientific s.significand false 0
  if 0 ≤ s.exponent then multiply? x s.exponent.toNat else some (divide x (-s.exponent).toNat)

end Scaled

namespace Numeral

/-- The number without its sign. -/
def scaled (n : Numeral) : Scaled :=
  let s := Scaled.ofDigits n.whole n.places
  match n.exponent with
  | none => s
  | some ⟨true, e⟩ => ⟨s.significand, s.exponent - e⟩
  | some ⟨false, e⟩ => ⟨s.significand, s.exponent + e⟩

/-- The value of a written number; none if it is too large. -/
def value? (n : Numeral) : Option Json :=
  let magnitude := digitsValue n.whole
  let isWhole := n.places.isEmpty && n.exponent.isNone
  if isWhole && !n.negative && magnitude < Nat.pow 2 64 then some (.int magnitude)
  else if isWhole && n.negative && 0 < magnitude && magnitude ≤ Nat.pow 2 63 then
    some (.int (-magnitude))
  else n.scaled.toFloat?.map fun x => .float (if n.negative then -x else x)

end Numeral

end LWorkbench.Json
