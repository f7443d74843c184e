import LWorkbench.Number.Binary

/-!
# Shortest decimal digits

A double is printed with the fewest decimal digits that read back as the same double; of several
such decimals the nearest is taken, and of two equally near ones the larger. Reading rounds to
nearest, ties to the even significand, so the decimals that read back as
`significand * 2 ^ exponent` form an interval around it that includes its ends exactly when the
significand is even.

Everything is exact arithmetic on natural numbers.

## Main definitions

* `Decimal` — the number `digits * 10 ^ exponent`
* `Decimal.shortest` — the decimal chosen for a positive double
* `Decimal.layout` — its text without an exponent, padded with zeros
* `Number.shortestText`, `Number.display` — the two texts of a double
-/

namespace LWorkbench

/-- The number `digits * 10 ^ exponent`. -/
structure Decimal where
  digits : Nat
  exponent : Int
  deriving DecidableEq, Repr

namespace Decimal

/-- The number of decimal digits; zero has one. -/
def digitCount (n : Nat) : Nat :=
  (Nat.toDigits 10 n).length

/-- The least `k` with `num / den < 10 ^ k`, for a positive fraction. -/
def magnitude (num den : Nat) : Int :=
  if den ≤ num then digitCount (num / den)
  else
    let above := (den + num - 1) / num - 1
    1 - (if above = 0 then 0 else digitCount above : Nat)

/-- The interval of reals that read back as a given double, in units that make its ends and middle
whole: a real `d * step` lies in it when `low ≤ d * step ≤ high`, strictly unless `closed`. -/
structure Interval where
  low : Nat
  middle : Nat
  high : Nat
  closed : Bool

namespace Interval

/-- Whether a point lies in the interval. -/
def contains (i : Interval) (point : Nat) : Bool :=
  if i.closed then i.low ≤ point && point ≤ i.high else i.low < point && point < i.high

/-- The multiple of `step` in the interval that is nearest to its middle, the larger of two equally
near ones. Only the neighbours of the middle can be in the interval if any multiple is. -/
def nearestMultiple? (i : Interval) (step : Nat) : Option Nat :=
  let below := i.middle / step
  let above := below + 1
  match i.contains (below * step), i.contains (above * step) with
  | true, true =>
    if i.middle - below * step < above * step - i.middle then some below else some above
  | true, false => some below
  | false, true => some above
  | false, false => none

end Interval

/-- Drops trailing zero digits, at most `fuel` of them. -/
def trim : (fuel : Nat) → Decimal → Decimal
  | 0, d => d
  | fuel + 1, d =>
    if d.digits % 10 = 0 then trim fuel ⟨d.digits / 10, d.exponent + 1⟩ else d

/-- The decimal with `count` digits, or with the fewest digits above that, that reads back as
`significand * 2 ^ exponent`; `rounds` bounds the search. -/
def search (significand : Nat) (exponent magnitude : Int) : (count rounds : Nat) → Option Decimal
  | _, 0 => none
  | count, rounds + 1 =>
    let scale := magnitude - count
    let factor := Nat.pow 2 (exponent - 2).toNat * Nat.pow 10 (-scale).toNat
    let step := Nat.pow 10 scale.toNat * Nat.pow 2 (2 - exponent).toNat
    let gap :=
      if significand = Binary.fullSignificand && Binary.leastExponent < exponent then 1 else 2
    let interval : Interval :=
      { low := (4 * significand - gap) * factor
        middle := 4 * significand * factor
        high := (4 * significand + 2) * factor
        closed := significand % 2 = 0 }
    match interval.nearestMultiple? step with
    | some digits => some (trim 20 ⟨digits, scale⟩)
    | none => search significand exponent magnitude (count + 1) rounds

/-- The decimal with the fewest digits that reads back as the double `significand * 2 ^ exponent`.
Seventeen digits always suffice. -/
def shortest (significand : Nat) (exponent : Int) : Decimal :=
  let magnitude := magnitude (significand * Nat.pow 2 exponent.toNat) (Nat.pow 2 (-exponent).toNat)
  (search significand exponent magnitude 1 18).getD ⟨significand, 0⟩

/-- The decimal written out without an exponent. -/
def layout (d : Decimal) : String :=
  let digits := Nat.toDigits 10 d.digits
  if 0 ≤ d.exponent then String.ofList (digits ++ List.replicate d.exponent.toNat '0')
  else
    let places := (-d.exponent).toNat
    let whole := digits.length - places
    if digits.length ≤ places then
      String.ofList ('0' :: '.' :: (List.replicate (places - digits.length) '0' ++ digits))
    else String.ofList (digits.take whole ++ '.' :: digits.drop whole)

end Decimal

namespace Number

/-- A number with the sign in front of the text of its magnitude. -/
def signed (negative : Bool) (text : String) : String :=
  if negative then "-" ++ text else text

/-- The text of a number in the description of a token: the shortest digits, never an exponent. -/
def shortestText (x : Float) : String :=
  match Binary.ofFloat x with
  | .notANumber => "NaN"
  | .infinite negative => signed negative "inf"
  | .finite negative significand exponent =>
    if significand = 0 then signed negative "0"
    else signed negative (Decimal.shortest significand exponent).layout

/-- The whole numbers below this bound are printed exactly. -/
def exactBound : Nat := Nat.pow 10 21

/-- The text of a number value: whole numbers below `exactBound` exactly and zero without a sign,
all others by their shortest digits. -/
def display (x : Float) : String :=
  match Binary.ofFloat x with
  | .notANumber => "NaN"
  | .infinite negative => signed negative "Infinity"
  | .finite negative significand exponent =>
    match Binary.wholeMagnitude? (.finite negative significand exponent) with
    | some n =>
      if n = 0 then "0"
      else if n < exactBound then signed negative (toString n)
      else signed negative (Decimal.shortest significand exponent).layout
    | none => signed negative (Decimal.shortest significand exponent).layout

end Number

end LWorkbench
