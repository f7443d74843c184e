/-!
# Binary numbers taken apart

Numbers of the language are IEEE 754 doubles. To print one with the fewest digits, to take an exact
remainder or to use one as an index, it is taken apart into a sign and a value
`significand * 2 ^ exponent` with whole `significand`, and put together again from such a value.

## Main definitions

* `Binary` — a double taken apart: not a number, infinite, or finite
* `Binary.ofFloat` — taking a double apart
* `Binary.toFloat` — the double with a given sign, significand and exponent
* `Binary.natValue?` — the whole number that a double is, if it is one and not negative
* `Float.remainder` — the exact remainder, with the sign of the dividend
-/

namespace LWorkbench

/-- A double taken apart. A finite one is `significand * 2 ^ exponent`, negated when `negative`. -/
inductive Binary where
  | notANumber
  | infinite (negative : Bool)
  | finite (negative : Bool) (significand : Nat) (exponent : Int)
  deriving DecidableEq, Repr

namespace Binary

/-- The least exponent of a double whose significand is whole. -/
def leastExponent : Int := -1074

/-- The significand from which on a double has its full 53 bits. -/
def fullSignificand : Nat := Nat.pow 2 52

/-- The sign, exponent and significand fields of the bits, read as a value. -/
def ofBits (bits : UInt64) : Binary :=
  let word := bits.toNat
  let negative := Nat.pow 2 63 ≤ word
  let field := word / fullSignificand % Nat.pow 2 11
  let fraction := word % fullSignificand
  if field = 2047 then
    if fraction = 0 then infinite negative else notANumber
  else if field = 0 then finite negative fraction leastExponent
  else finite negative (fullSignificand + fraction) (leastExponent + (field - 1 : Nat))

/-- Takes a double apart. -/
def ofFloat (x : Float) : Binary :=
  ofBits x.toBits

/-- The double nearest to `significand * 2 ^ exponent`, with the given sign. -/
def toFloat (negative : Bool) (significand : Nat) (exponent : Int) : Float :=
  let magnitude :=
    if 0 ≤ exponent then Float.ofScientific (significand * Nat.pow 2 exponent.toNat) false 0
    else Float.ofScientific (significand * Nat.pow 5 (-exponent).toNat) true (-exponent).toNat
  if negative then -magnitude else magnitude

/-- The whole number that a value is, when it is one and is not negative; zero counts with either
sign. -/
def natValue? : Binary → Option Nat
  | finite negative significand exponent =>
    if negative && significand != 0 then none
    else if 0 ≤ exponent then some (significand * Nat.pow 2 exponent.toNat)
    else
      let unit := Nat.pow 2 (-exponent).toNat
      if significand % unit = 0 then some (significand / unit) else none
  | _ => none

/-- The whole number whose magnitude a finite value has, when it is whole. -/
def wholeMagnitude? : Binary → Option Nat
  | finite _ significand exponent => natValue? (finite false significand exponent)
  | _ => none

end Binary

namespace Number

/-- The remainder of `x` by `y`: what is left of `x` after taking `y` away a whole number of times,
rounding that number toward zero, so that it has the sign of `x`. It is exact. There is none for an
infinite `x` or a zero `y`, and an infinite `y` leaves `x` as it is. -/
def remainder (x y : Float) : Float :=
  let nan : Float := 0.0 / 0.0
  match Binary.ofFloat x, Binary.ofFloat y with
  | .finite negative a p, .finite _ b q =>
    if b = 0 then nan
    else
      let exponent := min p q
      let left := a * Nat.pow 2 (p - exponent).toNat % (b * Nat.pow 2 (q - exponent).toNat)
      Binary.toFloat negative left exponent
  | .finite .., .infinite _ => x
  | _, _ => nan

end Number

end LWorkbench
