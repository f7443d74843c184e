/-!
# Digits

Numbers are written with digits in several bases up to sixteen, where the letters from `a` on stand
for the digits from ten on, in either case.

## Main definitions

* `Digit.value?` — the value of a hexadecimal digit
* `Digit.number?` — the value of digits in a base
* `Digit.hexText` — a number in hexadecimal digits
-/

namespace LWorkbench.Digit

/-- The value of a hexadecimal digit. -/
def value? (c : Char) : Option Nat :=
  if c.isDigit then some (c.toNat - 48)
  else if 97 ≤ c.toNat ∧ c.toNat ≤ 102 then some (c.toNat - 87)
  else if 65 ≤ c.toNat ∧ c.toNat ≤ 70 then some (c.toNat - 55)
  else none

/-- The value of digits in a base of at most sixteen; no digits make zero. -/
def number? (base : Nat) (digits : List Char) : Option Nat :=
  digits.foldlM (fun n c => ((value? c).filter (· < base)).map (base * n + ·)) 0

/-- A number in small hexadecimal digits. -/
def hexText (n : Nat) : String :=
  String.ofList (Nat.toDigits 16 n)

end LWorkbench.Digit
