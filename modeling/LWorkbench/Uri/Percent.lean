import LWorkbench.Text.Digit
import LWorkbench.Text.Utf8

/-!
# Percent signs

In a uri a character that has no place of its own is written as its bytes, each as a percent sign
with two hexadecimal digits. Which characters have a place depends on the part of the uri; control
characters and characters beyond U+007E never have one.

## Main definitions

* `Percent.encode` — a text with the characters of a set written as bytes
* `Percent.decode` — bytes with the written ones put in
* `Percent.inFragment`, `Percent.inQuery`, `Percent.inSpecialQuery`, `Percent.inPath`,
  `Percent.inUser` — the sets of the parts
-/

namespace LWorkbench.Percent

/-- Characters that are written as bytes. -/
abbrev CharSet := Char → Bool

/-- The control characters and all characters beyond U+007E. -/
def always : CharSet := fun c => c.toNat < 0x20 || 0x7f ≤ c.toNat

/-- The characters written as bytes in a fragment. -/
def inFragment : CharSet := fun c => always c || [' ', '"', '<', '>', '\x60'].contains c

/-- The characters written as bytes in a query. -/
def inQuery : CharSet := fun c => always c || [' ', '"', '#', '<', '>'].contains c

/-- The characters written as bytes in a query of a special uri. -/
def inSpecialQuery : CharSet := fun c => inQuery c || c = '\x27'

/-- The characters written as bytes in a path. -/
def inPath : CharSet := fun c => inFragment c || ['#', '?', '\x7b', '\x7d'].contains c

/-- The characters written as bytes in the name of a user and in a password. -/
def inUser : CharSet := fun c =>
  inPath c || ['/', ':', ';', '=', '@', '[', '\\', ']', '^', '|'].contains c

/-- A digit of a written byte. -/
def digit (n : Nat) : Char :=
  if n < 10 then Char.ofNat (48 + n) else Char.ofNat (55 + n)

/-- A byte as it is written. -/
def encodeByte (b : UInt8) : List Char :=
  ['%', digit (b.toNat / 16), digit (b.toNat % 16)]

/-- A character, written as bytes if it is in the set. -/
def encodeChar (set : CharSet) (c : Char) : List Char :=
  if set c then (Utf8.encode (String.singleton c)).flatMap encodeByte else [c]

/-- A text with the characters of a set written as bytes. -/
def encode (set : CharSet) (text : List Char) : String :=
  String.ofList (text.flatMap (encodeChar set))

/-- The value of a byte that is a hexadecimal digit. -/
def byteDigit? (b : UInt8) : Option Nat :=
  Digit.value? (Char.ofNat b.toNat)

/-- Bytes with the written ones put in; a percent sign without two digits stands for itself. -/
def decode : List UInt8 → List UInt8
  | [] => []
  | [a] => [a]
  | [a, b] => [a, b]
  | a :: b :: c :: rest =>
    match if a = 37 then (byteDigit? b).bind fun x => (byteDigit? c).map (16 * x + ·) else none with
    | some value => value.toUInt8 :: decode rest
    | none => a :: decode (b :: c :: rest)

/-- The text that a text with written bytes stands for, if its bytes make a text. -/
def decodeText? (text : List Char) : Option (List Char) :=
  match Utf8.decode (decode (Utf8.encode (String.ofList text))) with
  | .ok decoded => some decoded.toList
  | .error _ => none

end LWorkbench.Percent
