import LWorkbench.Text.Digit
import LWorkbench.Text.Split

/-!
# Addresses of hosts

A host can be given by its address. An old address is a number of 32 bits, written as up to four
numbers with points between them, each decimal, octal after `0` or hexadecimal after `0x`; the last
one fills all bytes that are left. A new address has eight pieces of 16 bits, written in hexadecimal
digits with colons between them; two colons stand for as many zeros as are missing, and the last two
pieces may be written as an old address.

## Main definitions

* `Address.looksOld` — whether a name of a host has to be an old address
* `Address.old?`, `Address.oldText` — reading and writing an old address
* `Address.pieces?`, `Address.piecesText` — reading and writing a new one
-/

namespace LWorkbench.Address

/-! ### Old addresses -/

/-- A number of an old address. -/
def number? : List Char → Option Nat
  | [] => none
  | '0' :: 'x' :: digits => Digit.number? 16 digits
  | '0' :: 'X' :: digits => Digit.number? 16 digits
  | '0' :: digits => Digit.number? 8 digits
  | digits => Digit.number? 10 digits

/-- The parts of a name, where a point at the end does not count. -/
def parts (name : List Char) : List (List Char) :=
  let parts := splitWhere (· == '.') name
  if parts.getLast? = some [] then parts.dropLast else parts

/-- Whether a name has to be an old address: its last part is a number. -/
def looksOld (name : List Char) : Bool :=
  match (parts name).getLast? with
  | none => false
  | some last => (!last.isEmpty && last.all Char.isDigit) || (number? last).isSome

/-- The address of a few bytes and a number that fills the rest. -/
def combine? (bytes : List Nat) (last : Nat) : Option Nat :=
  if 4 ≤ bytes.length || bytes.any (255 < ·) || Nat.pow 256 (4 - bytes.length) ≤ last then none
  else some (bytes.foldl (256 * · + ·) 0 * Nat.pow 256 (4 - bytes.length) + last)

/-- The old address that a name stands for. -/
def old? (name : List Char) : Option Nat := do
  let numbers ← (parts name).mapM number?
  combine? numbers.dropLast (← numbers.getLast?)

/-- An old address as four numbers. -/
def oldText (address : Nat) : String :=
  ".".intercalate ([3, 2, 1, 0].map fun i => toString (address / Nat.pow 256 i % 256))

/-! ### New addresses -/

/-- A piece of one to four hexadecimal digits. -/
def piece? (text : List Char) : Option Nat :=
  if text.isEmpty || 4 < text.length then none else Digit.number? 16 text

/-- A byte in decimal digits without needless zeros. -/
def byte? (text : List Char) : Option Nat :=
  if text.isEmpty || (1 < text.length && text.head? = some '0') then none
  else (Digit.number? 10 text).filter (· ≤ 255)

/-- Four bytes with points between them, as two pieces. -/
def bytePieces? (text : List Char) : Option (List Nat) := do
  match ← (splitWhere (· == '.') text).mapM byte? with
  | [a, b, c, d] => return [256 * a + b, 256 * c + d]
  | _ => none

/-- Pieces with colons between them, where the last may be four bytes if `bytesAllowed`. -/
def row? (bytesAllowed : Bool) (text : List Char) : Option (List Nat) := do
  if text.isEmpty then return []
  let groups := splitWhere (· == ':') text
  let last ← groups.getLast?
  let start ← groups.dropLast.mapM piece?
  if bytesAllowed && last.contains '.' then return start ++ (← bytePieces? last)
  else return start ++ [← piece? last]

/-- What stands before and after the first two colons in a row. -/
def splitGap? : List Char → Option (List Char × List Char)
  | ':' :: ':' :: rest => some ([], rest)
  | c :: rest => (splitGap? rest).map fun (before, after) => (c :: before, after)
  | [] => none

/-- The eight pieces of a new address. Two colons stand for at least one zero. -/
def pieces? (text : List Char) : Option (List Nat) := do
  match splitGap? text with
  | none => (row? true text).filter (·.length = 8)
  | some (before, after) =>
    let before ← row? false before
    let after ← row? true after
    if before.length + after.length < 8 then
      return before ++ List.replicate (8 - before.length - after.length) 0 ++ after
    else none

/-- How many zeros there are from a place on. -/
def zerosFrom (pieces : List Nat) (place : Nat) : Nat :=
  ((pieces.drop place).takeWhile (· = 0)).length

/-- The place where the first longest row of zeros begins. -/
def longestGap (pieces : List Nat) : Nat :=
  (List.range pieces.length).foldl
    (fun best place => if zerosFrom pieces best < zerosFrom pieces place then place else best) 0

/-- Pieces with colons between them. -/
def rowText (pieces : List Nat) : String :=
  ":".intercalate (pieces.map Digit.hexText)

/-- A new address, with two colons for the first longest row of at least two zeros. -/
def piecesText (pieces : List Nat) : String :=
  let place := longestGap pieces
  let zeros := zerosFrom pieces place
  if 2 ≤ zeros then rowText (pieces.take place) ++ "::" ++ rowText (pieces.drop (place + zeros))
  else rowText pieces

end LWorkbench.Address
