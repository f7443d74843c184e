import LWorkbench.Domain
import LWorkbench.Uri.Address
import LWorkbench.Uri.Percent

/-!
# Hosts

A host is given by a name or by an address. In a special uri the name is one of the network, so it
is brought into plain characters, and a name that ends in a number is an address. In another uri a
name is any text without a few forbidden characters.

## Main definitions

* `Host` — a name or an address
* `Host.ofSpecial?`, `Host.ofOther?` — reading a host
* `Host.render` — the text of a host
-/

namespace LWorkbench

/-- A name or an address of a host. -/
inductive Host where
  | name (text : String)
  | old (address : Nat)
  | new (pieces : List Nat)
  deriving DecidableEq, Repr

namespace Host

/-- The host that is nowhere. -/
def empty : Host := .name ""

/-- The text of a host. -/
def render : Host → String
  | .name text => text
  | .old address => Address.oldText address
  | .new pieces => "[" ++ Address.piecesText pieces ++ "]"

/-- Whether the host is nowhere. -/
def isEmpty (host : Host) : Bool := host == empty

/-- A new address between brackets. -/
def bracketed? (text : List Char) : Option Host :=
  if text.head? = some '[' && text.getLast? = some ']' then
    (Address.pieces? (text.drop 1).dropLast).map .new
  else none

/-- The host of a special uri. -/
def ofSpecial? (text : List Char) : Option Host :=
  if text.head? = some '[' then bracketed? text
  else do
    let name ← Domain.toPlain? (← Percent.decodeText? text)
    if name.isEmpty then none
    else if Address.looksOld name then (Address.old? name).map .old
    else return .name (String.ofList name)

/-- Whether no host of any uri may contain a character. -/
def isForbidden (c : Char) : Bool :=
  c.toNat = 0 || "\t\n\r #/:<>?@[\\]^|".toList.contains c

/-- The host of a uri that is not special. -/
def ofOther? (text : List Char) : Option Host :=
  if text.head? = some '[' then bracketed? text
  else if text.any isForbidden then none
  else some (.name (Percent.encode Percent.always text))

end Host

end LWorkbench
