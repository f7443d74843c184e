import LWorkbench.Domain.Direction
import LWorkbench.Domain.Joining
import LWorkbench.Domain.Punycode
import LWorkbench.Text.Split

/-!
# Names of hosts

A host is named by labels with points between them. A name may be given in characters of any script
and is kept in plain ones: it is folded and composed, and every label with characters beyond U+007F
is written in plain ones after `xn--`. A label that is given in that form already has to stand for
one that would be written so.

## Main definitions

* `Domain.isPlain`, `Domain.isForbidden` — kinds of characters
* `Domain.isValidLabel` — whether a folded label may be used
* `Domain.toPlain?` — the name in plain characters
-/

namespace LWorkbench.Domain

/-- Whether a character is one of the plain ones. -/
def isPlain (c : Char) : Bool :=
  c.toNat < 0x80

/-- Whether no name of a host may contain a plain character. -/
def isForbidden (c : Char) : Bool :=
  c.toNat ≤ 0x20 || c.toNat = 0x7f || "%#/:<>?@[\\]^|".toList.contains c

/-- What a label in plain characters begins with when it stands for one in others. -/
def mark : List Char := ['x', 'n', '-', '-']

/-- The form in which names are compared. -/
def fold (name : List Char) : List Char :=
  Composition.normalize (name.flatMap Folding.image)

/-- Whether a label may be used: its characters are allowed, it does not begin with a mark, and its
joiners stand where they may. -/
def isValidLabel (label : List Char) : Bool :=
  label.all Folding.isAllowed && !(label.head?.map Mark.isMark).getD false &&
    Joining.joinersFit label

/-- The label that a label in plain characters stands for, which is the label itself unless it is
marked. A marked one must stand for a valid label that is not plain and is its own folded form. -/
def meaning? (label : List Char) : Option (List Char) :=
  if mark.isPrefixOf label then do
    if !label.all isPlain then none
    let decoded ← Punycode.decode? (label.drop mark.length)
    if decoded.all isPlain || fold decoded != decoded then none
    else some decoded
  else some label

/-- A folded label in plain characters. -/
def labelToPlain (label : List Char) : List Char :=
  if label.all isPlain then label else mark ++ Punycode.encode label

/-- The name of a host in plain characters; none if it may not be used. -/
def toPlain? (name : List Char) : Option (List Char) := do
  let folded := if name.all isPlain then name.map Char.toLower else fold name
  if folded.any fun c => isPlain c && isForbidden c then none
  let labels := splitWhere (· == '.') folded
  let meanings ← labels.mapM meaning?
  let marked := meanings.filter fun label => !label.all isPlain
  if !marked.all isValidLabel then none
  if marked.any (·.any Direction.isTwoWay) && !meanings.all Direction.isConsistent then none
  return joinWith '.' (labels.map labelToPlain)

end LWorkbench.Domain
