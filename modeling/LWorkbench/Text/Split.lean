/-!
# Parts of a text

Many notations separate the parts of a text by single characters.

## Main definitions

* `splitWhere` — the parts between separators
* `joinWith` — the parts with a separator between them
-/

namespace LWorkbench

/-- The parts of a text between the characters that are separators. -/
def splitWhere (isSeparator : Char → Bool) : List Char → List (List Char)
  | [] => [[]]
  | c :: rest =>
    match splitWhere isSeparator rest with
    | [] => [[c]]
    | part :: parts => if isSeparator c then [] :: part :: parts else (c :: part) :: parts

/-- The parts with a separator between them. -/
def joinWith (separator : Char) : List (List Char) → List Char
  | [] => []
  | [part] => part
  | part :: next :: parts => part ++ separator :: joinWith separator (next :: parts)

end LWorkbench
