import LWorkbench.Editor.Caret

/-!
# Edits

An editor tells what its user changed. An edit puts a new text in place of a range of the old one,
or in place of all of it when there is no range. The ends of a range are carets of the text before
the edit and may come in either order.

## Main definitions

* `splice` — a text with a part of it replaced
* `Edit`, `Edit.apply` — a change and what it does
* `Edit.applyAll` — several changes, each on the text that the one before left
-/

namespace LWorkbench

/-- The text with the characters from index `start` to index `stop` replaced. -/
def splice (text : String) (start stop : Nat) (replacement : String) : String :=
  String.ofList (text.toList.take start ++ replacement.toList ++ text.toList.drop stop)

/-- A change of a text. -/
structure Edit where
  /-- What is replaced; none stands for the whole text. -/
  range : Option TextRange
  replacement : String
  deriving DecidableEq, Repr

namespace Edit

/-- The text after a change. -/
def apply (text : String) (edit : Edit) : String :=
  match edit.range with
  | none => edit.replacement
  | some range =>
    let a := range.start.index text
    let b := range.stop.index text
    splice text (min a b) (max a b) edit.replacement

/-- The text after several changes, one after the other. -/
def applyAll (text : String) (edits : List Edit) : String :=
  edits.foldl apply text

@[simp] theorem applyAll_nil (text : String) : applyAll text [] = text := rfl

@[simp] theorem applyAll_cons (text : String) (edit : Edit) (edits : List Edit) :
    applyAll text (edit :: edits) = applyAll (apply text edit) edits := rfl

@[simp] theorem applyAll_append (text : String) (edits later : List Edit) :
    applyAll text (edits ++ later) = applyAll (applyAll text edits) later :=
  List.foldl_append

end Edit

end LWorkbench
