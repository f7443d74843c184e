/-!
# Texts on one line

What is written into a line must not end it. A line is ended by a line feed.

## Main definitions

* `OneLine` — a text without line feeds

## Main results

* `oneLine_append` — joined texts stand on one line when each of them does
* `oneLine_toString` — numbers stand on one line
-/

namespace LWorkbench

/-- The text has no line feed. -/
def OneLine (text : String) : Prop := '\n' ∉ text.toList

instance (text : String) : Decidable (OneLine text) :=
  inferInstanceAs (Decidable (_ ∉ _))

theorem oneLine_append {a b : String} : OneLine (a ++ b) ↔ OneLine a ∧ OneLine b := by
  rw [OneLine, String.toList_append, List.mem_append, not_or, OneLine, OneLine]

theorem isDigit_lineFeed : Char.isDigit '\n' = false := by decide

theorem lineFeed_not_mem_toDigits (n : Nat) : '\n' ∉ Nat.toDigits 10 n := fun h => by
  have hdigit := Nat.isDigit_of_mem_toDigits (by decide) (by decide) h
  rw [isDigit_lineFeed] at hdigit
  cases hdigit

theorem oneLine_toString (n : Nat) : OneLine (toString n) := by
  rw [OneLine, Nat.toString_eq_ofList_toDigits, String.toList_ofList]
  exact lineFeed_not_mem_toDigits n

end LWorkbench
