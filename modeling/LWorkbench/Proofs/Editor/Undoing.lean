import LWorkbench.Proofs.Editor.Lines
import LWorkbench.Editor.Edit
import Mathlib

/-!
# Taking edits back

An edit puts a text in place of a part of another one. The two ends of the part lie in the text,
whatever carets they were given as. To take the edit back, the part is put where the replacement
stands now. What was put in may have joined a carriage return with a line feed, taken them apart, or
moved everything behind it to other lines and columns, so the carets of the inverse edit are those
that the ends of the replacement have in the new text.

Several edits are taken back from the last one to the first.

## Main definitions

* `Edit.Splices` — what an edit takes out of a text, and what it leaves in front of it and behind it
* `Edit.inverse` — the edit that takes an edit back
* `Edit.inverses` — the edits that take several edits back

## Main results

* `Edit.exists_splices` — an edit of a range is a splice between places of the text
* `Edit.apply_inverse` — the inverse restores the text
* `Edit.edits_undone` — edits splice, and every sequence of edits can be taken back
-/

namespace LWorkbench

namespace Caret

/-- A caret stands in the text. -/
theorem seek_le_length (target : Caret) (chars : List Char) (index : Nat) (caret : Caret) :
    seek target chars index caret ≤ index + chars.length := by
  fun_induction seek target chars index caret with
  | case1 => exact Nat.le_refl _
  | case2 => exact Nat.le_add_right _ _
  | case3 c rest index caret hpass ih =>
    rw [List.length_cons]
    omega

theorem index_le_length (text : String) (caret : Caret) :
    caret.index text ≤ text.toList.length :=
  (seek_le_length caret text.toList 0 origin).trans_eq (Nat.zero_add _)

end Caret

namespace Edit

variable {text : String} {edit : Edit} {range : TextRange} {replacement : String}
  {front removed back : List Char}

/-- The ends of a range, in the order of the text, have `front` in front of them and `back` behind
them, with `removed` in between. -/
structure Splices (text : String) (range : TextRange) (front removed back : List Char) : Prop where
  parts : text.toList = front ++ removed ++ back
  start : front.length = min (range.start.index text) (range.stop.index text)
  stop : (front ++ removed).length = max (range.start.index text) (range.stop.index text)

/-- The two ends of a range lie in the text, and cut it into three parts. -/
theorem exists_splices (text : String) (range : TextRange) :
    ∃ front removed back, Splices text range front removed back := by
  have hstart := range.start.index_le_length text
  have hstop := range.stop.index_le_length text
  generalize hlow : min (range.start.index text) (range.stop.index text) = low
  generalize hhigh : max (range.start.index text) (range.stop.index text) = high
  have hle : low ≤ high := by omega
  have htake : text.toList.take low ++ (text.toList.take high).drop low = text.toList.take high := by
    conv_rhs => rw [← List.take_append_drop low (text.toList.take high)]
    rw [List.take_take, Nat.min_eq_left hle]
  refine ⟨text.toList.take low, (text.toList.take high).drop low, text.toList.drop high, ?_, ?_, ?_⟩
  · rw [htake, List.take_append_drop]
  · rw [List.length_take, hlow]
    omega
  · rw [htake, List.length_take, hhigh]
    omega

/-- The replacement takes the place of what is between the ends of the range. -/
theorem Splices.toList_apply (h : Splices text range front removed back) (replacement : String) :
    (apply text ⟨some range, replacement⟩).toList = front ++ replacement.toList ++ back := by
  change (splice text (min _ _) (max _ _) replacement).toList = _
  rw [splice, String.toList_ofList, ← h.start, ← h.stop, h.parts, List.drop_left,
    List.append_assoc front removed, List.take_left]

/-! ### Back to the text before -/

/-- The edit that takes an edit back: it puts what the edit took out in place of what the edit put
in. -/
def inverse (text : String) (edit : Edit) : Edit :=
  match edit.range with
  | none => ⟨none, text⟩
  | some range =>
    let start := min (range.start.index text) (range.stop.index text)
    let stop := max (range.start.index text) (range.stop.index text)
    let offset := utf8Length (text.toList.take start)
    let span : Span := ⟨offset, offset + utf8Length edit.replacement.toList⟩
    ⟨some (.ofSpan (edit.apply text) span), String.ofList ((text.toList.take stop).drop start)⟩

/-- The edits that take several edits back, the last one first. -/
def inverses (text : String) : List Edit → List Edit
  | [] => []
  | edit :: edits => inverses (apply text edit) edits ++ [inverse text edit]

/-- The range of the inverse is that of the replacement in the new text. -/
theorem Splices.inverse_eq (h : Splices text range front removed back) (replacement : String) :
    inverse text ⟨some range, replacement⟩ =
      ⟨some (.ofSpan (apply text ⟨some range, replacement⟩)
        ⟨utf8Length front, utf8Length front + utf8Length replacement.toList⟩),
        String.ofList removed⟩ := by
  have hfront : text.toList.take front.length = front := by
    rw [h.parts, List.append_assoc, List.take_left]
  have hremoved : (text.toList.take (front ++ removed).length).drop front.length = removed := by
    rw [h.parts, List.take_left, List.drop_left]
  simp only [inverse, ← h.start, ← h.stop, hfront, hremoved]

/-- In the new text the range of the inverse has the same text in front of it and behind it, with the
replacement in between. -/
theorem Splices.ofSpan (h : Splices text range front removed back) (replacement : String) :
    Splices (apply text ⟨some range, replacement⟩)
      (.ofSpan (apply text ⟨some range, replacement⟩)
        ⟨utf8Length front, utf8Length front + utf8Length replacement.toList⟩)
      front replacement.toList back := by
  have hparts := h.toList_apply replacement
  have hstart := Caret.index_ofOffset (hparts.trans (List.append_assoc ..))
  have hstop := Caret.index_ofOffset hparts
  rw [utf8Length_append] at hstop
  refine ⟨hparts, ?_, ?_⟩ <;> rw [TextRange.ofSpan, hstart, hstop, List.length_append] <;> omega

theorem Splices.apply_inverse (h : Splices text range front removed back) (replacement : String) :
    apply (apply text ⟨some range, replacement⟩) (inverse text ⟨some range, replacement⟩) = text := by
  rw [h.inverse_eq, ← String.toList_inj, (h.ofSpan replacement).toList_apply, String.toList_ofList,
    ← h.parts]

/-- The inverse of an edit restores the text. -/
theorem apply_inverse (text : String) (edit : Edit) :
    apply (apply text edit) (inverse text edit) = text := by
  obtain ⟨_ | range, replacement⟩ := edit
  · rfl
  · obtain ⟨front, removed, back, h⟩ := exists_splices text range
    exact h.apply_inverse replacement

/-- The inverses of several edits restore the text, the last edit being taken back first. -/
theorem applyAll_inverses (text : String) (edits : List Edit) :
    applyAll (applyAll text edits) (inverses text edits) = text := by
  induction edits generalizing text with
  | nil => rfl
  | cons edit edits ih =>
    rw [applyAll_cons, inverses, applyAll_append, ih, applyAll_cons, applyAll_nil]
    exact apply_inverse text edit

/-- Edits are splices and can be taken back. Whatever carets the range of an edit has, they cut the
text into three parts, and the edit puts the replacement in place of the part between them. The edit
that puts this part in place of the replacement, whose range is that of the replacement in the new
text, restores the text, and its carets fit into 32 bits if the new text has less than 2 ^ 32 bytes.
So every sequence of edits is taken back by its inverses in the reverse order. -/
theorem edits_undone (text : String) :
    (∀ range replacement, ∃ front removed back after,
      text.toList = front ++ removed ++ back ∧
      front.length = min (range.start.index text) (range.stop.index text) ∧
      (front ++ removed).length = max (range.start.index text) (range.stop.index text) ∧
      apply text ⟨some range, replacement⟩ = after ∧
      after.toList = front ++ replacement.toList ++ back ∧
      ∃ start stop,
        start = Caret.ofOffset after (utf8Length front) ∧
        stop = Caret.ofOffset after (utf8Length (front ++ replacement.toList)) ∧
        inverse text ⟨some range, replacement⟩ = ⟨some ⟨start, stop⟩, String.ofList removed⟩ ∧
        apply after ⟨some ⟨start, stop⟩, String.ofList removed⟩ = text ∧
        (utf8Length after.toList < 2 ^ 32 →
          start.line < 2 ^ 32 ∧ start.column < 2 ^ 32 ∧ stop.line < 2 ^ 32 ∧ stop.column < 2 ^ 32)) ∧
    ∀ edits, applyAll (applyAll text edits) (inverses text edits) = text := by
  refine ⟨fun range replacement => ?_, applyAll_inverses text⟩
  obtain ⟨front, removed, back, h⟩ := exists_splices text range
  have hafter := h.toList_apply replacement
  have hinverse := h.inverse_eq replacement
  have hback := h.apply_inverse replacement
  rw [hinverse] at hback
  refine ⟨front, removed, back, _, h.parts, h.start, h.stop, rfl, hafter, _, _, rfl, rfl, ?_, ?_, ?_⟩
  · rw [hinverse, utf8Length_append]
    rfl
  · rw [utf8Length_append]
    exact hback
  · intro hsize
    have hstart : AtEdge (apply text ⟨some range, replacement⟩) (utf8Length front) :=
      ⟨front, _, hafter.trans (List.append_assoc ..), (Nat.zero_add _).symm⟩
    have hstop : AtEdge (apply text ⟨some range, replacement⟩)
        (utf8Length (front ++ replacement.toList)) := ⟨_, back, hafter, (Nat.zero_add _).symm⟩
    have hstart_le := hstart.le_utf8Length
    have hstop_le := hstop.le_utf8Length
    have hstart_sum := Caret.line_add_column_le _ hstart
    have hstop_sum := Caret.line_add_column_le _ hstop
    omega

/-- A carriage return put in front of a line feed joins it in one break, and is taken out again from
between the two columns of that break. -/
example : apply "a\nb" ⟨some ⟨⟨0, 1⟩, ⟨0, 1⟩⟩, "\r"⟩ = "a\r\nb" ∧
    inverse "a\nb" ⟨some ⟨⟨0, 1⟩, ⟨0, 1⟩⟩, "\r"⟩ = ⟨some ⟨⟨0, 1⟩, ⟨0, 2⟩⟩, ""⟩ := by
  decide

end Edit

end LWorkbench
