import LWorkbench.Proofs.Editor.Lines
import LWorkbench.Editor.Edit

/-!
# Past the end of a line

A column may be larger than a line is wide. The break belongs to the line it ends and has columns as
other characters do, so a caret stays in front of the break only as long as its column is not past
what stands there. One column further it stands behind the first character of the break, and behind
all of it at the beginning of the next line. An edit that ends there takes the break with it and joins
the two lines. The last line has no break, and a caret never leaves it.

## Main definitions

* `content`, `lineBreak` — a line without its break, and the break
* `IsBreak` — what ends a line

## Main results

* `isBreak_lineBreak`, `lineBreak_of_unbroken` — lines that end have a break, the last one has none
* `Caret.past_line_end` — where a caret on a line stands, and what an edit that ends there keeps
-/

namespace LWorkbench

/-! ### Breaks -/

/-- A line without its break. -/
def content (line : List Char) : List Char :=
  line.takeWhile fun c => !endsLine c none

/-- The break of a line. -/
def lineBreak (line : List Char) : List Char :=
  line.dropWhile fun c => !endsLine c none

/-- A line is ended by a carriage return with a line feed, or by one character. -/
inductive IsBreak : List Char → Prop
  | pair : IsBreak ['\r', '\n']
  | single {c : Char} (h : endsLine c none) : IsBreak [c]

section Breaks

variable {part after line behind : List Char} {c : Char} {next : Option Char} {column : Nat}

theorem content_append_lineBreak (line : List Char) : content line ++ lineBreak line = line :=
  List.takeWhile_append_dropWhile

/-- A carriage return is the only character whose line may go on. -/
theorem endsLine_none (h : endsLine c next) : endsLine c none := by
  unfold endsLine at *
  split at h
  · rw [if_pos ‹_›]
    rfl
  · rwa [if_neg ‹_›]

theorem eq_of_endsLine_none (hc : endsLine c none) (h : endsLine c next = false) :
    c = '\r' ∧ next = some '\n' := by
  unfold endsLine at *
  split at h
  · exact ⟨‹_›, by simpa using h⟩
  · rename_i hne
    rw [if_neg hne, h] at hc
    cases hc

/-- A character that ends a line has one column. -/
theorem utf16Width_of_endsLine (h : endsLine c none) : utf16Width c = 1 := by
  refine if_pos ?_
  unfold endsLine at h
  split at h
  · rename_i hc
    rw [hc]
    decide
  · simp only [List.contains_cons, List.contains_nil, Bool.or_false, Bool.or_eq_true, beq_iff_eq] at h
    omega

theorem utf16Width_of_lineBreak {rest : List Char} (h : lineBreak line = c :: rest) :
    utf16Width c = 1 := by
  have hhead := List.head?_dropWhile_not (fun c => !endsLine c none) line
  rw [← lineBreak, h] at hhead
  exact utf16Width_of_endsLine (by simpa using hhead)

/-- Where no line ends, nothing but a carriage return at the end can be a part of a break. -/
theorem Unbroken.cases (h : Unbroken part after) :
    (∀ c ∈ part, endsLine c none = false) ∨
      ∃ plain, part = plain ++ ['\r'] ∧ after.head? = some '\n' ∧
        ∀ c ∈ plain, endsLine c none = false := by
  induction part with
  | nil => exact .inl (List.forall_mem_nil _)
  | cons c part ih =>
    obtain ⟨hc, hpart⟩ := h
    cases hplain : endsLine c none with
    | false =>
      rcases ih hpart with hall | ⟨plain, rfl, hafter, hall⟩
      · exact .inl (List.forall_mem_cons.2 ⟨hplain, hall⟩)
      · exact .inr ⟨c :: plain, rfl, hafter, List.forall_mem_cons.2 ⟨hplain, hall⟩⟩
    | true =>
      obtain ⟨rfl, hnext⟩ := eq_of_endsLine_none hplain hc
      cases part with
      | nil => exact .inr ⟨[], rfl, hnext, List.forall_mem_nil _⟩
      | cons d part =>
        -- A line feed behind the carriage return would end the line.
        obtain rfl : d = '\n' := Option.some.inj hnext
        exact absurd hpart.1 (by simp [endsLine])

theorem lineBreak_append (h : ∀ c ∈ part, endsLine c none = false) (behind : List Char) :
    lineBreak (part ++ behind) = lineBreak behind :=
  List.dropWhile_append_of_pos fun c hc => by rw [h c hc]; rfl

theorem isBreak_lineBreak (h : Ended line behind) : IsBreak (lineBreak line) := by
  obtain ⟨part, c, rfl, hpart, hend⟩ := h
  rcases hpart.cases with hall | ⟨plain, rfl, hnext, hall⟩
  · have hc := endsLine_none hend
    rw [lineBreak_append hall, lineBreak, List.dropWhile_cons_of_neg (by simpa using hc)]
    exact .single hc
  · obtain rfl : c = '\n' := Option.some.inj hnext
    rw [List.append_assoc, lineBreak_append hall]
    exact .pair

theorem lineBreak_of_unbroken (h : Unbroken line []) : lineBreak line = [] := by
  rcases h.cases with hall | ⟨plain, -, hnext, -⟩
  · have hbreak := lineBreak_append hall []
    rwa [List.append_nil] at hbreak
  · cases hnext

/-- A line that is not the last one has a break. -/
theorem LineAt.lineBreak {chars front : List Char} {number : Nat}
    (h : LineAt chars number front line behind) :
    number + 1 < (lines chars).length ∧ IsBreak (lineBreak line) ∨
      number + 1 = (lines chars).length ∧ lineBreak line = [] :=
  h.ends.imp (fun h => ⟨h.2, isBreak_lineBreak h.1⟩)
    fun h => ⟨h.2.2, lineBreak_of_unbroken h.1⟩

/-! ### Columns at the end of a line -/

/-- A character fits if the column is not in front of its end. -/
theorem length_lt_fitting_iff (part rest : List Char) :
    part.length < fitting column (part ++ c :: rest) ↔
      utf16Length part + utf16Width c ≤ column := by
  have htake : (part ++ c :: rest).take (part.length + 1) = part ++ [c] := by
    rw [List.take_append, List.take_of_length_le (Nat.le_succ _), Nat.add_sub_cancel_left,
      List.take_one]
    rfl
  have hwidth : utf16Length ((part ++ c :: rest).take (part.length + 1)) =
      utf16Length part + utf16Width c := by
    rw [htake, utf16Length_append, utf16Length_cons, utf16Length_nil, Nat.add_zero]
  rw [← hwidth]
  constructor
  · intro h
    obtain ⟨between, hbetween⟩ := List.take_prefix_take_left (l := part ++ c :: rest) h
    have hfits := utf16Length_take_fitting column (part ++ c :: rest)
    rw [← hbetween, utf16Length_append] at hfits
    exact Nat.le_of_add_right_le hfits
  · exact le_fitting (by simp)

/-- Nothing of the break fits if the column is not past the content. -/
theorem fitting_le_content_iff :
    fitting column line ≤ (content line).length ↔
      column ≤ utf16Length (content line) ∨ lineBreak line = [] := by
  cases hbreak : lineBreak line with
  | nil =>
    have hline := content_append_lineBreak line
    rw [hbreak, List.append_nil] at hline
    rw [hline]
    exact iff_of_true (fitting_le_length column line) (.inr rfl)
  | cons c rest =>
    have hnext : (content line).length < fitting column (content line ++ c :: rest) ↔ _ :=
      length_lt_fitting_iff (content line) rest
    rw [← hbreak, content_append_lineBreak, utf16Width_of_lineBreak hbreak] at hnext
    simp only [reduceCtorEq, or_false]
    omega

/-- The rest of a line has the whole break if it begins in front of it. -/
theorem lineBreak_suffix_drop_iff (k : Nat) :
    lineBreak line <:+ line.drop k ↔ k ≤ (content line).length ∨ lineBreak line = [] := by
  have hline := content_append_lineBreak line
  have hlength := congrArg List.length hline
  rw [List.length_append] at hlength
  constructor
  · intro h
    have hle := h.length_le
    rw [List.length_drop] at hle
    rw [← List.length_eq_zero_iff]
    omega
  · rintro (hk | hnone)
    · refine ⟨(content line).drop k, ?_⟩
      conv_rhs => rw [← hline]
      exact (List.drop_append_of_le_length hk).symm
    · rw [hnone]
      exact List.nil_suffix

end Breaks

/-! ### Edits that end on a line -/

namespace Caret

variable {text : String} {start caret : Caret} {front line behind : List Char}

/-- An edit keeps what stands in front of the caret it begins at and behind the one it ends at, in
whichever order it names them. -/
theorem toList_edit (h : ¬ caret.Before start) {range : TextRange}
    (hrange : range = ⟨start, caret⟩ ∨ range = ⟨caret, start⟩) (replacement : String) :
    (Edit.apply text ⟨some range, replacement⟩).toList =
      text.toList.take (start.index text) ++ replacement.toList ++
        text.toList.drop (caret.index text) := by
  have hle : start.index text ≤ caret.index text := by
    rcases eq_or_before h with rfl | hbefore
    · exact Nat.le_refl _
    · exact index_mono hbefore
  rcases hrange with rfl | rfl
  · change (splice text (min _ _) (max _ _) replacement).toList = _
    rw [splice, String.toList_ofList, Nat.min_eq_left hle, Nat.max_eq_right hle]
  · change (splice text (min _ _) (max _ _) replacement).toList = _
    rw [splice, String.toList_ofList, Nat.min_eq_right hle, Nat.max_eq_left hle]

/-- Where a caret on a line stands, and what an edit that ends there keeps. A line that is not the last
one has a break. The caret stands at or in front of the break as long as its column is not past the
content of the line, and leads back to its line as long as its column is not past the break; from there
on it is taken to the beginning of the next line. An edit that ends there keeps the end of the line
from the caret on and all lines behind it. So it keeps the break if the caret is not past the content,
and nothing of the line if the caret is past the break. -/
theorem past_line_end (text : String) (caret : Caret) (h : caret.line < lineCount text) :
    ∃ line, (lines text.toList)[caret.line]? = some line ∧
      (caret.line + 1 < lineCount text ∧ IsBreak (lineBreak line) ∨
        caret.line + 1 = lineCount text ∧ lineBreak line = []) ∧
      (caret.index text ≤
          ((lines text.toList).take caret.line).flatten.length + (content line).length ↔
        caret.column ≤ utf16Length (content line) ∨ lineBreak line = []) ∧
      (ofOffset text (caret.offset text) =
        if utf16Length line ≤ caret.column ∧ caret.line + 1 < lineCount text then
          ⟨caret.line + 1, 0⟩
        else ⟨caret.line, utf16Length (line.take (fitting caret.column line))⟩) ∧
      ∀ start range, ¬ caret.Before start → range = ⟨start, caret⟩ ∨ range = ⟨caret, start⟩ →
        ∀ replacement, ∃ kept, kept <:+ line ∧
          (Edit.apply text ⟨some range, replacement⟩).toList =
            text.toList.take (start.index text) ++ replacement.toList ++
              (kept ++ ((lines text.toList).drop (caret.line + 1)).flatten) ∧
          (lineBreak line <:+ kept ↔
            caret.column ≤ utf16Length (content line) ∨ lineBreak line = []) ∧
          (kept = [] ↔ utf16Length line ≤ caret.column) := by
  rw [← length_lines] at h ⊢
  obtain ⟨line, hget⟩ : ∃ line, (lines text.toList)[caret.line]? = some line :=
    ⟨_, List.getElem?_eq_getElem h⟩
  -- The text is what stands in front of the line, the line with its break, and what is behind.
  obtain ⟨front, behind, hline⟩ := exists_lineAt hget
  refine ⟨line, hget, hline.lineBreak, ?_, ?_, fun start range hstart hrange replacement =>
    ⟨line.drop (fitting caret.column line), List.drop_suffix .., ?_, ?_, ?_⟩⟩
  · rw [index_eq hline, ← hline.front_eq, Nat.add_le_add_iff_left, fitting_le_content_iff]
  · exact ofOffset_offset hline
  · rw [toList_edit hstart hrange, drop_index hline, ← hline.behind_eq]
  · rw [lineBreak_suffix_drop_iff, fitting_le_content_iff, or_assoc, or_self]
  · have hle := fitting_le_length caret.column line
    rw [List.drop_eq_nil_iff, ← fitting_eq_length_iff]
    omega

/-- An edit that ends in front of a break of two characters keeps both. -/
theorem past_line_end_pair :
    (⟨0, 3⟩ : Caret).index "é😀\r\nb" ≤ 2 ∧
    ofOffset "é😀\r\nb" ((⟨0, 3⟩ : Caret).offset "é😀\r\nb") = ⟨0, 3⟩ ∧
    "\r\nb".toList <:+ (Edit.apply "é😀\r\nb" ⟨some ⟨⟨0, 1⟩, ⟨0, 3⟩⟩, "x"⟩).toList := by
  obtain ⟨line, hline, -, hindex, hback, hedit⟩ :=
    past_line_end "é😀\r\nb" ⟨0, 3⟩ (by decide)
  obtain rfl : "é😀\r\n".toList = line := Option.some.inj hline
  refine ⟨hindex.2 (.inl (by decide)), hback, ?_⟩
  have hstart : ¬ (⟨0, 3⟩ : Caret).Before ⟨0, 1⟩ := by simp [Before]
  obtain ⟨kept, -, hafter, hbreak, -⟩ := hedit ⟨0, 1⟩ _ hstart (.inl rfl) "x"
  obtain ⟨words, rfl⟩ := hbreak.2 (.inl (by decide))
  rw [hafter, List.append_assoc words]
  exact (List.suffix_append words _).trans (List.suffix_append _ _)

/-- A column past the end of the first line leads to the second one, and an edit up to there removes
the break between the two. -/
theorem edit_joins_lines :
    (⟨0, 5⟩ : Caret).line < lineCount "a\nb" ∧
    ofOffset "a\nb" ((⟨0, 5⟩ : Caret).offset "a\nb") = ⟨1, 0⟩ ∧
    Edit.apply "a\nb" ⟨some ⟨⟨0, 0⟩, ⟨0, 5⟩⟩, ""⟩ = "b" := by
  decide

end Caret

end LWorkbench
