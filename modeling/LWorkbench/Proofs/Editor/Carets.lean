import LWorkbench.Editor.Caret
import LWorkbench.Proofs.Layout

/-!
# Carets and offsets

The caret at an offset is found by reading the characters in front of the offset one after another.
Each of them moves the caret on, to the next line or along the same one, so no caret is reached
twice. Looking for a caret reads the same characters again and stops in front of the first one that
would lead past it. So at the edge of a character the caret of an offset leads back to the offset.
Words begin and end at edges of characters.

## Main definitions

* `Caret.Before` — the order of carets in a text
* `Caret.read` — where reading several characters leads
* `AtEdge` — an offset at the edge of a character

## Main results

* `Caret.offset_ofOffset_of_atEdge` — the caret of an offset leads back to it
* `Caret.before_ofOffset` — carets are in the order of the offsets
* `Program.Contains.atEdge` — nodes begin and end at edges of characters
-/

namespace LWorkbench

/-- The offset stands in front of one of the characters or at their end, where the first of them
starts at byte `start`. -/
def EdgeFrom (start : Nat) (chars : List Char) (offset : Nat) : Prop :=
  ∃ before after, chars = before ++ after ∧ offset = start + utf8Length before

/-- The offset stands in front of a character of the text, or at its end. -/
def AtEdge (text : String) (offset : Nat) : Prop := EdgeFrom 0 text.toList offset

theorem AtEdge.exists_split {text : String} {offset : Nat} (h : AtEdge text offset) :
    ∃ before after, text.toList = before ++ after ∧ offset = utf8Length before := by
  obtain ⟨before, after, htext, hoffset⟩ := h
  exact ⟨before, after, htext, by omega⟩

theorem AtEdge.le_utf8Length {text : String} {offset : Nat} (h : AtEdge text offset) :
    offset ≤ utf8Length text.toList := by
  obtain ⟨before, after, htext, rfl⟩ := h.exists_split
  rw [htext, utf8Length_append]
  exact Nat.le_add_right _ _

/-- Characters in front of others do not change where the others begin and end. -/
theorem EdgeFrom.append {start offset : Nat} {chars : List Char} (front : List Char)
    (h : EdgeFrom (start + utf8Length front) chars offset) :
    EdgeFrom start (front ++ chars) offset := by
  obtain ⟨before, after, rfl, hoffset⟩ := h
  refine ⟨front ++ before, after, (List.append_assoc ..).symm, ?_⟩
  rw [hoffset, utf8Length_append, Nat.add_assoc]

theorem utf16Width_pos (c : Char) : 0 < utf16Width c := by
  unfold utf16Width
  split <;> decide

/-! ### Reading characters -/

namespace Caret

variable {a b c : Caret} {text : String} {offset offset' : Nat}

/-- The caret stands on an earlier line than another one, or in front of it on the same line. -/
def Before (a b : Caret) : Prop :=
  a.line < b.line ∨ a.line = b.line ∧ a.column < b.column

theorem Before.trans (hab : a.Before b) (hbc : b.Before c) : a.Before c := by
  unfold Before at *
  omega

theorem Before.ne (h : a.Before b) : a ≠ b := by
  rintro rfl
  unfold Before at h
  omega

theorem eq_or_before (h : ¬ b.Before a) : a = b ∨ a.Before b := by
  obtain ⟨line, column⟩ := a
  obtain ⟨line', column'⟩ := b
  simp only [Before, mk.injEq] at h ⊢
  omega

/-- The caret that is reached by reading the characters of `before`, with `after` behind them. -/
def read (caret : Caret) : (before after : List Char) → Caret
  | [], _ => caret
  | c :: before, after => (caret.after c (before ++ after).head?).read before after

/-- Every character moves the caret on. -/
theorem before_after (caret : Caret) (c : Char) (next : Option Char) :
    caret.Before (caret.after c next) := by
  have hwidth := utf16Width_pos c
  unfold after
  split
  · exact .inl (Nat.lt_succ_self _)
  · exact .inr ⟨rfl, Nat.lt_add_of_pos_right hwidth⟩

theorem read_append (caret : Caret) (before between after : List Char) :
    caret.read (before ++ between) after =
      (caret.read before (between ++ after)).read between after := by
  induction before generalizing caret with
  | nil => rfl
  | cons c before ih => rw [List.cons_append, read, read, ih, List.append_assoc]

theorem before_read (caret : Caret) {before : List Char} (after : List Char) (h : before ≠ []) :
    caret.Before (caret.read before after) := by
  induction before generalizing caret with
  | nil => exact absurd rfl h
  | cons c before ih =>
    have hfirst := caret.before_after c (before ++ after).head?
    rcases eq_or_ne before [] with rfl | hne
    · exact hfirst
    · exact hfirst.trans (ih _ hne)

/-- Reading never leads back. -/
theorem le_read (caret : Caret) (before after : List Char) :
    caret.line < (caret.read before after).line ∨
      caret.line = (caret.read before after).line ∧
        caret.column ≤ (caret.read before after).column := by
  rcases eq_or_ne before [] with rfl | hne
  · exact .inr ⟨rfl, Nat.le_refl _⟩
  · exact (caret.before_read after hne).imp_right (And.imp_right Nat.le_of_lt)

/-! ### From offsets to carets and back -/

/-- The caret at an offset is reached by reading the characters in front of it. -/
theorem reach_eq (before after : List Char) (index : Nat) (caret : Caret) :
    reach (index + utf8Length before) (before ++ after) index caret =
      caret.read before after := by
  induction before generalizing index caret with
  | nil =>
    cases after with
    | nil => rfl
    | cons c after =>
      have hpos := c.utf8Size_pos
      rw [List.nil_append, reach, if_pos (by simpa using hpos), read]
  | cons c before ih =>
    have hpast : ¬ index + utf8Length (c :: before) < index + c.utf8Size := by
      rw [utf8Length_cons]
      omega
    rw [List.cons_append, reach, if_neg hpast, utf8Length_cons, ← Nat.add_assoc, ih, read]

theorem ofOffset_eq {before after : List Char} (h : text.toList = before ++ after) :
    ofOffset text (utf8Length before) = origin.read before after := by
  have hreach := reach_eq before after 0 origin
  rw [Nat.zero_add] at hreach
  rw [ofOffset, h, hreach]

/-- Looking for a caret passes the characters that do not lead past it. -/
theorem seek_append (target : Caret) (before after : List Char) (index : Nat) (caret : Caret)
    (h : ¬ target.Before (caret.read before after)) :
    seek target (before ++ after) index caret =
      seek target after (index + before.length) (caret.read before after) := by
  induction before generalizing index caret with
  | nil => rfl
  | cons c before ih =>
    -- What is looked for stands behind the first character, so that character is passed.
    have hpast : ¬ (target.line < caret.line ∨
        caret.line = target.line ∧ target.column < caret.column + utf16Width c) := by
      have hreached := (caret.after c (before ++ after).head?).le_read before after
      rw [read] at h
      generalize (caret.after c (before ++ after).head?).read before after = reached at h hreached
      unfold Before at h
      unfold Caret.after at hreached
      split at hreached
      · dsimp only at hreached
        omega
      · dsimp only at hreached
        omega
    rw [List.cons_append, seek, if_neg (by simpa using hpast), ih _ _ h, read, List.length_cons,
      Nat.add_assoc, Nat.add_comm 1]

theorem seek_self (after : List Char) (index : Nat) (caret : Caret) :
    seek caret after index caret = index := by
  cases after with
  | nil => rfl
  | cons c after => rw [seek, if_pos (by simp [utf16Width_pos c])]

/-- Looking for a caret stops where reading led to it. -/
theorem seek_read (before after : List Char) (index : Nat) (caret : Caret) :
    seek (caret.read before after) (before ++ after) index caret = index + before.length := by
  rw [seek_append _ _ _ _ _ fun h => h.ne rfl, seek_self]

/-- The caret behind some characters of a text has as many characters in front of it. -/
theorem index_ofOffset {before after : List Char} (h : text.toList = before ++ after) :
    (ofOffset text (utf8Length before)).index text = before.length := by
  rw [ofOffset_eq h, index, h, seek_read, Nat.zero_add]

/-- At the edge of a character the caret of an offset leads back to the offset. -/
theorem offset_ofOffset_of_atEdge (h : AtEdge text offset) :
    (ofOffset text offset).offset text = offset := by
  obtain ⟨before, after, htext, rfl⟩ := h.exists_split
  rw [Caret.offset, index_ofOffset htext, htext, List.take_left]

/-- Carets are in the order of the offsets. -/
theorem before_ofOffset (h : AtEdge text offset) (h' : AtEdge text offset')
    (hlt : offset < offset') : (ofOffset text offset).Before (ofOffset text offset') := by
  obtain ⟨before, after, htext, rfl⟩ := h.exists_split
  obtain ⟨before', after', htext', rfl⟩ := h'.exists_split
  rw [ofOffset_eq htext, ofOffset_eq htext']
  -- The shorter prefix of the text begins the longer one.
  rcases List.append_eq_append_iff.1 (htext.symm.trans htext') with
    ⟨between, rfl, rfl⟩ | ⟨between, rfl, rfl⟩
  · rw [read_append]
    apply before_read
    rintro rfl
    simp at hlt
  · rw [utf8Length_append] at hlt
    omega

end Caret

/-! ### Where words stand -/

namespace Lexeme

variable {text : String} {words : List Lexeme}

/-- Words begin and end at edges of characters. -/
theorem edges_of_scanFrom {chars : List Char} {start : Nat}
    (h : scanFrom chars start = .ok words) :
    ∀ l ∈ words, EdgeFrom start chars l.span.start ∧ EdgeFrom start chars l.span.stop := by
  fun_induction scanFrom chars start generalizing words with
  | case1 =>
    cases h
    exact List.forall_mem_nil _
  | case2 => cases h
  | case3 start c rest piece hpiece stop lexemes token htoken hlexemes =>
    rename_i ih
    cases h
    have htext := (Piece.lexeme_append_rest hpiece).1
    refine List.forall_mem_cons.2 ⟨⟨⟨[], c :: rest, rfl, rfl⟩, ?_⟩, fun l hl => ?_⟩
    · exact ⟨piece.lexeme, piece.rest, htext.symm, rfl⟩
    · obtain ⟨hstart, hstop⟩ := ih hlexemes l hl
      rw [← htext]
      exact ⟨hstart.append piece.lexeme, hstop.append piece.lexeme⟩
  | case4 start c rest piece hpiece stop =>
    rename_i ih
    intro l hl
    obtain ⟨hstart, hstop⟩ := ih h l hl
    rw [← (Piece.lexeme_append_rest hpiece).1]
    exact ⟨hstart.append piece.lexeme, hstop.append piece.lexeme⟩

theorem edges_of_scan (h : scan text = .ok words) :
    ∀ l ∈ words, AtEdge text l.span.start ∧ AtEdge text l.span.stop := by
  unfold scan at h
  split at h
  · rename_i lexemes hscan
    cases h
    exact edges_of_scanFrom hscan
  · cases h

end Lexeme

/-- The nodes of a program that is parsed begin and end at edges of characters. -/
theorem Program.Contains.atEdge {p : Program} {text : String} {n : Node}
    (hparse : parse text = .ok p) (hn : p.Contains n) :
    AtEdge text n.span.start ∧ AtEdge text n.span.stop := by
  obtain ⟨words, hscan, hspread⟩ := spread_of_parse hparse
  obtain ⟨l, hl, hstart⟩ := hspread.starts n (contains_iff_mem.1 hn)
  obtain ⟨l', hl', hstop⟩ := hspread.stops n (contains_iff_mem.1 hn)
  rw [hstart, hstop]
  exact ⟨(Lexeme.edges_of_scan hscan l hl).1, (Lexeme.edges_of_scan hscan l' hl').2⟩

end LWorkbench
