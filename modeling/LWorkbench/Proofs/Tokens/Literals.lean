import LWorkbench.Proofs.Tokens.Gaps

/-!
# Literals of strings

Every string can be written down in a program. Between two quotes of one kind a character stands for
itself, and only three need a backslash: the backslash, the quote, and the line feed, which is then
written as the letter `n`. Reading takes each of these pairs back to its character, and stops at the
first quote without a backslash, which is the closing one.

## Main definitions

* `Piece.written` — how one character is written between quotes
* `Token.literal` — a string between quotes

## Main results

* `Piece.closeString_written` — the quote that ends a literal is found, whatever comes behind it
* `Piece.unescape_written` — what stands between the quotes stands for the string
* `Lexeme.scan_literal` — a literal is read as its string
-/

namespace LWorkbench

namespace Piece

variable {quote : Char}

/-- How a character is written between quotes. -/
def written (quote c : Char) : List Char :=
  if c = '\\' then ['\\', '\\']
  else if c = quote then ['\\', quote]
  else if c = '\n' then ['\\', 'n']
  else [c]

/-- A character that is written with a backslash is the one that the pair stands for. -/
theorem written_cases (hquote : quote = '"' ∨ quote = singleQuote) (c : Char) :
    (∃ d, written quote c = ['\\', d] ∧ escape d = [c]) ∨
      (written quote c = [c] ∧ c ≠ quote ∧ c ≠ '\n' ∧ c ≠ '\\') := by
  by_cases hback : c = '\\'
  · exact .inl ⟨'\\', by simp [written, hback], by simp [escape, hback]⟩
  by_cases hclose : c = quote
  · subst hclose
    refine .inl ⟨c, by simp [written, hback], ?_⟩
    rcases hquote with rfl | rfl <;> decide
  by_cases hfeed : c = '\n'
  · refine .inl ⟨'n', ?_, by simp [escape, hfeed]⟩
    rw [written, if_neg hback, if_neg hclose, if_pos hfeed]
  · exact .inr ⟨by simp [written, hback, hclose, hfeed], hclose, hfeed, hback⟩

theorem backslash_ne (hquote : quote = '"' ∨ quote = singleQuote) : '\\' ≠ quote := by
  rcases hquote with rfl | rfl <;> decide

/-- No character of a literal ends it before its closing quote. -/
theorem closeString_written (hquote : quote = '"' ∨ quote = singleQuote) (chars rest : List Char) :
    closeString quote (chars.flatMap (written quote) ++ quote :: rest) =
      some (chars.flatMap (written quote), rest) := by
  induction chars with
  | nil => exact closeString_quote quote rest
  | cons c chars ih =>
    rw [List.flatMap_cons, List.append_assoc]
    obtain ⟨d, hpair, -⟩ | ⟨hplain, hclose, hfeed, hback⟩ := written_cases hquote c
    · rw [hpair, List.cons_append, List.singleton_append,
        closeString_escaped (backslash_ne hquote), ih]
      rfl
    · rw [hplain, List.singleton_append, closeString_plain hclose hfeed hback, ih]
      rfl

theorem unescape_plain {c : Char} (hback : c ≠ '\\') (rest : List Char) :
    unescape (c :: rest) = c :: unescape rest := by
  cases rest with
  | nil => rfl
  | cons d rest => rw [unescape, if_neg hback]

/-- The pairs and the characters between the quotes stand for the characters of the string. -/
theorem unescape_written (hquote : quote = '"' ∨ quote = singleQuote) (chars : List Char) :
    unescape (chars.flatMap (written quote)) = chars := by
  induction chars with
  | nil => rfl
  | cons c chars ih =>
    rw [List.flatMap_cons]
    obtain ⟨d, hpair, hescape⟩ | ⟨hplain, -, -, hback⟩ := written_cases hquote c
    · rw [hpair, List.cons_append, List.singleton_append, unescape, if_pos rfl, hescape, ih]
      rfl
    · rw [hplain, List.singleton_append, unescape_plain hback, ih]

/-- A literal is a piece of a text, whatever comes behind it. -/
theorem next_written (hquote : quote = '"' ∨ quote = singleQuote) (s : String) (rest : List Char) :
    next quote (s.toList.flatMap (written quote) ++ quote :: rest) =
      .ok ⟨quote :: s.toList.flatMap (written quote) ++ [quote], some (.string s), rest⟩ := by
  have hcut := Cut.string hquote (closeString_written hquote s.toList rest)
  rw [unescape_written hquote, String.ofList_toList] at hcut
  exact hcut.next

end Piece

/-- A string between quotes. Each backslash, each quote of this kind and each line feed is written
with a backslash in front, the line feed as a letter, and all other characters as they are. -/
def Token.literal (quote : Char) (s : String) : String :=
  String.ofList (quote :: s.toList.flatMap (Piece.written quote) ++ [quote])

namespace Lexeme

open Piece

/-- A literal is read as the one token of its string, and in front of anything that can be read it
is the first token. -/
theorem scan_literal (s : String) {quote : Char} (hquote : quote = '"' ∨ quote = singleQuote) :
    scan (Token.literal quote s) =
      .ok [⟨.string s, ⟨0, utf8Length (Token.literal quote s).toList⟩⟩] ∧
    ∀ rest words, scan (Token.literal quote s ++ rest) = .ok words →
      ∃ others, words = ⟨.string s, ⟨0, utf8Length (Token.literal quote s).toList⟩⟩ :: others := by
  have hread (rest : List Char) := scanFrom_of_next (next_written hquote s rest) 0
  dsimp only at hread
  rw [Nat.zero_add] at hread
  constructor
  · have halone := hread []
    rw [scanFrom] at halone
    simp only [scan, Token.literal, String.toList_ofList, List.cons_append, halone]
  · intro rest words hwords
    rw [scan, String.toList_append, Token.literal, String.toList_ofList, List.append_assoc,
      List.cons_append, List.singleton_append, hread] at hwords
    cases hbehind : scanFrom rest.toList
        (utf8Length (quote :: s.toList.flatMap (written quote) ++ [quote])) with
    | error cause =>
      rw [hbehind] at hwords
      cases hwords
    | ok others =>
      rw [hbehind] at hwords
      cases hwords
      exact ⟨others, by rw [Token.literal, String.toList_ofList]⟩

/-- A backslash, both quotes and a line feed in one literal, with another literal right behind. -/
theorem scan_literal_mixed :
    Token.literal '"' "\\\"'\n" = "\"\\\\\\\"'\\n\"" ∧
    scan "\"\\\\\\\"'\\n\"" = .ok [⟨.string "\\\"'\n", ⟨0, 9⟩⟩] ∧
    scan "\"\\\\\\\"'\\n\"''" =
      .ok [⟨.string "\\\"'\n", ⟨0, 9⟩⟩, ⟨.string "", ⟨9, 11⟩⟩] ∧
    ∃ others, [⟨.string "\\\"'\n", ⟨0, 9⟩⟩, ⟨.string "", ⟨9, 11⟩⟩] =
      (⟨.string "\\\"'\n", ⟨0, 9⟩⟩ : Lexeme) :: others := by
  have hliteral : Token.literal '"' "\\\"'\n" = "\"\\\\\\\"'\\n\"" := by decide
  have hlength : utf8Length "\"\\\\\\\"'\\n\"".toList = 9 := by decide
  have hscan : scan ("\"\\\\\\\"'\\n\"" ++ "''") =
      .ok [⟨.string "\\\"'\n", ⟨0, 9⟩⟩, ⟨.string "", ⟨9, 11⟩⟩] := by decide +kernel
  obtain ⟨halone, hfront⟩ := scan_literal "\\\"'\n" (.inl rfl : '"' = '"' ∨ '"' = singleQuote)
  rw [hliteral, hlength] at halone hfront
  exact ⟨hliteral, halone, hscan, hfront _ _ hscan⟩

end Lexeme

end LWorkbench
