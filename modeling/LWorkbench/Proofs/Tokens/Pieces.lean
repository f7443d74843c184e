import LWorkbench.Token.Lexer
import Mathlib

/-!
# Pieces of a text

The first character of a text, and behind a slash the second one, say which kind of piece the text
begins with, because no character begins pieces of two kinds. Where a piece ends is decided by what
stands inside it, and for numbers, words and marks also by the character behind it. A blank goes on
with none of them. So a token that has been read from a text is read again wherever its characters
stand in front of a blank or at the end.

## Main definitions

* `Piece.Cut` — the pieces that a text can begin with
* `Piece.Apart` — a text that begins with a blank, or is empty

## Main results

* `Piece.next_eq_ok_iff` — reading a piece finds the one that the text begins with
* `Piece.Cut.next_apart` — a token is read again in front of a blank
-/

namespace LWorkbench

/-! ### Classes of characters -/

namespace CharClass

variable {c : Char}

/-- The code points of all blanks. -/
def blankCodes : List Nat :=
  List.range' 0x9 5 ++ [0x20, 0x85, 0xA0, 0x1680] ++ List.range' 0x2000 11 ++
    [0x2028, 0x2029, 0x202F, 0x205F, 0x3000]

theorem toNat_mem_blankCodes (h : isBlank c) : c.toNat ∈ blankCodes := by
  simp only [isBlank, Ranges.covers, blanks, List.any_cons, List.any_nil, Bool.or_false,
    Bool.or_eq_true, Bool.and_eq_true, decide_eq_true_eq] at h
  simp only [blankCodes, List.mem_append, List.mem_range'_1, List.mem_cons, List.not_mem_nil,
    or_false]
  omega

/-- No blank is part of a word. -/
theorem not_continuesWord_of_isBlank (h : isBlank c) : continuesWord c = false := by
  have hall : blankCodes.all fun n => !continuesWord (Char.ofNat n) := by decide +kernel
  have hcode := List.all_eq_true.1 hall c.toNat (toNat_mem_blankCodes h)
  simpa using hcode

theorem not_isDigit_of_isBlank (h : isBlank c) : c.isDigit = false := by
  have hword := not_continuesWord_of_isBlank h
  simp only [continuesWord, isLetterOrDigit, Bool.or_eq_false_iff] at hword
  exact hword.1.1.1.2

theorem not_startsWord_of_isBlank (h : isBlank c) : startsWord c = false := by
  have hword := not_continuesWord_of_isBlank h
  by_contra hstarts
  rw [continuesWord_of_startsWord (by simpa using hstarts)] at hword
  cases hword

theorem not_startsWord_of_isDigit (h : c.isDigit) : startsWord c = false := by
  have hcode : 48 ≤ c.val ∧ c.val ≤ 57 := by simpa [Char.isDigit] using h
  have hnat : 48 ≤ c.toNat ∧ c.toNat ≤ 57 := hcode
  have hdigits : (List.range' 48 10).all fun n => !startsWord (Char.ofNat n) := by decide
  have hcode := List.all_eq_true.1 hdigits c.toNat (List.mem_range'_1.2 (by omega))
  simpa using hcode

end CharClass

namespace Piece

open CharClass

variable {c : Char} {rest rest' body after lexeme : List Char} {s : Symbol} {p : Piece}

/-! ### How a text can begin -/

/-- The piece that the text `c :: rest` begins with. -/
inductive Cut : Char → List Char → Piece → Prop
  | blank {c : Char} {rest : List Char} (hc : isBlank c) : Cut c rest ⟨[c], none, rest⟩
  /-- A line comment runs up to a line feed, or to the end. -/
  | lineComment {rest : List Char} :
    Cut '/' ('/' :: rest)
      ⟨'/' :: '/' :: rest.takeWhile (· ≠ '\n'), none, rest.dropWhile (· ≠ '\n')⟩
  | blockComment {rest body after : List Char} (hclose : closeComment rest = some (body, after)) :
    Cut '/' ('*' :: rest) ⟨'/' :: '*' :: body, none, after⟩
  | string {c : Char} {rest body after : List Char} (hc : c = '"' ∨ c = singleQuote)
      (hclose : closeString c rest = some (body, after)) :
    Cut c rest ⟨c :: body ++ [c], some (.string (String.ofList (unescape body))), after⟩
  | number {c : Char} {rest part after : List Char} (hc : c.isDigit)
      (hpart : fraction (rest.dropWhile Char.isDigit) = (part, after)) :
    Cut c rest ⟨c :: rest.takeWhile Char.isDigit ++ part,
      some (.number (numberValue (c :: rest.takeWhile Char.isDigit) part)), after⟩
  | word {c : Char} {rest : List Char} (hc : startsWord c) :
    Cut c rest ⟨c :: rest.takeWhile continuesWord,
      some (.ofWord (String.ofList (c :: rest.takeWhile continuesWord))),
      rest.dropWhile continuesWord⟩
  /-- A slash in front of another one, or of a star, begins a comment and is no mark. -/
  | mark {c : Char} {rest lexeme after : List Char} {s : Symbol}
      (hcomment : c = '/' → rest.head? ≠ some '/' ∧ rest.head? ≠ some '*')
      (hmark : mark? c rest = some (s, lexeme, after)) :
    Cut c rest ⟨lexeme, some (.symbol s), after⟩

/-- The characters that marks begin with. -/
def markStarts : List Char :=
  ['(', ')', '\x7b', '\x7d', '[', ']', '.', ':', ',', ';', '=', '>', '<', '!', '+', '-', '*', '/',
    '%', '&', '|']

theorem mem_markStarts_of_singleSymbol? (h : singleSymbol? c = some s) : c ∈ markStarts := by
  by_contra hc
  simp only [markStarts, List.mem_cons, List.not_mem_nil, or_false, not_or] at hc
  simp [singleSymbol?, hc] at h

theorem mem_markStarts_of_doubleSymbol? {d : Char} (h : doubleSymbol? c d = some s) :
    c ∈ markStarts := by
  by_contra hc
  simp only [markStarts, List.mem_cons, List.not_mem_nil, or_false, not_or] at hc
  simp [doubleSymbol?, hc] at h

/-- The second character of a mark is no blank. -/
theorem doubleSymbol?_of_isBlank {d : Char} (hd : isBlank d) : doubleSymbol? c d = none := by
  have hne : ∀ e, isBlank e = false → d ≠ e := fun e he hde => by
    rw [hde, he] at hd
    cases hd
  simp [doubleSymbol?, hne '=' (by decide), hne '&' (by decide), hne '|' (by decide)]

theorem mem_markStarts_of_mark? (h : mark? c rest = some (s, lexeme, after)) :
    c ∈ markStarts := by
  unfold mark? at h
  split at h
  · rename_i hdouble
    obtain ⟨d, -, hd⟩ := Option.bind_eq_some_iff.1 hdouble
    exact mem_markStarts_of_doubleSymbol? hd
  · obtain ⟨s', hs', -⟩ := Option.map_eq_some_iff.1 h
    exact mem_markStarts_of_singleSymbol? hs'

/-- A character that begins a mark begins no other token. -/
theorem of_mem_markStarts (h : c ∈ markStarts) :
    isBlank c = false ∧ ¬ (c = '"' ∨ c = singleQuote) ∧ c.isDigit = false ∧
      startsWord c = false := by
  have hall : markStarts.all fun c =>
      !isBlank c && !(c == '"' || c == singleQuote) && !c.isDigit && !startsWord c := by decide
  simpa [and_assoc] using List.all_eq_true.1 hall c h

/-- What begins a token that is no mark is no blank and no slash. -/
theorem not_blank_of_starts (h : (c = '"' ∨ c = singleQuote) ∨ c.isDigit ∨ startsWord c) :
    isBlank c = false ∧ c ≠ '/' := by
  rcases h with hquote | hdigit | hstarts
  · rcases hquote with rfl | rfl <;> decide
  · refine ⟨?_, fun hslash => ?_⟩
    · by_contra hblank
      rw [not_isDigit_of_isBlank (by simpa using hblank)] at hdigit
      cases hdigit
    · rw [hslash] at hdigit
      revert hdigit
      decide
  · refine ⟨?_, fun hslash => ?_⟩
    · by_contra hblank
      rw [not_startsWord_of_isBlank (by simpa using hblank)] at hstarts
      cases hstarts
    · rw [hslash] at hstarts
      revert hstarts
      decide

theorem not_quote_of_starts (h : c.isDigit ∨ startsWord c) : ¬ (c = '"' ∨ c = singleQuote) := by
  rintro (rfl | rfl) <;> revert h <;> decide

theorem Cut.of_next (h : next c rest = .ok p) : Cut c rest p := by
  unfold next at h
  -- The tests are made in this order, and a mark is what passes none of those in front.
  split at h
  · rename_i hblank
    cases h
    exact .blank hblank
  split at h
  · rename_i hslash
    simp only [Bool.and_eq_true, decide_eq_true_eq] at hslash
    obtain ⟨rfl, hhead⟩ := hslash
    obtain ⟨rest, rfl⟩ := List.head?_eq_some_iff.1 hhead
    cases h
    simpa using Cut.lineComment
  split at h
  · rename_i hstar
    simp only [Bool.and_eq_true, decide_eq_true_eq] at hstar
    obtain ⟨rfl, hhead⟩ := hstar
    obtain ⟨rest, rfl⟩ := List.head?_eq_some_iff.1 hhead
    split at h
    · rename_i hclose
      cases h
      exact .blockComment hclose
    · cases h
  rename_i hblank hslash hstar
  split at h
  · rename_i hquote
    split at h
    · rename_i hclose
      cases h
      exact .string (by simpa using hquote) hclose
    · cases h
  split at h
  · rename_i hdigit
    cases h
    exact .number hdigit rfl
  split at h
  · rename_i hstarts
    cases h
    exact .word hstarts
  split at h
  · rename_i hmark
    cases h
    refine .mark (fun hc => ?_) hmark
    simpa [hc] using And.intro hslash hstar
  · cases h

theorem Cut.next (h : Cut c rest p) : next c rest = .ok p := by
  cases h with
  | blank hc => rw [Piece.next, if_pos hc]
  | lineComment =>
    rw [Piece.next, if_neg (by decide), if_pos (by simp)]
    simp
  | blockComment hclose =>
    rw [Piece.next, if_neg (by decide), if_neg (by simp), if_pos (by simp)]
    simp [hclose]
  | string hc hclose =>
    obtain ⟨hblank, hslash⟩ := not_blank_of_starts (.inl hc)
    rw [Piece.next, if_neg (by simp [hblank]), if_neg (by simp [hslash]), if_neg (by simp [hslash]),
      if_pos (by simpa using hc)]
    simp [hclose]
  | number hc hpart =>
    obtain ⟨hblank, hslash⟩ := not_blank_of_starts (.inr (.inl hc))
    rw [Piece.next, if_neg (by simp [hblank]), if_neg (by simp [hslash]), if_neg (by simp [hslash]),
      if_neg (by simpa using not_quote_of_starts (.inl hc)), if_pos hc]
    simp [hpart]
  | word hc =>
    obtain ⟨hblank, hslash⟩ := not_blank_of_starts (.inr (.inr hc))
    have hdigit : ¬ c.isDigit = true := fun hdigit => by
      rw [not_startsWord_of_isDigit hdigit] at hc
      cases hc
    rw [Piece.next, if_neg (by simp [hblank]), if_neg (by simp [hslash]), if_neg (by simp [hslash]),
      if_neg (by simpa using not_quote_of_starts (.inr hc)), if_neg hdigit, if_pos hc]
  | mark hcomment hmark =>
    obtain ⟨hblank, hquote, hdigit, hword⟩ := of_mem_markStarts (mem_markStarts_of_mark? hmark)
    rw [Piece.next, if_neg (by simp [hblank]), if_neg ?_, if_neg ?_, if_neg (by simpa using hquote),
      if_neg (by simp [hdigit]), if_neg (by simp [hword])]
    · simp [hmark]
    · simpa using fun hc => (hcomment hc).2
    · simpa using fun hc => (hcomment hc).1

/-- Reading a piece finds the one that the text begins with. -/
theorem next_eq_ok_iff : next c rest = .ok p ↔ Cut c rest p :=
  ⟨.of_next, Cut.next⟩

/-! ### Tokens in front of a blank -/

/-- The text begins with a blank, or is empty. -/
def Apart (rest : List Char) : Prop := ∀ c, rest.head? = some c → isBlank c

/-- What is taken ends where the next character does not belong to it. -/
theorem takeWhile_stop {good : Char → Bool} (hbody : ∀ c ∈ body, good c)
    (hstop : ∀ c, rest.head? = some c → good c = false) :
    (body ++ rest).takeWhile good = body ∧ (body ++ rest).dropWhile good = rest := by
  rw [List.takeWhile_append_of_pos hbody, List.dropWhile_append_of_pos hbody]
  cases rest with
  | nil => simp
  | cons c rest =>
    have hc := hstop c rfl
    simp [hc]

theorem closeString_quote (quote : Char) (rest : List Char) :
    closeString quote (quote :: rest) = some ([], rest) := by
  unfold closeString
  simp

theorem closeString_escaped {quote : Char} (hquote : '\\' ≠ quote) (escaped : Char)
    (rest : List Char) :
    closeString quote ('\\' :: escaped :: rest) =
      (closeString quote rest).map fun (body, after) => ('\\' :: escaped :: body, after) := by
  simp [closeString, hquote]

theorem closeString_plain {quote : Char} (hquote : c ≠ quote) (hfeed : c ≠ '\n') (hback : c ≠ '\\')
    (rest : List Char) :
    closeString quote (c :: rest) =
      (closeString quote rest).map fun (body, after) => (c :: body, after) := by
  rw [closeString.eq_def]
  simp [hquote, hfeed, hback]

/-- What stands inside a string decides where it ends, whatever comes behind it. -/
theorem closeString_append_cons {quote : Char} {text : List Char}
    (h : closeString quote text = some (body, after)) (rest : List Char) :
    closeString quote (body ++ quote :: rest) = some (body, rest) := by
  fun_induction closeString quote text generalizing body after with
  | case1 => cases h
  | case2 =>
    cases h
    exact closeString_quote quote rest
  | case3 => cases h
  | case4 => cases h
  | case5 escaped text hquote hfeed ih =>
    obtain ⟨⟨inner, last⟩, hinner, heq⟩ := Option.map_eq_some_iff.1 h
    cases heq
    rw [List.cons_append, List.cons_append, closeString_escaped hquote, ih hinner]
    rfl
  | case6 c text hquote hfeed hback ih =>
    obtain ⟨⟨inner, last⟩, hinner, heq⟩ := Option.map_eq_some_iff.1 h
    cases heq
    rw [List.cons_append, closeString_plain hquote hfeed hback, ih hinner]
    rfl

/-- The fraction of a number ends in front of a blank, and no digit stands where it begins. -/
theorem fraction_apart (text : List Char) (hrest : Apart rest) :
    fraction ((fraction text).1 ++ rest) = ((fraction text).1, rest) ∧
      ∀ d, ((fraction text).1 ++ rest).head? = some d → d.isDigit = false := by
  have hdigit : ∀ d, rest.head? = some d → d.isDigit = false :=
    fun d hd => not_isDigit_of_isBlank (hrest d hd)
  -- A blank is no dot.
  have hnone : fraction rest = ([], rest) := by
    cases rest with
    | nil => rfl
    | cons d rest =>
      have hdot : d ≠ '.' := fun hd => by
        have hblank := hrest d rfl
        rw [hd] at hblank
        revert hblank
        decide
      unfold fraction
      split
      · rename_i heq
        exact absurd (List.cons.inj heq).1 hdot
      · rfl
  fun_cases fraction text with
  | case1 d digits hd =>
    obtain ⟨htake, hdrop⟩ := takeWhile_stop (fun e he => List.mem_takeWhile_imp he) hdigit
    refine ⟨?_, fun e he => ?_⟩
    · rw [List.cons_append, List.cons_append, fraction, if_pos hd, htake, hdrop]
    · obtain rfl : '.' = e := Option.some.inj he
      decide
  | case2 => exact ⟨hnone, hdigit⟩
  | case3 => exact ⟨hnone, hdigit⟩

theorem mark?_apart (h : mark? c rest = some (s, lexeme, after)) (hrest : Apart rest') :
    ∃ body, lexeme = c :: body ∧ mark? c (body ++ rest') = some (s, lexeme, rest') ∧
      (c = '/' → body = []) := by
  unfold mark? at h
  split at h
  · rename_i hdouble
    obtain ⟨d, hhead, hd⟩ := Option.bind_eq_some_iff.1 hdouble
    obtain ⟨rest, rfl⟩ := List.head?_eq_some_iff.1 hhead
    cases h
    refine ⟨[d], rfl, ?_, ?_⟩
    · simp [mark?, hd]
    · rintro rfl
      simp [doubleSymbol?] at hd
  · obtain ⟨s', hs', heq⟩ := Option.map_eq_some_iff.1 h
    cases heq
    have hdouble : rest'.head?.bind (doubleSymbol? c) = none := by
      rw [Option.bind_eq_none_iff]
      exact fun d hd => doubleSymbol?_of_isBlank (hrest d hd)
    exact ⟨[], rfl, by simp [mark?, hdouble, hs'], fun _ => rfl⟩

/-- A token that a text begins with is read again from its characters in front of a blank, or from
them alone. -/
theorem Cut.next_apart {token : Token} (h : Cut c rest p) (htoken : p.token = some token)
    (hrest : Apart rest') :
    ∃ body, p.lexeme = c :: body ∧ Piece.next c (body ++ rest') = .ok { p with rest := rest' } := by
  simp only [next_eq_ok_iff]
  cases h with
  | blank => cases htoken
  | lineComment => cases htoken
  | blockComment => cases htoken
  | @string _ _ body after hc hclose =>
    refine ⟨body ++ [c], rfl, ?_⟩
    rw [List.append_assoc]
    exact .string hc (closeString_append_cons hclose rest')
  | @number _ _ part after hc hpart =>
    obtain ⟨hfraction, hstop⟩ := fraction_apart (rest.dropWhile Char.isDigit) hrest
    rw [hpart] at hfraction hstop
    obtain ⟨htake, hdrop⟩ := takeWhile_stop (fun e he => List.mem_takeWhile_imp he) hstop
    have hcut : Cut c (rest.takeWhile Char.isDigit ++ (part ++ rest')) _ :=
      .number hc (hdrop ▸ hfraction)
    rw [htake] at hcut
    refine ⟨rest.takeWhile Char.isDigit ++ part, rfl, ?_⟩
    rw [List.append_assoc]
    exact hcut
  | word hc =>
    have hstop : ∀ d, rest'.head? = some d → continuesWord d = false :=
      fun d hd => not_continuesWord_of_isBlank (hrest d hd)
    obtain ⟨htake, hdrop⟩ := takeWhile_stop (fun e he => List.mem_takeWhile_imp he) hstop
    have hcut : Cut c (rest.takeWhile continuesWord ++ rest') _ := .word hc
    rw [htake, hdrop] at hcut
    exact ⟨rest.takeWhile continuesWord, rfl, hcut⟩
  | mark hcomment hmark =>
    obtain ⟨body, rfl, hagain, hslash⟩ := mark?_apart hmark hrest
    refine ⟨body, rfl, .mark (fun hc => ?_) hagain⟩
    rw [hslash hc, List.nil_append]
    constructor <;> intro hhead <;> exact absurd (hrest _ hhead) (by decide)

end Piece

end LWorkbench
