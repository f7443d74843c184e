import LWorkbench.Editor.Diagnostic
import LWorkbench.Proofs.Parser.Failures
import LWorkbench.Text.OneLine
import Mathlib

/-!
# Messages of parse errors

An editor gets the message of a parse error as it is shown to a reader, and reads line, column and
reason back from it. That works for every message whose numbers fit into 32 bits and whose reason
stands on one line. All wordings stand on one line; what is quoted from a text does not have to.

## Main definitions

* `ParseError.IsShort` — the message of an error can be read back

## Main results

* `ParseError.Cause.oneLine_message_iff` — the reason stands on one line when the token it tells does
* `Diagnostic.split?_display` — what is read back from a message
-/

namespace LWorkbench

/-! ### Wordings on one line -/

theorem oneLine_inQuotes {text : String} : OneLine (inQuotes text) ↔ OneLine text := by
  have hquote : OneLine "'" := by decide
  have hquotes : inQuotes text = "'" ++ text ++ "'" := rfl
  rw [hquotes, oneLine_append, oneLine_append]
  exact ⟨fun h => h.1.2, fun h => ⟨⟨hquote, h⟩, hquote⟩⟩

theorem Symbol.oneLine_spelling (s : Symbol) : OneLine s.spelling := by
  cases s <;> decide

theorem Keyword.oneLine_spelling (k : Keyword) : OneLine k.spelling := by
  cases k <;> decide

theorem Decimal.oneLine_layout (d : Decimal) : OneLine d.layout := by
  have hdigits := lineFeed_not_mem_toDigits d.digits
  have hzeros (count : Nat) : '\n' ∉ List.replicate count '0' := fun h =>
    absurd (List.eq_of_mem_replicate h) (by decide)
  have htake (count : Nat) : '\n' ∉ (Nat.toDigits 10 d.digits).take count := fun h =>
    hdigits (List.mem_of_mem_take h)
  have hdrop (count : Nat) : '\n' ∉ (Nat.toDigits 10 d.digits).drop count := fun h =>
    hdigits (List.mem_of_mem_drop h)
  unfold OneLine layout
  dsimp only
  split
  · simp [hdigits, hzeros]
  · split
    · simp [hdigits, hzeros]
    · simp [htake, hdrop]

theorem Number.oneLine_shortestText (x : Float) : OneLine (shortestText x) := by
  have hsigned (negative : Bool) {text : String} (h : OneLine text) :
      OneLine (signed negative text) := by
    cases negative with
    | false => exact h
    | true => exact oneLine_append.2 ⟨by decide, h⟩
  unfold shortestText
  split
  · decide
  · exact hsigned _ (by decide)
  · split
    · exact hsigned _ (by decide)
    · exact hsigned _ (Decimal.oneLine_layout _)

/-- The description of a token stands on one line when what was written does. -/
theorem Token.oneLine_describe {t : Token} (hname : ∀ name, t = .identifier name → OneLine name) :
    OneLine t.describe ↔ ∀ value, t = .string value → OneLine value := by
  cases t with
  | symbol s => exact iff_of_true (oneLine_inQuotes.2 s.oneLine_spelling) nofun
  | keyword k => exact iff_of_true (oneLine_inQuotes.2 k.oneLine_spelling) nofun
  | boolean value => exact iff_of_true (by cases value <;> decide) nofun
  | number value =>
    exact iff_of_true (oneLine_append.2 ⟨by decide, Number.oneLine_shortestText value⟩) nofun
  | identifier name =>
    exact iff_of_true (oneLine_append.2 ⟨by decide, oneLine_inQuotes.2 (hname name rfl)⟩) nofun
  | string value =>
    rw [describe, oneLine_append, oneLine_append]
    constructor
    · rintro ⟨⟨-, h⟩, -⟩ other hother
      cases hother
      exact h
    · exact fun h => ⟨⟨by decide, h value rfl⟩, by decide⟩

theorem Expectation.oneLine_describe (what : Expectation) : OneLine what.describe := by
  cases what with
  | conditionStart k => exact oneLine_append.2 ⟨by decide, oneLine_inQuotes.2 k.oneLine_spelling⟩
  | _ => decide

namespace ParseError

/-- A reason stands on one line when the token that it tells does. -/
theorem Cause.oneLine_message_iff {cause : Cause}
    (hchar : ∀ c, cause = .unexpectedCharacter c → c ≠ '\n') :
    OneLine cause.message ↔ ∀ token, cause.found? = some token → OneLine token.describe := by
  have hopen (what : Expectation) : OneLine ("Expected " ++ what.describe ++ ", found ") :=
    oneLine_append.2 ⟨oneLine_append.2 ⟨by decide, what.oneLine_describe⟩, by decide⟩
  have hnone (token : Token) (h : none = some token) : OneLine token.describe := by cases h
  -- All fixed parts of the messages stand on one line, so only the token that is told decides.
  cases cause with
  | unexpectedCharacter c =>
    refine iff_of_true (oneLine_append.2 ⟨by decide, oneLine_inQuotes.2 ?_⟩) hnone
    simpa [OneLine] using (hchar c rfl).symm
  | openComment => exact iff_of_true (by decide) hnone
  | openString => exact iff_of_true (by decide) hnone
  | invalidTarget => exact iff_of_true (by decide) hnone
  | nestedTooDeeply => exact iff_of_true (by decide) hnone
  | unexpectedToken found =>
    have hmessage : message (.unexpectedToken found) = "Unexpected " ++ found.describe := rfl
    rw [hmessage, oneLine_append]
    constructor
    · rintro ⟨-, h⟩ token htoken
      cases htoken
      exact h
    · exact fun h => ⟨by decide, h found rfl⟩
  | expected what found =>
    cases found with
    | none =>
      have hmessage : message (.expected what none) =
          "Expected " ++ what.describe ++ ", found end of input" := rfl
      rw [hmessage]
      refine iff_of_true (oneLine_append.2 ⟨oneLine_append.2 ⟨by decide, ?_⟩, by decide⟩) hnone
      exact what.oneLine_describe
    | some found =>
      have hmessage : message (.expected what (some found)) =
          "Expected " ++ what.describe ++ ", found " ++ found.describe := rfl
      rw [hmessage, oneLine_append]
      constructor
      · rintro ⟨-, h⟩ token htoken
        cases htoken
        exact h
      · exact fun h => ⟨hopen what, h found rfl⟩

/-- The message of the error can be read back: its numbers fit into 32 bits, and its reason stands on
one line. -/
def IsShort (e : ParseError) : Prop :=
  e.position.line < 2 ^ 32 ∧ e.position.column < 2 ^ 32 ∧ OneLine e.reason

end ParseError

/-! ### Reading messages back -/

namespace Diagnostic

theorem skip?_append (expected text : List Char) : skip? expected (expected ++ text) = some text := by
  induction expected with
  | nil => rfl
  | cons c expected ih => rw [List.cons_append, skip?, if_pos rfl, ih]

/-- A number is read back when it fits into 32 bits. -/
theorem number?_append (n : Nat) {text : List Char} (htext : ∀ c ∈ text.head?, c.isDigit = false) :
    number? ((toString n).toList ++ text) = if n < 2 ^ 32 then some (n, text) else none := by
  have hdigits : (toString n).toList = Nat.toDigits 10 n := by
    rw [Nat.toString_eq_ofList_toDigits, String.toList_ofList]
  have hall : ∀ c ∈ Nat.toDigits 10 n, c.isDigit = true := fun c =>
    Nat.isDigit_of_mem_toDigits (by decide) (by decide)
  have hnone : text.takeWhile Char.isDigit = [] := by
    cases text with
    | nil => rfl
    | cons c text => rw [List.takeWhile_cons_of_neg (by simp [htext c rfl])]
  have hwhile : (Nat.toDigits 10 n ++ text).takeWhile Char.isDigit = Nat.toDigits 10 n := by
    rw [List.takeWhile_append_of_pos hall, hnone, List.append_nil]
  have hvalue : (Nat.toDigits 10 n).foldl (fun n c => 10 * n + (c.toNat - '0'.toNat)) 0 = n := by
    rw [← Nat.ofDigitChars_eq_foldl, Nat.ofDigitChars_ten_toDigits]
  have hne : (Nat.toDigits 10 n).isEmpty = false := by simp
  unfold number?
  rw [hdigits]
  simp only [hwhile, hvalue, hne, Bool.false_or, List.drop_left, decide_eq_true_eq, Nat.pow_eq]
  by_cases hbound : n < 2 ^ 32
  · rw [if_neg (Nat.not_le_of_lt hbound), if_pos hbound]
  · rw [if_pos (Nat.le_of_not_lt hbound), if_neg hbound]

/-- What is read back from the message of an error: its place and its reason, if the numbers fit into
32 bits and the reason stands on one line. -/
theorem split?_display (e : ParseError) :
    split? e.display =
      if e.position.line < 2 ^ 32 ∧ e.position.column < 2 ^ 32 ∧ OneLine e.reason then
        some (e.position.line, e.position.column, e.reason)
      else none := by
  have hdisplay : e.display = "Line " ++ toString e.position.line ++ ", col " ++
      toString e.position.column ++ ": " ++ e.reason := rfl
  have hcolumn (text : List Char) : ∀ c ∈ (", col ".toList ++ text).head?, c.isDigit = false := by
    rintro c ⟨⟩
    rfl
  have hreason (text : List Char) : ∀ c ∈ (": ".toList ++ text).head?, c.isDigit = false := by
    rintro c ⟨⟩
    rfl
  unfold split?
  -- Neither number goes on with what stands behind it, so both are read back whole.
  simp only [hdisplay, String.toList_append, List.append_assoc, skip?_append, Option.bind_eq_bind,
    Option.bind_some, number?_append _ (hcolumn _)]
  by_cases hline : e.position.line < 2 ^ 32
  · rw [if_pos hline]
    simp only [Option.bind_some, skip?_append, number?_append _ (hreason _)]
    by_cases hcol : e.position.column < 2 ^ 32
    · rw [if_pos hcol]
      simp only [Option.bind_some, skip?_append, hline, hcol, true_and, String.ofList_toList]
      by_cases hline : OneLine e.reason
      · rw [if_pos hline, if_neg (by simpa [OneLine] using hline)]
      · rw [if_neg hline, if_pos (by simpa [OneLine] using hline)]
    · rw [if_neg hcol, if_neg fun h => hcol h.2.1]
      rfl
  · rw [if_neg hline, if_neg fun h => hline h.1]
    rfl

/-- An error whose message can be read back is marked at its place with its reason alone. -/
theorem ofParseError_of_isShort {e : ParseError} (text : String) (h : e.IsShort) :
    ofParseError text e = ⟨.onLine (Caret.ofOffset text e.position.offset)
      (markWidth (charAt? e.position.offset text.toList 0)), e.reason⟩ := by
  have hsplit : split? e.display = some (e.position.line, e.position.column, e.reason) :=
    (split?_display e).trans (if_pos h)
  simp only [ofParseError, hsplit]

/-- An error whose message cannot be read back is marked at the beginning of the text with all of
it. -/
theorem ofParseError_of_not_isShort {e : ParseError} (text : String) (h : ¬ e.IsShort) :
    ofParseError text e = ⟨.onLine .origin 1, e.display⟩ := by
  have hsplit : split? e.display = none := (split?_display e).trans (if_neg h)
  simp only [ofParseError, ofMessage, hsplit]

end Diagnostic

end LWorkbench
