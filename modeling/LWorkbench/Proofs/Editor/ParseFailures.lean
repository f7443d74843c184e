import LWorkbench.Editor.CheckedText
import LWorkbench.Proofs.Editor.Carets
import LWorkbench.Proofs.Messages

/-!
# Parse failures in an editor

A text that does not parse is rejected at the edge of a character: where a piece begins that is no
token, in front of a token, or at the end. What the reason quotes from the text stands on one line,
except for the value of a string, in which an escape may stand for a line feed. So the one diagnostic
of such a text is at the character where it was rejected, with the reason, unless the reason quotes
such a string: then it is at the beginning of the text, with the whole message.

## Main definitions

* `ParseError.QuotesLineFeed` — the reason quotes a string with a line feed

## Main results

* `Program.oneLine_reason_iff` — a reason stands on one line unless it quotes such a string
* `Program.atEdge_of_error` — a text is rejected at the edge of a character
* `CheckedText.failure_shown` — the diagnostic of a text that does not parse
-/

namespace LWorkbench

/-! ### What a text is cut into -/

theorem utf8ByteSize_eq (text : String) : text.utf8ByteSize = utf8Length text.toList := by
  have hchars (chars : List Char) : (String.ofList chars).utf8ByteSize = utf8Length chars := by
    induction chars with
    | nil => rfl
    | cons c chars ih =>
      rw [String.ofList_cons, String.utf8ByteSize_append, String.utf8ByteSize_singleton, ih,
        utf8Length_cons]
  rw [← hchars, String.ofList_toList]

theorem CharClass.isBlank_lineFeed : isBlank '\n' = true := by decide

theorem CharClass.continuesWord_lineFeed : continuesWord '\n' = false := by decide

/-- A word that is no reserved word and no truth value is an identifier with its characters. -/
theorem Token.eq_of_ofWord {word name : String} (h : Token.ofWord word = .identifier name) :
    name = word := by
  unfold ofWord at h
  split at h
  all_goals cases h
  rfl

namespace Piece

variable {c : Char} {rest : List Char}

/-- No piece begins for a reason that tells no token and no line feed. -/
theorem plain_of_next {cause : ParseError.Cause} (h : next c rest = .error cause) :
    cause.found? = none ∧ ∀ d, cause = .unexpectedCharacter d → d ≠ '\n' := by
  unfold next at h
  split at h
  · cases h
  rename_i hblank
  repeat' split at h
  all_goals cases h
  · exact ⟨rfl, nofun⟩
  · exact ⟨rfl, nofun⟩
  · refine ⟨rfl, ?_⟩
    rintro _ ⟨⟩ rfl
    exact hblank CharClass.isBlank_lineFeed

/-- The identifiers among the pieces have no line feed. -/
theorem oneLine_of_next {p : Piece} {name : String} (h : next c rest = .ok p)
    (hname : p.token = some (.identifier name)) : OneLine name := by
  have hword (hstarts : CharClass.startsWord c = true) (htoken : Token.ofWord (String.ofList
      (c :: rest.takeWhile CharClass.continuesWord)) = .identifier name) : OneLine name := by
    rw [Token.eq_of_ofWord htoken, OneLine, String.toList_ofList]
    intro hmem
    have hcontinues : CharClass.continuesWord '\n' = true := by
      obtain rfl | hmem := List.mem_cons.1 hmem
      · exact CharClass.continuesWord_of_startsWord hstarts
      · exact List.mem_takeWhile_imp hmem
    -- A line feed is no letter, no digit and none of the two marks that words may have.
    rw [CharClass.continuesWord_lineFeed] at hcontinues
    cases hcontinues
  unfold next at h
  repeat' split at h
  all_goals cases h
  all_goals try cases hname
  exact hword ‹_› (Option.some.inj hname)

end Piece

namespace Lexeme

variable {text : String}

/-- The identifiers among the tokens of a text have no line feed. -/
theorem oneLine_of_scanFrom {chars : List Char} {start : Nat} {words : List Lexeme}
    (h : scanFrom chars start = .ok words) :
    ∀ l ∈ words, ∀ name, l.token = .identifier name → OneLine name := by
  fun_induction scanFrom chars start generalizing words with
  | case1 =>
    cases h
    exact List.forall_mem_nil _
  | case2 => cases h
  | case3 start c rest piece hpiece stop lexemes token htoken hlexemes =>
    rename_i ih
    cases h
    refine List.forall_mem_cons.2 ⟨fun name hname => ?_, ih hlexemes⟩
    exact Piece.oneLine_of_next hpiece (htoken.trans (congrArg some hname))
  | case4 start c rest piece hpiece stop =>
    rename_i ih
    exact ih h

theorem oneLine_of_scan {words : List Lexeme} (h : scan text = .ok words) :
    ∀ l ∈ words, ∀ name, l.token = .identifier name → OneLine name := by
  unfold scan at h
  split at h
  · rename_i lexemes hscan
    cases h
    exact oneLine_of_scanFrom hscan
  · cases h

/-- Cutting a text stops at the edge of a character, for the reason that no piece begins there. -/
theorem edge_of_scanFrom_error {chars : List Char} {start offset : Nat} {cause : ParseError.Cause}
    (h : scanFrom chars start = .error (cause, offset)) :
    EdgeFrom start chars offset ∧ ∃ c rest, Piece.next c rest = .error cause := by
  fun_induction scanFrom chars start with
  | case1 => cases h
  | case2 start c rest _ hpiece =>
    cases h
    exact ⟨⟨[], c :: rest, rfl, rfl⟩, c, rest, hpiece⟩
  | case3 => cases h
  | case4 start c rest piece hpiece stop =>
    rename_i ih
    obtain ⟨hedge, hnext⟩ := ih h
    rw [← (Piece.lexeme_append_rest hpiece).1]
    exact ⟨hedge.append piece.lexeme, hnext⟩

end Lexeme

/-! ### Where a text is rejected -/

namespace Position

/-- No place is on a line or in a column beyond the number of characters. -/
theorem reach_le (offset : Nat) (chars : List Char) (index line column : Nat) :
    (reach offset chars index line column).1 ≤ line + chars.length ∧
      (reach offset chars index line column).2 ≤ column + chars.length := by
  fun_induction reach offset chars index line column with
  | case1 => exact ⟨Nat.le_refl _, Nat.le_refl _⟩
  | case2 => exact ⟨Nat.le_add_right _ _, Nat.le_add_right _ _⟩
  | case3 =>
    rename_i ih
    rw [List.length_cons]
    omega
  | case4 =>
    rename_i ih
    rw [List.length_cons]
    omega

theorem ofOffset_le (text : String) (offset : Nat) :
    (ofOffset text offset).line ≤ text.length + 1 ∧
      (ofOffset text offset).column ≤ text.length + 1 := by
  have hreach := reach_le offset text.toList 0 1 1
  rw [String.length_toList, Nat.add_comm] at hreach
  exact hreach

end Position

/-- The reason quotes a string that has a line feed. -/
def ParseError.QuotesLineFeed (e : ParseError) : Prop :=
  ∃ value, e.cause.found? = some (.string value) ∧ ¬ OneLine value

namespace Program

variable {text : String} {e : ParseError}

/-- A text is rejected when it is cut into tokens, or when these are parsed. -/
theorem rejected_cases (h : parse text = .error e) :
    (∃ cause offset, Lexeme.scanFrom text.toList 0 = .error (cause, offset) ∧
      e = .atOffset text cause offset) ∨
    ∃ words f, Lexeme.scan text = .ok words ∧ f.In words ∧
      e = .atOffset text f.cause (failureOffset text f) := by
  unfold parse at h
  cases hscan : Lexeme.scan text with
  | error failure =>
    rw [hscan] at h
    cases h
    unfold Lexeme.scan at hscan
    split at hscan
    · cases hscan
    · rename_i cause offset hfrom
      cases hscan
      exact .inl ⟨cause, offset, hfrom, rfl⟩
  | ok words =>
    rw [hscan] at h
    cases hparse : parseTokens words with
    | error f =>
      simp only [Except.bind, bind, hparse] at h
      cases h
      exact .inr ⟨words, f, rfl, failure_in hparse, rfl⟩
    | ok body =>
      simp only [Except.bind, bind, hparse] at h
      cases h

/-- A text is rejected at the edge of a character. -/
theorem atEdge_of_error (h : parse text = .error e) : AtEdge text e.position.offset := by
  obtain ⟨cause, offset, hscan, rfl⟩ | ⟨words, f, hscan, hin, rfl⟩ := rejected_cases h
  · exact (Lexeme.edge_of_scanFrom_error hscan).1
  · rw [ParseError.atOffset, Position.offset_ofOffset, failureOffset]
    cases hrest : f.rest with
    | nil => exact ⟨text.toList, [], (List.append_nil _).symm, by
        rw [Nat.zero_add]; exact utf8ByteSize_eq text⟩
    | cons l rest =>
      -- The failure was noticed at a token of the text.
      have hl : l ∈ words := hin.rest.subset (hrest ▸ List.mem_cons_self)
      exact (Lexeme.edges_of_scan hscan l hl).1

theorem position_eq (h : parse text = .error e) :
    e.position = Position.ofOffset text e.position.offset := by
  obtain ⟨cause, offset, -, rfl⟩ | ⟨words, f, -, -, rfl⟩ := rejected_cases h <;> rfl

/-- The reason stands on one line unless it quotes a string that does not. -/
theorem oneLine_reason_iff (h : parse text = .error e) : OneLine e.reason ↔ ¬ e.QuotesLineFeed := by
  obtain ⟨cause, offset, hscan, rfl⟩ | ⟨words, f, hscan, hin, rfl⟩ := rejected_cases h
  · obtain ⟨-, c, rest, hnext⟩ := Lexeme.edge_of_scanFrom_error hscan
    obtain ⟨hfound, hchar⟩ := Piece.plain_of_next hnext
    refine iff_of_true ((ParseError.Cause.oneLine_message_iff hchar).2 ?_) ?_
    · rw [hfound]
      nofun
    · rintro ⟨value, hvalue, -⟩
      rw [ParseError.atOffset, hfound] at hvalue
      cases hvalue
  · -- The token that is told is one of the text.
    have htoken (token : Token) (htoken : f.cause.found? = some token) :
        OneLine token.describe ↔ ∀ value, token = .string value → OneLine value := by
      obtain ⟨l, hl, rfl⟩ := Option.map_eq_some_iff.1 (hin.found token htoken)
      have hmem : l ∈ words := hin.rest.subset (List.mem_of_mem_head? hl)
      exact Token.oneLine_describe (Lexeme.oneLine_of_scan hscan l hmem)
    refine (ParseError.Cause.oneLine_message_iff fun c hc => absurd hc (hin.not_character c)).trans ?_
    constructor
    · rintro h ⟨value, hvalue, hquoted⟩
      exact hquoted ((htoken _ hvalue).1 (h _ hvalue) value rfl)
    · refine fun h token hfound => (htoken token hfound).2 fun value hvalue => ?_
      by_contra hquoted
      exact h ⟨value, hvalue ▸ hfound, hquoted⟩

end Program

/-! ### The mark -/

namespace Diagnostic

/-- At the edge of a character the character is the next one. -/
theorem charAt?_eq (before after : List Char) (index : Nat) :
    charAt? (index + utf8Length before) (before ++ after) index = after.head? := by
  induction before generalizing index with
  | nil =>
    cases after with
    | nil => rfl
    | cons c after =>
      have hpos := c.utf8Size_pos
      rw [List.nil_append, charAt?, if_pos (by simpa using hpos), List.head?_cons]
  | cons c before ih =>
    have hpast : ¬ index + utf8Length (c :: before) < index + c.utf8Size := by
      rw [utf8Length_cons]
      omega
    rw [List.cons_append, charAt?, if_neg hpast, utf8Length_cons, ← Nat.add_assoc, ih]

/-- The mark is as wide as the character, which for a break is one. -/
theorem markWidth_eq (c : Option Char) : markWidth c = (c.map utf16Width).getD 1 := by
  cases c with
  | none => rfl
  | some c =>
    unfold markWidth
    dsimp only
    split
    · rename_i hbreak
      obtain rfl | rfl : c = '\n' ∨ c = '\r' := by simpa using hbreak
      · rfl
      · rfl
    · rfl

end Diagnostic

namespace CheckedText

/-- A text that does not parse has no program and one diagnostic. It is rejected at the edge of a
character. If line and column fit into 32 bits, which they do in every text that is not longer than
that, and the reason does not quote a string with a line feed, then the diagnostic has the reason as
its message and the character as its range, on one line, one column wide at the end of the text.
Otherwise it has the whole message, and is at the beginning of the text. -/
theorem failure_shown {text : String} {e : ParseError} (h : Program.parse text = .error e) :
    let checked := ofText text
    let fits := e.position.line < 2 ^ 32 ∧ e.position.column < 2 ^ 32
    checked.program = none ∧ AtEdge text e.position.offset ∧
    (text.length + 1 < 2 ^ 32 → fits) ∧
    (fits ∧ ¬ e.QuotesLineFeed → ∀ before after, text.toList = before ++ after →
      e.position.offset = utf8Length before →
      checked.diagnostics = [⟨.onLine (Caret.ofOffset text e.position.offset)
        ((after.head?.map utf16Width).getD 1), e.reason⟩]) ∧
    (¬ (fits ∧ ¬ e.QuotesLineFeed) →
      checked.diagnostics = [⟨.onLine .origin 1, e.display⟩]) := by
  intro checked fits
  have hchecked : checked = ⟨text, none, [.ofParseError text e]⟩ := by
    simp only [checked, ofText, h]
  -- Only a reason on one line is split off the message again.
  have hshort : e.IsShort ↔ fits ∧ ¬ e.QuotesLineFeed := by
    rw [ParseError.IsShort, Program.oneLine_reason_iff h, and_assoc]
  rw [hchecked]
  refine ⟨rfl, Program.atEdge_of_error h, fun hlength => ?_, fun hplain before after htext hoffset => ?_,
    fun hplain => ?_⟩
  · obtain ⟨hline, hcolumn⟩ := Position.ofOffset_le text e.position.offset
    rw [← Program.position_eq h] at hline hcolumn
    exact ⟨hline.trans_lt hlength, hcolumn.trans_lt hlength⟩
  · rw [Diagnostic.ofParseError_of_isShort text (hshort.2 hplain)]
    have hchar := Diagnostic.charAt?_eq before after 0
    rw [Nat.zero_add, ← htext, ← hoffset] at hchar
    rw [hchar, Diagnostic.markWidth_eq]
  · rw [Diagnostic.ofParseError_of_not_isShort text (hplain ∘ hshort.1)]

set_option maxRecDepth 4000 in
/-- A character that takes two units is marked by two columns. -/
theorem failure_shown_wide :
    Program.parse "var 😀" = .error ⟨.unexpectedCharacter '😀', ⟨1, 5, 4⟩⟩ ∧
    (ofText "var 😀").diagnostics = [⟨⟨⟨0, 4⟩, ⟨0, 6⟩⟩, "Unexpected character '😀'"⟩] := by
  have hparse : Program.parse "var 😀" = .error ⟨.unexpectedCharacter '😀', ⟨1, 5, 4⟩⟩ := by cbv
  have hplain : ¬ ParseError.QuotesLineFeed ⟨.unexpectedCharacter '😀', ⟨1, 5, 4⟩⟩ := by
    rintro ⟨_, ⟨⟩, -⟩
  obtain ⟨-, -, -, hshown, -⟩ := failure_shown hparse
  refine ⟨hparse, ?_⟩
  rw [hshown ⟨⟨by decide, by decide⟩, hplain⟩ "var ".toList ['😀'] rfl rfl]
  rfl

set_option maxRecDepth 4000 in
/-- A string with a line feed where a name should stand is not marked: the diagnostic is at the
beginning of the text, with the whole message. -/
theorem failure_shown_elsewhere :
    Program.parse "var \"\\n\";" =
      .error ⟨.expected .variableName (some (.string "\n")), ⟨1, 5, 4⟩⟩ ∧
    (ofText "var \"\\n\";").diagnostics = [⟨⟨⟨0, 0⟩, ⟨0, 1⟩⟩,
      "Line 1, col 5: Expected identifier after 'var', found string \"\n\""⟩] := by
  have hparse : Program.parse "var \"\\n\";" =
      .error ⟨.expected .variableName (some (.string "\n")), ⟨1, 5, 4⟩⟩ := by cbv
  have hlong : ¬ ParseError.IsShort
      ⟨.expected .variableName (some (.string "\n")), ⟨1, 5, 4⟩⟩ := fun h =>
    absurd h.2.2 (by decide)
  refine ⟨hparse, ?_⟩
  simp only [ofText, hparse, Diagnostic.ofParseError_of_not_isShort _ hlong]
  rfl

end CheckedText

end LWorkbench
