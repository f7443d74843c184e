import LWorkbench.ParseError
import LWorkbench.Text.CharClass

/-!
# Cutting a text into tokens

A text is read piece by piece from the left. A piece is a blank, a comment or a token, and each
piece begins where the one before it ended, so the pieces put together are the text. A token is as
long as it can be: `<=` is one mark, `1.5` one number, and `1.` a number followed by a dot.

## Main definitions

* `Piece` — the characters of one piece, the token it stands for, if any, and what is left
* `Piece.next` — the piece at the head of a nonempty text
* `Lexeme.scan` — all tokens of a text with their spans, or the error that stopped the reading

## Main results

* `Piece.lexeme_append_rest` — a piece and what is left make up the text
* `Piece.length_rest_lt` — every piece takes at least one character
-/

namespace LWorkbench

/-- One piece of a text: its characters, the token it stands for, if any, and what is left. -/
structure Piece where
  lexeme : List Char
  token : Option Token
  rest : List Char

namespace Piece

/-! ### Comments and strings -/

/-- The part of a text up to and including the end of a block comment, and what is left. The
beginning of the comment has been read. -/
def closeComment : List Char → Option (List Char × List Char)
  | [] => none
  | '*' :: '/' :: rest => some (['*', '/'], rest)
  | c :: rest => (closeComment rest).map fun (body, rest) => (c :: body, rest)

/-- The part of a text before the closing quote of a string, as it is written, and what follows
that quote. The opening quote has been read. A backslash takes the next character with it; a line
feed that does not follow a backslash leaves the string open. -/
def closeString (quote : Char) : List Char → Option (List Char × List Char)
  | [] => none
  | c :: rest =>
    if c = quote then some ([], rest)
    else if c = '\n' then none
    else if c = '\\' then
      match rest with
      | [] => none
      | escaped :: rest =>
        (closeString quote rest).map fun (body, rest) => (c :: escaped :: body, rest)
    else (closeString quote rest).map fun (body, rest) => (c :: body, rest)

/-- The single quote character. -/
def singleQuote : Char := Char.ofNat 39

/-- What a backslash and the character after it stand for; an unknown pair stands for itself. -/
def escape (c : Char) : List Char :=
  if c = 'n' then ['\n']
  else if c = 'r' then ['\r']
  else if c = 't' then ['\t']
  else if c = '0' then [Char.ofNat 0]
  else if c = '\\' || c = '"' || c = singleQuote then [c]
  else ['\\', c]

/-- The characters that the inside of a string literal stands for. -/
def unescape : List Char → List Char
  | [] => []
  | [c] => [c]
  | c :: d :: rest => if c = '\\' then escape d ++ unescape rest else c :: unescape (d :: rest)

/-! ### Numbers -/

/-- The part of a number after its whole digits, and what is left: a dot with at least one digit
after it, or nothing. -/
def fraction : List Char → List Char × List Char
  | '.' :: d :: rest =>
    if d.isDigit then ('.' :: d :: rest.takeWhile Char.isDigit, rest.dropWhile Char.isDigit)
    else ([], '.' :: d :: rest)
  | text => ([], text)

/-- The value of decimal digits. -/
def digitsValue (digits : List Char) : Nat :=
  digits.foldl (fun n c => 10 * n + (c.toNat - '0'.toNat)) 0

/-- The double nearest to the number written as whole digits and a fraction. -/
def numberValue (whole fraction : List Char) : Float :=
  let places := fraction.drop 1
  Float.ofScientific (digitsValue (whole ++ places)) true places.length

/-! ### Marks -/

/-- The mark of two characters, if they are one. -/
def doubleSymbol? (c d : Char) : Option Symbol :=
  if c = '=' && d = '=' then some .equal
  else if c = '!' && d = '=' then some .notEqual
  else if c = '>' && d = '=' then some .greaterEqual
  else if c = '<' && d = '=' then some .lessEqual
  else if c = '&' && d = '&' then some .and
  else if c = '|' && d = '|' then some .or
  else none

/-- The mark of one character, if it is one. -/
def singleSymbol? (c : Char) : Option Symbol :=
  if c = '(' then some .leftParen
  else if c = ')' then some .rightParen
  else if c = '\x7b' then some .leftBrace
  else if c = '\x7d' then some .rightBrace
  else if c = '[' then some .leftBracket
  else if c = ']' then some .rightBracket
  else if c = '.' then some .dot
  else if c = ':' then some .colon
  else if c = ',' then some .comma
  else if c = ';' then some .semicolon
  else if c = '=' then some .assign
  else if c = '>' then some .greater
  else if c = '<' then some .less
  else if c = '!' then some .not
  else if c = '+' then some .plus
  else if c = '-' then some .minus
  else if c = '*' then some .star
  else if c = '/' then some .slash
  else if c = '%' then some .percent
  else none

/-- The mark at the head of a text, the longer one if two fit, with its characters and what is
left. -/
def mark? (c : Char) (rest : List Char) : Option (Symbol × List Char × List Char) :=
  match rest.head?.bind (doubleSymbol? c) with
  | some s => some (s, c :: rest.take 1, rest.drop 1)
  | none => (singleSymbol? c).map fun s => (s, [c], rest)

/-! ### Pieces -/

/-- The piece at the head of the text `c :: rest`. -/
def next (c : Char) (rest : List Char) : Except ParseError.Cause Piece :=
  if CharClass.isBlank c then .ok ⟨[c], none, rest⟩
  else if c = '/' && rest.head? = some '/' then
    .ok ⟨c :: rest.takeWhile (· ≠ '\n'), none, rest.dropWhile (· ≠ '\n')⟩
  else if c = '/' && rest.head? = some '*' then
    match closeComment (rest.drop 1) with
    | some (body, after) => .ok ⟨c :: rest.take 1 ++ body, none, after⟩
    | none => .error .openComment
  else if c = '"' || c = singleQuote then
    match closeString c rest with
    | some (body, after) =>
      .ok ⟨c :: body ++ [c], some (.string (String.ofList (unescape body))), after⟩
    | none => .error .openString
  else if c.isDigit then
    let whole := c :: rest.takeWhile Char.isDigit
    let part := fraction (rest.dropWhile Char.isDigit)
    .ok ⟨whole ++ part.1, some (.number (numberValue whole part.1)), part.2⟩
  else if CharClass.startsWord c then
    let word := c :: rest.takeWhile CharClass.continuesWord
    .ok ⟨word, some (.ofWord (String.ofList word)), rest.dropWhile CharClass.continuesWord⟩
  else
    match mark? c rest with
    | some (s, lexeme, after) => .ok ⟨lexeme, some (.symbol s), after⟩
    | none => .error (.unexpectedCharacter c)

theorem closeComment_append {text body after : List Char}
    (h : closeComment text = some (body, after)) : body ++ after = text := by
  fun_induction closeComment text generalizing body after with
  | case1 => simp at h
  | case2 rest =>
    simp only [Option.some.injEq, Prod.mk.injEq] at h
    obtain ⟨rfl, rfl⟩ := h
    rfl
  | case3 c rest _ ih =>
    obtain ⟨⟨inner, last⟩, hinner, heq⟩ := Option.map_eq_some_iff.1 h
    simp only [Prod.mk.injEq] at heq
    obtain ⟨rfl, rfl⟩ := heq
    simp [ih hinner]

theorem closeString_append {quote : Char} {text body after : List Char}
    (h : closeString quote text = some (body, after)) : body ++ quote :: after = text := by
  fun_induction closeString quote text generalizing body after with
  | case1 => simp at h
  | case2 rest =>
    simp only [Option.some.injEq, Prod.mk.injEq] at h
    obtain ⟨rfl, rfl⟩ := h
    rfl
  | case3 => simp at h
  | case4 => simp at h
  | case5 _ _ escaped rest ih =>
    obtain ⟨⟨inner, last⟩, hinner, heq⟩ := Option.map_eq_some_iff.1 h
    simp only [Prod.mk.injEq] at heq
    obtain ⟨rfl, rfl⟩ := heq
    simp [ih hinner]
  | case6 c rest _ _ _ ih =>
    obtain ⟨⟨inner, last⟩, hinner, heq⟩ := Option.map_eq_some_iff.1 h
    simp only [Prod.mk.injEq] at heq
    obtain ⟨rfl, rfl⟩ := heq
    simp [ih hinner]

theorem fraction_append (text : List Char) : (fraction text).1 ++ (fraction text).2 = text := by
  fun_cases fraction text <;> simp_all

theorem mark?_append {c : Char} {rest lexeme after : List Char} {s : Symbol}
    (h : mark? c rest = some (s, lexeme, after)) :
    lexeme ++ after = c :: rest ∧ lexeme ≠ [] := by
  unfold mark? at h
  split at h
  · simp only [Option.some.injEq, Prod.mk.injEq] at h
    obtain ⟨_, rfl, rfl⟩ := h
    exact ⟨congrArg (c :: ·) (List.take_append_drop 1 rest), by simp⟩
  · obtain ⟨_, _, heq⟩ := Option.map_eq_some_iff.1 h
    simp only [Prod.mk.injEq] at heq
    obtain ⟨_, rfl, rfl⟩ := heq
    simp

/-- A piece is not empty, and together with what is left it makes up the text. -/
theorem lexeme_append_rest {c : Char} {rest : List Char} {p : Piece} (h : next c rest = .ok p) :
    p.lexeme ++ p.rest = c :: rest ∧ p.lexeme ≠ [] := by
  unfold next at h
  split at h
  · cases h; simp
  split at h
  · cases h; simp [List.takeWhile_append_dropWhile]
  split at h
  · split at h
    · rename_i body after hclose
      cases h
      refine ⟨?_, by simp⟩
      rw [List.append_assoc, closeComment_append hclose]
      exact congrArg (c :: ·) (List.take_append_drop 1 rest)
    · simp at h
  split at h
  · split at h
    · rename_i body after hclose
      cases h
      have := closeString_append hclose
      simp [this]
    · simp at h
  split at h
  · cases h
    refine ⟨?_, by simp⟩
    rw [List.append_assoc, fraction_append]
    exact congrArg (c :: ·) List.takeWhile_append_dropWhile
  split at h
  · cases h; simp [List.takeWhile_append_dropWhile]
  split at h
  · rename_i s lexeme after hmark
    cases h
    exact mark?_append hmark
  · simp at h

/-- Every piece takes at least one character. -/
theorem length_rest_lt {c : Char} {rest : List Char} {p : Piece} (h : next c rest = .ok p) :
    p.rest.length < (c :: rest).length := by
  obtain ⟨happ, hne⟩ := lexeme_append_rest h
  have := List.length_pos_iff.2 hne
  rw [← happ, List.length_append]
  omega

end Piece

namespace Lexeme

/-- The tokens of the characters `chars`, the first of which starts at byte `start`. An error
comes with the offset at which its piece starts. -/
def scanFrom (chars : List Char) (start : Nat) :
    Except (ParseError.Cause × Nat) (List Lexeme) :=
  match chars with
  | [] => .ok []
  | c :: rest =>
    match _h : Piece.next c rest with
    | .error cause => .error (cause, start)
    | .ok piece =>
      let stop := start + utf8Length piece.lexeme
      match scanFrom piece.rest stop, piece.token with
      | .ok lexemes, some token => .ok (⟨token, ⟨start, stop⟩⟩ :: lexemes)
      | result, _ => result
termination_by chars.length
decreasing_by exact Piece.length_rest_lt ‹_›

/-- The tokens of a text in order, each with its span. -/
def scan (text : String) : Except ParseError (List Lexeme) :=
  match scanFrom text.toList 0 with
  | .ok lexemes => .ok lexemes
  | .error (cause, offset) => .error (.atOffset text cause offset)

end Lexeme

end LWorkbench
