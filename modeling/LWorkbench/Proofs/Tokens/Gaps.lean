import LWorkbench.Proofs.Editor.Carets
import LWorkbench.Proofs.Tokens.Pieces

/-!
# Words and gaps

Words are cut out of a text one after another, and what is left of the text in front of them, between
them and behind them holds no word: it is made of blanks and comments. Nothing of the text is lost,
and a word does not need its surroundings to be read: what stands in its span is read as the same
token when it stands alone.

## Main definitions

* `Span.slice` — the characters of a text that lie in a span
* `Filler` — blanks and comments
* `Lexeme.gaps` — the spans in front of words, between them and behind them
* `Piece.Spells` — characters that are read as a token in front of a blank and at the end
* `Tiled` — a text that is cut into words and gaps

## Main results

* `Lexeme.tiled_of_scan` — reading a text cuts it into words and gaps
* `Lexeme.scan_loses_nothing` — the spans of words, the gaps, and the words alone
-/

namespace LWorkbench

/-! ### Slices -/

namespace Span

variable {span : Span} {index : Nat}

/-- The characters that lie in a span, where the first of them starts at byte `index`. -/
def sliceFrom (span : Span) : List Char → (index : Nat) → List Char
  | [], _ => []
  | c :: rest, index =>
    let others := span.sliceFrom rest (index + c.utf8Size)
    if span.start ≤ index ∧ index + c.utf8Size ≤ span.stop then c :: others else others

/-- The characters of a text that lie in a span. -/
def slice (span : Span) (text : String) : List Char := span.sliceFrom text.toList 0

theorem sliceFrom_append (span : Span) (xs ys : List Char) (index : Nat) :
    span.sliceFrom (xs ++ ys) index =
      span.sliceFrom xs index ++ span.sliceFrom ys (index + utf8Length xs) := by
  induction xs generalizing index with
  | nil => rfl
  | cons c xs ih =>
    rw [List.cons_append, sliceFrom, sliceFrom, ih, utf8Length_cons, Nat.add_assoc]
    split <;> rfl

theorem sliceFrom_inside {xs : List Char} (hstart : span.start ≤ index)
    (hstop : index + utf8Length xs ≤ span.stop) : span.sliceFrom xs index = xs := by
  induction xs generalizing index with
  | nil => rfl
  | cons c xs ih =>
    rw [utf8Length_cons] at hstop
    rw [sliceFrom, if_pos (by omega), ih (by omega) (by omega)]

theorem sliceFrom_outside {xs : List Char}
    (h : index + utf8Length xs ≤ span.start ∨ span.stop ≤ index) :
    span.sliceFrom xs index = [] := by
  induction xs generalizing index with
  | nil => rfl
  | cons c xs ih =>
    have hpos := c.utf8Size_pos
    rw [utf8Length_cons] at h
    rw [sliceFrom, if_neg (by omega)]
    exact ih (by omega)

/-- Of a text in three parts the slice between the places of the middle part is this part. -/
theorem slice_eq {text : String} (before : List Char) {inside : List Char} (after : List Char)
    (htext : text.toList = before ++ (inside ++ after)) (hstart : span.start = utf8Length before)
    (hstop : span.stop = utf8Length before + utf8Length inside) : span.slice text = inside := by
  rw [slice, htext, sliceFrom_append, sliceFrom_append, Nat.zero_add,
    sliceFrom_outside (.inl (by omega)), sliceFrom_inside (by omega) (by omega),
    sliceFrom_outside (.inr (by omega)), List.nil_append, List.append_nil]

end Span

/-! ### Blanks and comments -/

/-- Blanks and comments. A block comment ends at the first star with a slash behind it, and a line
comment at a line feed, or at the end of the text. -/
inductive Filler (atEnd : Prop) : List Char → Prop
  | nil : Filler atEnd []
  | blank {c : Char} {rest : List Char} (hc : CharClass.isBlank c) (hrest : Filler atEnd rest) :
    Filler atEnd (c :: rest)
  | blockComment {body rest : List Char} (hbody : ¬ ['*', '/'] <:+: body)
      (hrest : Filler atEnd rest) : Filler atEnd ('/' :: '*' :: body ++ ['*', '/'] ++ rest)
  | lineComment {body rest : List Char} (hbody : '\n' ∉ body) (hrest : Filler atEnd rest) :
    Filler atEnd ('/' :: '/' :: body ++ ['\n'] ++ rest)
  | lastComment {body : List Char} (hend : atEnd) (hbody : '\n' ∉ body) :
    Filler atEnd ('/' :: '/' :: body)

theorem Filler.mono {atEnd atEnd' : Prop} {chars : List Char} (h : Filler atEnd chars)
    (hend : atEnd → atEnd') : Filler atEnd' chars := by
  induction h with
  | nil => exact .nil
  | blank hc _ ih => exact .blank hc ih
  | blockComment hbody _ ih => exact .blockComment hbody ih
  | lineComment hbody _ ih => exact .lineComment hbody ih
  | lastComment h hbody => exact .lastComment (hend h) hbody

/-- A blank in front of blanks and comments is no part of a comment. -/
theorem Filler.of_blank {atEnd : Prop} {c : Char} {rest : List Char} (h : Filler atEnd (c :: rest))
    (hc : CharClass.isBlank c) : Filler atEnd rest := by
  cases h with
  | blank _ hrest => exact hrest
  | blockComment | lineComment | lastComment => exact absurd hc (by decide)

/-- Scanning takes a piece and goes on behind it. -/
theorem Lexeme.scanFrom_of_next {c : Char} {rest : List Char} {piece : Piece}
    (h : Piece.next c rest = .ok piece) (start : Nat) :
    scanFrom (c :: rest) start =
      match scanFrom piece.rest (start + utf8Length piece.lexeme), piece.token with
      | .ok words, some token =>
        .ok (⟨token, ⟨start, start + utf8Length piece.lexeme⟩⟩ :: words)
      | result, _ => result := by
  rw [scanFrom]
  split
  · rename_i hnext
    rw [h] at hnext
    cases hnext
  · rename_i hnext
    rw [h] at hnext
    cases hnext
    rfl

namespace Piece

variable {c : Char} {rest body after chars : List Char} {p : Piece} {token : Token}

/-- The beginning of a block comment that has been closed holds no other end. -/
theorem exists_of_closeComment (h : closeComment rest = some (chars, after)) :
    ∃ body, chars = body ++ ['*', '/'] ∧ ¬ ['*', '/'] <:+: body := by
  fun_induction closeComment rest generalizing chars after with
  | case1 => cases h
  | case2 rest =>
    cases h
    exact ⟨[], rfl, by simp⟩
  | case3 c rest hnot ih =>
    obtain ⟨⟨inner, last⟩, hinner, heq⟩ := Option.map_eq_some_iff.1 h
    cases heq
    obtain ⟨body, rfl, hbody⟩ := ih hinner
    refine ⟨c :: body, rfl, ?_⟩
    -- The pair could only begin with the first character, and then the comment would end there.
    rw [List.infix_cons_iff, not_or]
    refine ⟨fun hprefix => ?_, hbody⟩
    obtain ⟨others, heq⟩ := hprefix
    have hrest := closeComment_append hinner
    cases body with
    | nil => cases heq
    | cons d body =>
      cases heq
      exact hnot _ rfl hrest.symm

/-- The characters are read as the token in front of a blank, and at the end. -/
def Spells (chars : List Char) (token : Token) : Prop :=
  ∃ c body, chars = c :: body ∧
    ∀ rest, Apart rest → next c (body ++ rest) = .ok ⟨chars, some token, rest⟩

theorem Cut.spells (h : Cut c rest p) (htoken : p.token = some token) :
    Spells p.lexeme token := by
  have halone : ∃ body, p.lexeme = c :: body ∧
      Piece.next c (body ++ []) = .ok { p with rest := [] } :=
    h.next_apart htoken nofun
  obtain ⟨body, hlexeme, -⟩ := halone
  refine ⟨c, body, hlexeme, fun rest' hrest' => ?_⟩
  obtain ⟨body', hlexeme', hnext⟩ := h.next_apart htoken hrest'
  obtain rfl : body' = body := (List.cons.inj (hlexeme'.symm.trans hlexeme)).2
  rw [hnext, ← htoken]

namespace Spells

variable {word : List Char} {start : Nat} {words : List Lexeme}

theorem ne_nil (h : Spells word token) : word ≠ [] := by
  obtain ⟨c, body, rfl, -⟩ := h
  exact List.cons_ne_nil c body

/-- What is read as a token does not begin with a blank. -/
theorem not_isBlank (h : Spells (c :: body) token) : CharClass.isBlank c = false := by
  obtain ⟨c, body, heq, hread⟩ := h
  cases heq
  by_contra hblank
  have hnext := hread [] nofun
  rw [next_eq_ok_iff.2 (.blank (by simpa using hblank))] at hnext
  cases hnext

/-- In front of a blank a token is read, and then what stands behind it. -/
theorem scanFrom (h : Spells word token) (hrest : Apart rest)
    (hwords : Lexeme.scanFrom rest (start + utf8Length word) = .ok words) :
    Lexeme.scanFrom (word ++ rest) start =
      .ok (⟨token, ⟨start, start + utf8Length word⟩⟩ :: words) := by
  obtain ⟨c, body, rfl, hread⟩ := h
  rw [List.cons_append, Lexeme.scanFrom_of_next (hread rest hrest)]
  dsimp only
  rw [hwords]

/-- A token that stands alone is read. -/
theorem scan (h : Spells word token) :
    Lexeme.scan (String.ofList word) = .ok [⟨token, ⟨0, utf8Length word⟩⟩] := by
  have hread : Lexeme.scanFrom (word ++ []) 0 = _ := h.scanFrom nofun (by rw [Lexeme.scanFrom])
  rw [List.append_nil, Nat.zero_add] at hread
  rw [Lexeme.scan, String.toList_ofList, hread]

end Spells

end Piece

/-! ### Words and what stands between them -/

/-- The spans in front of words, between them and behind them, from `start` to `stop`. -/
def Lexeme.gaps (start stop : Nat) : List Lexeme → List Span
  | [] => [⟨start, stop⟩]
  | l :: words => ⟨start, l.span.start⟩ :: gaps l.span.stop stop words

/-- Words stand in a text that starts at byte `start`, each with its span, and there are only blanks
and comments in front of them and behind them. -/
inductive Tiled : (start : Nat) → List Char → List Lexeme → Prop
  | done {start : Nat} {gap : List Char} (hgap : Filler True gap) : Tiled start gap []
  | word {start : Nat} {gap word rest : List Char} {l : Lexeme} {words : List Lexeme}
      (hgap : Filler False gap) (hword : Piece.Spells word l.token)
      (hstart : l.span.start = start + utf8Length gap)
      (hstop : l.span.stop = l.span.start + utf8Length word)
      (tail : Tiled l.span.stop rest words) :
    Tiled start (gap ++ (word ++ rest)) (l :: words)

namespace Tiled

variable {start stop : Nat} {chars : List Char} {c : Char} {words : List Lexeme}
  {text : String}

/-- Blanks and whole comments may be put in front. -/
theorem prepend (front : List Char) (h : Tiled (start + utf8Length front) chars words)
    (hfront : ∀ atEnd rest, Filler atEnd rest → Filler atEnd (front ++ rest)) :
    Tiled start (front ++ chars) words := by
  cases h with
  | done hgap => exact .done (hfront True _ hgap)
  | @word _ gap _ _ _ _ hgap hword hstart hstop tail =>
    rw [← List.append_assoc]
    refine .word (hfront False _ hgap) hword ?_ hstop tail
    rw [hstart, utf8Length_append, Nat.add_assoc]

/-- A blank in front is no part of a word or of a comment. -/
theorem of_blank (h : Tiled start (c :: chars) words) (hc : CharClass.isBlank c) :
    Tiled (start + c.utf8Size) chars words := by
  generalize htext : c :: chars = whole at h
  cases h with
  | done hgap =>
    subst htext
    exact .done (hgap.of_blank hc)
  | @word _ gap word rest _ _ hgap hword hstart hstop tail =>
    cases gap with
    | nil =>
      obtain ⟨d, body, rfl, -⟩ := id hword
      cases htext
      rw [hword.not_isBlank] at hc
      cases hc
    | cons d gap =>
      cases htext
      refine .word (hgap.of_blank hc) hword ?_ hstop tail
      rw [hstart, utf8Length_cons, Nat.add_assoc]

/-- No words stand in an empty text. -/
theorem eq_nil (h : Tiled start [] words) : words = [] := by
  generalize hnone : [] = chars at h
  cases h with
  | done => rfl
  | word _ hword =>
    have hrest := (List.append_eq_nil_iff.1 hnone.symm).2
    exact absurd (List.append_eq_nil_iff.1 hrest).1 hword.ne_nil

/-- A line comment ends the text, or a line feed stands behind it. -/
theorem lineComment (rest : List Char)
    (h : Tiled (start + utf8Length ('/' :: '/' :: rest.takeWhile (· ≠ '\n')))
      (rest.dropWhile (· ≠ '\n')) words) :
    Tiled start ('/' :: '/' :: rest.takeWhile (· ≠ '\n') ++ rest.dropWhile (· ≠ '\n')) words := by
  have hbody : '\n' ∉ rest.takeWhile (· ≠ '\n') := fun hfeed => by
    have hne := List.mem_takeWhile_imp hfeed
    revert hne
    decide
  generalize rest.takeWhile (· ≠ '\n') = body at h hbody
  -- The line feed itself is no part of the comment, but the gap goes on with it.
  cases hbehind : rest.dropWhile (· ≠ '\n') with
  | nil =>
    rw [hbehind] at h
    rw [h.eq_nil, List.append_nil]
    exact .done (.lastComment trivial hbody)
  | cons c behind =>
    have hfeed : c = '\n' := by
      have hhead := List.head?_dropWhile_not (· ≠ '\n') rest
      rw [hbehind] at hhead
      simpa using hhead
    subst hfeed
    rw [hbehind] at h
    have hrest := h.of_blank (by decide)
    have hwhole : Tiled start ('/' :: '/' :: body ++ ['\n'] ++ behind) words := by
      refine prepend _ ?_ fun atEnd rest hfiller => .lineComment hbody hfiller
      rw [utf8Length_append, ← Nat.add_assoc]
      exact hrest
    rw [List.append_assoc] at hwhole
    exact hwhole

/-- In front of the words of a text, between them and behind them there are blanks and comments. -/
theorem filler {before : List Char} (h : Tiled start chars words)
    (htext : text.toList = before ++ chars) (hstart : start = utf8Length before) :
    ∀ gap ∈ Lexeme.gaps start (utf8Length text.toList) words,
      Filler (gap.stop = utf8Length text.toList) (gap.slice text) := by
  induction h generalizing before with
  | @done start gap hgap =>
    have hlength : utf8Length text.toList = utf8Length before + utf8Length gap := by
      rw [htext, utf8Length_append]
    have hslice : Span.slice ⟨start, utf8Length text.toList⟩ text = gap :=
      Span.slice_eq before [] (by simpa using htext) hstart hlength
    rw [Lexeme.gaps, List.forall_mem_singleton, hslice]
    exact hgap.mono fun _ => rfl
  | @word start gap word rest l words hgap hword hfirst hlast tail ih =>
    have hslice : Span.slice ⟨start, l.span.start⟩ text = gap :=
      Span.slice_eq before (word ++ rest) htext hstart (hstart ▸ hfirst)
    rw [Lexeme.gaps, List.forall_mem_cons, hslice]
    refine ⟨hgap.mono False.elim, @ih (before ++ (gap ++ word)) ?_ ?_⟩
    · simpa using htext
    · simp only [utf8Length_append]
      omega

/-- What stands in the span of a word is read as its token. -/
theorem spells {before : List Char} (h : Tiled start chars words)
    (htext : text.toList = before ++ chars) (hstart : start = utf8Length before) :
    ∀ l ∈ words, Piece.Spells (l.span.slice text) l.token := by
  induction h generalizing before with
  | done => exact List.forall_mem_nil _
  | @word start gap word rest l words hgap hword hfirst hlast tail ih =>
    have hfront : l.span.start = utf8Length (before ++ gap) := by
      rw [utf8Length_append]
      omega
    have hslice : l.span.slice text = word :=
      Span.slice_eq (before ++ gap) rest (by simpa using htext) hfront (hfront ▸ hlast)
    rw [List.forall_mem_cons, hslice]
    refine ⟨hword, @ih (before ++ (gap ++ word)) ?_ ?_⟩
    · simpa using htext
    · simp only [utf8Length_append]
      omega

end Tiled

namespace Lexeme

variable {text : String} {words : List Lexeme}

/-- Scanning cuts its characters into words and gaps. -/
theorem tiled_of_scanFrom {chars : List Char} {start : Nat}
    (h : scanFrom chars start = .ok words) : Tiled start chars words := by
  fun_induction scanFrom chars start generalizing words with
  | case1 =>
    cases h
    exact .done .nil
  | case2 => cases h
  | case3 start c rest piece hpiece stop lexemes token htoken hlexemes =>
    rename_i ih
    cases h
    rw [← (Piece.lexeme_append_rest hpiece).1]
    have hword := (Piece.next_eq_ok_iff.1 hpiece).spells htoken
    have hwhole : Tiled start ([] ++ (piece.lexeme ++ piece.rest)) _ :=
      .word (l := ⟨token, ⟨start, stop⟩⟩) .nil hword rfl rfl (ih hlexemes)
    exact hwhole
  | case4 start c rest piece hpiece stop hnone =>
    rename_i ih
    have htiled := ih h
    -- A piece without a token is part of the gap in front of the next word.
    cases Piece.next_eq_ok_iff.1 hpiece with
    | blank hc => exact htiled.prepend [c] fun _ _ hrest => .blank hc hrest
    | @lineComment rest => simpa using htiled.lineComment rest
    | @blockComment rest body after hclose =>
      obtain ⟨inner, rfl, hinner⟩ := Piece.exists_of_closeComment hclose
      rw [← Piece.closeComment_append hclose]
      have hfront : ∀ atEnd rest, Filler atEnd rest →
          Filler atEnd ('/' :: '*' :: (inner ++ ['*', '/']) ++ rest) := fun _ _ hrest => by
        simpa using Filler.blockComment hinner hrest
      simpa using htiled.prepend _ hfront
    | string | number | word | mark => exact absurd rfl (hnone _ _ h)

theorem tiled_of_scan (h : scan text = .ok words) : Tiled 0 text.toList words := by
  unfold scan at h
  split at h
  · rename_i lexemes hscan
    cases h
    exact tiled_of_scanFrom hscan
  · cases h

/-- Nothing of a text is lost. Its words are not empty, begin and end at edges of characters and
stand one after another, and in front of them, between them and behind them there are blanks and
comments. And each word is read as the same token when it stands alone. -/
theorem scan_loses_nothing (h : scan text = .ok words) :
    (∀ l ∈ words, l.span.start < l.span.stop ∧
      AtEdge text l.span.start ∧ AtEdge text l.span.stop) ∧
    words.Pairwise (fun l l' => l.span.stop ≤ l'.span.start) ∧
    (∀ gap ∈ gaps 0 (utf8Length text.toList) words,
      Filler (gap.stop = utf8Length text.toList) (gap.slice text)) ∧
    ∀ l ∈ words, scan (String.ofList (l.span.slice text)) =
      .ok [⟨l.token, ⟨0, utf8Length (l.span.slice text)⟩⟩] := by
  have hordered := ordered_of_scan h
  have htiled := tiled_of_scan h
  refine ⟨fun l hl => ⟨hordered.nonempty l hl, edges_of_scan h l hl⟩, hordered.apart, ?_, ?_⟩
  · exact htiled.filler (List.nil_append _).symm rfl
  · exact fun l hl => (htiled.spells (List.nil_append _).symm rfl l hl).scan

/-- Two slashes in a string are no comment, and behind the last word they are one. -/
theorem scan_loses_nothing_slashes :
    scan "/**/'//'.x//" =
      .ok [⟨.string "//", ⟨4, 8⟩⟩, ⟨.symbol .dot, ⟨8, 9⟩⟩, ⟨.identifier "x", ⟨9, 10⟩⟩] ∧
    (∀ gap ∈ ([⟨0, 4⟩, ⟨8, 8⟩, ⟨9, 9⟩, ⟨10, 12⟩] : List Span),
      Filler (gap.stop = 12) (gap.slice "/**/'//'.x//")) ∧
    scan "'//'" = .ok [⟨.string "//", ⟨0, 4⟩⟩] := by
  have hscan : scan "/**/'//'.x//" =
      .ok [⟨.string "//", ⟨4, 8⟩⟩, ⟨.symbol .dot, ⟨8, 9⟩⟩, ⟨.identifier "x", ⟨9, 10⟩⟩] := by
    decide +kernel
  have hlength : utf8Length "/**/'//'.x//".toList = 12 := by decide
  have hslice : String.ofList (Span.slice ⟨4, 8⟩ "/**/'//'.x//") = "'//'" := by decide
  have hslice' : utf8Length (Span.slice ⟨4, 8⟩ "/**/'//'.x//") = 4 := by decide
  obtain ⟨-, -, hgaps, halone⟩ := scan_loses_nothing hscan
  have hstring := halone _ List.mem_cons_self
  rw [hlength] at hgaps
  rw [hslice, hslice'] at hstring
  exact ⟨hscan, hgaps, hstring⟩

end Lexeme

end LWorkbench
