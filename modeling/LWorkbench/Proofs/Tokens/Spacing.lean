import LWorkbench.Proofs.Tokens.Gaps

/-!
# Words with other gaps

The words of a text may be written down again with other blanks in front of them, between them and
behind them. As long as some blank stands between two words, each of them ends where it did, since
no word goes on with a blank. So the same words are read from the new text.

## Main definitions

* `spaced` — strings with gaps between them
* `respaced` — the words of a text with other gaps
* `Separates` — gaps of blanks that keep words apart

## Main results

* `Lexeme.exists_scan_respaced` — the words of a text are read again when blanks stand between them
-/

namespace LWorkbench

/-- The strings one after another with gaps between them. The one in front of the first is `gap i`,
and the others follow it. -/
def spaced (gap : Nat → List Char) : List (List Char) → (i : Nat) → List Char
  | [], i => gap i
  | word :: words, i => gap i ++ (word ++ spaced gap words (i + 1))

/-- The words of a text with other gaps. -/
def respaced (gap : Nat → List Char) (text : String) (words : List Lexeme) : String :=
  String.ofList (spaced gap (words.map (·.span.slice text)) 0)

/-- There are only blanks in the gaps, and some between any two of `count` words. -/
structure Separates (gap : Nat → List Char) (count : Nat) : Prop where
  blank : ∀ i, ∀ c ∈ gap i, CharClass.isBlank c
  nonempty : ∀ i, 0 < i → i < count → gap i ≠ []

/-- A blank stands behind every word, or the end. -/
theorem Separates.apart {gap : Nat → List Char} {count i : Nat} {words : List (List Char)}
    (h : Separates gap count) (hi : 0 < i) (hcount : i + words.length = count) :
    Piece.Apart (spaced gap words i) := by
  intro c hhead
  cases words with
  | nil => exact h.blank i c (List.mem_of_mem_head? hhead)
  | cons word words =>
    rw [List.length_cons] at hcount
    have hne : gap i ≠ [] := h.nonempty i hi (by omega)
    rw [spaced, List.head?_append_of_ne_nil _ hne] at hhead
    exact h.blank i c (List.mem_of_mem_head? hhead)

namespace Lexeme

variable {gap : Nat → List Char} {text : String} {words : List Lexeme}

theorem scanFrom_blanks {blanks : List Char} (h : ∀ c ∈ blanks, CharClass.isBlank c)
    (rest : List Char) (start : Nat) :
    scanFrom (blanks ++ rest) start = scanFrom rest (start + utf8Length blanks) := by
  induction blanks generalizing start with
  | nil => rfl
  | cons c blanks ih =>
    obtain ⟨hc, hblanks⟩ := List.forall_mem_cons.1 h
    have hnext : Piece.next c (blanks ++ rest) = .ok ⟨[c], none, blanks ++ rest⟩ :=
      Piece.next_eq_ok_iff.2 (.blank hc)
    rw [List.cons_append, scanFrom_of_next hnext]
    dsimp only
    rw [ih hblanks]
    simp [Nat.add_assoc]

/-- Words that are put one after another are read again when there are only blanks in the gaps, and
some between any two words. -/
theorem exists_scanFrom_spaced {count i : Nat} {spell : Lexeme → List Char}
    (hgap : Separates gap count) (hcount : i + words.length = count)
    (hspells : ∀ l ∈ words, Piece.Spells (spell l) l.token) (start : Nat) :
    ∃ words', scanFrom (spaced gap (words.map spell) i) start = .ok words' ∧
      words'.map (·.token) = words.map (·.token) := by
  induction words generalizing i start with
  | nil =>
    refine ⟨[], ?_, rfl⟩
    have hblanks := scanFrom_blanks (hgap.blank i) [] start
    rw [List.append_nil] at hblanks
    rw [List.map_nil, spaced, hblanks, scanFrom]
  | cons l words ih =>
    obtain ⟨hl, hwords⟩ := List.forall_mem_cons.1 hspells
    rw [List.length_cons] at hcount
    rw [List.map_cons, spaced, scanFrom_blanks (hgap.blank i)]
    have hrest : Piece.Apart (spaced gap (words.map spell) (i + 1)) :=
      hgap.apart (Nat.succ_pos i) (by rw [List.length_map]; omega)
    obtain ⟨words', hscan, htokens⟩ := @ih (i + 1) (by omega) hwords
      (start + utf8Length (gap i) + utf8Length (spell l))
    exact ⟨_, hl.scanFrom hrest hscan, by rw [List.map_cons, List.map_cons, htokens]⟩

/-- The words of a text are read again when blanks stand between them. -/
theorem exists_scan_respaced (hscan : scan text = .ok words)
    (hgap : Separates gap words.length) :
    ∃ words', scan (respaced gap text words) = .ok words' ∧
      words'.map (·.token) = words.map (·.token) := by
  have hspells : ∀ l ∈ words, Piece.Spells (l.span.slice text) l.token :=
    (tiled_of_scan hscan).spells (List.nil_append _).symm rfl
  obtain ⟨words', hwords', htokens⟩ :=
    exists_scanFrom_spaced hgap (Nat.zero_add _) hspells 0
  refine ⟨words', ?_, htokens⟩
  rw [scan, respaced, String.toList_ofList, hwords']

end Lexeme

end LWorkbench
