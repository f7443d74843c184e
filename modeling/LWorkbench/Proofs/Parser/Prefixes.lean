import LWorkbench.Proofs.Parser.Failures
import LWorkbench.Proofs.Parser.Statements
import Mathlib

/-!
# Failures at the earliest token

A program that cannot be parsed is rejected at the first token that no program could have there. Up
to that token, and with it, all lists of words are read alike, and so each of them is rejected at
the same place and for the same reason. Nothing but the limit of nesting depends on how a
program goes on: what is nested too deeply may well be a program of the grammar.

## Main definitions

* `Failure.IsAt` — a failure is noticed at a word, or behind all of them

## Main results

* `Program.parseTokens_failure_of_take_eq` — a failure does not depend on the words behind it
* `Program.not_derives_of_take_eq` — words that begin like this are no program, at any depth
* `Program.failure_is_earliest` — both of them, and the place that is reported
-/

namespace LWorkbench

/-- A failure is noticed at the word with the given index, or behind all words if there are no more
than that. -/
structure Failure.IsAt (f : Failure) (words : List Lexeme) (k : Nat) : Prop where
  le_length : k ≤ words.length
  rest : f.rest = words.drop k

theorem Failure.In.exists_isAt {f : Failure} {words : List Lexeme} (h : f.In words) :
    ∃ k, f.IsAt words k := by
  obtain ⟨before, hwords⟩ := h.rest
  refine ⟨before.length, ?_, ?_⟩
  · rw [← hwords, List.length_append]
    exact Nat.le_add_right _ _
  · rw [← hwords, List.drop_left]

namespace Alike

variable {t t' : List Token} {words words' : List Lexeme} {k : Nat}

/-- Words with the same tokens in front are alike. -/
theorem of_take_eq (hk : k < words.length)
    (htake : (words'.map Lexeme.token).take (k + 1) = (words.map Lexeme.token).take (k + 1)) :
    Alike ((words.map Lexeme.token).drop (k + 1)) ((words'.map Lexeme.token).drop (k + 1))
      words words' := by
  refine .inr ⟨(words.map Lexeme.token).take (k + 1), ?_, (List.take_append_drop ..).symm, ?_⟩
  · rw [← List.length_pos_iff, List.length_take, List.length_map]
    omega
  · rw [← htake, List.take_append_drop]

/-- The same number of tokens has been taken from words alike. -/
theorem length_sub (h : Alike t t' words words') :
    words.length - t.length = words'.length - t'.length := by
  obtain ⟨rfl, hwords⟩ | ⟨shared, -, hwords, hwords'⟩ := h
  · have hlength := congrArg List.length hwords
    simp only [List.length_map] at hlength
    rw [hlength]
  · have hlength := congrArg List.length hwords
    have hlength' := congrArg List.length hwords'
    simp only [List.length_map, List.length_append] at hlength hlength'
    omega

end Alike

namespace Program

open Grammar

variable {words words' : List Lexeme} {f : Failure} {k depth depth' : Nat}

/-- A failure repeats itself with all words that have the same tokens up to it, also when more
nesting is allowed. -/
theorem failure_of_take_eq (hdepth : depth ≤ depth')
    (h : statementsToEnd (Nesting.within depth).statement ⟨words, 0, 0⟩ = .error f)
    (hat : f.IsAt words k) (hk : k < words.length) (hcause : f.cause ≠ .nestedTooDeeply)
    (htake : (words'.map Lexeme.token).take (k + 1) = (words.map Lexeme.token).take (k + 1)) :
    ∃ f', statementsToEnd (Nesting.within depth').statement ⟨words', 0, 0⟩ = .error f' ∧
      f'.cause = f.cause ∧ f'.IsAt words' k := by
  have halike := Alike.of_take_eq hk htake
  have hshared : Shared ((words.map Lexeme.token).drop (k + 1))
      ((words'.map Lexeme.token).drop (k + 1)) f.rest := by
    refine .inr ?_
    rw [hat.rest, List.length_drop, List.length_drop, List.length_map]
    omega
  obtain ⟨f', hf', hcause', hrest⟩ :=
    (statementsToEnd_inStep (Nesting.within_stepsWith hdepth).statement ⟨words, 0, 0⟩).failed
      f h hshared hcause ⟨⟨words', 0, 0⟩, halike⟩
  -- The other failure is noticed among its own words, and one shared token is left there as well.
  have hwithin : Nesting.StepsWith [] [] _ _ := Nesting.within_stepsWith (Nat.le_refl depth')
  have hin : f'.In words' :=
    (statementsToEnd_inStep hwithin.statement ⟨words', 0, 0⟩).within.failed f' hf'
  obtain ⟨j, hat'⟩ := hin.exists_isAt
  have hlength := congrArg List.length htake
  have hleft := hrest.length_sub
  simp only [hat.rest, hat'.rest, List.length_take, List.length_drop, List.length_map]
    at hlength hleft
  have hj := hat'.le_length
  obtain rfl : j = k := by omega
  exact ⟨f', hf', hcause', hat'⟩

/-- What is read at one depth of nesting is read at every greater one. -/
theorem exists_statementsToEnd_of_le (hdepth : depth ≤ depth') {body : List Stmt}
    (h : statementsToEnd (Nesting.within depth).statement ⟨words, 0, 0⟩ = .ok body) :
    ∃ body', statementsToEnd (Nesting.within depth').statement ⟨words, 0, 0⟩ = .ok body' := by
  have hwithin : Nesting.StepsWith [] [] _ _ := Nesting.within_stepsWith hdepth
  obtain ⟨body', hbody', -⟩ :=
    (statementsToEnd_inStep hwithin.statement ⟨words, 0, 0⟩).read body h (.inl rfl)
      ⟨⟨words, 0, 0⟩, .inl ⟨rfl, rfl⟩⟩
  exact ⟨body', hbody'⟩

/-- Where parsing fails for another reason than deep nesting, no program goes on. -/
theorem not_derives_of_take_eq (h : parseTokens words = .error f) (hat : f.IsAt words k)
    (hk : k < words.length) (hcause : f.cause ≠ .nestedTooDeeply)
    (htake : (words'.map Lexeme.token).take (k + 1) = (words.map Lexeme.token).take (k + 1))
    (body : List Stmt) : ¬ Derives depth words' body := by
  intro hderives
  have hread : statementsToEnd (Nesting.within depth).statement ⟨words', 0, 0⟩ = .ok body :=
    (statementsToEnd_eq_ok_iff (Nesting.matches_within depth).statement
      (Nesting.matches_within depth).separate).2 hderives
  -- With the greater of both limits the words would be read and rejected at once.
  obtain ⟨body', hbody'⟩ :=
    exists_statementsToEnd_of_le (Nat.le_max_left depth nestingLimit) hread
  obtain ⟨f', hf', -⟩ :=
    failure_of_take_eq (Nat.le_max_right depth nestingLimit) h hat hk hcause htake
  cases hbody'.symm.trans hf'

/-- A failure is reported at its word, or at the end of the text. -/
theorem exists_parse_eq_error {text : String} (hscan : Lexeme.scan text = .ok words)
    (h : parseTokens words = .error f) (hat : f.IsAt words k) :
    ∃ e, parse text = .error e ∧ e.cause = f.cause ∧
      (∀ l, words[k]? = some l → e.position.offset = l.span.start) ∧
      (k = words.length → e.position.offset = text.utf8ByteSize) := by
  refine ⟨.atOffset text f.cause (failureOffset text f), ?_, rfl, fun l hl => ?_, fun hk => ?_⟩
  · simp only [parse, hscan, bind, Except.bind, h]
    rfl
  · rw [ParseError.atOffset, Position.offset_ofOffset, failureOffset, hat.rest, List.head?_drop, hl]
    rfl
  · rw [ParseError.atOffset, Position.offset_ofOffset, failureOffset, hat.rest, hk,
      List.drop_length]
    rfl

/-- A failure is noticed at one of the words or behind all of them. At a word it is the first token
with which no program can go on, at whatever depth of nesting, unless programs are nested too
deeply: all words with the same tokens up to it fail there as well, for the same reason. The
reported place is where that word starts, or the end of the text. -/
theorem failure_is_earliest (h : parseTokens words = .error f) :
    ∃ k, f.IsAt words k ∧
      (k < words.length → f.cause ≠ .nestedTooDeeply → ∀ words' : List Lexeme,
        (words'.map Lexeme.token).take (k + 1) = (words.map Lexeme.token).take (k + 1) →
          (∃ f', parseTokens words' = .error f' ∧ f'.cause = f.cause ∧ f'.IsAt words' k) ∧
          ∀ depth body, ¬ Derives depth words' body) ∧
      ∀ text, Lexeme.scan text = .ok words →
        ∃ e, parse text = .error e ∧ e.cause = f.cause ∧
          (∀ l, words[k]? = some l → e.position.offset = l.span.start) ∧
          (k = words.length → e.position.offset = text.utf8ByteSize) := by
  obtain ⟨k, hat⟩ := (failure_in h).exists_isAt
  refine ⟨k, hat, fun hk hcause words' htake => ⟨?_, fun depth body => ?_⟩, fun text hscan => ?_⟩
  · exact failure_of_take_eq (Nat.le_refl nestingLimit) h hat hk hcause htake
  · exact not_derives_of_take_eq h hat hk hcause htake body
  · exact exists_parse_eq_error hscan h hat

/-- The words of `x=true=y;`, where a value is assigned to a value. -/
def assignedTwice : List Lexeme :=
  [⟨.identifier "x", ⟨0, 1⟩⟩, ⟨.symbol .assign, ⟨1, 2⟩⟩, ⟨.boolean true, ⟨2, 6⟩⟩,
    ⟨.symbol .assign, ⟨6, 7⟩⟩, ⟨.identifier "y", ⟨7, 8⟩⟩, ⟨.symbol .semicolon, ⟨8, 9⟩⟩]

/-- Some of the words of `x = true = function`. -/
def assignedTwiceApart : List Lexeme :=
  [⟨.identifier "x", ⟨0, 1⟩⟩, ⟨.symbol .assign, ⟨2, 3⟩⟩, ⟨.boolean true, ⟨4, 8⟩⟩,
    ⟨.symbol .assign, ⟨9, 10⟩⟩, ⟨.keyword .functionWord, ⟨11, 19⟩⟩]

theorem scan_assignedTwice : Lexeme.scan "x=true=y;" = .ok assignedTwice := by
  decide +kernel

set_option maxRecDepth 4000 in
theorem parseTokens_assignedTwice :
    parseTokens assignedTwice = .error ⟨.invalidTarget, assignedTwice.drop 3⟩ := by
  cbv

/-- The second assignment is where `x=true=y;` fails, and where words fail that go on in another
way. -/
theorem failure_is_earliest_assigned :
    (∃ e, parse "x=true=y;" = .error e ∧ e.cause = .invalidTarget ∧ e.position.offset = 6) ∧
      ∃ f', parseTokens assignedTwiceApart = .error f' ∧ f'.cause = .invalidTarget ∧
        f'.IsAt assignedTwiceApart 3 := by
  obtain ⟨k, hat, hothers, htext⟩ := failure_is_earliest parseTokens_assignedTwice
  obtain rfl : k = 3 := by
    have hlength := congrArg List.length hat.rest
    have hk := hat.le_length
    simp only [List.length_drop, assignedTwice, List.length_cons, List.length_nil] at hlength hk
    omega
  obtain ⟨e, he, hcause, hoffset, -⟩ := htext _ scan_assignedTwice
  obtain ⟨hfails, -⟩ := hothers (by decide) nofun assignedTwiceApart (by decide)
  exact ⟨⟨e, he, hcause, hoffset _ rfl⟩, hfails⟩

end Program

end LWorkbench
