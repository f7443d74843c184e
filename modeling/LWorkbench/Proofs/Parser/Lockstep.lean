import LWorkbench.Proofs.Parser.Reading
import Mathlib.Tactic.Choose

/-!
# Readings in step

A parser only looks at the tokens in front of it, and takes them one after another. So what is left
when it stops is the last part of what it was given. And two lists of words with the same tokens in
front are read in the same way, as long as what is read ends where both have the same tokens: it
does not matter what comes behind.

A reading is compared with all readings of words alike at once. A type `S` stands for the ways in
which another reading can have come to the same place, and grows as the reading goes on. There may
be none, since the first reading may be beyond the shared tokens, and even then it keeps to the
words it was given.

## Main definitions

* `ParseError.Cause.found?` — the token that a cause tells
* `Failure.In` — a failure is noticed among given tokens
* `Within` — results that stay among given tokens
* `Alike`, `Shared` — words with the same tokens in front, and whether some of those are left
* `InStep` — a reading that stays among its words, and that other readings repeat
* `Parser.StepsWith` — parsers that do the same with words alike

## Main results

* `InStep.bind` — readings stay in step when they go on in step
* `InStep.accept` — they find the same mark in front of them
-/

namespace LWorkbench

/-! ### Places of failures -/

/-- The token that a cause tells. -/
def ParseError.Cause.found? : ParseError.Cause → Option Token
  | expected _ found => found
  | unexpectedToken found => some found
  | _ => none

/-- A failure is noticed at one of the tokens, or behind all of them, and a token that it tells is
the one where it was noticed. Characters have been read before, so that it tells none. -/
structure Failure.In (f : Failure) (words : List Lexeme) : Prop where
  rest : f.rest <:+ words
  found : ∀ token, f.cause.found? = some token → f.rest.head?.map Lexeme.token = some token
  not_character : ∀ c, f.cause ≠ .unexpectedCharacter c

theorem Failure.In.mono {f : Failure} {words words' : List Lexeme} (h : f.In words)
    (hwords : words <:+ words') : f.In words' :=
  ⟨h.rest.trans hwords, h.found, h.not_character⟩

theorem Cursor.expected_in (c : Cursor) (what : Expectation) : (c.expected what).In c.rest :=
  ⟨List.suffix_rfl, fun _ h => h, nofun⟩

/-- A result that leaves the last of the tokens, where `next` tells the cursor after it, or a
failure among them. -/
structure Within {β : Type} (words : List Lexeme) (next : β → Cursor) (x : Except Failure β) :
    Prop where
  read : ∀ b, x = .ok b → (next b).rest <:+ words
  failed : ∀ f, x = .error f → f.In words

namespace Within

variable {α β : Type} {words words' : List Lexeme} {next : α → Cursor} {next' : β → Cursor}
  {x : Except Failure α} {k : α → Except Failure β}

theorem ok {a : α} (h : (next a).rest <:+ words) : Within words next (.ok a) :=
  ⟨fun _ hb => Except.ok.inj hb ▸ h, fun _ hf => by cases hf⟩

theorem error {f : Failure} (h : f.In words) : Within words next (.error f) :=
  ⟨fun _ hb => (by cases hb), fun _ hg => Except.error.inj hg ▸ h⟩

theorem mono (h : Within words next x) (hwords : words <:+ words') : Within words' next x :=
  ⟨fun a ha => (h.read a ha).trans hwords, fun f hf => (h.failed f hf).mono hwords⟩

/-- What goes on with the tokens that are left stays among those that were given first. -/
theorem bind (hx : Within words next x) (hk : ∀ a, Within (next a).rest next' (k a)) :
    Within words next' (x >>= k) := by
  cases x with
  | error f => exact ⟨nofun, fun g hg => hx.failed g (Except.error.inj hg ▸ rfl)⟩
  | ok a => exact (hk a).mono (hx.read a rfl)

end Within

/-! ### Words alike -/

/-- Two lists of words share some tokens in front, until `t` is left of one and `t'` of the other.
If both are the same, it is enough that the words have the same tokens. -/
def Alike (t t' : List Token) (words words' : List Lexeme) : Prop :=
  t = t' ∧ words.map Lexeme.token = words'.map Lexeme.token ∨
    ∃ shared, shared ≠ [] ∧ words.map Lexeme.token = shared ++ t ∧
      words'.map Lexeme.token = shared ++ t'

/-- Some token in front of `t` is left, or there is no need for one because `t'` is the same. -/
def Shared (t t' : List Token) (words : List Lexeme) : Prop :=
  t = t' ∨ t.length < words.length

theorem Shared.mono {t t' : List Token} {words words' : List Lexeme} (h : Shared t t' words)
    (hwords : words <:+ words') : Shared t t' words' :=
  h.imp_right fun h => Nat.lt_of_lt_of_le h hwords.length_le

namespace Alike

variable {t t' : List Token} {c c' c₁ c₁' : Cursor} {l l' : Lexeme}

theorem peek? (h : Alike t t' c.rest c'.rest) : c'.peek? = c.peek? := by
  simp only [Cursor.peek?, ← List.head?_map]
  obtain ⟨-, hwords⟩ | ⟨shared, hne, hwords, hwords'⟩ := h
  · rw [hwords]
  · obtain ⟨token, shared, rfl⟩ := List.exists_cons_of_ne_nil hne
    rw [hwords, hwords']
    rfl

theorem isEmpty (h : Alike t t' c.rest c'.rest) : c'.rest.isEmpty = c.rest.isEmpty := by
  have hpeek := h.peek?
  simp only [Cursor.peek?] at hpeek
  cases hrest : c.rest <;> cases hrest' : c'.rest <;> simp_all

/-- Words share their second token as well, unless they share only one. -/
theorem peekSecond? (h : Alike t t' c.rest c'.rest) :
    c'.peekSecond? = c.peekSecond? ∨ (t ≠ t' ∧ c.rest.length = t.length + 1) := by
  simp only [Cursor.peekSecond?, ← List.head?_map, List.map_tail]
  obtain ⟨-, hwords⟩ | ⟨shared, hne, hwords, hwords'⟩ := h
  · exact .inl (by rw [hwords])
  · obtain ⟨token, shared, rfl⟩ := List.exists_cons_of_ne_nil hne
    rw [hwords, hwords']
    cases shared with
    | nil =>
      by_cases hsame : t = t'
      · exact .inl (by rw [hsame])
      · refine .inr ⟨hsame, ?_⟩
        rw [← List.length_map Lexeme.token, hwords]
        rfl
    | cons token' shared => exact .inl rfl

/-- One token further the words are still alike, unless that was the last one shared. -/
theorem tail (h : Alike t t' c.rest c'.rest) (htakes : c.Takes l c₁) (htakes' : c'.Takes l' c₁')
    (hshared : Shared t t' c₁.rest) : Alike t t' c₁.rest c₁'.rest := by
  rw [htakes.1.rest, htakes'.1.rest] at h
  obtain ⟨hsame, hwords⟩ | ⟨shared, hne, hwords, hwords'⟩ := h
  · exact .inl ⟨hsame, (List.cons.inj hwords).2⟩
  · obtain ⟨token, shared, rfl⟩ := List.exists_cons_of_ne_nil hne
    have hrest : c₁.rest.map Lexeme.token = shared ++ t := (List.cons.inj hwords).2
    have hrest' : c₁'.rest.map Lexeme.token = shared ++ t' := (List.cons.inj hwords').2
    by_cases hlast : shared = []
    · subst hlast
      rw [List.nil_append] at hrest hrest'
      have hsame : t = t' := hshared.resolve_right fun hlength => by
        rw [← hrest, List.length_map] at hlength
        exact Nat.lt_irrefl _ hlength
      exact .inl ⟨hsame, by rw [hrest, hrest', hsame]⟩
    · exact .inr ⟨shared, hlast, hrest, hrest'⟩

/-- Where words share their first token, another reading takes it as well. -/
theorem exists_takes (h : Alike t t' c.rest c'.rest) (htakes : c.Takes l c₁) :
    ∃ l' c₁', l'.token = l.token ∧ c'.Takes l' c₁' ∧
      (Shared t t' c₁.rest → Alike t t' c₁.rest c₁'.rest) := by
  obtain ⟨l', c₁', hl', htakes'⟩ := Cursor.exists_takes_of_peek? (h.peek?.trans htakes.peek?)
  exact ⟨l', c₁', hl', htakes', h.tail htakes htakes'⟩

theorem expected (h : Alike t t' c.rest c'.rest) (what : Expectation) :
    (c'.expected what).cause = (c.expected what).cause ∧
      Alike t t' (c.expected what).rest (c'.expected what).rest := by
  refine ⟨?_, h⟩
  rw [Cursor.expected, Cursor.expected, h.peek?]

end Alike

/-! ### Readings in step -/

/-- The reading `x` keeps to its words, and it is repeated by other readings `x'`, one for every way
`s` to have come to words alike. When `x` succeeds in front of a shared token, each of them succeeds
with something like what `x` has read, and when `x` fails there, each of them fails for the same
reason and at the same place. Only the limit of nesting may be another one. -/
structure InStep (t t' : List Token) {β : Type} (words : List Lexeme) (next : β → Cursor)
    {S : Type} {γ : S → Type} (like : ∀ s, β → γ s → Prop) (x : Except Failure β)
    (x' : ∀ s, Except Failure (γ s)) : Prop where
  within : Within words next x
  read : ∀ b, x = .ok b → Shared t t' (next b).rest → ∀ s, ∃ b', x' s = .ok b' ∧ like s b b'
  failed : ∀ f, x = .error f → Shared t t' f.rest → f.cause ≠ .nestedTooDeeply →
    ∀ s, ∃ f', x' s = .error f' ∧ f'.cause = f.cause ∧ Alike t t' f.rest f'.rest

/-- Values that correspond are read, and words alike are left. -/
def Parsed.Like (t t' : List Token) {α : Type} (same : α → α → Prop) {c c' : Cursor}
    (p : Parsed α c) (p' : Parsed α c') : Prop :=
  same p.value p'.value ∧ Alike t t' p.next.rest p'.next.rest

/-- Values that correspond are completed, and words alike are left. -/
def Completed.Like (t t' : List Token) {α : Type} (same : α → α → Prop) {c c' : Cursor}
    (p : Completed α c) (p' : Completed α c') : Prop :=
  same p.value p'.value ∧ Alike t t' p.next.rest p'.next.rest

/-- At words alike `parser'` does what `parser` does, and reads what corresponds. -/
def Parser.StepsWith (t t' : List Token) {α : Type} (same : α → α → Prop)
    (parser parser' : Parser α) : Prop :=
  ∀ c, InStep t t' c.rest Parsed.next (fun _ => Parsed.Like t t' same) (parser c)
    (fun c' : {c' : Cursor // Alike t t' c.rest c'.rest} => parser' c'.1)

/-- At words alike `tail'` does what `tail` does, and completes what corresponds. -/
def Parser.TailStepsWith (t t' : List Token) {α : Type} (same : α → α → Prop)
    (tail tail' : (c : Cursor) → Except Failure (Completed α c)) : Prop :=
  ∀ c, InStep t t' c.rest Completed.next (fun _ => Completed.Like t t' same) (tail c)
    (fun c' : {c' : Cursor // Alike t t' c.rest c'.rest} => tail' c'.1)

/-- Any values correspond. -/
def Anyhow {α : Type} (_ _ : α) : Prop := True

namespace InStep

variable {t t' : List Token} {β δ S : Type} {γ ε : S → Type} {words words₁ : List Lexeme}
  {next : β → Cursor} {next₁ : δ → Cursor} {like : ∀ s, β → γ s → Prop}
  {like₁ : ∀ s, δ → ε s → Prop} {x : Except Failure β} {x' : ∀ s, Except Failure (γ s)} {c : Cursor}

theorem ok {b : β} {b' : ∀ s, γ s} (hrest : (next b).rest <:+ words)
    (hlike : ∀ s, like s b (b' s)) :
    InStep t t' words next like (.ok b) (fun s => .ok (b' s)) where
  within := .ok hrest
  read _ hb _ s := ⟨b' s, rfl, Except.ok.inj hb ▸ hlike s⟩
  failed _ hf := by cases hf

theorem error {f : Failure} {f' : S → Failure} (hf : f.In words)
    (hlike : ∀ s, (f' s).cause = f.cause ∧ Alike t t' f.rest (f' s).rest) :
    InStep t t' words next like (.error f) (fun s => .error (f' s)) where
  within := .error hf
  read _ hb := by cases hb
  failed _ hg _ _ s := ⟨f' s, rfl, Except.error.inj hg ▸ hlike s⟩

/-- Something else was found than what is expected, by every reading. -/
theorem expected {cur : S → Cursor} (hcur : ∀ s, Alike t t' c.rest (cur s).rest)
    (what : Expectation) :
    InStep t t' c.rest next like (.error (c.expected what))
      (fun s => .error ((cur s).expected what)) :=
  .error (c.expected_in what) fun s => (hcur s).expected what

/-- A token that begins nothing was found by every reading. -/
theorem unexpected {cur : S → Cursor} (hcur : ∀ s, Alike t t' c.rest (cur s).rest) {token : Token}
    (hpeek : c.peek? = some token) :
    InStep t t' c.rest next like (.error ⟨.unexpectedToken token, c.rest⟩)
      (fun s => .error ⟨.unexpectedToken token, (cur s).rest⟩) :=
  .error ⟨List.suffix_rfl, fun _ hfound => hpeek.trans hfound, nofun⟩ fun s => ⟨rfl, hcur s⟩

theorem congr (y : Except Failure β) (y' : ∀ s, Except Failure (γ s)) (hx : x = y)
    (hx' : ∀ s, x' s = y' s) (h : InStep t t' words next like y y') :
    InStep t t' words next like x x' := by
  rwa [hx, funext hx']

/-- A reading that ends behind all shared tokens says nothing about others. -/
theorem of_not_shared (hwithin : Within words next x)
    (hread : ∀ b, x = .ok b → ¬ Shared t t' (next b).rest)
    (hfailed : ∀ f, x = .error f → f.cause ≠ .nestedTooDeeply → ¬ Shared t t' f.rest) :
    InStep t t' words next like x x' where
  within := hwithin
  read b hb hshared := absurd hshared (hread b hb)
  failed f hf hshared hcause := absurd hshared (hfailed f hf hcause)

/-- A reading that has gone on to `words₁` is compared with those only that have got as far. -/
theorem of_shared {Q : S → Prop} (hwords : words₁ <:+ words)
    (hQ : Shared t t' words₁ → ∀ s, Q s)
    (h : InStep t t' words₁ next (S := {s // Q s}) (fun s => like s.1) x (fun s => x' s.1)) :
    InStep t t' words next like x x' where
  within := h.within.mono hwords
  read b hb hshared s := h.read b hb hshared ⟨s, hQ (hshared.mono (h.within.read b hb)) s⟩
  failed f hf hshared hcause s :=
    h.failed f hf hshared hcause ⟨s, hQ (hshared.mono (h.within.failed f hf).rest) s⟩

/-- What holds of all readings at words alike holds of some of them. -/
theorem along {γ : Cursor → Type} {like : ∀ c', β → γ c' → Prop} {x : Except Failure β}
    {x' : ∀ c', Except Failure (γ c')} {cur : S → Cursor}
    (h : InStep t t' c.rest next (S := {c' : Cursor // Alike t t' c.rest c'.rest})
      (fun c' => like c'.1) x (fun c' => x' c'.1))
    (hcur : ∀ s, Alike t t' c.rest (cur s).rest) :
    InStep t t' c.rest next (fun s => like (cur s)) x (fun s => x' (cur s)) where
  within := h.within
  read b hb hshared s := h.read b hb hshared ⟨cur s, hcur s⟩
  failed f hf hshared hcause s := h.failed f hf hshared hcause ⟨cur s, hcur s⟩

/-- The same for what does not depend on where it has been read. -/
theorem along_const {γ : Type} {like : β → γ → Prop} {x : Except Failure β}
    {x' : Cursor → Except Failure γ} {cur : S → Cursor}
    (h : InStep t t' c.rest next (S := {c' : Cursor // Alike t t' c.rest c'.rest})
      (fun _ => like) x (fun c' => x' c'.1))
    (hcur : ∀ s, Alike t t' c.rest (cur s).rest) :
    InStep t t' c.rest next (fun _ => like) x (fun s => x' (cur s)) :=
  @along _ _ _ _ _ _ (fun _ => γ) (fun _ => like) _ _ _ h hcur

/-- Readings stay in step when, whatever they have read, they go on in step. -/
theorem bind {k : β → Except Failure δ} {k' : ∀ s, γ s → Except Failure (ε s)}
    (hx : InStep t t' words next like x x')
    (hk : ∀ b, InStep t t' (next b).rest next₁ (S := {p : Σ s, γ s // like p.1 b p.2})
      (fun p => like₁ p.1.1) (k b) (fun p => k' p.1.1 p.1.2)) :
    InStep t t' words next₁ like₁ (x >>= k) (fun s => x' s >>= k' s) where
  within := hx.within.bind fun b => (hk b).within
  read d hd hshared s := by
    obtain ⟨b, hb, hkb⟩ := ok_of_bind_iff.1 hd
    -- What is left in the end is left before, so the first part has ended among shared tokens.
    obtain ⟨b', hb', hlike⟩ := hx.read b hb (hshared.mono ((hk b).within.read d hkb)) s
    obtain ⟨d', hd', hlike'⟩ := (hk b).read d hkb hshared ⟨⟨s, b'⟩, hlike⟩
    exact ⟨d', by rw [hb']; exact hd', hlike'⟩
  failed f hf hshared hcause s := by
    cases x with
    | error g =>
      cases hf
      obtain ⟨f', hf', hlike⟩ := hx.failed f rfl hshared hcause s
      exact ⟨f', by rw [hf']; rfl, hlike⟩
    | ok b =>
      have hkb : k b = .error f := hf
      obtain ⟨b', hb', hlike⟩ := hx.read b rfl (hshared.mono ((hk b).within.failed f hkb).rest) s
      obtain ⟨f', hf', hlike'⟩ := (hk b).failed f hkb hshared hcause ⟨⟨s, b'⟩, hlike⟩
      exact ⟨f', by rw [hb']; exact hf', hlike'⟩

/-- Changing what was read does not change what is left. -/
theorem map {g : β → δ} {g' : ∀ s, γ s → ε s} (h : InStep t t' words next like x x')
    (hnext : ∀ b, next₁ (g b) = next b) (hlike : ∀ s b b', like s b b' → like₁ s (g b) (g' s b')) :
    InStep t t' words next₁ like₁ (x.map g) (fun s => (x' s).map (g' s)) :=
  h.bind fun b => .ok (hnext b ▸ List.suffix_rfl) fun p => hlike p.1.1 b p.1.2 p.2

/-! ### Single tokens -/

/-- Every reading takes the first token where that is shared. -/
theorem exists_takes {cur : S → Cursor} {l : Lexeme} {c₁ : Cursor}
    (hcur : ∀ s, Alike t t' c.rest (cur s).rest) (htakes : c.Takes l c₁) :
    ∃ (l' : S → Lexeme) (cur₁ : S → Cursor), (∀ s, (l' s).token = l.token) ∧
      (∀ s, (cur s).Takes (l' s) (cur₁ s)) ∧
      (Shared t t' c₁.rest → ∀ s, Alike t t' c₁.rest (cur₁ s).rest) := by
  choose l' cur₁ hl' htakes' halike using fun s => (hcur s).exists_takes htakes
  exact ⟨l', cur₁, hl', htakes', fun hshared s => halike s hshared⟩

/-- A mark is taken by every reading, or by none. -/
theorem accept_cases {cur : S → Cursor} (hcur : ∀ s, Alike t t' c.rest (cur s).rest)
    (mark : Symbol)
    (hsome : ∀ c₁ h₁ (cur₁ : S → Cursor)
      (h₁' : ∀ s, (cur₁ s).rest.length < (cur s).rest.length),
      Parser.accept? mark c = some ⟨(), c₁, h₁⟩ →
      (∀ s, Parser.accept? mark (cur s) = some ⟨(), cur₁ s, h₁' s⟩) → c₁.rest <:+ c.rest →
      (Shared t t' c₁.rest → ∀ s, Alike t t' c₁.rest (cur₁ s).rest) →
      InStep t t' words next like x x')
    (hnone : Parser.accept? mark c = none → (∀ s, Parser.accept? mark (cur s) = none) →
      InStep t t' words next like x x') :
    InStep t t' words next like x x' := by
  obtain ⟨hpeek, haccept⟩ | ⟨l, c₁, h₁, hl, htakes, haccept⟩ := Parser.accept?_cases mark c
  · refine hnone haccept fun s => Parser.accept?_of_peek? ?_
    rwa [(hcur s).peek?]
  · obtain ⟨l', cur₁, hl', htakes', halike⟩ := exists_takes hcur htakes
    refine hsome c₁ h₁ cur₁ (fun s => (htakes' s).length_lt) haccept (fun s => ?_)
      ⟨[l], htakes.1.rest.symm⟩ halike
    exact Parser.accept?_of_takes ((hl' s).trans hl) (htakes' s)

/-- When a mark is taken, the reading goes on with those that have taken it. -/
theorem accept {cur : S → Cursor} (hcur : ∀ s, Alike t t' c.rest (cur s).rest) (mark : Symbol)
    (hsome : ∀ c₁ h₁ (cur₁ : S → Cursor)
      (h₁' : ∀ s, (cur₁ s).rest.length < (cur s).rest.length),
      Parser.accept? mark c = some ⟨(), c₁, h₁⟩ →
      (∀ s, Parser.accept? mark (cur s) = some ⟨(), cur₁ s, h₁' s⟩) →
      InStep t t' c₁.rest next (S := {s // Alike t t' c₁.rest (cur₁ s).rest})
        (fun s => like s.1) x (fun s => x' s.1))
    (hnone : Parser.accept? mark c = none → (∀ s, Parser.accept? mark (cur s) = none) →
      InStep t t' c.rest next like x x') :
    InStep t t' c.rest next like x x' :=
  accept_cases hcur mark (fun c₁ h₁ cur₁ h₁' haccept haccept' hrest halike =>
    of_shared hrest halike (hsome c₁ h₁ cur₁ h₁' haccept haccept')) hnone

/-- A reserved word is taken by every reading, or by none. -/
theorem acceptWord {cur : S → Cursor} (hcur : ∀ s, Alike t t' c.rest (cur s).rest) (word : Keyword)
    (hsome : ∀ c₁ h₁ (cur₁ : S → Cursor)
      (h₁' : ∀ s, (cur₁ s).rest.length < (cur s).rest.length),
      Parser.acceptWord? word c = some ⟨(), c₁, h₁⟩ →
      (∀ s, Parser.acceptWord? word (cur s) = some ⟨(), cur₁ s, h₁' s⟩) →
      InStep t t' c₁.rest next (S := {s // Alike t t' c₁.rest (cur₁ s).rest})
        (fun s => like s.1) x (fun s => x' s.1))
    (hnone : Parser.acceptWord? word c = none → (∀ s, Parser.acceptWord? word (cur s) = none) →
      InStep t t' c.rest next like x x') :
    InStep t t' c.rest next like x x' := by
  obtain ⟨hpeek, haccept⟩ | ⟨l, c₁, h₁, hl, htakes, haccept⟩ := Parser.acceptWord?_cases word c
  · refine hnone haccept fun s => Parser.acceptWord?_of_peek? ?_
    rwa [(hcur s).peek?]
  · obtain ⟨l', cur₁, hl', htakes', halike⟩ := exists_takes hcur htakes
    refine of_shared ⟨[l], htakes.1.rest.symm⟩ halike
      (hsome c₁ h₁ cur₁ (fun s => (htakes' s).length_lt) haccept fun s => ?_)
    exact Parser.acceptWord?_of_takes ((hl' s).trans hl) (htakes' s)

end InStep

end LWorkbench
