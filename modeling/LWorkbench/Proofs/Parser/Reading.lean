import LWorkbench.Proofs.Grammar

/-!
# Parsers and phrases

A parser reads a kind of phrase when its results are exactly the phrases at the cursor that what
follows them cannot make longer. What follows matters because the parser takes as much as it can:
an expression in front of an operator would have become the operand of that operator.

## Main definitions

* `Cursor.Passes` — the words between two cursors
* `Parser.Runs` — a parser succeeds at a cursor
* `Parser.Reads` — a parser reads a kind of phrase

## Main results

* `Cursor.passes_append` — passing words one part after another
* `Parser.reads_name`, `Nesting.reads_elements`, `Nesting.runs_statements_iff` — names and lists
-/

namespace LWorkbench

/-- The second cursor is behind the given words of the first one. -/
structure Cursor.Passes (c : Cursor) (words : List Lexeme) (c' : Cursor) : Prop where
  rest : c.rest = words ++ c'.rest
  lastEnd : c'.lastEnd = (words.getLast?.map (·.span.stop)).getD c.lastEnd

namespace Cursor

variable {c c₁ c' : Cursor} {l : Lexeme} {words words' : List Lexeme}

theorem passes_nil : c.Passes [] c' ↔ c'.rest = c.rest ∧ c'.lastEnd = c.lastEnd :=
  ⟨fun h => ⟨h.rest.symm, h.lastEnd⟩, fun h => ⟨h.1.symm, h.2⟩⟩

theorem Passes.append (h : c.Passes words c₁) (h' : c₁.Passes words' c') :
    c.Passes (words ++ words') c' := by
  refine ⟨by rw [h.rest, h'.rest, List.append_assoc], ?_⟩
  rw [h'.lastEnd, h.lastEnd, List.getLast?_append]
  cases words'.getLast? <;> rfl

/-- Words are passed one part after another, and numbers do not matter on the way. -/
theorem passes_append (n : NodeId) :
    c.Passes (words ++ words') c' ↔
      ∃ c₁, c₁.nextId = n ∧ c.Passes words c₁ ∧ c₁.Passes words' c' := by
  constructor
  · intro h
    -- The cursor in between is determined up to its number, so any number will do.
    refine ⟨⟨words' ++ c'.rest, (words.getLast?.map (·.span.stop)).getD c.lastEnd, n⟩, rfl,
      ⟨by rw [h.rest, List.append_assoc], rfl⟩, ⟨rfl, ?_⟩⟩
    rw [h.lastEnd, List.getLast?_append]
    cases words'.getLast? <;> rfl
  · rintro ⟨c₁, -, h, h'⟩
    exact h.append h'

theorem passes_cons (n : NodeId) :
    c.Passes (l :: words) c' ↔ ∃ c₁, c₁.nextId = n ∧ c.Passes [l] c₁ ∧ c₁.Passes words c' := by
  rw [← List.singleton_append, passes_append n]

theorem passes_numbered : c.Passes words c'.numbered ↔ c.Passes words c' :=
  ⟨fun h => ⟨h.rest, h.lastEnd⟩, fun h => ⟨h.rest, h.lastEnd⟩⟩

@[simp] theorem nextId_numbered (c : Cursor) : c.numbered.nextId = c.nextId + 1 := rfl

/-- The node that the words end with gets its number when they have been passed. -/
theorem Passes.exists_numbered {j : NodeId} (h : c.Passes words c') (hj : c'.nextId = j + 1) :
    ∃ c₁, c' = Cursor.numbered c₁ ∧ c₁.nextId = j ∧ c.Passes words c₁ := by
  refine ⟨⟨c'.rest, c'.lastEnd, j⟩, ?_, rfl, h.rest, h.lastEnd⟩
  rw [numbered, ← hj]

theorem Passes.peek? (h : c.Passes (l :: words) c') : c.peek? = some l.token := by
  simp [Cursor.peek?, h.rest]

theorem Passes.peekSecond? {l' : Lexeme} (h : c.Passes (l :: l' :: words) c') :
    c.peekSecond? = some l'.token := by
  simp [Cursor.peekSecond?, h.rest]

theorem Passes.length_lt (h : c.Passes words c') (hne : words ≠ []) :
    c'.rest.length < c.rest.length := by
  have := List.length_pos_iff.2 hne
  rw [h.rest, List.length_append]
  omega

/-- A node spans the words that are read for it. -/
theorem Passes.site_eq (h : c.Passes words c') (hne : words ≠ []) :
    c'.site c.start = .ofWords words c'.nextId := by
  obtain ⟨l, others, rfl⟩ := List.exists_cons_of_ne_nil hne
  have hstart : c.start = l.span.start := by simp [Cursor.start, h.rest]
  rw [Cursor.site, hstart, h.lastEnd, Site.ofWords, Span.ofWords, List.getLast?_cons]
  rfl

/-- The second cursor is behind one word of the first one, and no node lies between them. -/
def Takes (c : Cursor) (l : Lexeme) (c' : Cursor) : Prop :=
  c.Passes [l] c' ∧ c'.nextId = c.nextId

theorem Takes.length_lt (h : c.Takes l c') : c'.rest.length < c.rest.length :=
  h.1.length_lt (by simp)

theorem Takes.peek? (h : c.Takes l c') : c.peek? = some l.token := h.1.peek?

/-- A token is taken with the word that it stands in. -/
theorem take?_eq_some_iff {t : Token} {h : c'.rest.length < c.rest.length} :
    c.take? = some ⟨t, c', h⟩ ↔ ∃ l, l.token = t ∧ c.Takes l c' := by
  obtain ⟨rest, lastEnd, nextId⟩ := c
  obtain ⟨rest', lastEnd', nextId'⟩ := c'
  cases rest with
  | nil => simp at h
  | cons lexeme rest =>
    simp only [take?, Option.some.injEq, Parsed.mk.injEq, Cursor.mk.injEq]
    constructor
    · rintro ⟨rfl, rfl, rfl, rfl⟩
      exact ⟨lexeme, rfl, ⟨rfl, rfl⟩, rfl⟩
    -- Cursors agree when their words, their last end and their number do.
    · rintro ⟨l, rfl, ⟨hrest, hend⟩, hid⟩
      obtain ⟨rfl, rfl⟩ : lexeme = l ∧ rest = rest' := by simpa using hrest
      exact ⟨rfl, rfl, hend.symm, hid.symm⟩

theorem Takes.take? (h : c.Takes l c') : c.take? = some ⟨l.token, c', h.length_lt⟩ :=
  take?_eq_some_iff.2 ⟨l, rfl, h⟩

theorem peek?_of_take? {p : Parsed Token c} (h : c.take? = some p) : c.peek? = some p.value := by
  obtain ⟨t, c₁, h₁⟩ := p
  obtain ⟨l, rfl, htakes⟩ := take?_eq_some_iff.1 h
  exact htakes.peek?

theorem exists_takes_of_peek? {t : Token} (h : c.peek? = some t) :
    ∃ l c₁, l.token = t ∧ c.Takes l c₁ := by
  obtain ⟨rest, lastEnd, nextId⟩ := c
  cases rest with
  | nil => simp [Cursor.peek?] at h
  | cons l rest =>
    obtain rfl : l.token = t := by simpa [Cursor.peek?] using h
    exact ⟨l, ⟨rest, l.span.stop, nextId⟩, rfl, ⟨rfl, rfl⟩, rfl⟩

end Cursor

/-! ### Results of parsers -/

/-- What comes after something that was read, when both succeed. -/
theorem ok_of_bind_iff {α β : Type} {x : Except Failure α} {f : α → Except Failure β} {b : β} :
    x >>= f = .ok b ↔ ∃ a, x = .ok a ∧ f a = .ok b := by
  cases x with
  | error e =>
    constructor
    · intro h
      cases h
    · rintro ⟨a, h, -⟩
      cases h
  | ok a =>
    constructor
    · exact fun h => ⟨a, rfl, h⟩
    · rintro ⟨a, h, hf⟩
      cases h
      exact hf

theorem ok_bind {α β : Type} {a : α} {f : α → Except Failure β} : Except.ok a >>= f = f a := rfl

theorem Parsed.exists_iff {α : Type} {c : Cursor} {P : Parsed α c → Prop} :
    (∃ q, P q) ↔ ∃ a c' h, P ⟨a, c', h⟩ :=
  ⟨fun ⟨q, hq⟩ => ⟨q.value, q.next, q.progress, hq⟩, fun ⟨_, _, _, hq⟩ => ⟨_, hq⟩⟩

section

variable {α γ : Type} {p : Prop} {c c' : Cursor} {result : p → γ} {a : α}

/-- What is read first is read with some cursor after it, where the rest goes on. -/
theorem Parsed.exists_bind_iff {x : Except Failure (Parsed α c)}
    {k : Parsed α c → Except Failure γ} :
    (∃ h, x >>= k = .ok (result h)) ↔
      ∃ a c₁ h₁, x = .ok ⟨a, c₁, h₁⟩ ∧ ∃ h, k ⟨a, c₁, h₁⟩ = .ok (result h) := by
  simp only [ok_of_bind_iff, Parsed.exists_iff]
  constructor
  · rintro ⟨h, a, c₁, h₁, hx, hk⟩
    exact ⟨a, c₁, h₁, hx, h, hk⟩
  · rintro ⟨a, c₁, h₁, hx, h, hk⟩
    exact ⟨h, a, c₁, h₁, hx, hk⟩

theorem Completed.exists_bind_iff {x : Except Failure (Completed α c)}
    {k : Completed α c → Except Failure γ} :
    (∃ h, x >>= k = .ok (result h)) ↔
      ∃ a c₁ h₁, x = .ok ⟨a, c₁, h₁⟩ ∧ ∃ h, k ⟨a, c₁, h₁⟩ = .ok (result h) := by
  simp only [ok_of_bind_iff]
  constructor
  · rintro ⟨h, ⟨a, c₁, h₁⟩, hx, hk⟩
    exact ⟨a, c₁, h₁, hx, h, hk⟩
  · rintro ⟨a, c₁, h₁, hx, h, hk⟩
    exact ⟨h, ⟨a, c₁, h₁⟩, hx, hk⟩

theorem Parsed.exists_pure_iff {q : Parsed α c} :
    (∃ h, (pure q : Except Failure (Parsed α c)) = .ok ⟨a, c', h⟩) ↔ a = q.value ∧ c' = q.next := by
  constructor
  · rintro ⟨h, hq⟩
    cases hq
    exact ⟨rfl, rfl⟩
  · rintro ⟨rfl, rfl⟩
    exact ⟨q.progress, rfl⟩

theorem Completed.exists_pure_iff {q : Completed α c} :
    (∃ h, (pure q : Except Failure (Completed α c)) = .ok ⟨a, c', h⟩) ↔
      a = q.value ∧ c' = q.next := by
  constructor
  · rintro ⟨h, hq⟩
    cases hq
    exact ⟨rfl, rfl⟩
  · rintro ⟨rfl, rfl⟩
    exact ⟨q.noLonger, rfl⟩

theorem Parsed.value_node {make : Site → α} (h : c'.rest.length < c.rest.length) :
    (Parsed.node make c' h).value = make (c'.site c.start) := rfl

theorem Parsed.next_node {make : Site → α} (h : c'.rest.length < c.rest.length) :
    (Parsed.node make c' h).next = c'.numbered := rfl

end

namespace Parser

variable {α : Type} {c c' : Cursor}

/-- The parser succeeds at `c` with `a`, and `c'` is the cursor after it. -/
def Runs (parser : Parser α) (c : Cursor) (a : α) (c' : Cursor) : Prop :=
  ∃ h, parser c = .ok ⟨a, c', h⟩

/-- What completes something succeeds at `c` with `a`, and `c'` is the cursor after it. -/
def Finishes (tail : (c : Cursor) → Except Failure (Completed α c)) (c : Cursor) (a : α)
    (c' : Cursor) : Prop :=
  ∃ h, tail c = .ok ⟨a, c', h⟩

/-- The parser succeeds exactly with the phrases of a kind, as far as what follows allows. -/
def Reads (parser : Parser α) (phrase : Phrase α) (follow : α → List Lexeme → Prop) : Prop :=
  ∀ c a c', parser.Runs c a c' ↔
    ∃ words, c.Passes words c' ∧ phrase words c.nextId c'.nextId a ∧ follow a c'.rest

/-- Anything may follow. -/
def Anything (_ : α) (_ : List Lexeme) : Prop := True

theorem Runs.length_lt {parser : Parser α} {a : α} (h : parser.Runs c a c') :
    c'.rest.length < c.rest.length :=
  h.1

/-! ### Single tokens -/

theorem accept?_of_takes {s : Symbol} {l : Lexeme} (hl : l.Is s) (h : c.Takes l c') :
    accept? s c = some ⟨(), c', h.length_lt⟩ := by
  rw [accept?, if_pos (hl ▸ h.peek?), h.take?]
  rfl

theorem accept?_of_peek? {s : Symbol} (h : c.peek? ≠ some (.symbol s)) : accept? s c = none :=
  if_neg h

/-- Either the mark comes next, and is taken, or nothing is. -/
theorem accept?_cases (s : Symbol) (c : Cursor) :
    (c.peek? ≠ some (.symbol s) ∧ accept? s c = none) ∨
      ∃ l c₁ h, l.Is s ∧ c.Takes l c₁ ∧ accept? s c = some ⟨(), c₁, h⟩ := by
  by_cases hpeek : c.peek? = some (.symbol s)
  · obtain ⟨l, c₁, hl, htakes⟩ := Cursor.exists_takes_of_peek? hpeek
    exact .inr ⟨l, c₁, _, hl, htakes, accept?_of_takes hl htakes⟩
  · exact .inl ⟨hpeek, accept?_of_peek? hpeek⟩

theorem acceptWord?_of_takes {k : Keyword} {l : Lexeme} (hl : l.IsWord k) (h : c.Takes l c') :
    acceptWord? k c = some ⟨(), c', h.length_lt⟩ := by
  rw [acceptWord?, if_pos (hl ▸ h.peek?), h.take?]
  rfl

theorem acceptWord?_of_peek? {k : Keyword} (h : c.peek? ≠ some (.keyword k)) :
    acceptWord? k c = none :=
  if_neg h

/-- Either the reserved word comes next, and is taken, or nothing is. -/
theorem acceptWord?_cases (k : Keyword) (c : Cursor) :
    (c.peek? ≠ some (.keyword k) ∧ acceptWord? k c = none) ∨
      ∃ l c₁ h, l.IsWord k ∧ c.Takes l c₁ ∧ acceptWord? k c = some ⟨(), c₁, h⟩ := by
  by_cases hpeek : c.peek? = some (.keyword k)
  · obtain ⟨l, c₁, hl, htakes⟩ := Cursor.exists_takes_of_peek? hpeek
    exact .inr ⟨l, c₁, _, hl, htakes, acceptWord?_of_takes hl htakes⟩
  · exact .inl ⟨hpeek, acceptWord?_of_peek? hpeek⟩

theorem runs_expect {s : Symbol} {what : Expectation} :
    (expect s what).Runs c () c' ↔ ∃ l, l.Is s ∧ c.Takes l c' := by
  unfold Runs expect
  constructor
  · rintro ⟨h, hrun⟩
    obtain ⟨-, hnone⟩ | ⟨l, c₁, h₁, hl, htakes, hsome⟩ := accept?_cases s c
    · simp [hnone] at hrun
    · simp only [hsome] at hrun
      cases hrun
      exact ⟨l, hl, htakes⟩
  · rintro ⟨l, hl, htakes⟩
    exact ⟨htakes.length_lt, by rw [accept?_of_takes hl htakes]⟩

/-- Names are read from identifiers. -/
theorem reads_name (kind : ScopeKind) (what : Expectation) :
    (name kind what).Reads (Grammar.NamePhrase kind) Anything := by
  intro c n c'
  unfold Runs name
  constructor
  · rintro ⟨h, hrun⟩
    split at hrun
    · rename_i identifier c₁ h₁ htake
      obtain ⟨l, hl, htakes⟩ := Cursor.take?_eq_some_iff.1 htake
      simp only [Except.ok.injEq, Parsed.node] at hrun
      obtain ⟨rfl, rfl⟩ := hrun
      refine ⟨[l], Cursor.passes_numbered.2 htakes.1, ?_, trivial⟩
      rw [htakes.1.site_eq (by simp), htakes.2, Cursor.nextId_numbered, htakes.2]
      exact .name hl
    · cases hrun
  · rintro ⟨words, hpasses, hphrase, -⟩
    generalize hi : c.nextId = i at hphrase
    generalize hj : c'.nextId = j at hphrase
    obtain ⟨hl⟩ := hphrase
    rename_i l x
    obtain ⟨c₁, rfl, hc₁, hpasses⟩ := hpasses.exists_numbered hj
    have htakes : c.Takes l c₁ := ⟨hpasses, hc₁.trans hi.symm⟩
    refine ⟨htakes.length_lt, ?_⟩
    simp only [htakes.take?, hl, Parsed.node, hpasses.site_eq (List.cons_ne_nil l []), hc₁]

theorem exists_name_of_phrase {kind : ScopeKind} {words : List Lexeme} {i j : NodeId} {n : Name}
    (h : Grammar.NamePhrase kind words i j n) : ∃ l x, words = [l] ∧ l.IsName x := by
  obtain ⟨hl⟩ := h
  exact ⟨_, _, rfl, hl⟩

/-- The name of a property is an identifier. -/
theorem runs_propertyName {x : String} :
    propertyName.Runs c x c' ↔ ∃ l, l.IsName x ∧ c.Takes l c' := by
  unfold Runs propertyName
  constructor
  · rintro ⟨h, hrun⟩
    split at hrun
    · rename_i identifier c₁ h₁ htake
      cases hrun
      exact Cursor.take?_eq_some_iff.1 htake
    · cases hrun
  · rintro ⟨l, hl, htakes⟩
    exact ⟨htakes.length_lt, by simp only [htakes.take?, hl]⟩

/-- The key of a property is an identifier or a string. -/
theorem runs_propertyKey {x : String} :
    propertyKey.Runs c x c' ↔ ∃ l, (l.IsName x ∨ l.token = .string x) ∧ c.Takes l c' := by
  unfold Runs propertyKey
  constructor
  · rintro ⟨h, hrun⟩
    split at hrun
    · rename_i identifier c₁ h₁ htake
      cases hrun
      obtain ⟨l, hl, htakes⟩ := Cursor.take?_eq_some_iff.1 htake
      exact ⟨l, .inl hl, htakes⟩
    · rename_i identifier c₁ h₁ htake
      cases hrun
      obtain ⟨l, hl, htakes⟩ := Cursor.take?_eq_some_iff.1 htake
      exact ⟨l, .inr hl, htakes⟩
    · cases hrun
  · rintro ⟨l, hl | hl, htakes⟩
    · exact ⟨htakes.length_lt, by simp only [htakes.take?, hl]⟩
    · exact ⟨htakes.length_lt, by simp only [htakes.take?, hl]⟩

end Parser

/-! ### Lists -/

/-- The next word, if there is one, is not `else`. -/
def NotElse (rest : List Lexeme) : Prop :=
  ∀ l, rest.head? = some l → ¬ l.IsWord .elseWord

/-- A statement may end in front of words that do not go on with an `else` for it. -/
def EndsBefore (s : Stmt) (rest : List Lexeme) : Prop :=
  s.isOpen = true → NotElse rest

namespace Nesting

open LWorkbench.Parser Grammar

variable {α : Type} {element : Parser α} {phrase : Phrase α} {follow : α → List Lexeme → Prop}
  {close : Symbol} {what : Expectation} {c c' : Cursor}

/-- A list is empty, or an element and a comma stand in front of the others, or it ends with an
element. -/
theorem runs_elements {xs : List α} :
    Parser.Runs (elements element close what) c xs c' ↔
      (∃ l, l.Is close ∧ c.Takes l c' ∧ xs = []) ∨
      (c.peek? ≠ some (.symbol close) ∧ ∃ x c₁, element.Runs c x c₁ ∧
        ((∃ l c₂ others, l.Is .comma ∧ c₁.Takes l c₂ ∧
            Parser.Runs (elements element close what) c₂ others c' ∧ xs = x :: others) ∨
          (c₁.peek? ≠ some (.symbol .comma) ∧ ∃ l, l.Is close ∧ c₁.Takes l c' ∧ xs = [x]))) := by
  constructor
  · rintro ⟨h, hrun⟩
    rw [elements] at hrun
    -- The closing mark is looked for before every element, so a comma may stand in front of it.
    obtain ⟨hpeek, hclose⟩ | ⟨l, c₁, h₁, hl, htakes, hclose⟩ := accept?_cases close c
    · simp only [hclose, ok_of_bind_iff, Parsed.exists_iff] at hrun
      obtain ⟨x, c₁, h₁, hx, hrun⟩ := hrun
      refine .inr ⟨hpeek, x, c₁, ⟨h₁, hx⟩, ?_⟩
      obtain ⟨hpeek', hcomma⟩ | ⟨l, c₂, h₂, hl, htakes, hcomma⟩ := accept?_cases .comma c₁
      · simp only [hcomma, ok_of_bind_iff, Parsed.exists_iff] at hrun
        obtain ⟨_, c₂, h₂, hlast, hrun⟩ := hrun
        cases hrun
        obtain ⟨l, hl, htakes⟩ := runs_expect.1 ⟨h₂, hlast⟩
        exact .inr ⟨hpeek', l, hl, htakes, rfl⟩
      · simp only [hcomma, ok_of_bind_iff, Parsed.exists_iff] at hrun
        obtain ⟨others, c₃, h₃, hothers, hrun⟩ := hrun
        cases hrun
        exact .inl ⟨l, c₂, others, hl, htakes, ⟨h₃, hothers⟩, rfl⟩
    · simp only [hclose] at hrun
      cases hrun
      exact .inl ⟨l, hl, htakes, rfl⟩
  · rintro (⟨l, hl, htakes, rfl⟩ | ⟨hpeek, x, c₁, hx, hrun⟩)
    · refine ⟨htakes.length_lt, ?_⟩
      rw [elements, accept?_of_takes hl htakes]
    · obtain ⟨h₁, hx⟩ := hx
      obtain ⟨l, c₂, others, hl, htakes, ⟨h₂, hothers⟩, rfl⟩ | ⟨hpeek', l, hl, htakes, rfl⟩ := hrun
      · refine ⟨Nat.lt_trans h₂ (Nat.lt_trans htakes.length_lt h₁), ?_⟩
        rw [elements, accept?_of_peek? hpeek]
        simp only [hx, ok_bind, accept?_of_takes hl htakes, hothers]
        rfl
      · obtain ⟨h₂, hlast⟩ : (expect close what).Runs c₁ () c' := runs_expect.2 ⟨l, hl, htakes⟩
        refine ⟨Nat.lt_trans h₂ h₁, ?_⟩
        rw [elements, accept?_of_peek? hpeek]
        simp only [hx, ok_bind, accept?_of_peek? hpeek', hlast]
        rfl

/-- A list is read when its elements are, when no element begins with the closing mark and when an
element may end in front of a comma or the closing mark. -/
theorem reads_elements (helement : element.Reads phrase follow) (hcomma : close ≠ .comma)
    (hopens : ∀ {w i j x}, phrase w i j x → ∃ l w', w = l :: w' ∧ ¬ l.Is close)
    (hfollow : ∀ {x l rest}, l.Is .comma ∨ l.Is close → follow x (l :: rest)) :
    Parser.Reads (elements element close what) (Elements phrase close) Anything := by
  intro c xs c'
  constructor
  -- The list that was read tells how often the parser went round.
  · intro hrun
    induction xs generalizing c with
    | nil =>
      obtain ⟨l, hl, htakes, -⟩ | ⟨-, x, c₁, -, hrun⟩ := runs_elements.1 hrun
      · refine ⟨[l], htakes.1, ?_, trivial⟩
        rw [htakes.2]
        exact .nil hl
      · obtain ⟨l, c₂, others, -, -, -, hxs⟩ | ⟨-, l, -, -, hxs⟩ := hrun <;> cases hxs
    | cons x others ih =>
      obtain ⟨l, -, -, hxs⟩ | ⟨-, x', c₁, hx, hrun⟩ := runs_elements.1 hrun
      · cases hxs
      obtain ⟨w, hw, hphrase, -⟩ := (helement c x' c₁).1 hx
      obtain ⟨l, c₂, others, hl, htakes, hothers, hxs⟩ | ⟨-, l, hl, htakes, hxs⟩ := hrun
      · cases hxs
        obtain ⟨w', hw', helements, -⟩ := ih c₂ hothers
        rw [htakes.2] at helements
        exact ⟨w ++ ([l] ++ w'), hw.append (htakes.1.append hw'), .cons hphrase hl helements,
          trivial⟩
      · cases hxs
        refine ⟨w ++ [l], hw.append htakes.1, ?_, trivial⟩
        rw [htakes.2]
        exact .last hphrase hl
  · rintro ⟨words, hpasses, helements, -⟩
    generalize hi : c.nextId = i at helements
    generalize hk : c'.nextId = k at helements
    induction helements generalizing c with
    | @nil l i hl => exact runs_elements.2 (.inl ⟨l, hl, ⟨hpasses, hk.trans hi.symm⟩, rfl⟩)
    | @last l w i j x hx hl =>
      obtain ⟨c₁, hj, hw, hend⟩ := (Cursor.passes_append j).1 hpasses
      obtain ⟨l', w', rfl, hl'⟩ := hopens hx
      have hpeek : c.peek? ≠ some (.symbol close) := by
        rw [hw.peek?]
        exact fun h => hl' (Option.some.inj h)
      -- The closing mark is no comma, so the parser looks for it and not for another element.
      have hpeek₁ : c₁.peek? ≠ some (.symbol .comma) := by
        rw [hend.peek?, hl]
        simpa using hcomma
      have hx : element.Runs c x c₁ :=
        (helement c x c₁).2 ⟨_, hw, hi ▸ hj ▸ hx, hend.rest ▸ hfollow (.inr hl)⟩
      exact runs_elements.2 (.inr ⟨hpeek, x, c₁, hx,
        .inr ⟨hpeek₁, l, hl, ⟨hend, hk.trans hj.symm⟩, rfl⟩⟩)
    | @cons l w w' i j k x others hx hl _ ih =>
      obtain ⟨c₁, hj, hw, htail⟩ := (Cursor.passes_append j).1 hpasses
      obtain ⟨c₂, hj₂, hend, hw'⟩ := (Cursor.passes_cons j).1 htail
      obtain ⟨l', w₁, rfl, hl'⟩ := hopens hx
      have hpeek : c.peek? ≠ some (.symbol close) := by
        rw [hw.peek?]
        exact fun h => hl' (Option.some.inj h)
      have hx : element.Runs c x c₁ :=
        (helement c x c₁).2 ⟨_, hw, hi ▸ hj ▸ hx, hend.rest ▸ hfollow (.inl hl)⟩
      exact runs_elements.2 (.inr ⟨hpeek, x, c₁, hx,
        .inl ⟨l, c₂, others, hl, ⟨hend, hj₂.trans hj.symm⟩, ih c₂ hw' hj₂ hk, rfl⟩⟩)

/-! ### Statements one after another -/

variable {inner : Nesting} {statement : Phrase Stmt} {ss : List Stmt}

/-- Statements end with the brace, or a statement stands in front of the others. -/
theorem runs_statements :
    Parser.Runs (statements inner) c ss c' ↔
      (∃ l, l.Is .rightBrace ∧ c.Takes l c' ∧ ss = []) ∨
      (c.peek? ≠ some (.symbol .rightBrace) ∧ ∃ s c₁ others, inner.statement.Runs c s c₁ ∧
        Parser.Runs (statements inner) c₁ others c' ∧ ss = s :: others) := by
  constructor
  · rintro ⟨h, hrun⟩
    rw [statements] at hrun
    obtain ⟨hpeek, hclose⟩ | ⟨l, c₁, h₁, hl, htakes, hclose⟩ := accept?_cases .rightBrace c
    -- A parser that succeeds takes a word, so the test for the end of the words has failed.
    · have hne : c.rest.isEmpty = false := by
        simpa using List.ne_nil_of_length_pos (Nat.zero_lt_of_lt h)
      simp only [hclose, hne, Bool.false_eq_true, if_false, ok_of_bind_iff,
        Parsed.exists_iff] at hrun
      obtain ⟨s, c₁, h₁, hs, others, c₂, h₂, hothers, hrun⟩ := hrun
      cases hrun
      exact .inr ⟨hpeek, s, c₁, others, ⟨h₁, hs⟩, ⟨h₂, hothers⟩, rfl⟩
    · simp only [hclose] at hrun
      cases hrun
      exact .inl ⟨l, hl, htakes, rfl⟩
  · rintro (⟨l, hl, htakes, rfl⟩ | ⟨hpeek, s, c₁, others, ⟨h₁, hs⟩, ⟨h₂, hothers⟩, rfl⟩)
    · refine ⟨htakes.length_lt, ?_⟩
      rw [statements, accept?_of_takes hl htakes]
    · have hne : c.rest.isEmpty = false := by
        simpa using List.ne_nil_of_length_pos (Nat.zero_lt_of_lt h₁)
      refine ⟨Nat.lt_trans h₂ h₁, ?_⟩
      rw [statements, accept?_of_peek? hpeek]
      simp only [hne, Bool.false_eq_true, if_false, hs, ok_bind, hothers]
      rfl

/-- No statement begins with a word that could end or continue the one before it. -/
def Separate (statement : Phrase Stmt) : Prop :=
  ∀ {w i j s}, statement w i j s → ∃ l w', w = l :: w' ∧ ¬ l.Is .rightBrace ∧ ¬ l.IsWord .elseWord

theorem Separate.notElse (hseparate : Separate statement) {w rest : List Lexeme} {i j : NodeId}
    (h : Statements statement w i j ss) (hrest : NotElse rest) : NotElse (w ++ rest) := by
  cases h with
  | nil => exact hrest
  | cons hs _ =>
    obtain ⟨l, w', rfl, -, hl⟩ := hseparate hs
    rintro l' hl'
    cases hl'
    exact hl

/-- Statements up to a brace are read when each of them is. -/
theorem runs_statements_iff (hstatement : inner.statement.Reads statement EndsBefore)
    (hseparate : Separate statement) :
    Parser.Runs (statements inner) c ss c' ↔ ∃ w l c₁, c.Passes w c₁ ∧
      Statements statement w c.nextId c₁.nextId ss ∧ l.Is .rightBrace ∧ c₁.Takes l c' := by
  constructor
  · intro hrun
    induction ss generalizing c with
    | nil =>
      obtain ⟨l, hl, htakes, -⟩ | ⟨-, s, c₁, others, -, -, hss⟩ := runs_statements.1 hrun
      · exact ⟨[], l, c, Cursor.passes_nil.2 ⟨rfl, rfl⟩, .nil, hl, htakes⟩
      · cases hss
    | cons s others ih =>
      obtain ⟨l, -, -, hss⟩ | ⟨-, s', c₁, others, hs, hothers, hss⟩ := runs_statements.1 hrun
      · cases hss
      cases hss
      obtain ⟨w, hw, hphrase, -⟩ := (hstatement c s c₁).1 hs
      obtain ⟨w', l, c₂, hw', hstatements, hl, htakes⟩ := ih hothers
      exact ⟨w ++ w', l, c₂, hw.append hw', .cons hphrase hstatements, hl, htakes⟩
  · rintro ⟨w, l, c₁, hw, hstatements, hl, htakes⟩
    -- The numbers are made variables, since the induction is over derivations from any numbers.
    generalize hi : c.nextId = i at hstatements
    generalize hj : c₁.nextId = j at hstatements
    induction hstatements generalizing c with
    | nil =>
      have hw := Cursor.passes_nil.1 hw
      refine runs_statements.2 (.inl ⟨l, hl, ⟨⟨?_, ?_⟩, ?_⟩, rfl⟩)
      · rw [← hw.1, htakes.1.rest]
      · rw [htakes.1.lastEnd, hw.2]
      · rw [htakes.2, hj, hi]
    | @cons w w' i k j s ss hs hss ih =>
      obtain ⟨c₂, hk, hw, hw'⟩ := (Cursor.passes_append k).1 hw
      -- What follows a statement is the next one or the brace, and neither begins with `else`.
      have hends : NotElse c₂.rest := by
        rw [hw'.rest]
        refine hseparate.notElse hss ?_
        rw [htakes.1.rest]
        rintro l' hl'
        cases hl'
        simp [hl]
      have hrun : inner.statement.Runs c s c₂ :=
        (hstatement c s c₂).2 ⟨w, hw, hi ▸ hk ▸ hs, fun _ => hends⟩
      obtain ⟨l', w₁, rfl, hl', -⟩ := hseparate hs
      have hpeek : c.peek? ≠ some (.symbol .rightBrace) := by
        rw [hw.peek?]
        exact fun h => hl' (Option.some.inj h)
      exact runs_statements.2 (.inr ⟨hpeek, s, c₂, ss, hrun, ih hw' hk hj, rfl⟩)

/-- A block of statements is read when each of them is. -/
theorem runs_braced (hstatement : inner.statement.Reads statement EndsBefore)
    (hseparate : Separate statement) :
    (∃ l c₁, l.Is .leftBrace ∧ c.Takes l c₁ ∧ Parser.Runs (statements inner) c₁ ss c') ↔
      ∃ words, c.Passes words c' ∧ Braced statement words c.nextId c'.nextId ss := by
  constructor
  · rintro ⟨l, c₁, hl, htakes, hrun⟩
    obtain ⟨w, l', c₂, hw, hstatements, hl', htakes'⟩ :=
      (runs_statements_iff hstatement hseparate).1 hrun
    rw [htakes.2, ← htakes'.2] at hstatements
    exact ⟨[l] ++ w ++ [l'], (htakes.1.append hw).append htakes'.1, .braced hl hstatements hl'⟩
  · rintro ⟨words, hpasses, hbraced⟩
    generalize hi : c.nextId = i at hbraced
    generalize hj : c'.nextId = j at hbraced
    obtain ⟨hl, hstatements, hl'⟩ := hbraced
    rename_i l l' w
    obtain ⟨c₂, hj₂, hw, hclose⟩ := (Cursor.passes_append j).1 hpasses
    obtain ⟨c₁, hi₁, hopen, hw⟩ := (Cursor.passes_cons i).1 hw
    refine ⟨l, c₁, hl, ⟨hopen, hi₁.trans hi.symm⟩,
      (runs_statements_iff hstatement hseparate).2 ⟨w, l', c₂, hw, ?_, hl', hclose, ?_⟩⟩
    · rwa [hi₁, hj₂]
    · exact hj.trans hj₂.symm

end Nesting

end LWorkbench
