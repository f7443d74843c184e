import LWorkbench.Proofs.Parser.Descent
import LWorkbench.Proofs.Parser.Failures

/-!
# What routines owe each other

A routine that is called owes its caller what the parser of the same phrase reads from the cursor
where it was called, with the levels of nesting that are left there. It owes the depth as well: a
routine that succeeds gives it back, and one that fails may have been refused one level deeper. In
turn nothing is called beyond the limit, nothing is taken behind the last word, and a routine that
has entered nothing only calls routines on lower rungs.

A script meets the contract of its routine when it does so for all answers that fulfil the contracts
of the routines it calls. Scripts and parsers are followed step by step, one next to the other: what
is left of the script has to give what is left of the parser.

## Main definitions

* `Gives` — a result and the cursor behind it are those of a parser
* `Routine.Means`, `Loop.Rest` — what a routine gives, and what a loop still has to give
* `Routine.rung` — the order in which routines call each other without entering anything
* `Routine.Answers` — the contract of a call
* `Script.Fulfils` — a script meets a contract
* `Script.Performs`, `Script.Completes` — a script does at a head what a parser does there,
  whatever follows
* `Script.Follows`, `Script.Finishes` — a script does so wherever it is at its own depth

## Main results

* `Script.follows_expect`, `Script.follows_name` — single tokens are read as by parsers
* `Script.follows_invoke`, `Script.follows_nested` — so is what is left to other routines, at the
  same depth or one level deeper
-/

namespace LWorkbench.Descent

/-! ### Heads -/

namespace Head

variable {words : List Lexeme} {h h' : Head words} {token : Token}

@[simp] theorem depth_take (h : Head words) : (h.perform .take).depth = h.depth := rfl

@[simp] theorem depth_enter (h : Head words) : (h.perform .enter).depth = h.depth + 1 := rfl

@[simp] theorem depth_leave (h : Head words) : (h.perform .leave).depth = h.depth - 1 := rfl

theorem cursor_number (h : Head words) : (h.perform .number).cursor = h.cursor.numbered := rfl

/-- Where another level is left, its parsers are made from those one level deeper. -/
theorem nesting_of_lt (hlt : h.depth < nestingLimit) :
    ∃ levels, h.nesting = .within (levels + 1) ∧ (h.perform .enter).nesting = .within levels := by
  refine ⟨nestingLimit - (h.depth + 1), ?_, rfl⟩
  rw [nesting, show nestingLimit - h.depth = nestingLimit - (h.depth + 1) + 1 by omega]

theorem nesting_of_eq (heq : h.depth = nestingLimit) : h.nesting = .within 0 := by
  rw [nesting, heq, Nat.sub_self]

theorem nesting_eq (hdepth : h'.depth = h.depth) : h'.nesting = h.nesting := by
  rw [nesting, nesting, hdepth]

/-- A token that can be seen is taken by moving on. -/
theorem exists_takes (hpeek : h.cursor.peek? = some token) :
    ∃ l, l.token = token ∧ h.cursor.Takes l (h.perform .take).cursor := by
  obtain ⟨l, c₁, hl, htakes⟩ := Cursor.exists_takes_of_peek? hpeek
  have hrest : words.drop h.pos = l :: c₁.rest := htakes.1.rest
  have hget : words[h.pos]? = some l := by rw [← List.head?_drop, hrest, List.head?_cons]
  have htail : words.drop (h.pos + 1) = c₁.rest := by rw [← List.tail_drop, hrest, List.tail_cons]
  refine ⟨l, hl, ⟨?_, ?_⟩, rfl⟩
  · exact hrest.trans (by rw [← htail]; rfl)
  · simp only [lastEnd, cursor, perform, hget, Option.map_some, Option.getD_some,
      List.getLast?_singleton]

/-- What can be seen is among the words. -/
theorem pos_lt_of_peek? (hpeek : h.cursor.peek? = some token) : h.pos < words.length := by
  obtain ⟨l, c₁, -, htakes⟩ := Cursor.exists_takes_of_peek? hpeek
  have hlength := congrArg List.length htakes.1.rest
  simp only [cursor, List.length_drop, List.length_append, List.length_singleton] at hlength
  omega

/-- Where less is left, the head has moved on. -/
theorem pos_lt (hless : h'.cursor.rest.length < h.cursor.rest.length) : h.pos < h'.pos := by
  simp only [cursor, List.length_drop] at hless
  omega

theorem length_take_lt (hpeek : h.cursor.peek? = some token) :
    (h.perform .take).cursor.rest.length < h.cursor.rest.length := by
  obtain ⟨l, -, htakes⟩ := exists_takes hpeek
  exact htakes.length_lt

theorem take?_eq (hpeek : h.cursor.peek? = some token) :
    h.cursor.take? = some ⟨token, (h.perform .take).cursor, length_take_lt hpeek⟩ := by
  obtain ⟨l, rfl, htakes⟩ := exists_takes hpeek
  exact htakes.take?

theorem accept?_eq {s : Symbol} (hpeek : h.cursor.peek? = some (.symbol s)) :
    Parser.accept? s h.cursor = some ⟨(), (h.perform .take).cursor, length_take_lt hpeek⟩ := by
  obtain ⟨l, hl, htakes⟩ := exists_takes hpeek
  exact Parser.accept?_of_takes hl htakes

theorem acceptWord?_eq {k : Keyword} (hpeek : h.cursor.peek? = some (.keyword k)) :
    Parser.acceptWord? k h.cursor = some ⟨(), (h.perform .take).cursor, length_take_lt hpeek⟩ := by
  obtain ⟨l, hl, htakes⟩ := exists_takes hpeek
  exact Parser.acceptWord?_of_takes hl htakes

theorem name_eq {x : String} {kind : ScopeKind} {what : Expectation}
    (hpeek : h.cursor.peek? = some (.identifier x)) :
    Parser.name kind what h.cursor =
      .ok (.node (⟨·, x, kind⟩) (h.perform .take).cursor (length_take_lt hpeek)) := by
  rw [Parser.name, take?_eq hpeek]

theorem peek?_take (h : Head words) : (h.perform .take).cursor.peek? = h.cursor.peekSecond? := by
  simp only [Cursor.peek?, Cursor.peekSecond?, cursor, perform, List.tail_drop]

end Head

/-! ### What is given -/

/-- What a script gives is what `y` reads, where `reads` tells when a result of `y` is read as a
value with a cursor behind it. -/
def Gives {ρ α : Type} (y : Except Failure ρ) (reads : ρ → α → Cursor → Prop) :
    Except Failure α → Cursor → Prop
  | .ok a, c => ∃ p, y = .ok p ∧ reads p a c
  | .error f, _ => y = .error f

namespace Gives

variable {ρ σ α : Type} {y : Except Failure ρ} {result : Except Failure α} {c : Cursor}

theorem imp {reads reads' : ρ → α → Cursor → Prop} (hgives : Gives y reads result c)
    (hreads : ∀ p a c, reads p a c → reads' p a c) : Gives y reads' result c := by
  cases result with
  | error f => exact hgives
  | ok a =>
    obtain ⟨p, hy, hp⟩ := hgives
    exact ⟨p, hy, hreads p a c hp⟩

/-- What is changed behind `y` changes how its results are read. -/
theorem map {g : ρ → σ} {reads : σ → α → Cursor → Prop}
    (hgives : Gives y (fun p => reads (g p)) result c) :
    Gives (y >>= fun p => .ok (g p)) reads result c := by
  cases result with
  | error f =>
    rw [show y = .error f from hgives]
    rfl
  | ok a =>
    obtain ⟨p, hy, hp⟩ := hgives
    exact ⟨g p, by rw [hy]; rfl, hp⟩

end Gives

/-- A value is read with the cursor behind it. -/
def Parsing {α : Type} {c : Cursor} (p : Parsed α c) (a : α) (c' : Cursor) : Prop :=
  a = p.value ∧ c' = p.next

/-- A value is completed with the cursor behind it. -/
def Completing {α : Type} {c : Cursor} (p : Completed α c) (a : α) (c' : Cursor) : Prop :=
  a = p.value ∧ c' = p.next

/-- The parser of the operands of a rank. -/
def Rank.operandParser : Rank → Nesting → Parser Expr
  | product => Nesting.unary
  | sum => Nesting.factor
  | order => Nesting.term
  | equality => Nesting.comparison
  | conjunction => Nesting.equality
  | disjunction => Nesting.conjunction

/-- The parser of a rank. -/
def Rank.parser : Rank → Nesting → Parser Expr
  | product => Nesting.factor
  | sum => Nesting.term
  | order => Nesting.comparison
  | equality => Nesting.equality
  | conjunction => Nesting.conjunction
  | disjunction => Nesting.disjunction

theorem Rank.parser_eq (k : Rank) (n : Nesting) :
    k.parser n = Nesting.chain k.op? k.join (k.operandParser n) := by
  cases k <;> rfl

/-- What a routine gives: what the parser of the same phrase reads. -/
def Routine.Means : (r : Routine) → Nesting → Cursor → Except Failure r.Result → Cursor → Prop
  | program, n, c => Gives (Program.statementsToEnd n.statement c) fun body all _ => all = body
  | statement, n, c => Gives (n.statement c) Parsing
  | statementBody, n, c => Gives (n.statementBody c) Parsing
  | statements, n, c => Gives (n.statements c) Parsing
  | expression, n, c => Gives (n.expression c) Parsing
  | assignment, n, c => Gives (n.assignment c) Parsing
  | operators k, n, c => Gives (k.parser n c) Parsing
  | unary, n, c => Gives (n.unary c) Parsing
  | suffixed, n, c => Gives (n.suffixed c) Parsing
  | primary, n, c => Gives (n.primary c) Parsing
  | elements close what, n, c => Gives (Nesting.elements n.expression close what c) Parsing
  | parenthesized, n, c => Gives (n.parenthesized c) Parsing
  | object, n, c => Gives (n.object c) Parsing
  | function, n, c => Gives (n.function c) Parsing

/-- What is behind the parameters that have been read: others, and the body. -/
def parametersAndBody (n : Nesting) : Parser (List Name × List Stmt) := fun c => do
  let params ←
    Nesting.elements (Parser.name .variable .parameterName) .rightParen .parametersEnd c
  let brace ← Parser.expect .leftBrace .bodyStart params.next
  let body ← n.statements brace.next
  return ⟨(params.value, body.value), body.next,
    Nat.lt_trans body.progress (Nat.lt_trans brace.progress params.progress)⟩

/-- The function that began at `start`, some of whose parameters have been read before. -/
def FunctionOf (start : Nat) (names : List Name) {c : Cursor}
    (p : Parsed (List Name × List Stmt) c) (e : Expr) (c' : Cursor) : Prop :=
  e = .function (p.next.site start) (names ++ p.value.1) p.value.2 ∧ c' = p.next.numbered

theorem function_eq (n : Nesting) {c c₁ : Cursor} {h₁ : c₁.rest.length < c.rest.length}
    (haccept : Parser.acceptWord? .functionWord c = some ⟨(), c₁, h₁⟩) :
    n.function c = (do
      let paren ← Parser.expect .leftParen .parametersStart c₁
      let parts ← parametersAndBody n paren.next
      return .node (.function · parts.value.1 parts.value.2) parts.next
        (Nat.lt_trans parts.progress (Nat.lt_trans paren.progress h₁))) := by
  simp only [Nesting.function, haccept, parametersAndBody, bind_assoc, pure_bind]

/-- What a loop still has to give when it begins a round. -/
def Loop.Rest : {r : Routine} → Loop r → Nesting → Cursor → Except Failure r.Result → Cursor → Prop
  | _, program body, n, c =>
    Gives (Program.statementsToEnd n.statement c) fun others all _ => all = body ++ others
  | _, statements body, n, c =>
    Gives (n.statements c) fun p all c' => all = body ++ p.value ∧ c' = p.next
  | _, operators k start left, n, c =>
    Gives (Nesting.chainFrom k.op? k.join (k.operandParser n) start left c) Completing
  | _, suffixes start e, n, c => Gives (n.suffixes start e c) Completing
  | _, elements close what items, n, c =>
    Gives (Nesting.elements n.expression close what c)
      fun p all c' => all = items ++ p.value ∧ c' = p.next
  | _, properties start pairs, n, c =>
    Gives (Nesting.elements n.property .rightBrace .objectEnd c)
      fun p e c' => e = .object (p.next.site start) (pairs ++ p.value) ∧ c' = p.next.numbered
  | _, params start names, n, c =>
    Gives (parametersAndBody n c) (FunctionOf start names)

/-! ### Contracts -/

/-- Routines that have entered nothing call routines on lower rungs only. -/
def Routine.rung : Routine → Nat
  | statement | expression => 0
  | program | statements | elements _ _ => 1
  | statementBody | parenthesized | object | function => 2
  | primary => 3
  | suffixed => 4
  | unary => 5
  | operators .product => 6
  | operators .sum => 7
  | operators .order => 8
  | operators .equality => 9
  | operators .conjunction => 10
  | operators .disjunction => 11
  | assignment => 12

/-- The number of rungs. -/
def rungs : Nat := 13

theorem Routine.rung_lt (r : Routine) : r.rung < rungs := by
  cases r with
  | operators k => cases k <;> decide
  | _ => simp [rung, rungs]

/-- What a routine relies on when it is called: the token that it takes without looking. -/
def Routine.Ready : Routine → Cursor → Prop
  | parenthesized, c => c.peek? = some (.symbol .leftParen)
  | object, c => c.peek? = some (.symbol .leftBrace)
  | function, c => c.peek? = some (.keyword .functionWord)
  | _, _ => True

section

variable {words : List Lexeme}

/-- The depth is given back by what succeeds, and what fails may have been refused one level
deeper. -/
structure Head.Returns (since : Head words) {α : Type} (result : Except Failure α)
    (h : Head words) : Prop where
  le_depth : since.depth ≤ h.depth
  depth_le : h.depth ≤ since.depth + 1
  depth_eq : ∀ a, result = .ok a → h.depth = since.depth

namespace Head.Returns

variable {since h h' : Head words} {α : Type} {result : Except Failure α}

theorem of_eq (hdepth : h.depth = since.depth) : since.Returns result h :=
  ⟨Nat.le_of_eq hdepth.symm, hdepth ▸ Nat.le_succ _, fun _ _ => hdepth⟩

/-- A call that was made at the depth of the caller. -/
theorem congr (hreturns : h.Returns result h') (hdepth : h.depth = since.depth) :
    since.Returns result h' :=
  ⟨hdepth ▸ hreturns.le_depth, hdepth ▸ hreturns.depth_le, hdepth ▸ hreturns.depth_eq⟩

/-- A call that was made one level deeper, when that level is left. -/
theorem leave (hreturns : (h.perform .enter).Returns result h') (hdepth : h.depth = since.depth) :
    since.Returns result (h'.perform .leave) := by
  obtain ⟨hle, hge, heq⟩ := hreturns
  rw [depth_enter] at hle hge heq
  refine ⟨?_, ?_, fun a ha => ?_⟩
  · rw [depth_leave]
    omega
  · rw [depth_leave]
    omega
  · rw [depth_leave, heq a ha]
    exact hdepth

/-- Failures have nothing to do with what would have been read. -/
theorem error {β : Type} {f : Failure} (hreturns : since.Returns (.error f : Except Failure α) h) :
    since.Returns (.error f : Except Failure β) h :=
  ⟨hreturns.le_depth, hreturns.depth_le, fun _ h => by cases h⟩

end Head.Returns

/-- The result `result` of a call made at `since` that ends at `h` fulfils the contract. -/
structure Routine.Answers (q : Routine) (since : Head words) (result : Except Failure q.Result)
    (h : Head words) : Prop where
  means : q.Means since.nesting since.cursor result h.cursor
  returns : since.Returns result h
  pos_le : h.pos ≤ words.length

/-- A routine `r` that was called at `since` may call `q` at `h`. -/
structure Head.MayCall (since : Head words) (r q : Routine) (h : Head words) : Prop where
  depth_le : h.depth ≤ nestingLimit
  descends : since.depth < h.depth ∨ since.depth = h.depth ∧ q.rung < r.rung

/-- A move that a routine called at `since` may make. -/
def Action.Allowed (since : Head words) : Action → Head words → Prop
  | take, h => h.pos < words.length
  | number, _ => True
  | enter, h => h.depth ≤ nestingLimit
  | leave, h => since.depth < h.depth

variable {r : Routine}

/-- A script of a routine that was called at `since` goes on with allowed moves and calls until it
gives what `P` allows, whatever the routines it calls answer. A round of the loop begins at `floor`
or behind it, with a loop that still has to give something allowed. -/
def Script.Fulfils (since : Head words) (floor : Nat)
    (P : Except Failure r.Result → Cursor → Prop) : Script r r.Result → Head words → Prop
  | give result, h => P result h.cursor ∧ since.Returns result h
  | look go, h => (go h.cursor h.depth).Fulfils since floor P h
  | act a next, h => a.Allowed since h ∧ next.Fulfils since floor P (h.perform a)
  | call q go, h => since.MayCall r q h ∧ q.Ready h.cursor ∧
      ∀ result h', q.Answers h result h' → (go result).Fulfils since floor P h'
  | again l, h => floor ≤ h.pos ∧ h.depth = since.depth ∧
      ∀ result c, l.Rest since.nesting h.cursor result c → P result c

variable {α ρ : Type} {since h : Head words} {floor : Nat}
  {P P' : Except Failure r.Result → Cursor → Prop} {token : Token}

namespace Script

theorem Fulfils.mono {x : Script r r.Result} {floor' : Nat} (hx : x.Fulfils since floor P h)
    (hfloor : floor' ≤ floor) (hP : ∀ result c, P result c → P' result c) :
    x.Fulfils since floor' P' h := by
  induction x generalizing h with
  | give result => exact ⟨hP _ _ hx.1, hx.2⟩
  | look go ih => exact ih _ _ hx
  | act a next ih => exact ⟨hx.1, ih hx.2⟩
  | call q go ih => exact ⟨hx.1, hx.2.1, fun result h' hq => ih result (hx.2.2 result h' hq)⟩
  | again l =>
    exact ⟨Nat.le_trans hfloor hx.1, hx.2.1, fun result c hrest => hP _ _ (hx.2.2 result c hrest)⟩

/-- The script does at `h` what `y` does: whatever follows in the script and behind `y`, it is
enough that what follows gives the same. -/
def Performs (x : Script r α) (since h : Head words)
    (y : Except Failure (Parsed α h.cursor)) : Prop :=
  ∀ ⦃σ : Type⦄ ⦃floor : Nat⦄ ⦃k : Parsed α h.cursor → Except Failure σ⦄
    ⦃reads : σ → r.Result → Cursor → Prop⦄ ⦃f : α → Script r r.Result⦄,
    (∀ a (h' : Head words) hless, h'.depth = since.depth →
      (f a).Fulfils since floor (Gives (k ⟨a, h'.cursor, hless⟩) reads) h') →
    (x >>= f).Fulfils since floor (Gives (y >>= k) reads) h

/-- The same for what may take nothing. -/
def Completes (x : Script r α) (since h : Head words)
    (y : Except Failure (Completed α h.cursor)) : Prop :=
  ∀ ⦃σ : Type⦄ ⦃floor : Nat⦄ ⦃k : Completed α h.cursor → Except Failure σ⦄
    ⦃reads : σ → r.Result → Cursor → Prop⦄ ⦃f : α → Script r r.Result⦄,
    (∀ a (h' : Head words) hle, h'.depth = since.depth →
      (f a).Fulfils since floor (Gives (k ⟨a, h'.cursor, hle⟩) reads) h') →
    (x >>= f).Fulfils since floor (Gives (y >>= k) reads) h

/-- The script does what the parser does, wherever it is at its own depth. -/
def Follows (x : Script r α) (since : Head words) (parser : Parser α) : Prop :=
  ∀ h : Head words, h.depth = since.depth → x.Performs since h (parser h.cursor)

/-- The same for what may take nothing. -/
def Finishes (x : Script r α) (since : Head words)
    (tail : (c : Cursor) → Except Failure (Completed α c)) : Prop :=
  ∀ h : Head words, h.depth = since.depth → x.Completes since h (tail h.cursor)

/-! ### Ends -/

theorem fulfils_pure {p : ρ} {reads : ρ → r.Result → Cursor → Prop} {a : r.Result}
    (hdepth : h.depth = since.depth) (hreads : reads p a h.cursor) :
    (pure a : Script r r.Result).Fulfils since floor (Gives (.ok p) reads) h :=
  ⟨⟨p, rfl, hreads⟩, .of_eq hdepth⟩

/-- A script that begins another round gives what the loop then still has to give, changed as what
the parser reads there is changed behind it. -/
theorem fulfils_again {σ : Type} {l : Loop r} {y : Except Failure ρ} {g : ρ → σ}
    {reads : σ → r.Result → Cursor → Prop} (hfloor : floor ≤ h.pos) (hdepth : h.depth = since.depth)
    (hrest : ∀ result c, l.Rest since.nesting h.cursor result c →
      Gives y (fun p => reads (g p)) result c) :
    (again l : Script r r.Result).Fulfils since floor
      (Gives (y >>= fun p => .ok (g p)) reads) h :=
  ⟨hfloor, hdepth, fun result c hresult => (hrest result c hresult).map⟩

/-- What performs a parser meets its contract. -/
theorem Performs.fulfils {x : Script r r.Result} {y : Except Failure (Parsed r.Result h.cursor)}
    (hx : x.Performs since h y) : x.Fulfils since floor (Gives y Parsing) h := by
  rw [← bind_pure x, ← bind_pure y]
  exact hx fun a h' hless hdepth => fulfils_pure hdepth ⟨rfl, rfl⟩

/-! ### Single tokens -/

theorem fulfils_look {go : Cursor → Nat → Script r α} {f : α → Script r r.Result}
    (hgo : (go h.cursor h.depth >>= f).Fulfils since floor P h) :
    (look go >>= f).Fulfils since floor P h :=
  hgo

/-- A script that begins with a look at what is left. -/
theorem fulfils_of_look {go : Cursor → Nat → Script r r.Result}
    (hgo : (go h.cursor h.depth).Fulfils since floor P h) : (look go).Fulfils since floor P h :=
  hgo

theorem fulfils_take {f : Unit → Script r r.Result} (hpeek : h.cursor.peek? = some token)
    (hf : (f ()).Fulfils since floor P (h.perform .take)) :
    (take >>= f).Fulfils since floor P h :=
  ⟨Head.pos_lt_of_peek? hpeek, hf⟩

theorem fulfils_eat {f : Bool → Script r r.Result}
    (htrue : h.cursor.peek? = some token → (f true).Fulfils since floor P (h.perform .take))
    (hfalse : h.cursor.peek? ≠ some token → (f false).Fulfils since floor P h) :
    (eat token >>= f).Fulfils since floor P h := by
  change Fulfils since floor P (Script.bind (if h.cursor.peek? = some token then _ else _) f) h
  split
  · exact ⟨Head.pos_lt_of_peek? ‹_›, htrue ‹_›⟩
  · exact hfalse ‹_›

theorem fulfils_node {start : Nat} {make : Site → α} {f : α → Script r r.Result}
    (hf : (f (make (h.cursor.site start))).Fulfils since floor P (h.perform .number)) :
    (node start make >>= f).Fulfils since floor P h :=
  ⟨trivial, hf⟩

/-- A script that ends with a node. -/
theorem fulfils_last {start : Nat} {make : Site → r.Result} {p : ρ}
    {reads : ρ → r.Result → Cursor → Prop} (hdepth : h.depth = since.depth)
    (hreads : reads p (make (h.cursor.site start)) h.cursor.numbered) :
    (node start make : Script r r.Result).Fulfils since floor (Gives (.ok p) reads) h :=
  ⟨trivial, ⟨p, rfl, hreads⟩, .of_eq hdepth⟩

theorem follows_expect {s : Symbol} {what : Expectation} :
    (expect s what : Script r Unit).Follows since (Parser.expect s what) := by
  intro h hdepth σ floor k reads f hf
  rw [expect, bind_assoc]
  refine fulfils_eat (fun hpeek => ?_) fun hpeek => ?_
  · rw [Parser.expect, Head.accept?_eq hpeek]
    exact hf () _ (Head.length_take_lt hpeek) hdepth
  · rw [Parser.expect, Parser.accept?_of_peek? hpeek]
    exact ⟨rfl, .of_eq hdepth⟩

theorem fulfils_name {kind : ScopeKind} {what : Expectation} {x : String}
    {f : Name → Script r r.Result} (hpeek : h.cursor.peek? = some (.identifier x))
    (hf : (f ⟨(h.perform .take).cursor.site h.cursor.start, x, kind⟩).Fulfils since floor P
      ((h.perform .take).perform .number)) :
    (name kind what >>= f).Fulfils since floor P h := by
  refine fulfils_look ?_
  rw [hpeek]
  exact ⟨Head.pos_lt_of_peek? hpeek, trivial, hf⟩

theorem follows_name {kind : ScopeKind} {what : Expectation} :
    (name kind what : Script r Name).Follows since (Parser.name kind what) := by
  intro h hdepth σ floor k reads f hf
  by_cases hname : ∃ x, h.cursor.peek? = some (.identifier x)
  · obtain ⟨x, hpeek⟩ := hname
    rw [Head.name_eq hpeek]
    exact fulfils_name hpeek
      (hf _ ((h.perform .take).perform .number) (Head.length_take_lt hpeek) hdepth)
  · have hother : ∀ token, h.cursor.peek? = some token → ¬ ∃ x, token = .identifier x := by
      rintro token ht ⟨x, rfl⟩
      exact hname ⟨x, ht⟩
    rw [(Parser.single_name kind what).refuse hother]
    refine fulfils_look ?_
    split
    · exact absurd ⟨_, ‹_›⟩ hname
    · exact ⟨rfl, .of_eq hdepth⟩

theorem follows_propertyName :
    (propertyName : Script r String).Follows since Parser.propertyName := by
  intro h hdepth σ floor k reads f hf
  refine fulfils_look ?_
  split
  · rename_i identifier hpeek
    rw [Parser.propertyName, Head.take?_eq hpeek]
    exact ⟨Head.pos_lt_of_peek? hpeek, hf _ _ (Head.length_take_lt hpeek) hdepth⟩
  · rename_i hpeek
    rw [Parser.single_propertyName.refuse]
    · exact ⟨rfl, .of_eq hdepth⟩
    · rintro token ht ⟨x, rfl⟩
      exact hpeek x ht

theorem follows_propertyKey :
    (propertyKey : Script r String).Follows since Parser.propertyKey := by
  intro h hdepth σ floor k reads f hf
  refine fulfils_look ?_
  split
  · rename_i identifier hpeek
    rw [Parser.propertyKey, Head.take?_eq hpeek]
    exact ⟨Head.pos_lt_of_peek? hpeek, hf _ _ (Head.length_take_lt hpeek) hdepth⟩
  · rename_i key hpeek
    rw [Parser.propertyKey, Head.take?_eq hpeek]
    exact ⟨Head.pos_lt_of_peek? hpeek, hf _ _ (Head.length_take_lt hpeek) hdepth⟩
  · rename_i hname hstring
    rw [Parser.single_propertyKey.refuse]
    · exact ⟨rfl, .of_eq hdepth⟩
    · rintro token ht (⟨x, rfl⟩ | ⟨x, rfl⟩)
      · exact hname x ht
      · exact hstring x ht

/-! ### Calls -/

/-- The script goes on with what a call has answered, when the answer is that of the parser. -/
theorem fulfils_answer {σ : Type} {y : Except Failure (Parsed α h.cursor)}
    {k : Parsed α h.cursor → Except Failure σ} {reads : σ → r.Result → Cursor → Prop}
    {f : α → Script r r.Result} {result : Except Failure α} {h' : Head words}
    (hgives : Gives y Parsing result h'.cursor) (hreturns : since.Returns result h')
    (hf : ∀ a (h' : Head words) hless, h'.depth = since.depth →
      (f a).Fulfils since floor (Gives (k ⟨a, h'.cursor, hless⟩) reads) h') :
    (give result >>= f).Fulfils since floor (Gives (y >>= k) reads) h' := by
  cases result with
  | error e =>
    refine ⟨?_, hreturns.error⟩
    rw [show y = .error e from hgives]
    rfl
  | ok a =>
    obtain ⟨⟨a, c, hless⟩, rfl, rfl, hc⟩ := hgives
    obtain rfl : h'.cursor = c := hc
    exact hf a h' hless (hreturns.depth_eq a rfl)

theorem performs_invoke (q : Routine) {y : Except Failure (Parsed q.Result h.cursor)}
    (hdepth : h.depth = since.depth) (hlimit : since.depth ≤ nestingLimit)
    (hrung : q.rung < r.rung) (hready : q.Ready h.cursor)
    (hmeans : ∀ result c, q.Means since.nesting h.cursor result c → Gives y Parsing result c) :
    (invoke q : Script r q.Result).Performs since h y := by
  intro σ floor k reads f hf
  refine ⟨⟨hdepth ▸ hlimit, .inr ⟨hdepth.symm, hrung⟩⟩, hready, fun result h' hq => ?_⟩
  exact fulfils_answer (hmeans result h'.cursor (Head.nesting_eq hdepth ▸ hq.means))
    (hq.returns.congr hdepth) hf

theorem follows_invoke (q : Routine) {parser : Parser q.Result}
    (hlimit : since.depth ≤ nestingLimit) (hrung : q.rung < r.rung) (hready : ∀ c, q.Ready c)
    (hmeans : ∀ c result c', q.Means since.nesting c result c' →
      Gives (parser c) Parsing result c') :
    (invoke q : Script r q.Result).Follows since parser :=
  fun _ hdepth => performs_invoke q hdepth hlimit hrung (hready _) (hmeans _)

/-- A call one level deeper does what `parser` does, which is made from the parsers of that level
and refuses where there is no such level. -/
theorem follows_nested (q : Routine) (parser : Nesting → Parser q.Result)
    (hlimit : since.depth ≤ nestingLimit) (hready : ∀ c, q.Ready c)
    (hmeans : ∀ levels c result c', q.Means (.within levels) c result c' →
      Gives (parser (.within (levels + 1)) c) Parsing result c')
    (hrefuse : parser (.within 0) = Nesting.refuse) :
    (nested q : Script r q.Result).Follows since (parser since.nesting) := by
  intro h hdepth σ floor k reads f hf
  have hle : h.depth ≤ nestingLimit := hdepth ▸ hlimit
  refine ⟨hle, ?_⟩
  change Fulfils since floor _
    (Script.bind (if nestingLimit < h.depth + 1 then _ else _) f) (h.perform .enter)
  rw [← Head.nesting_eq hdepth]
  split
  -- The level beyond the limit is not left again.
  · rw [Head.nesting_of_eq (by omega), hrefuse]
    refine ⟨rfl, ?_, ?_, fun _ h => by cases h⟩
    · exact hdepth ▸ Nat.le_succ h.depth
    · exact hdepth ▸ Nat.le_refl (h.depth + 1)
  · have hmay : since.MayCall r q (h.perform .enter) :=
      ⟨Nat.le_of_not_lt ‹_›, .inl (hdepth ▸ Nat.lt_succ_self h.depth)⟩
    obtain ⟨levels, hlevels, hinner⟩ := Head.nesting_of_lt (Nat.lt_of_succ_le hmay.depth_le)
    refine ⟨hmay, hready _, fun result h' hq => ⟨?_, ?_⟩⟩
    · exact Nat.lt_of_lt_of_le (hdepth ▸ Nat.lt_succ_self h.depth) hq.returns.le_depth
    · refine fulfils_answer ?_ (hq.returns.leave hdepth) hf
      rw [hlevels]
      exact hmeans levels h.cursor result h'.cursor (hinner ▸ hq.means)

/-! ### Optional parts -/

/-- What is read behind a token, if the token comes next. -/
theorem finishes_after? {q : Routine} {parser : Parser q.Result}
    {tail : (c : Cursor) → Except Failure (Completed (Option q.Result) c)}
    (hq : (invoke q : Script r q.Result).Follows since parser)
    (htaken : ∀ (h : Head words) (hpeek : h.cursor.peek? = some token),
      tail h.cursor = parser (h.perform .take).cursor >>= fun p => .ok ⟨some p.value, p.next,
        Nat.le_of_lt (Nat.lt_trans p.progress (Head.length_take_lt hpeek))⟩)
    (hother : ∀ h : Head words, h.cursor.peek? ≠ some token →
      tail h.cursor = .ok ⟨none, h.cursor, Nat.le_refl _⟩) :
    (after? token q : Script r (Option q.Result)).Finishes since tail := by
  intro h hdepth σ floor k reads f hf
  rw [after?, bind_assoc]
  refine fulfils_eat (fun hpeek => ?_) fun hpeek => ?_
  · rw [htaken h hpeek]
    simp only [bind_assoc, pure_bind]
    refine hq (h.perform .take) hdepth fun a h₁ hless hdepth₁ => ?_
    exact hf (some a) h₁ _ hdepth₁
  · rw [hother h hpeek]
    exact hf none h _ hdepth

theorem finishes_afterMark? {s : Symbol} {q : Routine} {parser : Parser q.Result}
    (hq : (invoke q : Script r q.Result).Follows since parser) :
    (after? (.symbol s) q : Script r (Option q.Result)).Finishes since
      (Nesting.afterMark? s parser) := by
  refine finishes_after? hq (fun h hpeek => ?_) fun h hpeek => ?_
  · rw [Nesting.afterMark?, Head.accept?_eq hpeek]
    rfl
  · rw [Nesting.afterMark?, Parser.accept?_of_peek? hpeek]

theorem finishes_afterWord? {word : Keyword} {q : Routine} {parser : Parser q.Result}
    (hq : (invoke q : Script r q.Result).Follows since parser) :
    (after? (.keyword word) q : Script r (Option q.Result)).Finishes since
      (Nesting.afterWord? word parser) := by
  refine finishes_after? hq (fun h hpeek => ?_) fun h hpeek => ?_
  · rw [Nesting.afterWord?, Head.acceptWord?_eq hpeek]
    rfl
  · rw [Nesting.afterWord?, Parser.acceptWord?_of_peek? hpeek]

theorem finishes_unless? {s : Symbol} {q : Routine} {parser : Parser q.Result}
    (hq : (invoke q : Script r q.Result).Follows since parser) :
    (unless? s q : Script r (Option q.Result)).Finishes since (Nesting.unless? s parser) := by
  intro h hdepth σ floor k reads f hf
  refine fulfils_look ?_
  unfold Nesting.unless?
  split
  · exact hf none h _ hdepth
  · simp only [bind_assoc, pure_bind]
    refine hq h hdepth fun a h₁ hless hdepth₁ => ?_
    exact hf (some a) h₁ _ hdepth₁

theorem finishes_jumpLabel? :
    (jumpLabel? : Script r (Option Name)).Finishes since Nesting.jumpLabel? := by
  intro h hdepth σ floor k reads f hf
  by_cases hname : ∃ x, h.cursor.peek? = some (.identifier x)
  · obtain ⟨x, hpeek⟩ := hname
    refine fulfils_look ?_
    simp only [Nesting.jumpLabel?, hpeek, bind_assoc, pure_bind]
    refine follows_name h hdepth fun label h₁ hless hdepth₁ => ?_
    exact hf (some label) h₁ _ hdepth₁
  · have hnone : Nesting.jumpLabel? h.cursor = .ok ⟨none, h.cursor, Nat.le_refl _⟩ := by
      unfold Nesting.jumpLabel?
      split
      · exact absurd ⟨_, ‹_›⟩ hname
      · rfl
    rw [hnone]
    refine fulfils_look ?_
    split
    · exact absurd ⟨_, ‹_›⟩ hname
    · exact hf none h _ hdepth

/-! ### Parts of phrases -/

theorem follows_condition {word : Keyword} {n : Nesting}
    (hq : (invoke .expression : Script r Expr).Follows since n.expression) :
    (condition word : Script r Expr).Follows since (n.condition word) := by
  intro h hdepth σ floor k reads f hf
  simp only [condition, Nesting.condition, bind_assoc, pure_bind]
  refine follows_expect h hdepth fun _ h₁ hless₁ hdepth₁ => ?_
  refine hq h₁ hdepth₁ fun e h₂ hless₂ hdepth₂ => ?_
  refine follows_expect h₂ hdepth₂ fun _ h₃ hless₃ hdepth₃ => ?_
  exact hf e h₃ _ hdepth₃

end Script

end

end LWorkbench.Descent
