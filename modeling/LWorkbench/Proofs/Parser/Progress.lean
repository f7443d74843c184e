import LWorkbench.Proofs.Parser.Routines
import LWorkbench.Proofs.Parser.CallOrder

/-!
# Progress and depth of parsing

Parsing goes on in every routine that has been called, and every call keeps its contract. So all
moments are sound: each call that has not ended was allowed where it was made, and what its caller
does afterwards meets the caller's contract. From this follows what can be seen at any moment. The
head is among the words and the depth stays within the limit. The calls on the stack go down the
rungs as long as nothing is entered, so there are no more of them than rungs on all levels.

That every call ends follows from the contracts as well: what is called has fewer rungs and levels
left, and a round of a loop begins behind the place where the one before it began.

## Main definitions

* `Stack.Sound`, `Moment.Sound` — the invariant of parsing
* `Script.Ends` — a script gives a result after a number of moves

## Main results

* `Moment.Sound.next`, `Moment.sound_after` — one move keeps moments sound, and so do all moves
* `Routine.ends_body` — every call ends and keeps its contract
* `parsing_makes_progress` — progress, bounds and end of parsing
-/

namespace LWorkbench.Descent

variable {words : List Lexeme} {r q : Routine}

/-! ### The invariant -/

/-- Every call was made at one of the words, within the limit and on a lower rung or a deeper level
than its caller, which keeps its contract whatever the call answers. -/
def Stack.Sound : {r : Routine} → Stack words r → Prop
  | _, entry since => since.pos ≤ words.length ∧ since.depth ≤ nestingLimit
  | q, call (r := r) below resume since =>
    since.pos ≤ words.length ∧ below.since.MayCall r q since ∧
      (∀ result h, q.Answers since result h → (resume result).Fulfils below.since 0
        (r.Means below.since.nesting below.since.cursor) h) ∧
      below.Sound

theorem Stack.Sound.depth_le {stack : Stack words r} (h : stack.Sound) :
    stack.since.depth ≤ nestingLimit := by
  cases stack with
  | entry since => exact h.2
  | call below resume since => exact h.2.1.depth_le

/-- The innermost routine keeps its contract, and its callers keep theirs. -/
structure Moment.Sound (m : Moment words) : Prop where
  stack : m.stack.Sound
  script : m.script.Fulfils m.stack.since 0
    (m.routine.Means m.stack.since.nesting m.stack.since.cursor) m.head
  pos_le : m.head.pos ≤ words.length
  depth_le : m.head.depth ≤ nestingLimit + 1

namespace Moment

theorem sound_entering {stack : Stack words q} {h : Head words} (hstack : stack.Sound)
    (hsince : stack.since = h) (hready : q.Ready h.cursor) (hpos : h.pos ≤ words.length) :
    (entering q stack h).Sound where
  stack := hstack
  script := by
    rw [entering, hsince]
    exact Routine.fulfils_body q (hsince ▸ hstack.depth_le) hready
  pos_le := hpos
  depth_le := Nat.le_succ_of_le (hsince ▸ hstack.depth_le)

theorem sound_start (words : List Lexeme) : (start words).Sound :=
  sound_entering ⟨Nat.zero_le _, Nat.zero_le _⟩ rfl trivial (Nat.zero_le _)

/-- One move keeps a moment sound. -/
theorem Sound.next {m : Moment words} (hm : m.Sound) : m.next.Sound := by
  obtain ⟨r, script, stack, h⟩ := m
  obtain ⟨hstack, hscript, hpos, hdepth⟩ := hm
  cases script with
  | give result =>
    cases stack with
    | entry since => exact ⟨hstack, hscript, hpos, hdepth⟩
    | call below resume since =>
      -- The call has fulfilled its contract, which is all that its caller relies on.
      obtain ⟨-, -, hresume, hbelow⟩ := hstack
      exact ⟨hbelow, hresume result h ⟨hscript.1, hscript.2, hpos⟩, hpos, hdepth⟩
  | look go => exact ⟨hstack, hscript, hpos, hdepth⟩
  | act a script =>
    obtain ⟨hallowed, hscript⟩ := hscript
    cases a with
    | take => exact ⟨hstack, hscript, hallowed, hdepth⟩
    | number => exact ⟨hstack, hscript, hpos, hdepth⟩
    | enter => exact ⟨hstack, hscript, hpos, Nat.succ_le_succ hallowed⟩
    | leave => exact ⟨hstack, hscript, hpos, Nat.le_trans (Nat.sub_le _ _) hdepth⟩
  | call q go =>
    obtain ⟨hmay, hready, hgo⟩ := hscript
    exact sound_entering ⟨hpos, hmay, hgo, hstack⟩ rfl hready hpos
  | again l =>
    -- Rounds promise what the loop has still to give, and with it what the routine owes.
    obtain ⟨-, hsame, hrest⟩ := hscript
    exact ⟨hstack, (Loop.fulfils_body hstack.depth_le l hsame).mono (Nat.zero_le _) hrest, hpos,
      hdepth⟩

theorem sound_after (words : List Lexeme) (n : Nat) : ((start words).after n).Sound := by
  induction n with
  | zero => exact sound_start words
  | succ n ih => exact ih.next

end Moment

/-! ### The height of the stack -/

/-- The rungs and levels that are left for a call. -/
def Routine.room (r : Routine) (since : Head words) : Nat :=
  (nestingLimit - since.depth) * rungs + r.rung

/-- What is called has less room than its caller. -/
theorem Head.MayCall.room_lt {since h : Head words} (hmay : since.MayCall r q h) :
    q.room h < r.room since := by
  have hlimit := hmay.depth_le
  have hrung := q.rung_lt
  rw [Routine.room, Routine.room]
  obtain hdeeper | ⟨hsame, hlower⟩ := hmay.descends
  -- A level is worth more than all rungs.
  · have hlevels : nestingLimit - h.depth + 1 ≤ nestingLimit - since.depth := by omega
    have hproduct := Nat.mul_le_mul_right rungs hlevels
    rw [Nat.succ_mul] at hproduct
    omega
  · rw [hsame]
    omega

theorem Stack.Sound.length_calls_add_room_le {stack : Stack words r} (h : stack.Sound) :
    stack.calls.length + r.room stack.since ≤ (nestingLimit + 1) * rungs := by
  induction stack with
  | @entry r since =>
    have hrung := r.rung_lt
    have hlevels := Nat.mul_le_mul_right rungs (Nat.sub_le nestingLimit since.depth)
    simp only [calls, Stack.since, Routine.room, List.length_singleton, Nat.succ_mul]
    omega
  | call below resume since ih =>
    obtain ⟨-, hmay, -, hbelow⟩ := h
    have hlength := ih hbelow
    have hroom := hmay.room_lt
    simp only [calls, Stack.since, List.length_cons]
    omega

/-- The inner call was made on a deeper level, or on a lower rung of the same one. -/
def Deeper (inner outer : Routine × Head words) : Prop :=
  outer.2.depth < inner.2.depth ∨
    outer.2.depth = inner.2.depth ∧ inner.1.rung < outer.1.rung

theorem Head.MayCall.deeper {since h : Head words} (hmay : since.MayCall r q h) :
    Deeper (q, h) (r, since) :=
  hmay.descends

theorem Deeper.trans {c c₁ c₂ : Routine × Head words} (h : Deeper c c₁) (h' : Deeper c₁ c₂) :
    Deeper c c₂ := by
  unfold Deeper at *
  omega

/-- The innermost call was made further down than all others. -/
theorem Stack.eq_or_deeper {stack : Stack words r} (h : stack.Sound) :
    ∀ c ∈ stack.calls, c = (r, stack.since) ∨ Deeper (r, stack.since) c := by
  induction stack with
  | entry since =>
    intro c hc
    exact .inl (List.mem_singleton.1 hc)
  | call below resume since ih =>
    obtain ⟨-, hmay, -, hbelow⟩ := h
    intro c hc
    obtain rfl | hc := List.mem_cons.1 hc
    · exact .inl rfl
    · obtain rfl | hdeeper := ih hbelow c hc
      · exact .inr hmay.deeper
      · exact .inr (hmay.deeper.trans hdeeper)

theorem Stack.Sound.pairwise_calls {stack : Stack words r} (h : stack.Sound) :
    stack.calls.Pairwise Deeper := by
  induction stack with
  | entry since => exact List.pairwise_singleton _ _
  | call below resume since ih =>
    obtain ⟨-, hmay, -, hbelow⟩ := h
    refine List.pairwise_cons.2 ⟨fun c hc => ?_, ih hbelow⟩
    obtain rfl | hdeeper := Stack.eq_or_deeper hbelow c hc
    · exact hmay.deeper
    · exact hmay.deeper.trans hdeeper

/-! ### Every call ends -/

theorem Moment.after_add (m : Moment words) (a b : Nat) :
    m.after (a + b) = (m.after a).after b := by
  induction b with
  | zero => rfl
  | succ b ih => exact congrArg Moment.next ih

/-- Whatever calls wait, the script gives a result after some moves, as `Q` tells. -/
def Script.Ends (x : Script r r.Result) (h : Head words)
    (Q : Except Failure r.Result → Head words → Prop) : Prop :=
  ∀ stack : Stack words r, ∃ n result h',
    (Moment.mk r x stack h).after n = ⟨r, .give result, stack, h'⟩ ∧ Q result h'

namespace Script

variable {h h' : Head words} {x x' : Script r r.Result}
  {Q : Except Failure r.Result → Head words → Prop}

theorem ends_give {result : Except Failure r.Result} (hQ : Q result h) :
    (give result).Ends h Q :=
  fun _ => ⟨0, result, h, rfl, hQ⟩

/-- A script ends when it ends after some moves. -/
theorem Ends.of_after (hx : x'.Ends h' Q)
    (hafter : ∀ stack : Stack words r, ∃ n, (Moment.mk r x stack h).after n = ⟨r, x', stack, h'⟩) :
    x.Ends h Q := by
  intro stack
  obtain ⟨n, hn⟩ := hafter stack
  obtain ⟨k, result, h'', hk, hQ⟩ := hx stack
  exact ⟨n + k, result, h'', by rw [Moment.after_add, hn, hk], hQ⟩

/-- A call ends when the routine ends, and the caller with each of its answers. -/
theorem Ends.call {go : Except Failure q.Result → Script r r.Result}
    {Q' : Except Failure q.Result → Head words → Prop} (hbody : q.body.Ends h Q')
    (hgo : ∀ result h', Q' result h' → (go result).Ends h' Q) :
    (Script.call q go).Ends h Q := by
  intro stack
  obtain ⟨n, result, h₁, hn, hresult⟩ := hbody (.call stack go h)
  obtain ⟨k, result', h₂, hk, hQ⟩ := hgo result h₁ hresult stack
  refine ⟨1 + (n + (1 + k)), result', h₂, ?_, hQ⟩
  have hcalled : (Moment.mk r (Script.call q go) stack h).after 1 =
      .entering q (.call stack go h) h := rfl
  have hreturned : (Moment.mk q (give result) (.call stack go h) h₁).after 1 =
      ⟨r, go result, stack, h₁⟩ := rfl
  rw [Moment.after_add, hcalled, Moment.after_add, Moment.entering, hn, Moment.after_add,
    hreturned, hk]

/-- What a contract promises of the end of a script. -/
def Promised (since : Head words) (P : Except Failure r.Result → Cursor → Prop)
    (result : Except Failure r.Result) (h : Head words) : Prop :=
  P result h.cursor ∧ since.Returns result h ∧ h.pos ≤ words.length

/-- A script that meets a contract ends when the routines it calls end and so do the rounds of its
loop that it begins. -/
theorem Fulfils.ends {since : Head words} {floor : Nat}
    {P : Except Failure r.Result → Cursor → Prop} (hx : x.Fulfils since floor P h)
    (hcalls : ∀ (q : Routine) (h : Head words), since.MayCall r q h → q.Ready h.cursor →
      h.pos ≤ words.length → q.body.Ends h (q.Answers h))
    (hrounds : ∀ (l : Loop r) (h : Head words), floor ≤ h.pos → h.depth = since.depth →
      h.pos ≤ words.length →
        l.body.Ends h (Promised since (l.Rest since.nesting h.cursor)))
    (hpos : h.pos ≤ words.length) : x.Ends h (Promised since P) := by
  -- Along the script: what is left of it keeps the contract after every move.
  induction x generalizing h with
  | give result => exact ends_give ⟨hx.1, hx.2, hpos⟩
  | look go ih => exact (ih _ _ hx hpos).of_after fun stack => ⟨1, rfl⟩
  | act a next ih =>
    refine (ih hx.2 ?_).of_after fun stack => ⟨1, rfl⟩
    cases a with
    | take => exact hx.1
    | number | enter | leave => exact hpos
  | call q go ih =>
    obtain ⟨hmay, hready, hgo⟩ := hx
    exact .call (hcalls q h hmay hready hpos) fun result h' hq =>
      ih result (hgo result h' hq) hq.pos_le
  | again l =>
    obtain ⟨hfloor, hdepth, hrest⟩ := hx
    have hround : l.body.Ends h (Promised since P) := by
      intro stack
      obtain ⟨n, result, h', hn, hmeans, hreturns⟩ := hrounds l h hfloor hdepth hpos stack
      exact ⟨n, result, h', hn, hrest _ _ hmeans, hreturns⟩
    exact hround.of_after fun stack => ⟨1, rfl⟩

end Script

open Script

/-- A loop ends when what it calls ends, since its rounds begin further and further on. -/
theorem Loop.ends_body {since : Head words} (hlimit : since.depth ≤ nestingLimit)
    (hcalls : ∀ (q : Routine) (h : Head words), since.MayCall r q h → q.Ready h.cursor →
      h.pos ≤ words.length → q.body.Ends h (q.Answers h))
    (l : Loop r) (h : Head words) (hdepth : h.depth = since.depth) (hpos : h.pos ≤ words.length) :
    l.body.Ends h (Promised since (l.Rest since.nesting h.cursor)) := by
  -- On what is left of the words: a round only begins another one behind its own beginning.
  induction hleft : words.length - h.pos using Nat.strongRecOn generalizing l h with
  | _ left ih =>
  refine (Loop.fulfils_body hlimit l hdepth).ends hcalls (fun l' h' hfloor hdepth' hpos' => ?_) hpos
  exact ih _ (by omega) l' h' hdepth' hpos' rfl

/-- Every call ends, and keeps its contract. -/
theorem Routine.ends_body (q : Routine) (h : Head words) (hlimit : h.depth ≤ nestingLimit)
    (hready : q.Ready h.cursor) (hpos : h.pos ≤ words.length) : q.body.Ends h (q.Answers h) := by
  -- On the room: calls have less of it, and rounds, which have as much, end if their calls do.
  induction hroom : q.room h using Nat.strongRecOn generalizing q h with
  | _ room ih =>
  have hcalls : ∀ (q' : Routine) (h' : Head words), h.MayCall q q' h' → q'.Ready h'.cursor →
      h'.pos ≤ words.length → q'.body.Ends h' (q'.Answers h') :=
    fun q' h' hmay hready' hpos' =>
      ih _ (hroom ▸ hmay.room_lt) q' h' hmay.depth_le hready' hpos' rfl
  have hends := (q.fulfils_body hlimit hready).ends hcalls
    (fun l h' _ hdepth' hpos' => Loop.ends_body hlimit hcalls l h' hdepth' hpos') hpos
  intro stack
  obtain ⟨n, result, h', hn, hmeans, hreturns, hpos'⟩ := hends stack
  exact ⟨n, result, h', hn, hmeans, hreturns, hpos'⟩

/-! ### Progress -/

theorem Gives.eq_result {ρ : Type} {y result : Except Failure ρ} {c : Cursor}
    (h : Gives y (fun p a _ => a = p) result c) : y = result := by
  cases result with
  | error f => exact h
  | ok a =>
    obtain ⟨p, hy, rfl⟩ := h
    exact hy

theorem Gives.length_lt {α : Type} {c c' : Cursor} {y : Except Failure (Parsed α c)} {a : α}
    (h : Gives y Parsing (.ok a) c') : c'.rest.length < c.rest.length := by
  obtain ⟨p, -, -, rfl⟩ := h
  exact p.progress

/-- Only a whole program can be read from nothing. -/
theorem Routine.Means.length_lt {n : Nesting} {c c' : Cursor} {a : r.Result}
    (h : r.Means n c (.ok a) c') (hr : r ≠ .program) : c'.rest.length < c.rest.length := by
  cases r with
  | program => exact absurd rfl hr
  | _ => exact Gives.length_lt h

/-- What has been called last is about to return to its caller. It gives what the parser of the same
phrase reads with the levels that were left. If it succeeds, the head has gone on since the call,
and the depth is what it was. -/
structure Moment.Returns (m : Moment words) (result : Except Failure m.routine.Result) : Prop where
  script_eq : m.script = .give result
  means : m.routine.Means m.stack.since.nesting m.stack.since.cursor result m.head.cursor
  progress : m.routine ≠ .program → ∀ a, result = .ok a → m.stack.since.pos < m.head.pos
  restored : ∀ a, result = .ok a → m.head.depth = m.stack.since.depth

/-- Parsing comes to an end with the result of the parser. At every moment before, the head is among
the words or behind the last one, the depth is at most 201, and the calls are no more than the rungs
on so many levels. Between two calls of one routine that have not ended something has been entered.
Every call that returns with something read has taken a token at least, and left the depth as it
was. And no routine comes back to itself in a circle of calls without entering anything. -/
theorem parsing_makes_progress (words : List Lexeme) :
    (∃ n h, (Moment.start words).after n =
      ⟨.program, .give (Program.parseTokens words), .entry ⟨0, 0, 0⟩, h⟩) ∧
    (∀ n m, (Moment.start words).after n = m →
      m.head.pos ≤ words.length ∧ m.head.depth ≤ 201 ∧ m.calls.length ≤ 201 * rungs ∧
      (m.calls.Pairwise fun inner outer =>
        inner.1.Same outer.1 → outer.2.depth < inner.2.depth) ∧
      ∀ result, m.script = .give result → m.Returns result) ∧
    ∀ r : Routine, ¬ Relation.TransGen Routine.CallsDirectly r r := by
  refine ⟨?_, ?_, Routine.not_transGen_callsDirectly⟩
  · obtain ⟨n, result, h, hn, hanswers⟩ :=
      Routine.ends_body .program (⟨0, 0, 0⟩ : Head words) (Nat.zero_le _) trivial (Nat.zero_le _)
        (.entry ⟨0, 0, 0⟩)
    have hresult : Program.parseTokens words = result := hanswers.means.eq_result
    exact ⟨n, h, hresult ▸ hn⟩
  · rintro n m rfl
    have hsound := Moment.sound_after words n
    have hlength := hsound.stack.length_calls_add_room_le
    refine ⟨hsound.pos_le, hsound.depth_le, Nat.le_trans (Nat.le_add_right _ _) hlength, ?_, ?_⟩
    · -- On one level the calls go down the rungs, so no routine is called twice there.
      refine hsound.stack.pairwise_calls.imp fun {inner outer} hdeeper hsame => ?_
      exact hdeeper.resolve_right fun hrung => Nat.ne_of_lt hrung.2 hsame.rung_eq
    · intro result hgive
      have hscript := hsound.script
      rw [hgive] at hscript
      refine ⟨hgive, hscript.1, fun hr a ha => ?_, hscript.2.depth_eq⟩
      subst ha
      exact Head.pos_lt (hscript.1.length_lt hr)

end LWorkbench.Descent
