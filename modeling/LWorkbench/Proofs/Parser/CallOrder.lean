import LWorkbench.Proofs.Parser.Contracts
import Mathlib.Logic.Relation

/-!
# The order of calls

Statements, expressions and operands are entered before anything is read for them. All other calls
go down the rungs, whatever the routine has seen and whatever it has been answered. So routines that
call each other in a circle enter something on the way.

## Main definitions

* `Script.StaysBelow` — a script that has entered nothing calls lower rungs only

## Main results

* `Routine.CallsDirectly.rung_lt` — calls that enter nothing go down the rungs
* `Routine.not_transGen_callsDirectly` — no routine comes back to itself without entering anything
-/

namespace LWorkbench.Descent

variable {r q : Routine} {α β : Type} {n : Nat}

/-- As long as the script has entered nothing, it calls routines on rungs below `n` only. -/
def Script.StaysBelow (n : Nat) (x : Script r α) : Prop :=
  ∀ q, x.CallsDirectly q → q.rung < n

namespace Script

/-! ### Small scripts -/

theorem callsDirectly_bind {x : Script r α} {f : α → Script r β} :
    (x >>= f).CallsDirectly q → x.CallsDirectly q ∨ ∃ a, (f a).CallsDirectly q := by
  induction x with
  | give result =>
    cases result with
    | error e => exact False.elim
    | ok a => exact fun h => .inr ⟨a, h⟩
  | look go ih =>
    rintro ⟨c, depth, h⟩
    exact (ih c depth h).imp_left fun h => ⟨c, depth, h⟩
  | act a next ih =>
    rintro ⟨ha, h⟩
    exact (ih h).imp_left fun h => ⟨ha, h⟩
  | call p go ih =>
    -- The call itself stands in front of whatever `f` does.
    rintro (rfl | ⟨result, h⟩)
    · exact .inl (.inl rfl)
    · exact (ih result h).imp_left fun h => .inr ⟨result, h⟩
  | again l => exact False.elim

theorem StaysBelow.bind {x : Script r α} {f : α → Script r β} (hx : x.StaysBelow n)
    (hf : ∀ a, (f a).StaysBelow n) : (x >>= f).StaysBelow n := by
  intro q hq
  obtain hq | ⟨a, hq⟩ := callsDirectly_bind hq
  · exact hx q hq
  · exact hf a q hq

theorem staysBelow_give {result : Except Failure α} : (give result : Script r α).StaysBelow n :=
  fun _ h => h.elim

theorem staysBelow_pure {a : α} : (pure a : Script r α).StaysBelow n := staysBelow_give

theorem staysBelow_again {l : Loop r} : (again l : Script r α).StaysBelow n := fun _ h => h.elim

theorem staysBelow_look {go : Cursor → Nat → Script r α}
    (hgo : ∀ c depth, (go c depth).StaysBelow n) : (look go).StaysBelow n := by
  rintro q ⟨c, depth, h⟩
  exact hgo c depth q h

theorem staysBelow_act {a : Action} {next : Script r α} (hnext : next.StaysBelow n) :
    (act a next).StaysBelow n :=
  fun q h => hnext q h.2

theorem staysBelow_invoke (hq : q.rung < n) : (invoke q : Script r q.Result).StaysBelow n := by
  rintro p (rfl | ⟨result, h⟩)
  · exact hq
  · exact h.elim

/-- What is called one level deeper has been entered. -/
theorem staysBelow_nested : (nested q : Script r q.Result).StaysBelow n :=
  fun _ h => absurd rfl h.1

theorem staysBelow_refuse {failure : Cursor → Failure} :
    (refuse failure : Script r α).StaysBelow n :=
  staysBelow_look fun _ _ => staysBelow_give

theorem staysBelow_take : (take : Script r Unit).StaysBelow n := staysBelow_act staysBelow_pure

theorem staysBelow_eat {token : Token} : (eat token : Script r Bool).StaysBelow n := by
  refine staysBelow_look fun c depth => ?_
  split
  · exact staysBelow_act staysBelow_pure
  · exact staysBelow_pure

theorem staysBelow_expect {s : Symbol} {what : Expectation} :
    (expect s what : Script r Unit).StaysBelow n := by
  refine staysBelow_eat.bind fun taken => ?_
  cases taken with
  | true => exact staysBelow_pure
  | false => exact staysBelow_refuse

theorem staysBelow_node {start : Nat} {make : Site → α} :
    (node start make : Script r α).StaysBelow n :=
  staysBelow_look fun _ _ => staysBelow_act staysBelow_pure

theorem staysBelow_name {kind : ScopeKind} {what : Expectation} :
    (name kind what : Script r Name).StaysBelow n := by
  refine staysBelow_look fun c depth => ?_
  split
  · exact staysBelow_take.bind fun _ => staysBelow_node
  · exact staysBelow_refuse

theorem staysBelow_propertyName : (propertyName : Script r String).StaysBelow n := by
  refine staysBelow_look fun c depth => ?_
  split
  · exact staysBelow_act staysBelow_pure
  · exact staysBelow_refuse

theorem staysBelow_propertyKey : (propertyKey : Script r String).StaysBelow n := by
  refine staysBelow_look fun c depth => ?_
  split
  · exact staysBelow_act staysBelow_pure
  · exact staysBelow_act staysBelow_pure
  · exact staysBelow_refuse

theorem staysBelow_after? {token : Token} (hq : q.rung < n) :
    (after? token q : Script r (Option q.Result)).StaysBelow n := by
  refine staysBelow_eat.bind fun taken => ?_
  cases taken with
  | true => exact (staysBelow_invoke hq).bind fun _ => staysBelow_pure
  | false => exact staysBelow_pure

theorem staysBelow_unless? {s : Symbol} (hq : q.rung < n) :
    (unless? s q : Script r (Option q.Result)).StaysBelow n := by
  refine staysBelow_look fun c depth => ?_
  split
  · exact staysBelow_pure
  · exact (staysBelow_invoke hq).bind fun _ => staysBelow_pure

theorem staysBelow_jumpLabel? : (jumpLabel? : Script r (Option Name)).StaysBelow n := by
  refine staysBelow_look fun c depth => ?_
  split
  · exact staysBelow_name.bind fun _ => staysBelow_pure
  · exact staysBelow_pure

theorem staysBelow_condition {word : Keyword} (hn : 0 < n) :
    (condition word : Script r Expr).StaysBelow n :=
  staysBelow_expect.bind fun _ => (staysBelow_invoke hn).bind fun _ =>
    staysBelow_expect.bind fun _ => staysBelow_pure

theorem staysBelow_operand {k : Rank} :
    (operand k : Script r Expr).StaysBelow (Routine.operators k).rung := by
  cases k <;> exact staysBelow_invoke (by decide)

end Script

open Script

namespace Routine

/-! ### Bodies -/

theorem staysBelow_dispatch (c : Cursor) : (dispatch c).StaysBelow statementBody.rung := by
  have hevaluation : (evaluation c.start).StaysBelow statementBody.rung :=
    (staysBelow_invoke (by decide)).bind fun _ => staysBelow_expect.bind fun _ => staysBelow_node
  have hjump : ∀ make, (jump c.start make).StaysBelow statementBody.rung := fun make =>
    staysBelow_take.bind fun _ => staysBelow_jumpLabel?.bind fun _ =>
      staysBelow_expect.bind fun _ => staysBelow_node
  unfold dispatch
  split
  · exact staysBelow_refuse
  · exact staysBelow_take.bind fun _ => staysBelow_name.bind fun _ =>
      (staysBelow_after? (by decide)).bind fun _ => staysBelow_expect.bind fun _ => staysBelow_node
  · exact staysBelow_take.bind fun _ => (staysBelow_condition (by decide)).bind fun _ =>
      (staysBelow_invoke (by decide)).bind fun _ =>
        (staysBelow_after? (by decide)).bind fun _ => staysBelow_node
  · exact staysBelow_take.bind fun _ => (staysBelow_condition (by decide)).bind fun _ =>
      (staysBelow_invoke (by decide)).bind fun _ => staysBelow_node
  · exact hjump _
  · exact hjump _
  · exact staysBelow_take.bind fun _ => (staysBelow_unless? (by decide)).bind fun _ =>
      staysBelow_expect.bind fun _ => staysBelow_node
  · exact staysBelow_take.bind fun _ => (staysBelow_invoke (by decide)).bind fun _ =>
      staysBelow_node
  · split
    · exact staysBelow_name.bind fun _ => staysBelow_take.bind fun _ =>
        (staysBelow_invoke (by decide)).bind fun _ => staysBelow_node
    · exact hevaluation
  · exact hevaluation

theorem staysBelow_assigning (c : Cursor) : (assigning c).StaysBelow assignment.rung := by
  refine (staysBelow_invoke (by decide)).bind fun e => staysBelow_look fun c₁ depth => ?_
  split
  · split
    · exact staysBelow_take.bind fun _ => (staysBelow_invoke (by decide)).bind fun _ =>
        staysBelow_node
    · exact staysBelow_refuse
  · exact staysBelow_pure

theorem staysBelow_operating (c : Cursor) : (operating c).StaysBelow unary.rung := by
  unfold operating
  split
  · exact staysBelow_take.bind fun _ => staysBelow_nested.bind fun _ => staysBelow_node
  · exact staysBelow_invoke (by decide)

theorem staysBelow_dispatchPrimary (c : Cursor) :
    (dispatchPrimary c).StaysBelow primary.rung := by
  have hliteral : ∀ value, (literal c.start value).StaysBelow primary.rung := fun value =>
    staysBelow_take.bind fun _ => staysBelow_node
  unfold dispatchPrimary
  split
  · exact staysBelow_refuse
  · exact hliteral _
  · exact hliteral _
  · exact hliteral _
  · exact hliteral _
  · exact hliteral _
  · exact staysBelow_name.bind fun _ => staysBelow_pure
  · exact staysBelow_take.bind fun _ => (staysBelow_invoke (by decide)).bind fun _ =>
      staysBelow_node
  · exact staysBelow_invoke (by decide)
  · exact staysBelow_invoke (by decide)
  · exact staysBelow_invoke (by decide)
  · exact staysBelow_refuse

theorem staysBelow_grouping (start : Nat) : (grouping start).StaysBelow parenthesized.rung := by
  refine staysBelow_take.bind fun _ => staysBelow_eat.bind fun closed => ?_
  cases closed with
  | true => exact staysBelow_node
  | false =>
    refine (staysBelow_invoke (by decide)).bind fun first => staysBelow_eat.bind fun taken => ?_
    cases taken with
    | true => exact (staysBelow_invoke (by decide)).bind fun _ => staysBelow_node
    | false => exact staysBelow_expect.bind fun _ => staysBelow_pure

theorem staysBelow_body (r : Routine) : r.body.StaysBelow r.rung := by
  cases r with
  | program | statements | elements => exact staysBelow_again
  | statement | expression => exact staysBelow_nested
  | statementBody => exact staysBelow_look fun c _ => staysBelow_dispatch c
  | assignment => exact staysBelow_look fun c _ => staysBelow_assigning c
  | operators k =>
    exact staysBelow_look fun c _ => staysBelow_operand.bind fun _ => staysBelow_again
  | unary => exact staysBelow_look fun c _ => staysBelow_operating c
  | suffixed =>
    exact staysBelow_look fun c _ => (staysBelow_invoke (by decide)).bind fun _ => staysBelow_again
  | primary => exact staysBelow_look fun c _ => staysBelow_dispatchPrimary c
  | parenthesized => exact staysBelow_look fun c _ => staysBelow_grouping c.start
  | object => exact staysBelow_look fun c _ => staysBelow_take.bind fun _ => staysBelow_again
  | function =>
    exact staysBelow_look fun c _ => staysBelow_take.bind fun _ =>
      staysBelow_expect.bind fun _ => staysBelow_again

end Routine

namespace Loop

/-! ### Rounds -/

theorem staysBelow_item {element : Script r α} {close : Symbol} {what : Expectation}
    {last : α → Script r r.Result} {more : α → Loop r} (helement : element.StaysBelow n)
    (hlast : ∀ a, (last a).StaysBelow n) :
    (item element close what last more).StaysBelow n := by
  refine helement.bind fun a => staysBelow_eat.bind fun taken => ?_
  cases taken with
  | true => exact staysBelow_again
  | false => exact staysBelow_expect.bind fun _ => hlast a

theorem staysBelow_functionBody (start : Nat) (names : List Name) :
    (functionBody start names).StaysBelow Routine.function.rung :=
  staysBelow_expect.bind fun _ => (staysBelow_invoke (by decide)).bind fun _ => staysBelow_node

theorem staysBelow_property : property.StaysBelow Routine.object.rung :=
  staysBelow_propertyKey.bind fun _ => staysBelow_expect.bind fun _ =>
    (staysBelow_invoke (by decide)).bind fun _ => staysBelow_pure

theorem staysBelow_suffixes (start : Nat) (e : Expr) :
    (suffixes start e).body.StaysBelow Routine.suffixed.rung := by
  refine staysBelow_eat.bind fun paren => ?_
  cases paren with
  | true =>
    exact (staysBelow_invoke (by decide)).bind fun _ => staysBelow_node.bind fun _ =>
      staysBelow_again
  | false =>
    refine staysBelow_eat.bind fun dot => ?_
    cases dot with
    | true =>
      exact staysBelow_propertyName.bind fun _ => staysBelow_node.bind fun _ => staysBelow_again
    | false =>
      refine staysBelow_eat.bind fun bracket => ?_
      cases bracket with
      | true =>
        exact (staysBelow_invoke (by decide)).bind fun _ => staysBelow_expect.bind fun _ =>
          staysBelow_node.bind fun _ => staysBelow_again
      | false => exact staysBelow_pure

theorem staysBelow_body (l : Loop r) : l.body.StaysBelow r.rung := by
  cases l with
  | program body =>
    refine staysBelow_look fun c depth => ?_
    split
    · exact staysBelow_pure
    · exact (staysBelow_invoke (by decide)).bind fun _ => staysBelow_again
  | statements body =>
    refine staysBelow_eat.bind fun closed => ?_
    cases closed with
    | true => exact staysBelow_pure
    | false =>
      refine staysBelow_look fun c depth => ?_
      split
      · exact staysBelow_refuse
      · exact (staysBelow_invoke (by decide)).bind fun _ => staysBelow_again
  | operators k start left =>
    refine staysBelow_look fun c depth => ?_
    split
    · exact staysBelow_take.bind fun _ => staysBelow_operand.bind fun _ =>
        staysBelow_node.bind fun _ => staysBelow_again
    · exact staysBelow_pure
  | suffixes start e => exact staysBelow_suffixes start e
  | elements close what items =>
    refine staysBelow_eat.bind fun closed => ?_
    cases closed with
    | true => exact staysBelow_pure
    | false => exact staysBelow_item (staysBelow_invoke Nat.zero_lt_one) fun _ => staysBelow_pure
  | properties start pairs =>
    refine staysBelow_eat.bind fun closed => ?_
    cases closed with
    | true => exact staysBelow_node
    | false => exact staysBelow_item staysBelow_property fun _ => staysBelow_node
  | params start names =>
    refine staysBelow_eat.bind fun closed => ?_
    cases closed with
    | true => exact staysBelow_functionBody start names
    | false => exact staysBelow_item staysBelow_name fun _ => staysBelow_functionBody start _

end Loop

/-! ### Circles -/

namespace Routine

theorem Same.rung_eq (h : r.Same q) : r.rung = q.rung := by
  unfold Same at h
  split at h
  · rfl
  · rw [h]

/-- Calls that enter nothing go down the rungs. -/
theorem CallsDirectly.rung_lt (h : r.CallsDirectly q) : q.rung < r.rung := by
  obtain ⟨r', q', hr, hq, hcalls⟩ := h
  rw [← hr.rung_eq, ← hq.rung_eq]
  obtain h | ⟨l, h⟩ := hcalls
  · exact r'.staysBelow_body q' h
  · exact l.staysBelow_body q' h

/-- A routine that calls itself, through whatever other routines, has entered something on the
way. -/
theorem not_transGen_callsDirectly (r : Routine) : ¬ Relation.TransGen CallsDirectly r r := by
  have hlower : ∀ q, Relation.TransGen CallsDirectly r q → q.rung < r.rung := by
    intro q hcalls
    induction hcalls with
    | single h => exact h.rung_lt
    | tail _ h ih => exact Nat.lt_trans h.rung_lt ih
  exact fun hcircle => Nat.lt_irrefl _ (hlower r hcircle)

end Routine

end LWorkbench.Descent
