import LWorkbench.Value.Operators

/-!
# Functions inside values

Operators take values apart and put values together, but they never make a function. So what is true
of all functions inside the operands is true of all functions inside the result, and an operator
that does not apply fails with a fault about its operands.

## Main definitions

* `Value.Every` — all functions inside a value have a property
* `Fault.aboutOperands` — an operator does not apply
* `Except.Every` — the result is such a value, or a fault about operands

## Main results

* `Value.every_unary`, `Value.every_binary`, `Value.Every.index`, `Value.Every.member` — operators
-/

namespace LWorkbench

/-- All functions inside the value have a property. -/
inductive Value.Every (P : Closure → Prop) : Value → Prop
  | undefined : Every P .undefined
  | null : Every P .null
  | boolean (b : Bool) : Every P (.boolean b)
  | number (x : Float) : Every P (.number x)
  | string (s : String) : Every P (.string s)
  | array {items : List Value} (h : ∀ v ∈ items, Every P v) : Every P (.array items)
  | tuple {items : List Value} (h : ∀ v ∈ items, Every P v) : Every P (.tuple items)
  | object {properties : List (String × Value)} (h : ∀ q ∈ properties, Every P q.2) :
    Every P (.object properties)
  | function {closure : Closure} (h : P closure) : Every P (.function closure)

/-- A fault of an operator that does not apply to its operands. -/
def Fault.aboutOperands : Fault → Bool
  | .notApplicable .. | .notNegatable _ | .notIndexable .. | .noProperty .. => true
  | _ => false

/-- All functions inside the result have a property, or the operator does not apply. -/
def Except.Every (P : Closure → Prop) : Except Fault Value → Prop
  | .ok value => value.Every P
  | .error fault => fault.aboutOperands = true

namespace Value

variable {P Q : Closure → Prop} {v w : Value}

theorem Every.mono (h : v.Every P) (himp : ∀ c, P c → Q c) : v.Every Q := by
  induction h with
  | undefined => exact .undefined
  | null => exact .null
  | boolean b => exact .boolean b
  | number x => exact .number x
  | string s => exact .string s
  | array _ ih => exact .array ih
  | tuple _ ih => exact .tuple ih
  | object _ ih => exact .object ih
  | function h => exact .function (himp _ h)

theorem every_true : ∀ v : Value, v.Every fun _ => True
  | .undefined => .undefined
  | .null => .null
  | .boolean b => .boolean b
  | .number x => .number x
  | .string s => .string s
  | .array items => .array fun v _ => v.every_true
  | .tuple items => .tuple fun v _ => v.every_true
  | .object properties => .object fun (_, v) _ => v.every_true
  | .function _ => .function trivial
decreasing_by
  · decreasing_tactic
  · decreasing_tactic
  · rename_i hq
    have hlt := List.sizeOf_lt_of_mem hq
    simp only [Prod.mk.sizeOf_spec, Value.object.sizeOf_spec] at hlt ⊢
    omega

theorem every_unary (op : UnaryOp) : Except.Every P (v.unary op) := by
  unfold unary
  split
  · exact .boolean _
  · exact .number _
  · rfl

theorem every_binary (op : BinaryOp) : Except.Every P (v.binary op w) := by
  have harithmetic : ∀ op f, Except.Every P (arithmetic op f v w) := by
    intro op f
    unfold arithmetic
    split
    · exact .number _
    · rfl
  have horder : ∀ op f g, Except.Every P (order op f g v w) := by
    intro op f g
    unfold order
    split
    · exact .boolean _
    · exact .boolean _
    · rfl
  cases op with
  | add =>
    simp only [binary, add]
    split
    · exact .number _
    · exact .string _
    · exact .string _
    · rfl
  | subtract | multiply | divide | modulo => exact harithmetic _ _
  | equal | notEqual => exact .boolean _
  | less | lessEqual | greater | greaterEqual => exact horder _ _ _

theorem Every.item {items : List Value} (h : ∀ v ∈ items, v.Every P) (place : Float) :
    (Value.item items place).Every P := by
  unfold Value.item
  split
  · rename_i i hi
    cases hitem : items[i]? with
    | none => exact .undefined
    | some v => exact h v (List.mem_of_getElem? hitem)
  · exact .undefined

theorem Every.property {properties : List (String × Value)} (h : ∀ q ∈ properties, q.2.Every P)
    (key : String) : ((Value.property? key (.object properties)).getD .undefined).Every P := by
  simp only [property?, Option.getD_some]
  cases hfind : properties.reverse.find? (·.1 == key) with
  | none => exact .undefined
  | some q => exact h q (List.mem_reverse.1 (List.mem_of_find?_eq_some hfind))

theorem Every.index (hv : v.Every P) : Except.Every P (v.index w) := by
  unfold Value.index
  split
  · cases hv with
    | array h => exact .item h _
  · cases hv with
    | tuple h => exact .item h _
  · cases hv with
    | object h => exact .property h _
  · split
    · rename_i text _ _ i _
      cases text.toList[i]? with
      | none => exact .undefined
      | some c => exact .string _
    · rfl
  · rfl

theorem Every.member (hv : v.Every P) (name : String) : Except.Every P (v.member name) := by
  unfold Value.member
  split
  · cases hv with
    | object h => exact .property h _
  · split
    · exact .number _
    · exact .undefined
  · split
    · exact .number _
    · exact .undefined
  · split
    · exact .number _
    · exact .undefined
  · rfl
  · rfl
  · exact .undefined

theorem every_ofLiteral (value : Literal) : (ofLiteral value).Every P := by
  cases value with
  | undefined => exact .undefined
  | null => exact .null
  | boolean b => exact .boolean b
  | number x => exact .number x
  | string s => exact .string s

end Value

end LWorkbench
