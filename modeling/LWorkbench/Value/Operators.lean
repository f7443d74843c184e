import LWorkbench.Value.Fault

/-!
# Operators

Numbers are added and texts are joined; a text on either side of `+` turns the other side into a
text. The other arithmetic operators take numbers only. Numbers and texts are ordered, each among
themselves, texts by their characters; a NaN is neither below nor above anything. All values can be
compared for equality.

Looking up an element that is not there gives `undefined`.

## Main definitions

* `Value.unary`, `Value.binary` — the operators
* `Value.index`, `Value.member` — elements and properties
-/

namespace LWorkbench.Value

/-- The operators with one operand. -/
def unary (op : UnaryOp) (operand : Value) : Except Fault Value :=
  match op, operand with
  | .not, operand => .ok (.boolean !operand.isTruthy)
  | .negate, .number x => .ok (.number (-x))
  | .negate, operand => .error (.notNegatable operand.type)

/-- An operator on numbers. -/
def arithmetic (op : BinaryOp) (f : Float → Float → Float) : Value → Value → Except Fault Value
  | .number x, .number y => .ok (.number (f x y))
  | left, right => .error (.notApplicable op left.type right.type)

/-- Adds numbers, and joins texts when either side is one. -/
def add : Value → Value → Except Fault Value
  | .number x, .number y => .ok (.number (x + y))
  | .string s, right => .ok (.string (s ++ right.display))
  | left, .string s => .ok (.string (left.display ++ s))
  | left, right => .error (.notApplicable .add left.type right.type)

/-- An order on numbers and on texts. -/
def order (op : BinaryOp) (numbers : Float → Float → Bool) (texts : String → String → Bool) :
    Value → Value → Except Fault Value
  | .number x, .number y => .ok (.boolean (numbers x y))
  | .string s, .string t => .ok (.boolean (texts s t))
  | left, right => .error (.notApplicable op left.type right.type)

/-- The operators with two operands. -/
def binary (op : BinaryOp) (left right : Value) : Except Fault Value :=
  match op with
  | .add => add left right
  | .subtract => arithmetic op (· - ·) left right
  | .multiply => arithmetic op (· * ·) left right
  | .divide => arithmetic op (· / ·) left right
  | .modulo => arithmetic op Number.remainder left right
  | .equal => .ok (.boolean (left.equals right))
  | .notEqual => .ok (.boolean !left.equals right)
  | .less => order op (fun x y => decide (x < y)) (fun s t => decide (s < t)) left right
  | .lessEqual => order op (fun x y => decide (x ≤ y)) (fun s t => decide (s ≤ t)) left right
  | .greater => order op (fun x y => decide (y < x)) (fun s t => decide (t < s)) left right
  | .greaterEqual => order op (fun x y => decide (y ≤ x)) (fun s t => decide (t ≤ s)) left right

/-- The item at a place that a number gives; `undefined` for a number that is no place. -/
def item (items : List Value) (place : Float) : Value :=
  match (Binary.ofFloat place).natValue? with
  | some i => items[i]?.getD .undefined
  | none => .undefined

/-- The element of a list or text at a number, or the property of an object with a key. A text only
takes whole numbers from zero. -/
def index (object index : Value) : Except Fault Value :=
  match object, index with
  | .array items, .number place => .ok (item items place)
  | .tuple items, .number place => .ok (item items place)
  | .object _, .string key => .ok ((object.property? key).getD .undefined)
  | .string text, .number place =>
    match (Binary.ofFloat place).natValue? with
    | some i => .ok (((text.toList[i]?).map fun c => .string (String.singleton c)).getD .undefined)
    | none => .error (.notIndexable .string .number)
  | _, _ => .error (.notIndexable object.type index.type)

/-- The number of parts of something. -/
def count (n : Nat) : Value :=
  .number (Float.ofNat n)

/-- The property of a value with a fixed name: those of objects, and `length`. -/
def member (object : Value) (name : String) : Except Fault Value :=
  match object with
  | .object _ => .ok ((object.property? name).getD .undefined)
  | .array items => .ok (if name = "length" then count items.length else .undefined)
  | .tuple items => .ok (if name = "length" then count items.length else .undefined)
  | .string text => .ok (if name = "length" then count text.length else .undefined)
  | .undefined => .error (.noProperty name .undefined)
  | .null => .error (.noProperty name .null)
  | _ => .ok .undefined

end LWorkbench.Value
