import LWorkbench.Number.Shortest
import LWorkbench.Scope.Environment

/-!
# Values

What a program computes with. Numbers are doubles, texts are sequences of characters, and objects
keep their properties in the order in which they were written, where a later property hides an
earlier one with the same key. A function value is the function expression together with the chain
of scopes in which it was evaluated; every evaluation makes a function of its own, told by its
serial number.

## Main definitions

* `Closure`, `Value` — functions and values
* `ValueType` — the types that error messages name
* `Value.isTruthy`, `Value.display`, `Value.property?` — as a condition, as a text, and by key
* `Value.equals` — equality: by content, of numbers as numbers, of functions as the same function
-/

namespace LWorkbench

/-- A function expression with the chain of scopes in which it was evaluated. -/
structure Closure where
  serial : Nat
  node : NodeId
  environment : Environment
  deriving DecidableEq, Repr

/-- A value of a program. -/
inductive Value where
  | undefined
  | null
  | boolean (value : Bool)
  | number (value : Float)
  | string (value : String)
  | array (items : List Value)
  | tuple (items : List Value)
  | object (properties : List (String × Value))
  | function (closure : Closure)

instance : Inhabited Value := ⟨.undefined⟩

/-- The types of values. -/
inductive ValueType where
  | undefined
  | null
  | boolean
  | number
  | string
  | array
  | tuple
  | object
  | function
  deriving DecidableEq, Repr

/-- The word for a type. -/
def ValueType.word : ValueType → String
  | undefined => "undefined"
  | null => "null"
  | boolean => "boolean"
  | number => "number"
  | string => "string"
  | array => "array"
  | tuple => "tuple"
  | object => "object"
  | function => "function"

namespace Value

/-- The type of a value. -/
def type : Value → ValueType
  | undefined => .undefined
  | null => .null
  | boolean _ => .boolean
  | number _ => .number
  | string _ => .string
  | array _ => .array
  | tuple _ => .tuple
  | object _ => .object
  | function _ => .function

/-- Whether a value has parts that can be looked into. -/
def isComposite : Value → Bool
  | array _ | tuple _ | object _ | function _ => true
  | _ => false

/-- Whether a value counts as true in a condition. -/
def isTruthy : Value → Bool
  | undefined => false
  | null => false
  | boolean value => value
  | number value => value != 0.0 && !value.isNaN
  | string value => !value.isEmpty
  | _ => true

/-- The property of an object: the last one with the key, or `undefined`. Other values have none. -/
def property? (key : String) : Value → Option Value
  | object properties => some (((properties.reverse.find? (·.1 == key)).map (·.2)).getD .undefined)
  | _ => none

mutual

/-- The text of a value. A tuple with one item ends in a comma. -/
def display : Value → String
  | undefined => "undefined"
  | null => "null"
  | boolean true => "true"
  | boolean false => "false"
  | number value => Number.display value
  | string value => value
  | array items => "[" ++ ", ".intercalate (displayItems items) ++ "]"
  | tuple items =>
    "(" ++ ", ".intercalate (displayItems items) ++ (if items.length = 1 then ",)" else ")")
  | object properties => "\x7b" ++ ", ".intercalate (displayProperties properties) ++ "\x7d"
  | function _ => "function"

/-- The texts of the items of a list. -/
def displayItems : List Value → List String
  | [] => []
  | item :: items => item.display :: displayItems items

/-- The texts of the properties of an object, each with its key in front. -/
def displayProperties : List (String × Value) → List String
  | [] => []
  | (key, value) :: properties => (key ++ ": " ++ value.display) :: displayProperties properties

end

mutual

/-- Whether two values are equal: by content, of numbers as numbers, so that no value that holds a
NaN equals itself, and of functions only when they are the same function. -/
def equals : Value → Value → Bool
  | undefined, undefined => true
  | null, null => true
  | boolean a, boolean b => a == b
  | number a, number b => a == b
  | string a, string b => a == b
  | array a, array b => equalItems a b
  | tuple a, tuple b => equalItems a b
  | object a, object b => equalProperties a b
  | function a, function b => a.serial == b.serial
  | _, _ => false

/-- Whether two lists have equal items. -/
def equalItems : List Value → List Value → Bool
  | [], [] => true
  | a :: as, b :: bs => a.equals b && equalItems as bs
  | _, _ => false

/-- Whether two objects have the same keys with equal values in the same order. -/
def equalProperties : List (String × Value) → List (String × Value) → Bool
  | [], [] => true
  | (key, a) :: as, (key', b) :: bs => key == key' && a.equals b && equalProperties as bs
  | _, _ => false

end

/-- The value of a literal. -/
def ofLiteral : Literal → Value
  | .undefined => .undefined
  | .null => .null
  | .boolean value => .boolean value
  | .number value => .number value
  | .string value => .string value

end Value

end LWorkbench
