/-!
# JSON values

Messages to debuggers and editors are JSON. A value keeps whole numbers apart from fractional ones,
because a field that asks for a whole number refuses `1.0`, and keeps the fields of an object in the
order in which they were written.

## Main definitions

* `Json` — a JSON value
* `Json.record` — an object with its fields in the order of their names
* `Json.field?` — the value of a field; of fields with one name the last counts
* `Json.int?`, `Json.nat?`, `Json.bool?`, `Json.string?` — the value as one of the plain types
-/

namespace LWorkbench

/-- A JSON value. -/
inductive Json where
  | null
  | bool (value : Bool)
  | int (value : Int)
  | float (value : Float)
  | string (value : String)
  | array (items : List Json)
  | object (fields : List (String × Json))

namespace Json

instance : Inhabited Json := ⟨.null⟩

instance : Coe String Json := ⟨.string⟩

instance : Coe Bool Json := ⟨.bool⟩

instance : Coe Nat Json := ⟨fun n => .int n⟩

/-- An object with its fields in the order of their names. -/
def record (fields : List (String × Json)) : Json :=
  .object (fields.mergeSort fun a b => a.1 ≤ b.1)

/-- The value of an optional part, or `null`. -/
def ofOption {α : Type} (encode : α → Json) : Option α → Json
  | some a => encode a
  | none => .null

/-- The list of the encoded elements. -/
def ofList {α : Type} (encode : α → Json) (items : List α) : Json :=
  .array (items.map encode)

/-- A field that is left out when there is nothing to write. -/
def optional {α : Type} (name : String) (encode : α → Json) : Option α → List (String × Json)
  | some a => [(name, encode a)]
  | none => []

/-- The value of the last field with the given name. -/
def field? (fields : List (String × Json)) (name : String) : Option Json :=
  (fields.reverse.find? (·.1 == name)).map (·.2)

/-- The field of an object; `none` also for a value that is not an object. -/
def get? (name : String) : Json → Option Json
  | .object fields => field? fields name
  | _ => none

/-- Whether the value is `null`. -/
def isNull : Json → Bool
  | .null => true
  | _ => false

/-- The value as a truth value. -/
def bool? : Json → Option Bool
  | .bool value => some value
  | _ => none

/-- The value as a text. -/
def string? : Json → Option String
  | .string value => some value
  | _ => none

/-- The value as a list. -/
def array? : Json → Option (List Json)
  | .array items => some items
  | _ => none

/-- The value as a whole number that fits into 64 bits with a sign. -/
def int? : Json → Option Int
  | .int value =>
    let bound : Nat := Nat.pow 2 63
    if -(bound : Int) ≤ value ∧ value < bound then some value else none
  | _ => none

/-- The value as a whole number from zero that fits into 64 bits. -/
def nat? : Json → Option Nat
  | .int value =>
    if 0 ≤ value ∧ value.toNat < Nat.pow 2 64 then some value.toNat else none
  | _ => none

/-- The value as a whole number that fits into 32 bits with a sign. -/
def int32? (j : Json) : Option Int :=
  let bound : Nat := Nat.pow 2 31
  j.int?.filter fun n => -(bound : Int) ≤ n && n < bound

/-- The value as a whole number from zero that fits into 32 bits. -/
def nat32? (j : Json) : Option Nat :=
  j.nat?.filter (· < Nat.pow 2 32)

end Json

end LWorkbench
