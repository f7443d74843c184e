import LWorkbench.Json

/-!
# Shapes of JSON values

Messages of a protocol have prescribed shapes: a field is a text, a number, a list of records and so
on. A shape is the condition that a value has it, and larger shapes are made from smaller ones.

A record is written as an object, where fields that nobody knows are skipped, or as a list of the
values of its fields in their order. A record that is made of several smaller ones is only written
as an object.

## Main definitions

* `Shape` — a condition on values
* `Shape.nullable`, `Shape.list`, `Shape.pair`, `Shape.table`, `Shape.either`, `Shape.word` — shapes
  made from others
* `Shape.Field`, `Shape.record`, `Shape.keyed`, `Shape.keyedWith` — records
-/

namespace LWorkbench

/-- A condition on JSON values. -/
abbrev Shape := Json → Bool

namespace Shape

/-- Every value. -/
def anything : Shape := fun _ => true

/-- A truth value. -/
def bool : Shape := fun j => j.bool?.isSome

/-- A text. -/
def string : Shape := fun j => j.string?.isSome

/-- A whole number that fits into 32 bits with a sign. -/
def int32 : Shape := fun j => j.int32?.isSome

/-- A whole number from zero that fits into 32 bits. -/
def nat32 : Shape := fun j => j.nat32?.isSome

/-- A number, whole or not. -/
def number : Shape
  | .int _ => true
  | .float _ => true
  | _ => false

/-- One of a few words, which may also be written as the name of the only field of an object. -/
def word (words : List String) : Shape
  | .string w => words.contains w
  | .object [(w, .null)] => words.contains w
  | _ => false

/-- One fixed text. -/
def text (expected : String) : Shape
  | .string given => given == expected
  | _ => false

/-- A value of a shape, or `null`. -/
def nullable (inner : Shape) : Shape := fun j => j.isNull || inner j

/-- A value of one of two shapes. -/
def either (first second : Shape) : Shape := fun j => first j || second j

/-- A list of values of a shape. -/
def list (item : Shape) : Shape
  | .array items => items.all item
  | _ => false

/-- A list of two values of a shape. -/
def pair (item : Shape) : Shape
  | .array [a, b] => item a && item b
  | _ => false

/-- An object with names of a kind and values of a shape. -/
def table (isName : String → Bool) (value : Shape) : Shape
  | .object fields => fields.all fun f => isName f.1 && value f.2
  | _ => false

/-! ### Records -/

/-- Whether a field of a record may be left out. -/
inductive Presence where
  | required
  /-- The field may be left out of an object, but not of a list. -/
  | optional
  /-- The field may be left out of an object and at the end of a list. -/
  | defaulted
  deriving DecidableEq, Repr

/-- A field of a record. -/
structure Field where
  name : String
  presence : Presence
  shape : Shape

/-- A field that must be there. -/
def required (name : String) (shape : Shape) : Field := ⟨name, .required, shape⟩

/-- A field that may be left out of an object or be `null`. -/
def optional (name : String) (shape : Shape) : Field := ⟨name, .optional, nullable shape⟩

/-- A field that may be left out or be `null`. -/
def defaulted (name : String) (shape : Shape) : Field := ⟨name, .defaulted, nullable shape⟩

/-- Optional truth values with the given names. -/
def flags (names : List String) : List Field :=
  names.map (optional · bool)

/-- Whether an object has what a field asks for. -/
def Field.inObject (field : Field) (fields : List (String × Json)) : Bool :=
  match Json.field? fields field.name with
  | some value => field.shape value
  | none => field.presence != .required

/-- Whether a list has, in order, what fields ask for, and nothing more. -/
def inList : List Field → List Json → Bool
  | [], items => items.isEmpty
  | field :: fields, [] => field.presence == .defaulted && inList fields []
  | field :: fields, item :: items => field.shape item && inList fields items

/-- A record that is written as an object. -/
def keyed (fields : List Field) : Shape
  | .object given => fields.all (·.inObject given)
  | _ => false

/-- A record that is written as an object, where all other fields have a shape too. -/
def keyedWith (fields : List Field) (others : Shape) : Shape
  | .object given =>
    fields.all (·.inObject given) &&
      given.all fun f => fields.any (·.name == f.1) || others f.2
  | _ => false

/-- A record that is written as an object or as a list. -/
def record (fields : List Field) : Shape
  | .object given => fields.all (·.inObject given)
  | .array items => inList fields items
  | _ => false

end Shape

end LWorkbench
