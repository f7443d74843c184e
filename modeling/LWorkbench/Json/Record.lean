import LWorkbench.Json

/-!
# Records in JSON

Arguments and settings are records with fixed fields. A record is written as an object, where
fields that nobody knows are skipped, or as a list of the values of its first fields in their
order. A field that is left out has a default. A plain field must have a value of its type when it
is there; a nullable one may also be `null`.

## Main definitions

* `Json.recordFields?` — the fields of a record with the given field names
* `Json.required`, `Json.plain`, `Json.nullable` — the value of one field
-/

namespace LWorkbench.Json

/-- The fields of a record whose fields have the given names in order; none for a value that is not
a record, or a list that is too long. -/
def recordFields? (names : List String) : Json → Option (List (String × Json))
  | .object fields => some fields
  | .array items => if items.length ≤ names.length then some (names.zip items) else none
  | _ => none

variable {α : Type}

/-- The value of a field that must be there. -/
def required (fields : List (String × Json)) (name : String) (read : Json → Option α) : Option α :=
  (field? fields name).bind read

/-- The value of a field, or the default when it is left out; none for a value of a wrong type. -/
def plain (fields : List (String × Json)) (name : String) (read : Json → Option α) (default : α) :
    Option α :=
  match field? fields name with
  | none => some default
  | some j => read j

/-- The value of a field that may be left out or `null`; none for a value of a wrong type. -/
def nullable (fields : List (String × Json)) (name : String) (read : Json → Option α) :
    Option (Option α) :=
  match field? fields name with
  | none => some none
  | some .null => some none
  | some j => (read j).map some

end LWorkbench.Json
