import LWorkbench.Json
import LWorkbench.Number.Shortest

/-!
# Writing JSON

A value is written without any blanks, or spread over lines with two blanks per level. A text is
written between double quotes; the double quote, the backslash and the control characters below
U+0020 are escaped and every other character stands for itself.

## Main definitions

* `Json.quote` — a text as a JSON string
* `Json.compact` — a value without blanks
* `Json.pretty` — a value spread over lines
-/

namespace LWorkbench.Json

/-- The lower-case hexadecimal digit of a number below sixteen. -/
def hexDigit (n : Nat) : Char :=
  Nat.digitChar n

/-- A character as it stands inside a JSON string. -/
def quoteChar (c : Char) : String :=
  if c = '"' then "\\\""
  else if c = '\\' then "\\\\"
  else if c = '\n' then "\\n"
  else if c = '\r' then "\\r"
  else if c = '\t' then "\\t"
  else if c.toNat = 8 then "\\b"
  else if c.toNat = 12 then "\\f"
  else if c.toNat < 32 then
    String.ofList ['\\', 'u', '0', '0', hexDigit (c.toNat / 16), hexDigit (c.toNat % 16)]
  else String.singleton c

/-- A text as a JSON string. -/
def quote (text : String) : String :=
  (text.toList.foldl (fun acc c => acc ++ quoteChar c) "\"").push '"'

/-- A fractional number, written so that it is read as one. -/
def floatText (x : Float) : String :=
  match Binary.ofFloat x with
  | .finite .. =>
    let text := Number.shortestText x
    if text.contains '.' then text else text ++ ".0"
  | _ => "null"

mutual

/-- Appends the value to `acc` without blanks. -/
def write (acc : String) : Json → String
  | .null => acc ++ "null"
  | .bool true => acc ++ "true"
  | .bool false => acc ++ "false"
  | .int value => acc ++ toString value
  | .float value => acc ++ floatText value
  | .string value => acc ++ quote value
  | .array items => (writeItems (acc.push '[') true items).push ']'
  | .object fields => (writeFields (acc.push '\x7b') true fields).push '\x7d'

/-- Appends the items to `acc`, with a comma before every item but the `first`. -/
def writeItems (acc : String) (first : Bool) : List Json → String
  | [] => acc
  | item :: rest => writeItems (write (if first then acc else acc.push ',') item) false rest

/-- Appends the fields to `acc`, with a comma before every field but the `first`. -/
def writeFields (acc : String) (first : Bool) : List (String × Json) → String
  | [] => acc
  | (name, value) :: rest =>
    let start := (if first then acc else acc.push ',') ++ quote name
    writeFields (write (start.push ':') value) false rest

end

/-- The value without blanks. -/
def compact (j : Json) : String :=
  write "" j

/-- Starts a new line, indented by two blanks per level. -/
def newLine (acc : String) (level : Nat) : String :=
  acc.push '\n' ++ String.ofList (List.replicate (2 * level) ' ')

mutual

/-- Appends the value to `acc`, its inside spread over lines at the level below `level`. -/
def spread (acc : String) (level : Nat) : Json → String
  | .array [] => acc ++ "[]"
  | .object [] => acc ++ "\x7b\x7d"
  | .array (item :: rest) =>
    let inside := spreadItems (spread (newLine (acc.push '[') (level + 1)) (level + 1) item)
      (level + 1) rest
    (newLine inside level).push ']'
  | .object ((name, value) :: rest) =>
    let start := newLine (acc.push '\x7b') (level + 1) ++ quote name ++ ": "
    let inside := spreadFields (spread start (level + 1) value) (level + 1) rest
    (newLine inside level).push '\x7d'
  | j => write acc j

/-- Appends the further items of a list, each on a line of its own. -/
def spreadItems (acc : String) (level : Nat) : List Json → String
  | [] => acc
  | item :: rest => spreadItems (spread (newLine (acc.push ',') level) level item) level rest

/-- Appends the further fields of an object, each on a line of its own. -/
def spreadFields (acc : String) (level : Nat) : List (String × Json) → String
  | [] => acc
  | (name, value) :: rest =>
    let start := newLine (acc.push ',') level ++ quote name ++ ": "
    spreadFields (spread start level value) level rest

end

/-- The value spread over lines. -/
def pretty (j : Json) : String :=
  spread "" 0 j

end LWorkbench.Json
