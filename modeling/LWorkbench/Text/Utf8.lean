/-!
# Texts as bytes

A text travels as the bytes of its UTF-8 form. Not every sequence of bytes is such a form; what is
wrong with one is told by the place of the first fault. A fault is either a sequence that no further
byte could mend, with the number of bytes that have been understood before, or a sequence that ends
too early.

## Main definitions

* `Utf8.encode`, `Utf8.decode` — from texts to bytes and back
* `Utf8.Error` — where and how bytes fail to be a text

## Main results

* `Utf8.decode_encode` — the bytes of a text are read as that text
* `Utf8.encode_append`, `Utf8.length_encode` — the bytes of joined texts, and how many there are
-/

namespace LWorkbench.Utf8

/-- Where and how bytes fail to be a text. -/
inductive Error where
  /-- At `index`, the first `length` bytes of a character are followed by one that cannot continue
  it, or the first byte cannot start a character. -/
  | invalid (length index : Nat)
  /-- At `index`, the last character lacks its end. -/
  | incomplete (index : Nat)
  deriving DecidableEq, Repr

/-- The text of an error. -/
def Error.message : Error → String
  | invalid length index => s!"invalid utf-8 sequence of {length} bytes from index {index}"
  | incomplete index => s!"incomplete utf-8 byte sequence from index {index}"

/-- Whether a byte can stand inside a character, after the second byte. -/
def isContinuation (b : UInt8) : Bool := 0x80 ≤ b && b ≤ 0xBF

/-- For the first byte of a character of more than one byte, which bytes may come second, and how
many come after that. -/
def lead? (b : UInt8) : Option ((UInt8 → Bool) × Nat) :=
  if 0xC2 ≤ b && b ≤ 0xDF then some (isContinuation, 0)
  else if b = 0xE0 then some (fun second => 0xA0 ≤ second && second ≤ 0xBF, 1)
  else if b = 0xED then some (fun second => 0x80 ≤ second && second ≤ 0x9F, 1)
  else if 0xE1 ≤ b && b ≤ 0xEF then some (isContinuation, 1)
  else if b = 0xF0 then some (fun second => 0x90 ≤ second && second ≤ 0xBF, 2)
  else if 0xF1 ≤ b && b ≤ 0xF3 then some (isContinuation, 2)
  else if b = 0xF4 then some (fun second => 0x80 ≤ second && second ≤ 0x8F, 2)
  else none

/-- Walks over the bytes of the characters from `index` on and tells the first fault. -/
def fault? (index : Nat) : List UInt8 → Option Error
  | [] => none
  | first :: rest =>
    if first < 0x80 then fault? (index + 1) rest
    else
      match lead? first with
      | none => some (.invalid 1 index)
      | some (accepts, more) =>
        match rest with
        | [] => some (.incomplete index)
        | second :: rest =>
          if !accepts second then some (.invalid 1 index)
          else if more = 0 then fault? (index + 2) rest
          else
            match rest with
            | [] => some (.incomplete index)
            | third :: rest =>
              if !isContinuation third then some (.invalid 2 index)
              else if more = 1 then fault? (index + 3) rest
              else
                match rest with
                | [] => some (.incomplete index)
                | fourth :: rest =>
                  if !isContinuation fourth then some (.invalid 3 index)
                  else fault? (index + 4) rest

/-- The bytes of a text. -/
def encode (text : String) : List UInt8 := text.toByteArray.data.toList

/-- The text with the given bytes. -/
def decode (bytes : List UInt8) : Except Error String :=
  match String.fromUTF8? ⟨bytes.toArray⟩ with
  | some text => .ok text
  | none => .error ((fault? 0 bytes).getD (.invalid 1 0))

/-- The bytes of a text are read as that text. -/
@[simp] theorem decode_encode (text : String) : decode (encode text) = .ok text := by
  have hbytes : (⟨(encode text).toArray⟩ : ByteArray) = text.toByteArray := by
    simp [encode]
  have hread : String.fromUTF8? text.toByteArray = some text := by
    rw [String.fromUTF8?, dif_pos text.isValidUTF8]
    rfl
  simp only [decode, hbytes, hread]

@[simp] theorem encode_append (a b : String) : encode (a ++ b) = encode a ++ encode b := by
  simp [encode]

/-- A text takes as many bytes as its UTF-8 form. -/
theorem length_encode (text : String) : (encode text).length = text.utf8ByteSize := by
  rw [encode, Array.length_toList, ← String.size_toByteArray]
  rfl

end LWorkbench.Utf8
