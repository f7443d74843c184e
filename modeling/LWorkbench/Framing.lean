import LWorkbench.Text.CharClass
import LWorkbench.Text.Utf8

/-!
# Framed messages

A stream of bytes carries messages one after another. In front of each stand header lines, of which
one gives the number of bytes of the message, and a blank line:

    Content-Length: 17

Reading is lenient about the header: names may be in any case, blanks around names and values do not
count, other header lines are skipped, and of several lengths the last one counts. Blank lines
between messages are skipped too. A stream may only end between messages.

## Main definitions

* `Framing.Error` — what can be wrong with a stream
* `Framing.frame` — a message with its header
* `Framing.HeaderLine.ofText` — what a header line means
* `Framing.next?` — the first message of a stream and what comes after it
* `Framing.messages` — all messages up to the end or the first error

## Main results

* `Framing.length_next?_lt` — reading a message makes the stream shorter
-/

namespace LWorkbench.Framing

/-- What can be wrong with a stream of messages. -/
inductive Error where
  /-- The stream ends after a length and before the blank line. -/
  | truncatedHeader
  /-- The length is not a whole number that fits into 64 bits. -/
  | invalidLength (value : String)
  /-- The stream ends before the message does. -/
  | truncatedBody
  /-- A header line or a message is not a text. -/
  | encoding (error : Utf8.Error)
  deriving DecidableEq, Repr

/-- The text of an error. -/
def Error.message : Error → String
  | truncatedHeader => "unexpected end of stream inside message headers"
  | invalidLength value => s!"invalid Content-Length '{value}'"
  | truncatedBody => "early eof"
  | encoding error => error.message

/-- A message with its header. -/
def frame (content : String) : String :=
  s!"Content-Length: {content.utf8ByteSize}\r\n\r\n" ++ content

/-! ### Header lines -/

/-- The characters without the blanks at both ends. -/
def trim (chars : List Char) : List Char :=
  ((chars.dropWhile CharClass.isBlank).reverse.dropWhile CharClass.isBlank).reverse

/-- The whole number written in decimal digits, if it fits into 64 bits. A plus sign may stand in
front. -/
def length? (chars : List Char) : Option Nat :=
  let digits := if chars.head? = some '+' then chars.tail else chars
  if digits = [] || !digits.all Char.isDigit then none
  else
    let value := digits.foldl (fun n c => 10 * n + (c.toNat - '0'.toNat)) 0
    if value < Nat.pow 2 64 then some value else none

/-- The name in front of the length of a message, in lower case. -/
def lengthName : List Char := "content-length:".toList

/-- What a header line means. -/
inductive HeaderLine where
  | blank
  /-- The line gives a length, written as `value`. -/
  | length (value : List Char)
  | other
  deriving DecidableEq, Repr

/-- The meaning of the text of a header line. -/
def HeaderLine.ofText (text : String) : HeaderLine :=
  let line := trim text.toList
  if line = [] then .blank
  else if (line.take lengthName.length).map Char.toLower = lengthName then
    .length (trim (line.drop lengthName.length))
  else .other

/-! ### Reading -/

/-- The first line of a stream with the line feed that ends it, and what comes after it. -/
def splitLine (bytes : List UInt8) : List UInt8 × List UInt8 :=
  match bytes.dropWhile (· != 10) with
  | lineFeed :: rest => (bytes.takeWhile (· != 10) ++ [lineFeed], rest)
  | [] => (bytes, [])

theorem splitLine_append (bytes : List UInt8) :
    (splitLine bytes).1 ++ (splitLine bytes).2 = bytes := by
  have hsplit := List.takeWhile_append_dropWhile (p := (· != 10)) (l := bytes)
  unfold splitLine
  split
  · rename_i lineFeed rest heq
    rw [heq] at hsplit
    simpa using hsplit
  · simp

theorem length_splitLine_lt {bytes : List UInt8} (h : bytes ≠ []) :
    (splitLine bytes).2.length < bytes.length := by
  have hpos : (splitLine bytes).1 ≠ [] := by
    unfold splitLine
    split <;> simp [h]
  have hlength := congrArg List.length (splitLine_append bytes)
  rw [List.length_append] at hlength
  have := List.length_pos_iff.2 hpos
  omega

/-- Reads header lines up to the blank line after a length. Gives the length and what comes after
the header; nothing when the stream ends without a length. `known` is the length found so far. -/
def header? (known : Option Nat) (bytes : List UInt8) : Except Error (Option (Nat × List UInt8)) :=
  if _hend : bytes = [] then
    if known.isSome then .error .truncatedHeader else .ok none
  else
    let rest := (splitLine bytes).2
    match Utf8.decode (splitLine bytes).1 with
    | .error error => .error (.encoding error)
    | .ok line =>
      match HeaderLine.ofText line, known with
      | .blank, some length => .ok (some (length, rest))
      | .blank, none => header? none rest
      | .other, known => header? known rest
      | .length value, _ =>
        match length? value with
        | some length => header? (some length) rest
        | none => .error (.invalidLength (String.ofList value))
termination_by bytes.length
decreasing_by all_goals exact length_splitLine_lt _hend

/-- The first message of a stream and what comes after it; nothing at the end of the stream. -/
def next? (bytes : List UInt8) : Except Error (Option (String × List UInt8)) :=
  match header? none bytes with
  | .error error => .error error
  | .ok none => .ok none
  | .ok (some (length, rest)) =>
    if rest.length < length then .error .truncatedBody
    else
      match Utf8.decode (rest.take length) with
      | .ok content => .ok (some (content, rest.drop length))
      | .error error => .error (.encoding error)

theorem length_header?_lt {known : Option Nat} {bytes rest : List UInt8} {length : Nat}
    (h : header? known bytes = .ok (some (length, rest))) : rest.length < bytes.length := by
  fun_induction header? known bytes with
  | case1 | case2 | case3 | case8 => simp at h
  | case4 =>
    simp only [Except.ok.injEq, Option.some.injEq, Prod.mk.injEq] at h
    exact h.2 ▸ length_splitLine_lt ‹_›
  | case5 | case6 | case7 =>
    rename_i ih
    exact Nat.lt_trans (ih h) (length_splitLine_lt ‹_›)

/-- Reading a message makes the stream shorter. -/
theorem length_next?_lt {bytes rest : List UInt8} {content : String}
    (h : next? bytes = .ok (some (content, rest))) : rest.length < bytes.length := by
  unfold next? at h
  split at h
  · simp at h
  · simp at h
  · rename_i length body hheader
    split at h
    · simp at h
    · split at h
      · simp only [Except.ok.injEq, Option.some.injEq, Prod.mk.injEq] at h
        have := length_header?_lt hheader
        rw [← h.2, List.length_drop]
        omega
      · simp at h

/-- The messages of a stream in order, and the error that ends them, if any. -/
def messages (bytes : List UInt8) : List String × Option Error :=
  match _hnext : next? bytes with
  | .error error => ([], some error)
  | .ok none => ([], none)
  | .ok (some (content, rest)) =>
    let (contents, error) := messages rest
    (content :: contents, error)
termination_by bytes.length
decreasing_by exact length_next?_lt _hnext

end LWorkbench.Framing
