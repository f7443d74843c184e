import LWorkbench.Proofs.Framing.Headers

/-!
# Streams of messages

What has been framed is read again, message after message, and after the last one the stream ends as
it should. A message is found by the number of its bytes, so it does not matter what it says, be it
headers or blank lines.

Other writers frame messages in other ways. They may leave blank lines between messages, write more
header lines than the length, write the name of the length in another case, and end lines with a line
feed alone. All of that is read as well.

## Main definitions

* `Framing.IsBlankLine`, `Framing.IsOtherLine` — header lines that do not count
* `Framing.Framed` — a message and how it is framed
* `Framing.Framed.text`, `Framing.Framed.plain` — the frame, and the one that is written here

## Main results

* `Framing.Framed.next?_text` — a framed message is read, and nothing of what comes after it
* `Framing.messages_of_framed` — what has been framed is read again
-/

namespace LWorkbench.Framing

open CharClass (isBlank)
open Utf8 (encode)

/-! ### Lines that do not count -/

/-- A line of nothing but blanks. -/
structure IsBlankLine (line : String) : Prop where
  oneLine : OneLine line
  blank : ∀ c ∈ line.toList, isBlank c

/-- A line that is not blank and does not give a length, in whatever case. -/
structure IsOtherLine (line : String) : Prop where
  oneLine : OneLine line
  not_blank : trim line.toList ≠ []
  not_length : ¬ lengthName <+: (trim line.toList).map Char.toLower

/-- The lines, each with the line feed that ends it. -/
def inLines (lines : List String) : String :=
  String.join (lines.map (· ++ "\n"))

section Lines

variable {line : String} {lines : List String}

theorem isBlank_lineFeed : ∀ c ∈ "\n".toList, isBlank c := List.all_eq_true.1 (by decide)

theorem HeaderLine.ofText_lineFeed (line : String) : ofText (line ++ "\n") = ofText line :=
  ofText_append_blank line isBlank_lineFeed

theorem IsBlankLine.ofText (h : IsBlankLine line) : HeaderLine.ofText line = .blank := by
  have htrim : trim line.toList = [] := by
    have hblank := trim_append_blank [] h.blank
    rwa [List.nil_append] at hblank
  rw [HeaderLine.ofText, htrim]
  rfl

theorem IsOtherLine.ofText (h : IsOtherLine line) : HeaderLine.ofText line = .other := by
  have hname : ((trim line.toList).take lengthName.length).map Char.toLower ≠ lengthName := by
    intro heq
    rw [List.map_take] at heq
    exact h.not_length (List.prefix_iff_eq_take.2 heq.symm)
  rw [HeaderLine.ofText]
  exact (if_neg h.not_blank).trans (if_neg hname)

theorem encode_inLines_cons (line : String) (lines : List String) (rest : List UInt8) :
    encode (inLines (line :: lines)) ++ rest =
      encode (line ++ "\n") ++ (encode (inLines lines) ++ rest) := by
  rw [inLines, List.map_cons, String.join_cons, Utf8.encode_append, List.append_assoc, inLines]

theorem encode_inLines_nil (rest : List UInt8) : encode (inLines []) ++ rest = rest := by
  rw [inLines, List.map_nil, String.join_nil, Utf8.encode_eq_nil_iff.2 rfl, List.nil_append]

theorem header?_blankLines (hlines : ∀ line ∈ lines, IsBlankLine line) (rest : List UInt8) :
    header? none (encode (inLines lines) ++ rest) = header? none rest := by
  induction lines with
  | nil => rw [encode_inLines_nil]
  | cons line lines ih =>
    have hline := hlines line List.mem_cons_self
    rw [encode_inLines_cons, (firstLine_of_oneLine hline.oneLine _).header?_of_blank
      ((HeaderLine.ofText_lineFeed line).trans hline.ofText)]
    exact ih fun l hl => hlines l (List.mem_cons_of_mem _ hl)

theorem header?_otherLines (hlines : ∀ line ∈ lines, IsOtherLine line) (known : Option Nat)
    (rest : List UInt8) : header? known (encode (inLines lines) ++ rest) = header? known rest := by
  induction lines with
  | nil => rw [encode_inLines_nil]
  | cons line lines ih =>
    have hline := hlines line List.mem_cons_self
    rw [encode_inLines_cons, (firstLine_of_oneLine hline.oneLine _).header?_of_other
      ((HeaderLine.ofText_lineFeed line).trans hline.ofText)]
    exact ih fun l hl => hlines l (List.mem_cons_of_mem _ hl)

end Lines

/-! ### Frames -/

/-- How a line ends. -/
inductive LineEnd where
  | lineFeed
  | returnAndLineFeed
  deriving DecidableEq, Repr

/-- What stands in front of the line feed. -/
def LineEnd.front : LineEnd → String
  | lineFeed => ""
  | returnAndLineFeed => "\r"

theorem LineEnd.isBlank_front (ending : LineEnd) : ∀ c ∈ ending.front.toList, isBlank c := by
  cases ending <;> exact List.all_eq_true.1 (by decide)

theorem LineEnd.oneLine_front (ending : LineEnd) : OneLine ending.front := by
  cases ending <;> decide

/-- A message and how it is framed. -/
structure Framed where
  content : String
  /-- The blank lines in front of the header. -/
  blanks : List String
  /-- The header lines in front of the length. -/
  before : List String
  /-- The name of the length. -/
  name : String
  lengthEnd : LineEnd
  /-- The header lines after the length. -/
  after : List String
  /-- The end of the blank line after the header. -/
  headerEnd : LineEnd
  isBlankLine : ∀ line ∈ blanks, IsBlankLine line
  isOtherLine_before : ∀ line ∈ before, IsOtherLine line
  isOtherLine_after : ∀ line ∈ after, IsOtherLine line
  /-- The case of the name does not count. -/
  toLower_name : name.toList.map Char.toLower = "content-length".toList

namespace Framed

/-- The line with the length, without its end. -/
def lengthLine (f : Framed) : String :=
  f.name ++ ": " ++ toString f.content.utf8ByteSize

/-- The message with everything in front of it. -/
def text (f : Framed) : String :=
  inLines f.blanks ++ (inLines f.before ++ (f.lengthLine ++ f.lengthEnd.front ++ "\n" ++
    (inLines f.after ++ (f.headerEnd.front ++ "\n" ++ f.content))))

/-- The message as it is framed here. -/
def plain (content : String) : Framed where
  content := content
  blanks := []
  before := []
  name := "Content-Length"
  lengthEnd := .returnAndLineFeed
  after := []
  headerEnd := .returnAndLineFeed
  isBlankLine := List.forall_mem_nil _
  isOtherLine_before := List.forall_mem_nil _
  isOtherLine_after := List.forall_mem_nil _
  toLower_name := by decide

theorem text_plain (content : String) : (plain content).text = frame content := by
  have hplain : (plain content).text = "" ++ ("" ++ ("Content-Length" ++ ": " ++
      toString content.utf8ByteSize ++ "\r" ++ "\n" ++ ("" ++ ("\r" ++ "\n" ++ content)))) := rfl
  have hframe : frame content = "Content-Length: " ++ toString content.utf8ByteSize ++ "\r\n\r\n" ++
      content := rfl
  have hname : "Content-Length: " = "Content-Length" ++ ": " := by decide
  have hends : "\r\n\r\n" = "\r" ++ ("\n" ++ ("\r" ++ "\n")) := by decide
  rw [hplain, hframe, hname, hends]
  simp only [String.empty_append, String.append_assoc]

variable {f : Framed}

theorem oneLine_name (f : Framed) : OneLine f.name := fun h => by
  have hmem : '\n' ∈ f.name.toList.map Char.toLower := List.mem_map.2 ⟨'\n', h, by decide⟩
  rw [f.toLower_name] at hmem
  exact absurd hmem (by decide)

theorem oneLine_lengthLine (f : Framed) (ending : LineEnd) :
    OneLine (f.lengthLine ++ ending.front) :=
  oneLine_append.2 ⟨oneLine_append.2 ⟨oneLine_append.2 ⟨f.oneLine_name, by decide⟩,
    oneLine_toString _⟩, ending.oneLine_front⟩

/-- The line with the length gives its digits. -/
theorem ofText_lengthLine (f : Framed) : HeaderLine.ofText f.lengthLine =
    .length (Nat.toDigits 10 f.content.utf8ByteSize) := by
  have hname : (f.name ++ ":").toList.map Char.toLower = lengthName := by
    rw [String.toList_append, List.map_append, f.toLower_name]
    decide
  have hline : f.lengthLine = (f.name ++ ":") ++ (" " ++ toString f.content.utf8ByteSize) := by
    have hcolon : ": " = ":" ++ " " := by decide
    rw [lengthLine, hcolon]
    simp only [String.append_assoc]
  have hvalue : (" " ++ toString f.content.utf8ByteSize).toList =
      ' ' :: Nat.toDigits 10 f.content.utf8ByteSize := by
    rw [String.toList_append, Nat.toString_eq_ofList_toDigits]
    exact congrArg (" ".toList ++ ·) String.toList_ofList
  rw [hline, HeaderLine.ofText_named hname, hvalue, trim_blank_cons (by decide),
    trim_of_not_blank fun c hc => not_blank_of_isDigit
      (Nat.isDigit_of_mem_toDigits (by decide) (by decide) hc)]

theorem ofText_lengthLine_append (f : Framed) (ending : LineEnd) :
    HeaderLine.ofText (f.lengthLine ++ ending.front ++ "\n") =
      .length (Nat.toDigits 10 f.content.utf8ByteSize) := by
  rw [HeaderLine.ofText_lineFeed, HeaderLine.ofText_append_blank _ ending.isBlank_front,
    ofText_lengthLine]

/-- A framed message is read, and nothing of what comes after it. -/
theorem next?_text (hsize : f.content.utf8ByteSize < 2 ^ 64) (rest : List UInt8) :
    next? (encode f.text ++ rest) = .ok (some (f.content, rest)) := by
  have hend : IsBlankLine f.headerEnd.front :=
    ⟨f.headerEnd.oneLine_front, f.headerEnd.isBlank_front⟩
  have hheader : header? none (encode f.text ++ rest) =
      .ok (some (f.content.utf8ByteSize, encode f.content ++ rest)) := by
    rw [text]
    simp only [Utf8.encode_append (inLines _), Utf8.encode_append (_ ++ "\n"), List.append_assoc]
    rw [header?_blankLines f.isBlankLine, header?_otherLines f.isOtherLine_before,
      (firstLine_of_oneLine (f.oneLine_lengthLine _) _).header?_of_length
        (f.ofText_lengthLine_append _) (length?_toDigits hsize),
      header?_otherLines f.isOtherLine_after,
      (firstLine_of_oneLine hend.oneLine _).header?_of_end
        ((HeaderLine.ofText_lineFeed _).trans hend.ofText)]
  have hcontent : (encode f.content).length = f.content.utf8ByteSize := Utf8.length_encode _
  rw [next?, hheader]
  dsimp only
  rw [if_neg (by rw [List.length_append]; omega), List.take_left' hcontent, Utf8.decode_encode,
    List.drop_left' hcontent]

end Framed

/-! ### Streams -/

section Streams

variable {bytes rest : List UInt8} {content : String}

theorem messages_eq (bytes : List UInt8) :
    messages bytes =
      match next? bytes with
      | .error error => ([], some error)
      | .ok none => ([], none)
      | .ok (some (content, rest)) => (content :: (messages rest).1, (messages rest).2) := by
  rw [messages]
  split
  all_goals
    rename_i hnext
    rw [hnext]

theorem messages_of_next (h : next? bytes = .ok (some (content, rest))) :
    messages bytes = (content :: (messages rest).1, (messages rest).2) := by
  rw [messages_eq, h]

theorem messages_of_end (h : next? bytes = .ok none) : messages bytes = ([], none) := by
  rw [messages_eq, h]

theorem messages_of_error {error : Error} (h : next? bytes = .error error) :
    messages bytes = ([], some error) := by
  rw [messages_eq, h]

theorem messages_nil : messages [] = ([], none) :=
  messages_of_end (by rw [next?, header?_nil_none])

/-- After framed messages the stream is read as if they had not been there. -/
theorem messages_append (framed : List Framed)
    (hsize : ∀ f ∈ framed, f.content.utf8ByteSize < 2 ^ 64) (rest : List UInt8) :
    messages (encode (String.join (framed.map Framed.text)) ++ rest) =
      (framed.map Framed.content ++ (messages rest).1, (messages rest).2) := by
  induction framed with
  | nil => rw [List.map_nil, String.join_nil, Utf8.encode_eq_nil_iff.2 rfl]; rfl
  | cons f framed ih =>
    rw [List.map_cons, String.join_cons, Utf8.encode_append, List.append_assoc,
      messages_of_next (Framed.next?_text (hsize f List.mem_cons_self) _),
      ih fun g hg => hsize g (List.mem_cons_of_mem _ hg)]
    rfl

theorem text_comp_plain : Framed.text ∘ Framed.plain = frame := funext Framed.text_plain

theorem messages_frames_append (contents : List String)
    (hsize : ∀ content ∈ contents, content.utf8ByteSize < 2 ^ 64) (rest : List UInt8) :
    messages (encode (String.join (contents.map frame)) ++ rest) =
      (contents ++ (messages rest).1, (messages rest).2) := by
  have happend := messages_append (contents.map Framed.plain) (fun f hf => by
    obtain ⟨content, hcontent, rfl⟩ := List.mem_map.1 hf
    exact hsize content hcontent) rest
  have hcontent : Framed.content ∘ Framed.plain = id := rfl
  rwa [List.map_map, List.map_map, text_comp_plain, hcontent, List.map_id] at happend

end Streams

/-- What has been framed is read again, in order, and then the stream ends as it should, whatever
other lines there are and however the lines that count are written. The length of a message fits into
64 bits, like that of every text in memory. -/
theorem messages_of_framed :
    (∀ contents : List String, (∀ content ∈ contents, content.utf8ByteSize < 2 ^ 64) →
      messages (encode (String.join (contents.map frame))) = (contents, none)) ∧
    ∀ framed : List Framed, (∀ f ∈ framed, f.content.utf8ByteSize < 2 ^ 64) →
      messages (encode (String.join (framed.map Framed.text))) =
        (framed.map Framed.content, none) := by
  constructor
  · intro contents hsize
    have hread := messages_frames_append contents hsize []
    rwa [List.append_nil, messages_nil, List.append_nil] at hread
  · intro framed hsize
    have hread := messages_append framed hsize []
    rwa [List.append_nil, messages_nil, List.append_nil] at hread

/-- A message that looks like a header itself, with other lines around its length. -/
def dressed : Framed where
  content := "é\nContent-Length: 9\n\n"
  blanks := ["", " \r"]
  before := ["X: y\r"]
  name := "CONTENT-length"
  lengthEnd := .lineFeed
  after := ["Content-Length 3"]
  headerEnd := .lineFeed
  isBlankLine := by
    rw [List.forall_mem_cons, List.forall_mem_singleton]
    exact ⟨⟨by decide, List.all_eq_true.1 (by decide)⟩, ⟨by decide, List.all_eq_true.1 (by decide)⟩⟩
  isOtherLine_before := List.forall_mem_singleton.2 ⟨by decide, by decide, by decide⟩
  isOtherLine_after := List.forall_mem_singleton.2 ⟨by decide, by decide, by decide⟩
  toLower_name := by decide

theorem messages_of_framed_dressed :
    messages (encode (String.join [frame "\r\n\r\n", frame ""])) = (["\r\n\r\n", ""], none) ∧
    messages (encode ("\n \r\nX: y\r\nCONTENT-length: 22\nContent-Length 3\n\n" ++
      "é\nContent-Length: 9\n\n" ++ "Content-Length: 0\r\n\r\n")) =
      (["é\nContent-Length: 9\n\n", ""], none) := by
  refine ⟨messages_of_framed.1 ["\r\n\r\n", ""] (by decide), ?_⟩
  have hread := messages_of_framed.2 [dressed, .plain ""] (by decide)
  have htext : String.join ([dressed, .plain ""].map Framed.text) =
      "\n \r\nX: y\r\nCONTENT-length: 22\nContent-Length 3\n\n" ++
        "é\nContent-Length: 9\n\n" ++ "Content-Length: 0\r\n\r\n" := by decide
  rwa [htext] at hread

end LWorkbench.Framing
