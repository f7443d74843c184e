import LWorkbench.Proofs.Framing.Streams

/-!
# Cut streams

A stream of messages may be cut anywhere. Messages in front of the cut are read as they are. What is
left of the next one is mostly noticed: the length lacks its digits, the header its end, or the
message some bytes. Two cuts are taken for the end of the stream: inside the name of the length, which
then is a header line like any other, and between the two characters of the last line end of a header,
when the message is empty.

## Main definitions

* `Framing.ofCut` — what is read of the first bytes of a frame

## Main results

* `Framing.messages_take_frame` — a frame that is cut is read so
* `Framing.messages_of_prefix` — what is read of a stream that is cut
-/

namespace LWorkbench

/-! ### Plain texts -/

namespace Utf8

variable {text : String}

/-- Characters of one byte are counted and cut off like their bytes. -/
theorem encode_eq_map (h : ∀ c ∈ text.toList, c.utf8Size = 1) :
    encode text = text.toList.map fun c => c.val.toUInt8 := by
  rw [encode_eq_flatMap, List.map_eq_flatMap]
  exact List.flatMap_congr fun c hc => String.utf8EncodeChar_eq_singleton (h c hc)

theorem length_encode_of_plain (h : ∀ c ∈ text.toList, c.utf8Size = 1) :
    (encode text).length = text.toList.length := by
  rw [encode_eq_map h, List.length_map]

theorem take_encode_of_plain (h : ∀ c ∈ text.toList, c.utf8Size = 1) (n : Nat) :
    (encode text).take n = encode (String.ofList (text.toList.take n)) := by
  have htake : ∀ c ∈ (String.ofList (text.toList.take n)).toList, c.utf8Size = 1 := fun c hc => by
    rw [String.toList_ofList] at hc
    exact h c (List.mem_of_mem_take hc)
  rw [encode_eq_map h, encode_eq_map htake, String.toList_ofList, List.map_take]

end Utf8

namespace Framing

open CharClass (isBlank)
open Utf8 (encode)

/-! ### The parts of a frame -/

/-- The line with the length of a message, without its line feed. -/
def lengthLine (content : String) : String :=
  (Framed.plain content).lengthLine ++ "\r"

section Parts

variable (content : String)

theorem encode_frame : encode (frame content) =
    encode (lengthLine content ++ "\n") ++ (encode ("\r" ++ "\n") ++ encode content) := by
  rw [← Framed.text_plain, ← Utf8.encode_append, ← Utf8.encode_append]
  have htext : (Framed.plain content).text = "" ++ ("" ++ (lengthLine content ++ "\n" ++
      ("" ++ ("\r" ++ "\n" ++ content)))) := rfl
  rw [htext]
  simp only [String.empty_append]

theorem toList_lengthLine : (lengthLine content).toList =
    "Content-Length:".toList ++ ' ' :: (Nat.toDigits 10 content.utf8ByteSize ++ ['\r']) := by
  have hline : lengthLine content =
      "Content-Length" ++ ": " ++ toString content.utf8ByteSize ++ "\r" := rfl
  rw [hline, Nat.toString_eq_ofList_toDigits]
  simp

theorem plain_lengthLine : ∀ c ∈ (lengthLine content).toList, c.utf8Size = 1 := by
  have hname : "Content-Length:".toList.all (·.utf8Size == 1) := by decide
  rw [toList_lengthLine]
  intro c hc
  simp only [List.mem_append, List.mem_cons, List.not_mem_nil, or_false] at hc
  rcases hc with hc | rfl | hc | rfl
  · simpa using List.all_eq_true.1 hname c hc
  · decide
  · have hdigit := Nat.isDigit_of_mem_toDigits (by decide) (by decide) hc
    exact Char.utf8Size_eq_one_iff.2 (show c.toNat ≤ 127 by
      have := toNat_of_isDigit hdigit
      omega)
  · decide

theorem utf8ByteSize_lengthLine : (lengthLine content ++ "\n").utf8ByteSize =
    (lengthLine content).toList.length + 1 := by
  rw [← Utf8.length_encode, Utf8.encode_append, List.length_append,
    Utf8.length_encode_of_plain (plain_lengthLine content)]
  rfl

theorem length_frame : (encode (frame content)).length =
    (lengthLine content).toList.length + 3 + content.utf8ByteSize := by
  rw [encode_frame, List.length_append, List.length_append, Utf8.length_encode (_ ++ "\n"),
    utf8ByteSize_lengthLine, Utf8.length_encode content]
  exact (Nat.add_assoc _ 2 _).symm

theorem lt_length_lengthLine : 16 < (lengthLine content).toList.length := by
  have hname : "Content-Length:".toList.length = 15 := by decide
  rw [toList_lengthLine]
  simp only [List.length_append, List.length_cons, hname]
  omega

theorem oneLine_lengthLine : OneLine (lengthLine content) :=
  (Framed.plain content).oneLine_lengthLine .returnAndLineFeed

theorem ofText_lengthLine : HeaderLine.ofText (lengthLine content ++ "\n") =
    .length (Nat.toDigits 10 content.utf8ByteSize) :=
  (Framed.plain content).ofText_lengthLine_append .returnAndLineFeed

end Parts

/-! ### Cuts -/

/-- What is read of the first `n` bytes of a frame, which are not all of it. -/
def ofCut (content : String) (n : Nat) : List String × Option Error :=
  -- inside the name of the length
  if n < 15 then ([], none)
  -- in front of the digits
  else if n < 17 then ([], some (.invalidLength ""))
  -- up to the end of the line with the length
  else if n ≤ (lengthLine content ++ "\n").utf8ByteSize then ([], some .truncatedHeader)
  else if content = "" then ([""], none)
  else ([], some .truncatedBody)

section Cuts

variable {content : String} {n : Nat}

/-- A line that is shorter than the name of the length does not give one. -/
theorem header?_of_short {line : String} (hline : OneLine line) (hshort : line.toList.length < 15) :
    header? none (encode line) = .ok none := by
  by_cases hne : line = ""
  · rw [hne, Utf8.encode_eq_nil_iff.2 rfl, header?_nil_none]
  have hfirst := firstLine_of_end hline hne
  obtain hsays | hsays : HeaderLine.ofText line = .blank ∨ HeaderLine.ofText line = .other := by
    have hname : ((trim line.toList).take lengthName.length).map Char.toLower ≠ lengthName := by
      intro hname
      have hlength := congrArg List.length hname
      rw [List.length_map, List.length_take] at hlength
      have hlong : lengthName.length = 15 := by decide
      have htrim := length_trim_le line.toList
      omega
    rw [HeaderLine.ofText, if_neg hname]
    split
    · exact .inl rfl
    · exact .inr rfl
  · rw [hfirst.header?_of_blank hsays, header?_nil_none]
  · rw [hfirst.header?_of_other hsays, header?_nil_none]

/-- The beginning of the line with the length. -/
theorem take_frame (hcut : n ≤ (lengthLine content).toList.length) :
    (encode (frame content)).take n =
      encode (String.ofList ((lengthLine content).toList.take n)) := by
  have hplain := plain_lengthLine content
  have hle : n ≤ (encode (lengthLine content)).length := by
    rwa [Utf8.length_encode_of_plain hplain]
  rw [encode_frame, Utf8.encode_append, List.append_assoc, List.take_append_of_le_length hle,
    Utf8.take_encode_of_plain hplain]

/-- Behind the name stands the beginning of the digits. -/
theorem ofText_take_lengthLine (content : String) (count : Nat) :
    HeaderLine.ofText (String.ofList ((lengthLine content).toList.take (15 + count))) =
      .length ((Nat.toDigits 10 content.utf8ByteSize).take (count - 1)) := by
  have hname : "Content-Length:".toList.map Char.toLower = lengthName := by decide
  have hlength : "Content-Length:".toList.length = 15 := by decide
  have htake : (lengthLine content).toList.take (15 + count) = "Content-Length:".toList ++
      (' ' :: (Nat.toDigits 10 content.utf8ByteSize ++ ['\r'])).take count := by
    rw [toList_lengthLine, ← hlength, List.take_append, List.take_of_length_le (Nat.le_add_right ..),
      Nat.add_sub_cancel_left]
  rw [htake, String.ofList_append, String.ofList_toList, HeaderLine.ofText_named hname,
    String.toList_ofList]
  cases count with
  | zero => rfl
  | succ count =>
    have hreturn : ∀ c ∈ ['\r'].take (count - (Nat.toDigits 10 content.utf8ByteSize).length),
        isBlank c := fun c hc => by
      rw [List.mem_singleton.1 (List.mem_of_mem_take hc)]
      decide
    have hdigits : ∀ c ∈ (Nat.toDigits 10 content.utf8ByteSize).take count, isBlank c = false :=
      fun c hc => not_blank_of_isDigit
        (Nat.isDigit_of_mem_toDigits (by decide) (by decide) (List.mem_of_mem_take hc))
    rw [List.take_succ_cons, trim_blank_cons (by decide), List.take_append,
      trim_append_blank _ hreturn, trim_of_not_blank hdigits, Nat.add_sub_cancel]

theorem oneLine_take (content : String) (n : Nat) :
    OneLine (String.ofList ((lengthLine content).toList.take n)) := by
  rw [OneLine, String.toList_ofList]
  exact fun h => oneLine_lengthLine content (List.mem_of_mem_take h)

/-- The line with the length, as far as the stream goes. -/
theorem firstLine_take (hne : n ≠ 0) (hcut : n ≤ (lengthLine content).toList.length) :
    FirstLine ((encode (frame content)).take n)
      (String.ofList ((lengthLine content).toList.take n)) [] := by
  rw [take_frame hcut]
  refine firstLine_of_end (oneLine_take content n) ?_
  · intro hempty
    have hnil := congrArg String.toList hempty
    rw [String.toList_ofList, String.toList_empty, List.take_eq_nil_iff] at hnil
    rcases hnil with hnil | hnil
    · exact hne hnil
    · rw [toList_lengthLine] at hnil
      simp at hnil

/-- The whole line with the length, and what there is behind it. -/
theorem firstLine_frame (hcut : (lengthLine content).toList.length < n) :
    FirstLine ((encode (frame content)).take n) (lengthLine content ++ "\n")
      ((encode ("\r" ++ "\n") ++ encode content).take
        (n - ((lengthLine content).toList.length + 1))) := by
  have hlength : (encode (lengthLine content ++ "\n")).length =
      (lengthLine content).toList.length + 1 := by
    rw [Utf8.length_encode, utf8ByteSize_lengthLine]
  rw [encode_frame, List.take_append, List.take_of_length_le (by omega), hlength]
  exact firstLine_of_oneLine (oneLine_lengthLine content) _

/-- In front of the digits there is no number. -/
theorem header?_of_no_digits (hname : 15 ≤ n) (hdigits : n < 17)
    (hcut : n ≤ (lengthLine content).toList.length) :
    header? none ((encode (frame content)).take n) = .error (.invalidLength "") := by
  obtain ⟨count, rfl⟩ := Nat.exists_eq_add_of_le hname
  have hsays := ofText_take_lengthLine content count
  have hnone : count - 1 = 0 := by omega
  rw [hnone, List.take_zero] at hsays
  exact (firstLine_take (by omega) hcut).header?_of_invalid hsays rfl none

/-- The first digits are a number, but the header does not end. -/
theorem header?_of_digits (hsize : content.utf8ByteSize < 2 ^ 64) (hdigits : 17 ≤ n)
    (hcut : n ≤ (lengthLine content).toList.length + 1) :
    header? none ((encode (frame content)).take n) = .error .truncatedHeader := by
  rcases Nat.lt_or_ge (lengthLine content).toList.length n with hlast | hlast
  · have hend : n - ((lengthLine content).toList.length + 1) = 0 := by omega
    have hfirst := firstLine_frame hlast
    rw [hend, List.take_zero] at hfirst
    rw [hfirst.header?_of_length (ofText_lengthLine content) (length?_toDigits hsize),
      header?_nil_some]
  · obtain ⟨count, rfl⟩ := Nat.exists_eq_add_of_le (Nat.le_trans (by decide : 15 ≤ 17) hdigits)
    obtain ⟨value, hvalue⟩ := length?_take_toDigits hsize (by omega : 0 < count - 1)
    rw [(firstLine_take (by omega) hlast).header?_of_length (ofText_take_lengthLine content count)
      hvalue, header?_nil_some]

/-- Half of the last line end is enough for the header to end. -/
theorem header?_of_end (hsize : content.utf8ByteSize < 2 ^ 64)
    (hcut : (lengthLine content).toList.length + 1 < n) :
    header? none ((encode (frame content)).take n) = .ok (some (content.utf8ByteSize,
      (encode content).take (n - ((lengthLine content).toList.length + 3)))) := by
  have hreturn : IsBlankLine "\r" := ⟨by decide, List.all_eq_true.1 (by decide)⟩
  obtain ⟨count, hcount⟩ := Nat.exists_eq_add_of_lt hcut
  have hback : n - ((lengthLine content).toList.length + 1) = count + 1 := by omega
  have hbody : n - ((lengthLine content).toList.length + 3) = count - 1 := by omega
  rw [(firstLine_frame (by omega)).header?_of_length (ofText_lengthLine content)
    (length?_toDigits hsize), hback, hbody]
  cases count with
  | zero =>
    exact (firstLine_of_end hreturn.oneLine (by decide)).header?_of_end hreturn.ofText _
  | succ count =>
    have htake : (encode ("\r" ++ "\n") ++ encode content).take (count + 1 + 1) =
        encode ("\r" ++ "\n") ++ (encode content).take count := by
      have hlength : (encode ("\r" ++ "\n")).length = 2 := by decide
      rw [List.take_append, List.take_of_length_le (by omega), hlength]
      rfl
    rw [htake]
    exact (firstLine_of_oneLine hreturn.oneLine _).header?_of_end
      ((HeaderLine.ofText_lineFeed _).trans hreturn.ofText) _

theorem next?_of_header?_none {bytes : List UInt8} (h : header? none bytes = .ok none) :
    next? bytes = .ok none := by
  rw [next?, h]

theorem next?_of_header?_error {bytes : List UInt8} {error : Error}
    (h : header? none bytes = .error error) : next? bytes = .error error := by
  rw [next?, h]

theorem next?_of_short_body {bytes rest : List UInt8} {length : Nat}
    (h : header? none bytes = .ok (some (length, rest))) (hshort : rest.length < length) :
    next? bytes = .error .truncatedBody := by
  rw [next?, h]
  exact if_pos hshort

/-- A frame that is cut is read so. -/
theorem messages_take_frame (hsize : content.utf8ByteSize < 2 ^ 64)
    (hcut : n < (encode (frame content)).length) :
    messages ((encode (frame content)).take n) = ofCut content n := by
  have hline := utf8ByteSize_lengthLine content
  have hlong := lt_length_lengthLine content
  -- The cut is inside the name of the length, in front of its digits, behind some of them, or
  -- behind the whole line.
  unfold ofCut
  split
  · rename_i hname
    rw [take_frame (by omega)]
    refine messages_of_end (next?_of_header?_none (header?_of_short ?_ ?_))
    · exact oneLine_take content n
    · rw [String.toList_ofList, List.length_take]
      omega
  split
  · rename_i hname hdigits
    exact messages_of_error (next?_of_header?_error
      (header?_of_no_digits (by omega) hdigits (by omega)))
  split
  · rename_i hname hdigits hend
    exact messages_of_error (next?_of_header?_error
      (header?_of_digits hsize (by omega) (by omega)))
  rename_i hname hdigits hend
  have hheader := header?_of_end hsize (n := n) (by omega)
  split
  · rename_i hempty
    subst hempty
    have hnext : next? ((encode (frame "")).take n) = .ok (some ("", [])) := by
      rw [next?, hheader, Utf8.encode_eq_nil_iff.2 rfl, List.take_nil]
      rfl
    rw [messages_of_next hnext, messages_nil]
  · rename_i hcontent
    have hframe := length_frame content
    have hpos : content.utf8ByteSize ≠ 0 := mt String.utf8ByteSize_eq_zero_iff.1 ‹_›
    refine messages_of_error (next?_of_short_body hheader ?_)
    rw [List.length_take]
    omega

/-- A cut goes unnoticed inside the name of the length, and in front of the very last byte of the
frame of an empty message. -/
theorem ofCut_snd_eq_none_iff (hcut : n < (encode (frame content)).length) :
    (ofCut content n).2 = none ↔
      n < 15 ∨ content = "" ∧ n + 1 = (encode (frame content)).length := by
  have hline := utf8ByteSize_lengthLine content
  have hlong := lt_length_lengthLine content
  have hframe := length_frame content
  unfold ofCut
  split
  · rename_i hname
    exact iff_of_true rfl (.inl hname)
  split
  · exact iff_of_false nofun (by omega)
  split
  · exact iff_of_false nofun (by omega)
  split
  · rename_i hempty
    have hnil := String.utf8ByteSize_eq_zero_iff.2 hempty
    exact iff_of_true rfl (.inr ⟨hempty, by omega⟩)
  · rename_i hname _ _ hcontent
    exact iff_of_false nofun fun h => h.elim hname fun h => hcontent h.1

/-- Nothing but the message itself is read of its frame. -/
theorem ofCut_fst_prefix_singleton (content : String) (n : Nat) : (ofCut content n).1 <+: [content] := by
  unfold ofCut
  split_ifs with _ _ _ hempty
  · exact List.nil_prefix
  · exact List.nil_prefix
  · exact List.nil_prefix
  · subst hempty
    exact List.prefix_rfl
  · exact List.nil_prefix

end Cuts

/-! ### Streams -/

section Streams

variable {contents : List String} {bytes : List UInt8}

/-- A stream that is cut has some whole frames, and may have a beginning of the next one. -/
theorem exists_cut (h : bytes <+: encode (String.join (contents.map frame))) :
    ∃ whole later, contents = whole ++ later ∧
      (bytes = encode (String.join (whole.map frame)) ∨
        ∃ next n, later.head? = some next ∧ 0 < n ∧ n < (encode (frame next)).length ∧
          bytes = encode (String.join (whole.map frame)) ++ (encode (frame next)).take n) := by
  induction contents generalizing bytes with
  | nil => exact ⟨[], [], rfl, .inl (List.prefix_nil.1 h)⟩
  | cons content contents ih =>
    rw [List.map_cons, String.join_cons, Utf8.encode_append] at h
    have hframe := List.prefix_append (encode (frame content))
      (encode (String.join (contents.map frame)))
    rcases Nat.lt_or_ge bytes.length (encode (frame content)).length with hcut | hwhole
    · refine ⟨[], content :: contents, rfl, ?_⟩
      rcases Nat.eq_zero_or_pos bytes.length with hnil | hpos
      · exact .inl (List.length_eq_zero_iff.1 hnil)
      · have htake := List.prefix_iff_eq_take.1 (List.prefix_of_prefix_length_le h hframe hcut.le)
        exact .inr ⟨content, bytes.length, rfl, hpos, hcut, htake⟩
    · obtain ⟨rest, rfl⟩ := List.prefix_of_prefix_length_le hframe h hwhole
      obtain ⟨whole, later, rfl, hbytes⟩ := ih ((List.prefix_append_right_inj _).1 h)
      refine ⟨content :: whole, later, rfl, ?_⟩
      rw [List.map_cons, String.join_cons, Utf8.encode_append]
      rcases hbytes with rfl | ⟨next, n, hnext, hpos, hcut, rfl⟩
      · exact .inl rfl
      · exact .inr ⟨next, n, hnext, hpos, hcut, (List.append_assoc ..).symm⟩

/-- Of a stream that is cut the messages are read whose frames are whole, in order. If it is cut
between two frames, then it ends as it should. Otherwise an error is reported for what there is of the
next frame, unless the cut is inside the name of the length, or in front of the very last byte of the
frame of an empty message: then the stream ends as if nothing was missing, in the second case after
the message. Nothing is read that has not been written. -/
theorem messages_of_prefix (hsize : ∀ content ∈ contents, content.utf8ByteSize < 2 ^ 64)
    (h : bytes <+: encode (String.join (contents.map frame))) :
    (messages bytes).1 <+: contents ∧
    ∃ whole later, contents = whole ++ later ∧
      (bytes = encode (String.join (whole.map frame)) ∧ messages bytes = (whole, none) ∨
        ∃ next n, later.head? = some next ∧ 0 < n ∧ n < (encode (frame next)).length ∧
          bytes = encode (String.join (whole.map frame)) ++ (encode (frame next)).take n ∧
          messages bytes = (whole ++ (ofCut next n).1, (ofCut next n).2) ∧
          ((messages bytes).2 = none ↔
            n < 15 ∨ next = "" ∧ n + 1 = (encode (frame next)).length)) := by
  obtain ⟨whole, later, rfl, hbytes⟩ := exists_cut h
  have hwhole (content) (hcontent : content ∈ whole) : content.utf8ByteSize < 2 ^ 64 :=
    hsize content (List.mem_append_left _ hcontent)
  -- The cut is between two frames, or inside the frame of the next message.
  rcases hbytes with rfl | ⟨next, n, hnext, hpos, hcut, rfl⟩
  · have hread := messages_frames_append whole hwhole []
    rw [List.append_nil, messages_nil, List.append_nil] at hread
    rw [hread]
    exact ⟨List.prefix_append _ _, whole, later, rfl, .inl ⟨rfl, rfl⟩⟩
  · have hlater : next ∈ later := List.mem_of_mem_head? hnext
    have hread := messages_frames_append whole hwhole ((encode (frame next)).take n)
    rw [messages_take_frame (hsize next (List.mem_append_right _ hlater)) hcut] at hread
    refine ⟨?_, whole, later, rfl, .inr ⟨next, n, hnext, hpos, hcut, rfl, hread, ?_⟩⟩
    · rw [hread, List.prefix_append_right_inj]
      obtain ⟨tail, rfl⟩ := List.head?_eq_some_iff.1 hnext
      exact (ofCut_fst_prefix_singleton next n).trans (List.prefix_append [next] tail)
    · rw [hread]
      exact ofCut_snd_eq_none_iff hcut

/-- A cut inside a character. -/
theorem messages_of_prefix_wide :
    messages ((encode (frame "é")).take 22) = ([], some .truncatedBody) := by
  have hprefix : (encode (frame "é")).take 22 <+: encode (String.join (["é"].map frame)) := by
    decide
  obtain ⟨-, whole, later, hcontents, hread⟩ := messages_of_prefix (by decide) hprefix
  rcases hread with ⟨hbytes, -⟩ | ⟨next, n, hnext, -, hcut, hbytes, hread, -⟩
  · -- The cut is between no two frames.
    exfalso
    rcases List.append_eq_singleton_iff.1 hcontents.symm with ⟨rfl, -⟩ | ⟨rfl, -⟩
    · exact absurd hbytes (by decide)
    · exact absurd hbytes (by decide)
  · rcases List.append_eq_singleton_iff.1 hcontents.symm with ⟨rfl, rfl⟩ | ⟨-, rfl⟩
    · obtain rfl : "é" = next := Option.some.inj hnext
      have hlength := congrArg List.length hbytes
      rw [List.length_append, List.length_take, List.length_take, Nat.min_eq_left hcut.le] at hlength
      have hleft : min 22 (encode (frame "é")).length = 22 := by decide
      have hfront : (encode (String.join ([].map frame))).length = 0 := by decide
      obtain rfl : n = 22 := by omega
      rw [hread]
      decide
    · cases hnext

/-- A cut is not always noticed: the first fourteen bytes of a frame are read like the end of the
stream, and an empty message is read without the last byte of its frame. -/
theorem cut_goes_unnoticed :
    (encode "Content-Length" <+: encode (frame "\x7b\x7d") ∧
      messages (encode "Content-Length") = ([], none)) ∧
    encode "Content-Length: 0\r\n\r" <+: encode (frame "") ∧
      encode "Content-Length: 0\r\n\r" ≠ encode (frame "") ∧
      messages (encode "Content-Length: 0\r\n\r") = ([""], none) := by
  have hname : encode "Content-Length" = (encode (frame "\x7b\x7d")).take 14 := by decide
  have hreturn : encode "Content-Length: 0\r\n\r" = (encode (frame "")).take 20 := by decide
  refine ⟨⟨by decide, ?_⟩, by decide, by decide, ?_⟩
  · rw [hname, messages_take_frame (by decide) (by decide)]
    rfl
  · rw [hreturn, messages_take_frame (by decide) (by decide)]
    decide

end Streams

end Framing

end LWorkbench
