import LWorkbench.Framing
import LWorkbench.Text.OneLine
import Mathlib

/-!
# Header lines

A header is read line by line. Whatever a line says, it says it in the same way with other blanks
around it, and in particular with either end of a line. A line that starts with the name of the
length gives a length, whatever stands behind the name.

Texts keep their line feeds apart: the byte of a line feed occurs in the form of no other character.
So the first line of a stream is found whatever comes after it.

## Main definitions

* `Framing.FirstLine` — the first line of a stream and what comes after it

## Main results

* `Utf8.lineFeed_mem_encode_iff` — the byte of a line feed stands for a line feed
* `Framing.HeaderLine.ofText_append_blank`, `Framing.HeaderLine.ofText_named` — what a line says
* `Framing.length?_toDigits`, `Framing.length?_take_toDigits` — a written number and its beginnings
  are read as numbers
-/

namespace LWorkbench

/-! ### The bytes of a text -/

namespace Utf8

theorem encode_eq_flatMap (text : String) :
    encode text = text.toList.flatMap String.utf8EncodeChar := by
  rw [encode, ← String.utf8Encode_toList, List.utf8Encode, List.data_toByteArray]

/-- A character of one byte is that byte, and all bytes of others are beyond those. -/
theorem eq_lineFeed_of_mem_utf8EncodeChar {c : Char} (h : 10 ∈ String.utf8EncodeChar c) :
    c = '\n' := by
  have hbyte (n : Nat) (hn : (10 : UInt8) = UInt8.ofNat n) : n % 256 = 10 := by
    simpa using (congrArg UInt8.toNat hn).symm
  rw [String.utf8EncodeChar.eq_1] at h
  split at h
  · have hcode := hbyte _ (List.mem_singleton.1 h)
    exact Char.ext (UInt32.toNat_inj.1 (by rw [Nat.mod_eq_of_lt (by omega)] at hcode; exact hcode))
  · -- No byte of a longer form is below 128.
    have hfar (n : Nat) (hn : 128 ≤ n % 256) : (10 : UInt8) ≠ UInt8.ofNat n := fun h => by
      have := hbyte n h
      omega
    exfalso
    split at h
    · rcases List.mem_pair.1 h with h | h
      · exact hfar _ (by omega) h
      · exact hfar _ (by omega) h
    · split at h
      · simp only [List.mem_cons, List.not_mem_nil, or_false] at h
        rcases h with h | h | h <;> exact hfar _ (by omega) h
      · simp only [List.mem_cons, List.not_mem_nil, or_false] at h
        rcases h with h | h | h | h <;> exact hfar _ (by omega) h

theorem lineFeed_mem_encode_iff {text : String} : 10 ∈ encode text ↔ ¬ OneLine text := by
  rw [OneLine, not_not, encode_eq_flatMap, List.mem_flatMap]
  constructor
  · rintro ⟨c, hc, hbyte⟩
    rwa [eq_lineFeed_of_mem_utf8EncodeChar hbyte] at hc
  · exact fun h => ⟨'\n', h, by decide⟩

theorem encode_eq_nil_iff {text : String} : encode text = [] ↔ text = "" := by
  rw [← List.length_eq_zero_iff, length_encode, String.utf8ByteSize_eq_zero_iff]

end Utf8

namespace Framing

open CharClass (isBlank)

/-! ### Blanks around a line -/

section Trim

variable {chars blanks : List Char}

theorem trim_append_blank (chars : List Char) (hblanks : ∀ c ∈ blanks, isBlank c) :
    trim (chars ++ blanks) = trim chars := by
  have hnone : blanks.dropWhile isBlank = [] := List.dropWhile_eq_nil_iff.2 hblanks
  have hrev : blanks.reverse.dropWhile isBlank = [] :=
    List.dropWhile_eq_nil_iff.2 fun c hc => hblanks c (List.mem_reverse.1 hc)
  unfold trim
  rw [List.dropWhile_append]
  split
  · rename_i hempty
    rw [hnone, List.isEmpty_iff.1 hempty]
  · rw [List.reverse_append, List.dropWhile_append, hrev]
    rfl

theorem dropWhile_of_not_blank (hchars : ∀ c ∈ chars, isBlank c = false) :
    chars.dropWhile isBlank = chars := by
  cases chars with
  | nil => rfl
  | cons c chars => rw [List.dropWhile_cons_of_neg]; simp [hchars c List.mem_cons_self]

/-- Blanks are cut off from what stands behind other characters, but not between the two. -/
theorem trim_append_of_not_blank {name : List Char} (hne : name ≠ [])
    (hname : ∀ c ∈ name, isBlank c = false) (value : List Char) :
    trim (name ++ value) = name ++ value.rdropWhile isBlank := by
  have hrev : name.reverse.dropWhile isBlank = name.reverse :=
    dropWhile_of_not_blank fun c hc => hname c (List.mem_reverse.1 hc)
  have hfront : (name ++ value).dropWhile isBlank = name ++ value := by
    rw [List.dropWhile_append, dropWhile_of_not_blank hname, if_neg (by simpa using hne)]
  rw [trim, hfront, List.reverse_append, List.dropWhile_append, hrev]
  split
  · rename_i hempty
    rw [List.rdropWhile, List.isEmpty_iff.1 hempty, List.reverse_reverse, List.reverse_nil,
      List.append_nil]
  · rw [List.reverse_append, List.reverse_reverse, List.rdropWhile]

theorem trim_of_not_blank (hchars : ∀ c ∈ chars, isBlank c = false) : trim chars = chars := by
  rw [trim, dropWhile_of_not_blank hchars,
    dropWhile_of_not_blank fun c hc => hchars c (List.mem_reverse.1 hc), List.reverse_reverse]

theorem trim_rdropWhile (chars : List Char) : trim (chars.rdropWhile isBlank) = trim chars := by
  have hsplit : chars.rdropWhile isBlank ++ chars.rtakeWhile isBlank = chars :=
    List.rdropWhile_append_rtakeWhile
  have htail : ∀ c ∈ chars.rtakeWhile isBlank, isBlank c := fun c hc => List.mem_rtakeWhile_imp hc
  rw [← trim_append_blank _ htail, hsplit]

theorem trim_blank_cons {c : Char} (hc : isBlank c) (chars : List Char) :
    trim (c :: chars) = trim chars := by
  rw [trim, List.dropWhile_cons, if_pos hc, trim]

theorem length_trim_le (chars : List Char) : (trim chars).length ≤ chars.length := by
  rw [trim, List.length_reverse]
  refine (List.length_dropWhile_le _ _).trans ?_
  rw [List.length_reverse]
  exact List.length_dropWhile_le _ _

end Trim

/-- The name of the length has no blanks, in whatever case. -/
theorem not_blank_of_toLower_mem {c : Char} (h : c.toLower ∈ lengthName) : isBlank c = false := by
  have hlower : lengthName.all (!isBlank ·) := by decide
  unfold Char.toLower at h
  split at h
  · rename_i hupper
    have hcode : 65 ≤ c.toNat ∧ c.toNat ≤ 90 := hupper
    simp [isBlank, CharClass.blanks, Ranges.covers]
    omega
  · simpa using List.all_eq_true.1 hlower c h

theorem toNat_of_isDigit {c : Char} (h : c.isDigit) : 48 ≤ c.toNat ∧ c.toNat ≤ 57 := by
  have hdigit : 48 ≤ c.val ∧ c.val ≤ 57 := by simpa [Char.isDigit] using h
  exact hdigit

theorem not_blank_of_isDigit {c : Char} (h : c.isDigit) : isBlank c = false := by
  have hcode := toNat_of_isDigit h
  simp [isBlank, CharClass.blanks, Ranges.covers]
  omega

namespace HeaderLine

theorem ofText_append_blank (line : String) {blanks : String}
    (hblanks : ∀ c ∈ blanks.toList, isBlank c) : ofText (line ++ blanks) = ofText line := by
  rw [ofText, String.toList_append, trim_append_blank _ hblanks, ofText]

/-- A line that starts with the name of the length gives what stands behind it. -/
theorem ofText_named {name value : String} (hname : name.toList.map Char.toLower = lengthName) :
    ofText (name ++ value) = .length (trim value.toList) := by
  have hlength : name.toList.length = lengthName.length := by rw [← hname, List.length_map]
  have hne : name.toList ≠ [] := fun h => by
    rw [h] at hlength
    exact absurd hlength (by decide)
  have hblank : ∀ c ∈ name.toList, isBlank c = false := fun c hc =>
    not_blank_of_toLower_mem (hname ▸ List.mem_map_of_mem hc)
  rw [ofText, String.toList_append, trim_append_of_not_blank hne hblank, if_neg (by simp [hne]), List.take_left' hlength, if_pos hname, List.drop_left' hlength,
    trim_rdropWhile]

end HeaderLine

/-! ### Numbers -/

section Numbers

variable {digits : List Char} {n : Nat}

theorem length?_of_digits (hne : digits ≠ []) (hdigits : ∀ c ∈ digits, c.isDigit)
    (hlt : Nat.ofDigitChars 10 digits 0 < 2 ^ 64) :
    length? digits = some (Nat.ofDigitChars 10 digits 0) := by
  have hsign : digits.head? ≠ some '+' := fun h =>
    absurd (hdigits _ (List.mem_of_mem_head? h)) (by decide)
  unfold length?
  rw [if_neg hsign, if_neg (by simpa [hne] using hdigits), ← Nat.ofDigitChars_eq_foldl]
  exact if_pos hlt

theorem length?_toDigits (h : n < 2 ^ 64) : length? (Nat.toDigits 10 n) = some n := by
  have hvalue := Nat.ofDigitChars_ten_toDigits (n := n)
  have hread := length?_of_digits Nat.toDigits_ne_nil
    (fun c hc => Nat.isDigit_of_mem_toDigits (by decide) (by decide) hc) (hvalue ▸ h)
  rwa [hvalue] at hread

/-- The first digits of a number make a number that is not larger. -/
theorem length?_take_toDigits (h : n < 2 ^ 64) {count : Nat} (hcount : 0 < count) :
    ∃ value, length? ((Nat.toDigits 10 n).take count) = some value := by
  have hle : Nat.ofDigitChars 10 ((Nat.toDigits 10 n).take count) 0 ≤ n := by
    calc Nat.ofDigitChars 10 ((Nat.toDigits 10 n).take count) 0
        ≤ 10 ^ ((Nat.toDigits 10 n).drop count).length *
            Nat.ofDigitChars 10 ((Nat.toDigits 10 n).take count) 0 :=
          Nat.le_mul_of_pos_left _ (Nat.pow_pos (by decide))
      _ ≤ Nat.ofDigitChars 10 ((Nat.toDigits 10 n).drop count)
            (Nat.ofDigitChars 10 ((Nat.toDigits 10 n).take count) 0) := by
          rw [Nat.ofDigitChars_eq_ofDigitChars_zero (l := (Nat.toDigits 10 n).drop count)]
          exact Nat.le_add_right ..
      _ = n := by rw [← Nat.ofDigitChars_append, List.take_append_drop, Nat.ofDigitChars_ten_toDigits]
  refine ⟨_, length?_of_digits ?_ (fun c hc => ?_) (hle.trans_lt h)⟩
  · simp [List.take_eq_nil_iff, Nat.toDigits_ne_nil, hcount.ne']
  · exact Nat.isDigit_of_mem_toDigits (by decide) (by decide) (List.mem_of_mem_take hc)

end Numbers

/-! ### The first line -/

/-- The stream begins with the line, and after it comes `rest`. -/
def FirstLine (bytes : List UInt8) (line : String) (rest : List UInt8) : Prop :=
  bytes ≠ [] ∧ splitLine bytes = (Utf8.encode line, rest)

section FirstLine

variable {line : String} {bytes rest : List UInt8} {known : Option Nat} {length : Nat}
  {value : List Char}

theorem splitLine_of_not_mem (h : 10 ∉ bytes) : splitLine bytes = (bytes, []) := by
  have hnone : bytes.dropWhile (· != 10) = [] :=
    List.dropWhile_eq_nil_iff.2 fun b hb => by simpa using fun heq : b = 10 => h (heq ▸ hb)
  rw [splitLine, hnone]

/-- A complete line ends with its line feed. -/
theorem firstLine_of_oneLine (hline : OneLine line) (rest : List UInt8) :
    FirstLine (Utf8.encode (line ++ "\n") ++ rest) (line ++ "\n") rest := by
  have hfeed : Utf8.encode "\n" = [10] := by decide
  have hplain : ∀ b ∈ Utf8.encode line, (b != 10) = true := fun b hb => by
    rw [bne_iff_ne]
    rintro rfl
    exact Utf8.lineFeed_mem_encode_iff.1 hb hline
  have hdrop : (Utf8.encode line ++ 10 :: rest).dropWhile (· != 10) = 10 :: rest := by
    rw [List.dropWhile_append_of_pos hplain, List.dropWhile_cons_of_neg (by decide)]
  have htake : (Utf8.encode line ++ 10 :: rest).takeWhile (· != 10) = Utf8.encode line := by
    rw [List.takeWhile_append_of_pos hplain, List.takeWhile_cons_of_neg (by decide), List.append_nil]
  have hbytes : Utf8.encode (line ++ "\n") ++ rest = Utf8.encode line ++ 10 :: rest := by
    rw [Utf8.encode_append, hfeed, List.append_assoc, List.singleton_append]
  refine ⟨?_, ?_⟩
  · rw [hbytes]
    exact List.append_ne_nil_of_right_ne_nil _ (List.cons_ne_nil _ _)
  · rw [hbytes, splitLine, hdrop, htake, Utf8.encode_append, hfeed]

/-- The last line of a stream may lack its line feed. -/
theorem firstLine_of_end (hline : OneLine line) (hne : line ≠ "") :
    FirstLine (Utf8.encode line) line [] :=
  ⟨mt Utf8.encode_eq_nil_iff.1 hne,
    splitLine_of_not_mem fun h => Utf8.lineFeed_mem_encode_iff.1 h hline⟩

/-- The first line is a text, and what comes next depends on what it says. -/
theorem FirstLine.header?_eq (h : FirstLine bytes line rest) (known : Option Nat) :
    header? known bytes =
      match HeaderLine.ofText line, known with
      | .blank, some length => .ok (some (length, rest))
      | .blank, none => header? none rest
      | .other, known => header? known rest
      | .length value, _ =>
        match length? value with
        | some length => header? (some length) rest
        | none => .error (.invalidLength (String.ofList value)) := by
  have hstep := header?.eq_def known bytes
  rw [dif_neg h.1, h.2] at hstep
  dsimp only at hstep
  rw [Utf8.decode_encode] at hstep
  exact hstep

theorem FirstLine.header?_of_other (h : FirstLine bytes line rest)
    (hline : HeaderLine.ofText line = .other) (known : Option Nat) :
    header? known bytes = header? known rest := by
  rw [h.header?_eq, hline]

theorem FirstLine.header?_of_blank (h : FirstLine bytes line rest)
    (hline : HeaderLine.ofText line = .blank) : header? none bytes = header? none rest := by
  rw [h.header?_eq, hline]

theorem FirstLine.header?_of_end (h : FirstLine bytes line rest)
    (hline : HeaderLine.ofText line = .blank) (length : Nat) :
    header? (some length) bytes = .ok (some (length, rest)) := by
  rw [h.header?_eq, hline]

theorem FirstLine.header?_of_length (h : FirstLine bytes line rest)
    (hline : HeaderLine.ofText line = .length value) (hvalue : length? value = some length)
    (known : Option Nat) : header? known bytes = header? (some length) rest := by
  rw [h.header?_eq, hline]
  dsimp only
  rw [hvalue]

theorem FirstLine.header?_of_invalid (h : FirstLine bytes line rest)
    (hline : HeaderLine.ofText line = .length value) (hvalue : length? value = none)
    (known : Option Nat) : header? known bytes = .error (.invalidLength (String.ofList value)) := by
  rw [h.header?_eq, hline]
  dsimp only
  rw [hvalue]

theorem header?_nil_none : header? none [] = .ok none := by
  rw [header?, dif_pos rfl]
  rfl

theorem header?_nil_some (length : Nat) : header? (some length) [] = .error .truncatedHeader := by
  rw [header?, dif_pos rfl]
  rfl

end FirstLine

end Framing

end LWorkbench
