import LWorkbench.Proofs.Editor.Carets

/-!
# Lines and columns

A text is a row of lines, each with the break that ends it, and the last one without a break. A caret
on one of them stands behind as many of its characters as fit in front of its column. A line of ASCII
characters alone has as many columns as characters, so that there the column says how many; on any
other line the characters are walked through.

Carets are in the order of the places they stand for, and the caret of a place leads back to it.

## Main definitions

* `lines` — the lines of a text
* `utf16Length` — the number of UTF-16 units of characters
* `fitting` — how many characters of a line fit in front of a column

## Main results

* `length_lines` — there are as many lines as `lineCount` says
* `Caret.index_eq` — the index of a caret on a line
* `Caret.conversions_agree` — carets and offsets are converted into each other
-/

namespace LWorkbench

/-! ### Widths -/

/-- The number of UTF-16 units of characters. -/
def utf16Length (chars : List Char) : Nat :=
  chars.foldr (fun c total => utf16Width c + total) 0

@[simp] theorem utf16Length_nil : utf16Length [] = 0 := rfl

@[simp] theorem utf16Length_cons (c : Char) (chars : List Char) :
    utf16Length (c :: chars) = utf16Width c + utf16Length chars := rfl

@[simp] theorem utf16Length_append (xs ys : List Char) :
    utf16Length (xs ++ ys) = utf16Length xs + utf16Length ys := by
  induction xs with
  | nil => simp
  | cons c xs ih =>
    rw [List.cons_append, utf16Length_cons, utf16Length_cons, ih]
    omega

/-- A character takes at least as many bytes as units. -/
theorem utf16Width_le_utf8Size (c : Char) : utf16Width c ≤ c.utf8Size := by
  have hpos := c.utf8Size_pos
  unfold utf16Width
  split
  · exact hpos
  · rename_i hwide
    have hbytes : c.utf8Size ≠ 1 := fun h => by
      have hcode : c.toNat ≤ 127 := Char.utf8Size_eq_one_iff.1 h
      omega
    omega

theorem utf16Length_le_utf8Length (chars : List Char) : utf16Length chars ≤ utf8Length chars := by
  induction chars with
  | nil => exact Nat.le_refl _
  | cons c chars ih =>
    rw [utf16Length_cons, utf8Length_cons]
    exact Nat.add_le_add (utf16Width_le_utf8Size c) ih

theorem utf16Length_of_ascii {chars : List Char} (h : ∀ c ∈ chars, c.toNat < 128) :
    utf16Length chars = chars.length := by
  induction chars with
  | nil => rfl
  | cons c chars ih =>
    obtain ⟨hc, hchars⟩ := List.forall_mem_cons.1 h
    have hwidth : utf16Width c = 1 := if_pos (by omega)
    rw [utf16Length_cons, ih hchars, hwidth, List.length_cons, Nat.add_comm]

/-! ### Lines -/

/-- The lines of a text with their breaks. The last one has none, and may be empty. -/
def lines : List Char → List (List Char)
  | [] => [[]]
  | c :: rest =>
    if endsLine c rest.head? then [c] :: lines rest else (lines rest).modifyHead (c :: ·)

/-- No line ends among the characters, where `after` stands behind them. -/
def Unbroken : (part after : List Char) → Prop
  | [], _ => True
  | c :: part, after => endsLine c (part ++ after).head? = false ∧ Unbroken part after

/-- The characters end with the break of their line, where `behind` comes after it. -/
def Ended (line behind : List Char) : Prop :=
  ∃ part c, line = part ++ [c] ∧ Unbroken part (c :: behind) ∧ endsLine c behind.head?

section Lines

variable {chars part after line behind : List Char} {number column : Nat}

theorem lines_ne_nil (chars : List Char) : lines chars ≠ [] := by
  induction chars with
  | nil => exact List.cons_ne_nil _ _
  | cons c rest ih =>
    rw [lines]
    split
    · exact List.cons_ne_nil _ _
    · rwa [Ne, List.modifyHead_eq_nil_iff]

theorem Unbroken.take {part' : List Char} (h : Unbroken (part ++ part') after) :
    Unbroken part (part' ++ after) := by
  induction part with
  | nil => trivial
  | cons c part ih =>
    obtain ⟨hc, hpart⟩ := h
    exact ⟨(congrArg (fun l => endsLine c (List.head? l)) (List.append_assoc ..)).symm.trans hc,
      ih hpart⟩

theorem Unbroken.read (h : Unbroken part after) (number column : Nat) :
    (⟨number, column⟩ : Caret).read part after = ⟨number, column + utf16Length part⟩ := by
  induction part generalizing column with
  | nil => rfl
  | cons c part ih =>
    obtain ⟨hc, hpart⟩ := h
    rw [Caret.read, Caret.after, hc, if_neg Bool.false_ne_true, ih hpart, utf16Length_cons,
      Nat.add_assoc]

theorem Ended.read (h : Ended line behind) (number column : Nat) :
    (⟨number, column⟩ : Caret).read line behind = ⟨number + 1, 0⟩ := by
  obtain ⟨part, c, rfl, hpart, hend⟩ := h
  rw [Caret.read_append]
  refine (congrArg (Caret.read · [c] behind) (hpart.read number column)).trans ?_
  exact if_pos hend

theorem Ended.cons {c : Char} (h : Ended line behind) (hc : endsLine c (line ++ behind).head? = false) :
    Ended (c :: line) behind := by
  obtain ⟨part, d, rfl, hpart, hend⟩ := h
  rw [List.append_assoc] at hc
  exact ⟨c :: part, d, rfl, ⟨hc, hpart⟩, hend⟩

/-- A text is one line, or begins with a line that ends. -/
theorem lines_cases (chars : List Char) :
    (Unbroken chars [] ∧ lines chars = [chars]) ∨
      ∃ line behind, chars = line ++ behind ∧ Ended line behind ∧
        lines chars = line :: lines behind := by
  induction chars with
  | nil => exact .inl ⟨trivial, rfl⟩
  | cons c rest ih =>
    by_cases hc : endsLine c rest.head? = true
    · exact .inr ⟨[c], rest, rfl, ⟨[], c, rfl, trivial, hc⟩, by rw [lines, if_pos hc]⟩
    have hlines : lines (c :: rest) = (lines rest).modifyHead (c :: ·) := by rw [lines, if_neg hc]
    rw [Bool.not_eq_true] at hc
    rcases ih with ⟨hrest, heq⟩ | ⟨line, behind, rfl, hline, heq⟩
    · refine .inl ⟨⟨?_, hrest⟩, by rw [hlines, heq]; rfl⟩
      rwa [List.append_nil]
    · exact .inr ⟨c :: line, behind, rfl, hline.cons hc, by rw [hlines, heq]; rfl⟩

theorem flatten_lines (chars : List Char) : (lines chars).flatten = chars := by
  induction chars with
  | nil => rfl
  | cons c rest ih =>
    rw [lines]
    split
    · rw [List.flatten_cons, ih, List.singleton_append]
    · obtain ⟨line, later, heq⟩ := List.exists_cons_of_ne_nil (lines_ne_nil rest)
      rw [heq, List.flatten_cons] at ih
      rw [heq, List.modifyHead_cons, List.flatten_cons, List.cons_append, ih]

/-- Every line but the last one is left by reading it. -/
theorem line_read (chars : List Char) (number column : Nat) :
    ((⟨number, column⟩ : Caret).read chars []).line + 1 = number + (lines chars).length := by
  induction chars generalizing number column with
  | nil => rfl
  | cons c rest ih =>
    rw [Caret.read, Caret.after, List.append_nil, lines]
    split
    · rw [ih, List.length_cons, Nat.add_assoc, Nat.add_comm 1]
    · rw [ih, List.length_modifyHead]

/-- There are as many lines as are counted. -/
theorem length_lines (text : String) : (lines text.toList).length = lineCount text := by
  have hread := line_read text.toList 0 0
  rw [lineCount, Caret.ofOffset_eq (List.append_nil _).symm]
  exact (hread.trans (Nat.zero_add _)).symm

/-- A line of a text, with what stands in front of it and what comes after it. Reading what stands in
front of it leads to its beginning. It ends with its break, or with the text. -/
structure LineAt (chars : List Char) (number : Nat) (front line behind : List Char) : Prop where
  parts : chars = front ++ (line ++ behind)
  front_eq : front = ((lines chars).take number).flatten
  behind_eq : behind = ((lines chars).drop (number + 1)).flatten
  read_front : ∀ start, (⟨start, 0⟩ : Caret).read front (line ++ behind) = ⟨start + number, 0⟩
  ends : Ended line behind ∧ number + 1 < (lines chars).length ∨
    Unbroken line [] ∧ behind = [] ∧ number + 1 = (lines chars).length

theorem exists_lineAt (h : (lines chars)[number]? = some line) :
    ∃ front behind, LineAt chars number front line behind := by
  -- A line is the first one, or it is a line of what stands behind the first one.
  induction number generalizing chars with
  | zero =>
    rcases lines_cases chars with ⟨hchars, heq⟩ | ⟨first, behind, rfl, hfirst, heq⟩
    · rw [heq] at h
      obtain rfl : chars = line := Option.some.inj h
      exact ⟨[], [], (List.append_nil _).symm, by rw [heq]; rfl, by rw [heq]; rfl, fun _ => rfl,
        .inr ⟨hchars, rfl, by rw [heq]; rfl⟩⟩
    · rw [heq] at h
      obtain rfl : first = line := Option.some.inj h
      refine ⟨[], behind, rfl, rfl, ?_, fun _ => rfl, .inl ⟨hfirst, ?_⟩⟩
      · rw [heq]
        exact (flatten_lines behind).symm
      · rw [heq]
        exact Nat.succ_lt_succ (List.length_pos_iff.2 (lines_ne_nil behind))
  | succ number ih =>
    rcases lines_cases chars with ⟨-, heq⟩ | ⟨first, behind, rfl, hfirst, heq⟩
    · rw [heq] at h
      cases h
    · rw [heq] at h
      obtain ⟨front, behind', hline⟩ := ih h
      refine ⟨first ++ front, behind', ?_, ?_, ?_, fun start => ?_, ?_⟩
      · rw [List.append_assoc, ← hline.parts]
      · rw [heq, List.take_succ_cons, List.flatten_cons, ← hline.front_eq]
      · rw [heq, List.drop_succ_cons, ← hline.behind_eq]
      · rw [Caret.read_append, ← hline.parts, hfirst.read, hline.read_front, Nat.add_right_comm,
          Nat.add_assoc]
      · rw [heq, List.length_cons]
        exact hline.ends.imp (And.imp_right Nat.succ_lt_succ)
          (And.imp_right (And.imp_right (congrArg Nat.succ)))

end Lines

/-! ### Columns -/

/-- How many of the characters fit in front of a column. -/
def fitting (column : Nat) : List Char → Nat
  | [] => 0
  | c :: rest => if column < utf16Width c then 0 else fitting (column - utf16Width c) rest + 1

/-- Walks over a line as long as its characters fit in front of the column, where `count` characters
of `seen` units are behind. -/
def walk (column : Nat) : List Char → (seen count : Nat) → Nat
  | [], _, count => count
  | c :: rest, seen, count =>
    if column < seen + utf16Width c then count
    else if seen + utf16Width c = column then count + 1
    else walk column rest (seen + utf16Width c) (count + 1)

section Columns

variable {line : List Char} {column k : Nat}

theorem fitting_le_length (column : Nat) (line : List Char) : fitting column line ≤ line.length := by
  fun_induction fitting column line with
  | case1 => exact Nat.le_refl _
  | case2 => exact Nat.zero_le _
  | case3 column c rest hc ih => exact Nat.succ_le_succ ih

theorem fitting_zero (line : List Char) : fitting 0 line = 0 := by
  cases line with
  | nil => rfl
  | cons c rest => exact if_pos (utf16Width_pos c)

/-- What fits is not wider than the column. -/
theorem utf16Length_take_fitting (column : Nat) (line : List Char) :
    utf16Length (line.take (fitting column line)) ≤ column := by
  fun_induction fitting column line with
  | case1 => exact Nat.zero_le _
  | case2 => exact Nat.zero_le _
  | case3 column c rest hc ih =>
    rw [List.take_succ_cons, utf16Length_cons]
    omega

/-- Whatever is not wider than the column fits. -/
theorem le_fitting (hk : k ≤ line.length) (hfits : utf16Length (line.take k) ≤ column) :
    k ≤ fitting column line := by
  fun_induction fitting column line generalizing k with
  | case1 => exact hk
  | case2 column c rest hc =>
    cases k with
    | zero => exact Nat.le_refl _
    | succ k =>
      rw [List.take_succ_cons, utf16Length_cons] at hfits
      omega
  | case3 column c rest hc ih =>
    cases k with
    | zero => exact Nat.zero_le _
    | succ k =>
      rw [List.take_succ_cons, utf16Length_cons] at hfits
      exact Nat.succ_le_succ (ih (Nat.le_of_succ_le_succ hk) (by omega))

theorem fitting_eq_length_iff : fitting column line = line.length ↔ utf16Length line ≤ column := by
  constructor
  · intro h
    have hfits := utf16Length_take_fitting column line
    rwa [h, List.take_length] at hfits
  · intro h
    refine Nat.le_antisymm (fitting_le_length column line) (le_fitting (Nat.le_refl _) ?_)
    rwa [List.take_length]

/-- On a line of ASCII characters the column counts characters. -/
theorem fitting_of_ascii (h : ∀ c ∈ line, c.toNat < 128) :
    fitting column line = min column line.length := by
  have htake (k : Nat) : utf16Length (line.take k) = min k line.length := by
    rw [utf16Length_of_ascii fun c hc => h c (List.mem_of_mem_take hc), List.length_take]
  have hfits := utf16Length_take_fitting column line
  have hle := fitting_le_length column line
  have hmost : min column line.length ≤ fitting column line :=
    le_fitting (Nat.min_le_right ..) (by rw [htake]; omega)
  rw [htake] at hfits
  omega

theorem walk_eq (column : Nat) (line : List Char) (seen count : Nat) (hseen : seen ≤ column) :
    walk column line seen count = count + fitting (column - seen) line := by
  fun_induction walk column line seen count with
  | case1 => rfl
  | case2 c rest seen count hc => rw [fitting, if_pos (by omega), Nat.add_zero]
  | case3 c rest seen count hc hall =>
    have hnone : column - seen - utf16Width c = 0 := by omega
    rw [fitting, if_neg (by omega), hnone, fitting_zero]
  | case4 c rest seen count hc hall ih =>
    rw [fitting, if_neg (by omega), ih (by omega), Nat.sub_sub]
    omega

/-- The next character does not fit. -/
theorem lt_of_drop_fitting {c : Char} {rest : List Char}
    (h : line.drop (fitting column line) = c :: rest) :
    column < utf16Length (line.take (fitting column line)) + utf16Width c := by
  have hlength := congrArg List.length h
  rw [List.length_drop, List.length_cons] at hlength
  by_contra hle
  have htake : line.take (fitting column line + 1) = line.take (fitting column line) ++ [c] := by
    rw [List.take_add, h, List.take_one]
    rfl
  have hnext : fitting column line + 1 ≤ fitting column line := by
    refine le_fitting (by omega) ?_
    rw [htake, utf16Length_append, utf16Length_cons, utf16Length_nil]
    omega
  omega

end Columns

/-! ### From carets to places -/

namespace Caret

section Index

variable {chars front line behind : List Char} {number k : Nat}

/-- A line is not left in front of its last character, and the last line is not left at all. -/
theorem read_take (h : LineAt chars number front line behind)
    (hk : k < line.length ∨ number + 1 = (lines chars).length) :
    origin.read (front ++ line.take k) (line.drop k ++ behind) =
      ⟨number, utf16Length (line.take k)⟩ := by
  have hunbroken : Unbroken (line.take k) (line.drop k ++ behind) := by
    rcases h.ends with ⟨⟨part, c, rfl, hpart, -⟩, hnumber⟩ | ⟨hline, rfl, -⟩
    · have hle : k ≤ part.length := by
        rw [List.length_append, List.length_singleton] at hk
        omega
      rw [List.take_append_of_le_length hle, List.drop_append_of_le_length hle, List.append_assoc]
      rw [← List.take_append_drop k part] at hpart
      exact hpart.take
    · rw [← List.take_append_drop k line] at hline
      exact hline.take
  have hfront := h.read_front 0
  rw [Nat.zero_add] at hfront
  rw [read_append, ← List.append_assoc, List.take_append_drop]
  refine (congrArg (read · _ _) hfront).trans ?_
  rw [hunbroken.read, Nat.zero_add]

/-- Reading a line with its break leads to the next line. -/
theorem read_line (h : LineAt chars number front line behind)
    (hnumber : number + 1 < (lines chars).length) :
    origin.read (front ++ line) behind = ⟨number + 1, 0⟩ := by
  have hended : Ended line behind := h.ends.elim And.left fun h => absurd h.2.2 hnumber.ne
  have hfront := h.read_front 0
  rw [Nat.zero_add] at hfront
  rw [read_append]
  exact (congrArg (read · _ _) hfront).trans (hended.read number 0)

/-- Looking for a caret on a line passes what stands in front of the line and the characters that fit
in front of its column. -/
theorem seek_take (h : LineAt chars number front line behind) (hle : k ≤ line.length)
    (hk : k < line.length ∨ number + 1 = (lines chars).length) {column : Nat}
    (hfits : utf16Length (line.take k) ≤ column) :
    seek ⟨number, column⟩ chars 0 origin =
      seek ⟨number, column⟩ (line.drop k ++ behind) (front.length + k)
        ⟨number, utf16Length (line.take k)⟩ := by
  have hsplit : chars = (front ++ line.take k) ++ (line.drop k ++ behind) := by
    rw [List.append_assoc, ← List.append_assoc (line.take _), List.take_append_drop, ← h.parts]
  have hread := read_take h hk
  have hpast : ¬ (⟨number, column⟩ : Caret).Before
      (origin.read (front ++ line.take k) (line.drop k ++ behind)) := by
    rw [hread]
    unfold Before
    dsimp only
    omega
  conv_lhs => rw [hsplit]
  rw [seek_append _ _ _ _ _ hpast, hread, List.length_append, List.length_take, Nat.zero_add,
    Nat.min_eq_left hle]

/-- The beginning of the next line is behind all of this one. -/
theorem seek_of_line_lt (after : List Char) (index : Nat) {target caret : Caret}
    (h : target.line < caret.line) : seek target after index caret = index := by
  cases after with
  | nil => rfl
  | cons c after => rw [seek, if_pos (by simp [h])]

/-- On a line the caret stands behind the characters that fit in front of its column. -/
theorem seek_line (h : LineAt chars number front line behind) (column : Nat) :
    seek ⟨number, column⟩ chars 0 origin = front.length + fitting column line := by
  by_cases hk : fitting column line < line.length ∨ number + 1 = (lines chars).length
  · rw [seek_take h (fitting_le_length column line) hk (utf16Length_take_fitting column line)]
    cases hdrop : line.drop (fitting column line) with
    | cons c rest =>
      have hnext := lt_of_drop_fitting hdrop
      rw [List.cons_append, seek, if_pos (by simpa using hnext)]
    | nil =>
      have hall := List.drop_eq_nil_iff.1 hdrop
      have hend : behind = [] := by
        rcases h.ends with ⟨-, hnumber⟩ | ⟨-, hbehind, -⟩
        · omega
        · exact hbehind
      rw [List.nil_append, hend, seek]
  · -- The break of the line fits too, and behind it the next line begins.
    obtain ⟨⟨part, c, rfl, -, hend⟩, -⟩ := h.ends.resolve_right fun h => hk (.inr h.2.2)
    have hle := fitting_le_length column (part ++ [c])
    have hall : fitting column (part ++ [c]) = (part ++ [c]).length := by omega
    have hwide := fitting_eq_length_iff.1 hall
    rw [utf16Length_append, utf16Length_cons, utf16Length_nil] at hwide
    have hfits : utf16Length ((part ++ [c]).take part.length) ≤ column := by
      rw [List.take_left]
      omega
    rw [seek_take h (by simp) (.inl (by simp)) hfits, List.take_left, List.drop_left,
      List.singleton_append, seek, if_neg (by simp; omega), Caret.after, if_pos hend,
      seek_of_line_lt _ _ (Nat.lt_succ_self number), hall, List.length_append, Nat.add_assoc,
      List.length_singleton]

end Index

section Places

variable {text : String} {front line behind : List Char} {caret : Caret}

theorem index_eq (h : LineAt text.toList caret.line front line behind) :
    caret.index text = front.length + fitting caret.column line :=
  seek_line h caret.column

theorem take_index (h : LineAt text.toList caret.line front line behind) :
    text.toList.take (caret.index text) = front ++ line.take (fitting caret.column line) := by
  rw [index_eq h, h.parts, List.take_append, List.take_of_length_le (Nat.le_add_right ..),
    Nat.add_sub_cancel_left, List.take_append_of_le_length (fitting_le_length ..)]

theorem drop_index (h : LineAt text.toList caret.line front line behind) :
    text.toList.drop (caret.index text) = line.drop (fitting caret.column line) ++ behind := by
  rw [index_eq h, h.parts, List.drop_append, List.drop_of_length_le (Nat.le_add_right ..),
    Nat.add_sub_cancel_left, List.drop_append_of_le_length (fitting_le_length ..), List.nil_append]

/-- The place of a caret on a line has a caret on that line, unless it is behind the break. -/
theorem ofOffset_offset (h : LineAt text.toList caret.line front line behind) :
    ofOffset text (caret.offset text) =
      if utf16Length line ≤ caret.column ∧ caret.line + 1 < (lines text.toList).length then
        ⟨caret.line + 1, 0⟩
      else ⟨caret.line, utf16Length (line.take (fitting caret.column line))⟩ := by
  have hle := fitting_le_length caret.column line
  have hsplit : text.toList = (front ++ line.take (fitting caret.column line)) ++
      (line.drop (fitting caret.column line) ++ behind) := by
    rw [← take_index h, ← drop_index h, List.take_append_drop]
  rw [offset, take_index h, ofOffset_eq hsplit]
  split
  · rename_i hpast
    rw [fitting_eq_length_iff.2 hpast.1, List.take_length, List.drop_length, List.nil_append,
      read_line h hpast.2]
  · rename_i hpast
    refine read_take h ?_
    rw [← fitting_eq_length_iff] at hpast
    rcases h.ends with ⟨-, hnumber⟩ | ⟨-, -, hnumber⟩
    · exact .inl (by omega)
    · exact .inr hnumber

theorem seek_le (target : Caret) (chars : List Char) (index : Nat) (caret : Caret) :
    index ≤ seek target chars index caret := by
  fun_induction seek target chars index caret with
  | case1 => exact Nat.le_refl _
  | case2 => exact Nat.le_refl _
  | case3 c rest index caret hstop ih => omega

/-- Carets that are in order stand for places that are in order. -/
theorem seek_mono {a b : Caret} (h : a.Before b) (chars : List Char) (index : Nat) (caret : Caret) :
    seek a chars index caret ≤ seek b chars index caret := by
  fun_induction seek a chars index caret with
  | case1 => exact Nat.le_refl _
  | case2 c rest index caret hstop => exact seek_le ..
  | case3 c rest index caret hpass ih =>
    have hpass' : ¬ (b.line < caret.line ||
        (caret.line == b.line && b.column < caret.column + utf16Width c)) = true := by
      unfold Before at h
      simp only [Bool.or_eq_true, decide_eq_true_eq, Bool.and_eq_true, beq_iff_eq] at hpass ⊢
      omega
    rw [seek, if_neg hpass']
    exact ih

theorem index_mono {a b : Caret} (h : a.Before b) : a.index text ≤ b.index text :=
  seek_mono h text.toList 0 origin

theorem offset_mono {a b : Caret} (h : a.Before b) : a.offset text ≤ b.offset text := by
  obtain ⟨between, hbetween⟩ := List.take_prefix_take_left (l := text.toList) (index_mono h)
  rw [offset, offset, ← hbetween, utf8Length_append]
  exact Nat.le_add_right _ _

/-- Every character adds to the line or to the column, and no more than its units. -/
theorem read_le (caret : Caret) (before after : List Char) :
    (caret.read before after).line + (caret.read before after).column ≤
      caret.line + caret.column + utf16Length before := by
  induction before generalizing caret with
  | nil => exact Nat.le_refl _
  | cons c before ih =>
    have hwidth := utf16Width_pos c
    have hfirst : (caret.after c (before ++ after).head?).line +
        (caret.after c (before ++ after).head?).column ≤
          caret.line + caret.column + utf16Width c := by
      unfold Caret.after
      split
      · dsimp only
        omega
      · exact (Nat.add_assoc ..).ge
    rw [read, utf16Length_cons]
    have hrest := ih (caret.after c (before ++ after).head?)
    omega

/-- Line and column together are not larger than the offset. -/
theorem line_add_column_le (text : String) {offset : Nat} (h : AtEdge text offset) :
    (ofOffset text offset).line + (ofOffset text offset).column ≤ offset := by
  obtain ⟨before, after, htext, rfl⟩ := h.exists_split
  rw [ofOffset_eq htext]
  have hread := read_le origin before after
  exact (hread.trans_eq (Nat.zero_add _)).trans (utf16Length_le_utf8Length before)

/-- Carets and offsets are converted into each other. In a text of less than 2 ^ 32 bytes the numbers
of a caret fit into 32 bits, and at the edge of a character it leads back to its offset. Larger offsets
have carets further on, and carets further on have offsets that are not smaller. On a line of the text
a caret stands behind the most characters of the line, with its break, that are not wider than its
column. They are found by walking over the line, and if it is of ASCII characters alone, by counting
them. -/
theorem conversions_agree (hsize : utf8Length text.toList < 2 ^ 32) :
    (∀ offset, AtEdge text offset →
      (ofOffset text offset).line < 2 ^ 32 ∧ (ofOffset text offset).column < 2 ^ 32 ∧
      (ofOffset text offset).offset text = offset) ∧
    (∀ offset offset', AtEdge text offset → AtEdge text offset' → offset < offset' →
      (ofOffset text offset).Before (ofOffset text offset')) ∧
    (∀ a b : Caret, a.Before b → a.offset text ≤ b.offset text) ∧
    ∀ caret : Caret, caret.line < lineCount text →
      ∃ line, (lines text.toList)[caret.line]? = some line ∧
      ∃ k, k ≤ line.length ∧
        caret.index text = ((lines text.toList).take caret.line).flatten.length + k ∧
        utf16Length (line.take k) ≤ caret.column ∧
        (∀ j, j ≤ line.length → utf16Length (line.take j) ≤ caret.column → j ≤ k) ∧
        k = walk caret.column line 0 0 ∧
        ((∀ c ∈ line, c.toNat < 128) → k = min caret.column line.length) := by
  refine ⟨fun offset h => ?_, fun _ _ => before_ofOffset, fun _ _ => offset_mono, fun caret h => ?_⟩
  · have hsum := line_add_column_le text h
    have hle := h.le_utf8Length
    exact ⟨by omega, by omega, offset_ofOffset_of_atEdge h⟩
  · rw [← length_lines] at h
    have hget := List.getElem?_eq_getElem h
    obtain ⟨front, behind, hline⟩ := exists_lineAt hget
    refine ⟨_, hget, _, fitting_le_length caret.column _, ?_, utf16Length_take_fitting ..,
      fun _ => le_fitting, ?_, fitting_of_ascii⟩
    · rw [index_eq hline, hline.front_eq]
    · exact ((walk_eq _ _ 0 0 (Nat.zero_le _)).trans (Nat.zero_add _)).symm

/-- A caret inside a pair of units stands in front of the character, and one between the two characters
of a break is at the edge of a character. -/
theorem conversions_agree_wide :
    (⟨0, 2⟩ : Caret).index "é😀\r\nb" = 1 ∧
    (ofOffset "é😀\r\nb" 7).offset "é😀\r\nb" = 7 := by
  have hsize : utf8Length "é😀\r\nb".toList < 2 ^ 32 := by decide
  obtain ⟨hback, -, -, hindex⟩ := conversions_agree hsize
  constructor
  · obtain ⟨line, hline, k, -, hk, -, -, hwalk, -⟩ := hindex ⟨0, 2⟩ (by decide)
    obtain rfl : "é😀\r\n".toList = line := Option.some.inj hline
    rw [hk, hwalk]
    decide
  · exact (hback 7 ⟨"é😀\r".toList, "\nb".toList, by decide, by decide⟩).2.2

end Places

end Caret

end LWorkbench
