/-
# Where the caret stands

The last row of a report has a caret, meant to stand under the character that the report is for.
It does so for most sources and not for all, since the two rows are made in different ways.  The
row of the line drops spaces and tabs and after that all blanks that are left in front; the row of
the caret takes off the spaces and tabs only, and for what is left it counts bytes.

So the caret never stands too far to the left.  It stands right exactly if no other blank follows
the spaces and tabs, and if every character from there up to the place is a single byte.

* `Text.trim_append_cons`: what is cut off a text with a character in it that is not blank.
* `Excerpt.dashes_eq`: the dashes before the caret are the bytes behind the spaces and tabs.
* `Excerpt.points_layout`: in which columns an excerpt has the character and the caret.
* `Diagnostic.render_caret`: when the two columns are the same.
-/
import IntC.Proofs.Reports

namespace IntC

/-! ## 1. Blanks and bytes -/

namespace Text

/-- In front of a character that is not blank, blanks are dropped as if the text ended there. -/
theorem dropBlanks_append_cons {c : Char} (hc : isBlank c = false) (left right : List Char) :
    dropBlanks (left ++ c :: right) = dropBlanks left ++ c :: right := by
  have hright : (c :: right).dropWhile isBlank = c :: right :=
    List.dropWhile_cons_of_neg (by simp [hc])
  rw [dropBlanks, dropBlanks, List.dropWhile_append, hright]
  split
  · next hnil => rw [List.isEmpty_iff.mp hnil, List.nil_append]
  · rfl

theorem trim_append_cons {c : Char} (hc : isBlank c = false) (left right : List Char) :
    trim (left ++ c :: right) = dropBlanks left ++ c :: (dropBlanks right.reverse).reverse := by
  have hreverse : (dropBlanks left ++ c :: right).reverse =
      right.reverse ++ c :: (dropBlanks left).reverse := by simp
  rw [trim, dropBlanks_append_cons hc, hreverse, dropBlanks_append_cons hc]
  simp

/-- What is dropped in front is blank. -/
theorem exists_dropBlanks (cs : List Char) :
    ∃ blanks, cs = blanks ++ dropBlanks cs ∧ ∀ c ∈ blanks, isBlank c = true :=
  ⟨cs.takeWhile isBlank, List.takeWhile_append_dropWhile.symm,
    fun _ hc => List.mem_takeWhile_imp hc⟩

theorem isAscii_iff {c : Char} : c.isAscii = true ↔ c.utf8Size = 1 := by
  rw [Char.utf8Size_eq_one_iff, Char.isAscii, decide_eq_true_iff, UInt32.le_iff_toNat_le]
  exact Nat.lt_succ_iff

/-- A text has as many bytes as characters if it is ASCII. -/
theorem size_eq_length_iff {cs : List Char} :
    size cs = cs.length ↔ ∀ c ∈ cs, c.isAscii = true := by
  induction cs with
  | nil => simp
  | cons c cs ih =>
    have hc := Char.utf8Size_pos c
    have hcs := length_le_size cs
    rw [size_cons, List.length_cons, List.forall_mem_cons, ← ih, isAscii_iff]
    omega

/-- Nothing is dropped from a text that does not start with a blank. -/
theorem length_dropBlanks_eq_iff {cs : List Char} :
    (dropBlanks cs).length = cs.length ↔ ∀ c ∈ cs.head?, isBlank c = false := by
  cases cs with
  | nil => simp [dropBlanks]
  | cons c cs =>
    have hle : (dropBlanks cs).length ≤ cs.length := List.length_dropWhile_le _ _
    cases hc : isBlank c with
    | true =>
      have hdrop : dropBlanks (c :: cs) = dropBlanks cs := List.dropWhile_cons_of_pos hc
      rw [hdrop]
      simp only [List.length_cons, List.head?_cons, Option.mem_def, Option.some.injEq, forall_eq',
        hc, Bool.true_eq_false, iff_false]
      omega
    | false => simp [dropBlanks, hc]

/-- The characters that are left without the blanks in front are at most the bytes there were, and
as many exactly if no blank was dropped and every character is one byte. -/
theorem length_dropBlanks_eq_size_iff {cs : List Char} :
    (dropBlanks cs).length = size cs ↔
      (∀ c ∈ cs.head?, isBlank c = false) ∧ ∀ c ∈ cs, c.isAscii = true := by
  have hdrop : (dropBlanks cs).length ≤ cs.length := List.length_dropWhile_le _ _
  have hsize := length_le_size cs
  rw [← length_dropBlanks_eq_iff, ← size_eq_length_iff]
  omega

theorem length_dropBlanks_le_size (cs : List Char) : (dropBlanks cs).length ≤ size cs :=
  (List.length_dropWhile_le _ _).trans (length_le_size cs)

theorem newline_not_mem_dropBlanks {cs : List Char} (h : '\n' ∉ cs) : '\n' ∉ dropBlanks cs :=
  fun hmem => h ((List.dropWhile_suffix _).subset hmem)

/-- The newline that closes a line is one of the blanks at its end. -/
theorem newline_not_mem_trimmed_lineEnd (cs : List Char) :
    '\n' ∉ (dropBlanks (lineEnd cs).reverse).reverse := by
  rw [List.mem_reverse]
  induction cs using line_induction with
  | @last cs h =>
    rw [lineEnd_of_not_mem h]
    exact newline_not_mem_dropBlanks (by simpa using h)
  | @line body rest h _ =>
    have hdrop : dropBlanks ('\n' :: body.reverse) = dropBlanks body.reverse :=
      List.dropWhile_cons_of_pos (by decide)
    rw [lineEnd_line h, List.reverse_append, List.reverse_singleton, List.singleton_append, hdrop]
    exact newline_not_mem_dropBlanks (by simpa using h)

theorem newline_not_mem_lineStart (cs : List Char) : '\n' ∉ lineStart cs := by
  intro hmem
  simpa using List.mem_rtakeWhile_imp hmem

theorem newline_not_mem_toString (n : Nat) : '\n' ∉ (toString n).toList := by
  rw [Nat.toString_eq_ofList_toDigits, String.toList_ofList]
  intro hmem
  exact absurd (Nat.isDigit_of_mem_toDigits (by decide) (by decide) hmem) (by decide)

end Text

/-! ## 2. The rows of an excerpt -/

namespace Excerpt

open Text

variable {c : Char} {left right : List Char}

theorem isBlank_of_isIndent {c : Char} (h : isIndent c = true) : isBlank c = true := by
  simp only [isIndent, Bool.or_eq_true, beq_iff_eq] at h
  rcases h with rfl | rfl <;> decide

theorem isAscii_of_isIndent {c : Char} (h : isIndent c = true) : c.isAscii = true := by
  simp only [isIndent, Bool.or_eq_true, beq_iff_eq] at h
  rcases h with rfl | rfl <;> decide

theorem take_indentation (cs : List Char) : cs.take (indentation cs) = cs.takeWhile isIndent :=
  (List.prefix_iff_eq_take.mp (List.takeWhile_prefix _)).symm

theorem indentation_le (cs : List Char) : indentation cs ≤ cs.length :=
  (List.takeWhile_prefix _).length_le

/-- A line is indented as far as what it has before a character that is not blank. -/
theorem indentation_append_cons (hc : isBlank c = false) :
    indentation (left ++ c :: right) = indentation left := by
  have hindent : isIndent c = false := by
    rw [← Bool.not_eq_true]
    intro h
    rw [isBlank_of_isIndent h] at hc
    cases hc
  rw [indentation, indentation, List.takeWhile_append]
  split
  · next hall => rw [List.takeWhile_cons_of_neg (by simp [hindent]), List.append_nil, hall]
  · rfl

theorem drop_indentation_append_cons (hc : isBlank c = false) :
    (left ++ c :: right).drop (indentation (left ++ c :: right)) =
      left.drop (indentation left) ++ c :: right := by
  rw [indentation_append_cons hc, List.drop_append_of_le_length (indentation_le left)]

/-- Before the caret there is a dash for every byte between the indentation and the place. -/
theorem dashes_eq (hc : isBlank c = false) (number : Nat) :
    dashes ⟨number, left ++ c :: right, size left⟩ = size (left.drop (indentation left)) := by
  have hindent : size (left.take (indentation left)) = indentation left := by
    rw [take_indentation, size_eq_length_iff.mpr fun x hx => ?_, indentation]
    exact isAscii_of_isIndent (List.mem_takeWhile_imp hx)
  have hsize : size left =
      size (left.take (indentation left)) + size (left.drop (indentation left)) := by
    rw [← size_append, List.take_append_drop]
  have hcolumn : dashes ⟨number, left ++ c :: right, size left⟩ = size left - indentation left := by
    rw [dashes, indentation_append_cons hc]
  omega

/-- A row shows the line with a number, of which `left` and `right` are what stands before and
behind the character `c`.  At both ends blanks may be missing, and `c` is in the column `place`. -/
def ShowsAt (row : List Char) (number : Nat) (left : List Char) (c : Char) (right : List Char)
    (place : Nat) : Prop :=
  ∃ cut shownLeft shownRight cut', left = cut ++ shownLeft ∧ right = shownRight ++ cut' ∧
    (∀ x ∈ cut ++ cut', isBlank x = true) ∧
    ∃ gutter, gutter = (toString number).toList ++ [' ', '|', ' '] ∧
      row = gutter ++ shownLeft ++ c :: shownRight ∧ place = (gutter ++ shownLeft).length

/-- A row ends with its only caret, in the column `caret`. -/
def CaretAt (row : List Char) (caret : Nat) : Prop :=
  ∃ marks, row = marks ++ ['^'] ∧ '^' ∉ marks ∧ caret = marks.length

/-- The last row of a report has the caret, and the row above it the line. -/
def Points (report : List Char) (number : Nat) (left : List Char) (c : Char) (right : List Char)
    (place caret : Nat) : Prop :=
  ∃ above row last, report = above ++ '\n' :: row ++ '\n' :: last ∧ '\n' ∉ row ∧ '\n' ∉ last ∧
    ShowsAt row number left c right place ∧ CaretAt last caret

theorem shown_append_cons (hc : isBlank c = false) :
    shown (left ++ c :: right) =
      dropBlanks (left.drop (indentation left)) ++ c :: (dropBlanks right.reverse).reverse := by
  rw [shown, drop_indentation_append_cons hc, trim_append_cons hc]

/-- The row of a line has the character behind the margin and all that is shown in front of it. -/
theorem showsAt_shown (hc : isBlank c = false) (number : Nat) :
    ShowsAt ((toString number).toList ++ [' ', '|', ' '] ++ shown (left ++ c :: right))
      number left c right ((toString number).length + 3 +
        (dropBlanks (left.drop (indentation left))).length) := by
  obtain ⟨front, hfront, hfrontBlank⟩ := exists_dropBlanks (left.drop (indentation left))
  obtain ⟨back, hback, hbackBlank⟩ := exists_dropBlanks right.reverse
  refine ⟨left.take (indentation left) ++ front, dropBlanks (left.drop (indentation left)),
    (dropBlanks right.reverse).reverse, back.reverse, ?_, ?_, ?_, _, rfl, ?_, ?_⟩
  · rw [List.append_assoc, ← hfront, List.take_append_drop]
  · rw [← List.reverse_append, ← hback, List.reverse_reverse]
  · intro x hx
    simp only [List.mem_append, List.mem_reverse] at hx
    rcases hx with (hx | hx) | hx
    · rw [take_indentation] at hx
      exact isBlank_of_isIndent (List.mem_takeWhile_imp hx)
    · exact hfrontBlank x hx
    · exact hbackBlank x hx
  · rw [shown_append_cons hc, ← List.append_assoc]
  · rw [List.length_append, List.length_append, String.length_toList]
    rfl

/-- The row of the caret has it behind the margin and the dashes. -/
theorem caretAt_margin (line : Line) :
    CaretAt (margin line ++ [' '] ++ List.replicate (dashes line) '-' ++ ['^'])
      ((toString line.number).length + 3 + dashes line) := by
  refine ⟨_, rfl, by simp [margin], ?_⟩
  simp only [margin, List.length_append, List.length_replicate, List.length_singleton]

/-- **The columns of an excerpt.**  The character is as far from the margin as there are characters
behind all blanks in front of it, the caret as far as there are bytes behind the indentation. -/
theorem points_layout (hc : isBlank c = false) (hleft : '\n' ∉ left)
    (hright : '\n' ∉ (dropBlanks right.reverse).reverse) (number : Nat) (above : List Char) :
    Points (above ++ (layout ⟨number, left ++ c :: right, size left⟩).toList) number left c right
      ((toString number).length + 3 + (dropBlanks (left.drop (indentation left))).length)
      ((toString number).length + 3 + size (left.drop (indentation left))) := by
  have hcaret := caretAt_margin ⟨number, left ++ c :: right, size left⟩
  rw [dashes_eq hc] at hcaret
  refine ⟨above ++ '\n' :: margin ⟨number, left ++ c :: right, size left⟩, _, _, ?_, ?_, ?_,
    showsAt_shown hc number, hcaret⟩
  · simp [layout, dashes_eq hc]
  · have hfront : '\n' ∉ dropBlanks (left.drop (indentation left)) :=
      newline_not_mem_dropBlanks fun hmem => hleft (List.mem_of_mem_drop hmem)
    have hc' : '\n' ≠ c := by
      rintro rfl
      exact absurd hc (by decide)
    rw [shown_append_cons hc]
    simp only [List.mem_append, List.mem_cons, not_or]
    exact ⟨⟨newline_not_mem_toString number, by decide⟩, hfront, hc', hright⟩
  · simp [margin]

end Excerpt

/-! ## 3. The report -/

/-- The line from its start on has no blank behind its spaces and tabs, and between them and the
place at the end of `left` it has no character of several bytes. -/
def Excerpt.IsPlain (line left : List Char) : Prop :=
  (∀ x ∈ (line.drop (indentation line)).head?, Text.isBlank x = false) ∧
    ∀ x ∈ left.drop (indentation line), x.isAscii = true

theorem Excerpt.isPlain_iff {c : Char} (hc : Text.isBlank c = false) {left right : List Char} :
    IsPlain (left ++ c :: right) left ↔
      (Text.dropBlanks (left.drop (indentation left))).length =
        Text.size (left.drop (indentation left)) := by
  -- with nothing in front of it, the character itself is what the line starts with
  have hhead (front : List Char) : (∀ x ∈ (front ++ c :: right).head?, Text.isBlank x = false) ↔
      ∀ x ∈ front.head?, Text.isBlank x = false := by
    cases front with
    | nil => simp [hc]
    | cons x front => simp
  rw [IsPlain, drop_indentation_append_cons hc, hhead, indentation_append_cons hc,
    Text.length_dropBlanks_eq_size_iff]

open Excerpt in
/-- **When the caret is right.**  Let a diagnostic be for a character of the source that is not
blank, less than `maxWidth` bytes behind the spaces and tabs that its line starts with.  Its report
ends with the line of the character and a row with the caret.  The caret is in the column of the
character if behind its spaces and tabs the line starts with no other blank and is ASCII up to the
character; else the caret is farther to the right. -/
theorem Diagnostic.render_caret {source : String} {before behind : List Char} {c : Char}
    {d : Diagnostic} (hsource : source.toList = before ++ c :: behind)
    (hc : Text.isBlank c = false) (hplace : d.position.offset = Text.size before)
    (hcolumn : Text.size (Text.lineStart before) - indentation (Text.lineStart before) < maxWidth) :
    ∃ report line left right, d.render? source = some report ∧
      lineAt? source d.position.offset = some line ∧
      line.text = left ++ c :: right ∧ line.column = Text.size left ∧
      ∃ place caret, Points report.toList line.number left c right place caret ∧
        (IsPlain line.text left ∧ caret = place ∨ ¬ IsPlain line.text left ∧ place < caret) := by
  have hc' : c ≠ '\n' := by
    rintro rfl
    exact absurd hc (by decide)
  have hline : lineAt? source d.position.offset = some ⟨1 + before.count '\n',
      Text.lineStart before ++ c :: Text.lineEnd behind, Text.size (Text.lineStart before)⟩ := by
    rw [lineAt?, hsource, hplace, Line.find?_append, Text.lineEnd, if_neg hc']
  have hwidth : dashes ⟨1 + before.count '\n', Text.lineStart before ++ c :: Text.lineEnd behind,
      Text.size (Text.lineStart before)⟩ < maxWidth := by
    rwa [dashes, indentation_append_cons hc]
  have hreport := d.render?_of_rows? hline (rows?_eq_some_iff.mpr ⟨hwidth, rfl⟩)
  have hpoints := points_layout hc (Text.newline_not_mem_lineStart before)
    (Text.newline_not_mem_trimmed_lineEnd behind) (1 + before.count '\n')
    (d.headline ++ "\n-> " ++ d.position.file).toList
  rw [← String.toList_append] at hpoints
  refine ⟨_, _, Text.lineStart before, Text.lineEnd behind, hreport, hline, rfl, rfl, _, _, hpoints,
    ?_⟩
  have hle := Text.length_dropBlanks_le_size
    ((Text.lineStart before).drop (indentation (Text.lineStart before)))
  rw [isPlain_iff hc]
  omega

/-- A line with a tab, a blank of three bytes and a letter of two before its last character. -/
def shifted : String := "x\n\t\u3000é y"

/-- In `shifted` the caret for the `y` is too far to the right: the blank is not shown, and it and
the letter count for five. -/
theorem Diagnostic.render_caret_shifted :
    let d : Diagnostic := ⟨.unknownVariable "y", ⟨9, "s"⟩⟩
    let before := ['x', '\n', '\t', '\u3000', 'é', ' ']
    shifted.toList = before ++ 'y' :: [] ∧ Text.isBlank 'y' = false ∧
      d.position.offset = Text.size before ∧
      Text.size (Text.lineStart before) - Excerpt.indentation (Text.lineStart before) <
        Excerpt.maxWidth ∧
      ∃ report line left right, d.render? shifted = some report ∧
        lineAt? shifted 9 = some line ∧ line.text = left ++ 'y' :: right ∧
        ∃ place caret, place < caret ∧
          Excerpt.Points report.toList line.number left 'y' right place caret := by
  intro d before
  have hsource : shifted.toList = before ++ 'y' :: [] := by decide +kernel
  have hplace : d.position.offset = Text.size before := by decide +kernel
  have hcolumn : Text.size (Text.lineStart before) - Excerpt.indentation (Text.lineStart before) <
      Excerpt.maxWidth := by decide +kernel
  obtain ⟨report, line, left, right, hreport, hline, htext, -, place, caret, hpoints, hcase⟩ :=
    Diagnostic.render_caret hsource (by decide) hplace hcolumn
  refine ⟨hsource, by decide, hplace, hcolumn, report, line, left, right, hreport, hline, htext,
    place, caret, ?_, hpoints⟩
  have hfound : lineAt? shifted 9 = some ⟨2, ['\t', '\u3000', 'é', ' ', 'y'], 7⟩ := by
    decide +kernel
  obtain rfl := Option.some.inj (hfound.symm.trans hline)
  rcases hcase with ⟨hplain, -⟩ | ⟨-, hlt⟩
  · exact absurd (hplain.1 '\u3000' rfl) (by decide)
  · exact hlt

end IntC
