/-
# The line that holds a place

A text is a row of lines, each up to and with its newline, and a last one without a newline, which
may be empty.  To find the line that holds an offset, lines are skipped for as long as the offset is
not in them.

* `Text.line_induction`: a text is taken apart line by line.
* `Line.find?_of_not_mem`, `Line.find?_line`: what one line does to the search.
* `lineAt?_append`: the line that holds a place between two characters, from the text before the
  place and the text behind it.
-/
import Mathlib.Data.List.DropRight
import IntC.Excerpt

namespace IntC

/-! ## 1. Texts, line by line -/

namespace Text

/-- The part of a text behind its last newline. -/
def lineStart (before : List Char) : List Char := before.rtakeWhile (· != '\n')

/-- The part of a text up to and with its first newline. -/
def lineEnd : List Char → List Char
  | [] => []
  | c :: cs => if c = '\n' then [c] else c :: lineEnd cs

/-- A text is what has no newline, or else a line in front of a text. -/
@[elab_as_elim] theorem line_induction {motive : List Char → Prop}
    (last : ∀ {cs : List Char}, '\n' ∉ cs → motive cs)
    (line : ∀ {body rest : List Char}, '\n' ∉ body → motive rest → motive (body ++ '\n' :: rest))
    (cs : List Char) : motive cs := by
  induction hlength : cs.length using Nat.strongRecOn generalizing cs with
  | ind n ih =>
    by_cases hmem : '\n' ∈ cs
    · obtain ⟨body, rest, rfl, hbody⟩ := List.eq_append_cons_of_mem hmem
      refine line hbody (ih rest.length ?_ rest rfl)
      rw [← hlength, List.length_append, List.length_cons]
      omega
    · exact last hmem

theorem lineStart_of_not_mem {cs : List Char} (h : '\n' ∉ cs) : lineStart cs = cs := by
  rw [lineStart, List.rtakeWhile_eq_self_iff]
  intro c hc
  simpa using fun heq : c = '\n' => h (heq ▸ hc)

theorem lineStart_line (body rest : List Char) :
    lineStart (body ++ '\n' :: rest) = lineStart rest := by
  have hreverse : (body ++ '\n' :: rest).reverse = rest.reverse ++ '\n' :: body.reverse := by simp
  rw [lineStart, lineStart, List.rtakeWhile, List.rtakeWhile, hreverse, List.takeWhile_append]
  split
  · next hall =>
    have hself := (List.takeWhile_prefix (· != '\n')).eq_of_length hall
    simp [hself]
  · rfl

theorem lineEnd_of_not_mem {cs : List Char} (h : '\n' ∉ cs) : lineEnd cs = cs := by
  induction cs with
  | nil => rfl
  | cons c cs ih =>
    rw [List.mem_cons, not_or] at h
    rw [lineEnd, if_neg (Ne.symm h.1), ih h.2]

theorem lineEnd_line {body : List Char} (h : '\n' ∉ body) (rest : List Char) :
    lineEnd (body ++ '\n' :: rest) = body ++ ['\n'] := by
  induction body with
  | nil => rfl
  | cons c body ih =>
    rw [List.mem_cons, not_or] at h
    rw [List.cons_append, lineEnd, if_neg (Ne.symm h.1), ih h.2]
    rfl

theorem lines_of_not_mem {cs : List Char} (h : '\n' ∉ cs) (hne : cs ≠ []) : lines cs = [cs] := by
  induction cs with
  | nil => exact absurd rfl hne
  | cons c cs ih =>
    rw [List.mem_cons, not_or] at h
    rw [lines, if_neg (Ne.symm h.1)]
    cases cs with
    | nil => rfl
    | cons d cs => rw [ih h.2 (List.cons_ne_nil _ _)]

theorem lines_line {body : List Char} (h : '\n' ∉ body) (rest : List Char) :
    lines (body ++ '\n' :: rest) = (body ++ ['\n']) :: lines rest := by
  induction body with
  | nil => rfl
  | cons c body ih =>
    rw [List.mem_cons, not_or] at h
    rw [List.cons_append, lines, if_neg (Ne.symm h.1), ih h.2]
    rfl

end Text

/-! ## 2. Looking for an offset -/

namespace Line

theorem isClosed_of_not_mem {cs : List Char} (h : '\n' ∉ cs) : isClosed cs = false := by
  rw [isClosed, beq_eq_false_iff_ne]
  intro hlast
  exact h (List.mem_of_getLast? hlast)

/-- A text without a newline is one line, and holds every offset up to its end. -/
theorem find?_of_not_mem {cs : List Char} (h : '\n' ∉ cs) (number offset : Nat) :
    find? (Text.lines cs) number offset =
      if offset ≤ Text.size cs then some ⟨number, cs, offset⟩ else none := by
  by_cases hne : cs = []
  · subst hne
    by_cases hzero : offset = 0 <;> simp [Text.lines, find?, hzero]
  · rw [Text.lines_of_not_mem h hne, find?, holds, isClosed_of_not_mem h]
    by_cases hle : offset ≤ Text.size cs
    · have hholds : offset < Text.size cs ∨ offset = Text.size cs := Nat.lt_or_eq_of_le hle
      simp [hle, hholds]
    · have hholds : ¬ (offset < Text.size cs ∨ offset = Text.size cs) := by omega
      have hbeyond : offset - Text.size cs ≠ 0 := by omega
      simp [hle, hholds, hbeyond, find?]

/-- A line with its newline holds the offsets of its bytes, and leaves the others to the rest. -/
theorem find?_line {body : List Char} (h : '\n' ∉ body) (rest : List Char) (number offset : Nat) :
    find? (Text.lines (body ++ '\n' :: rest)) number offset =
      if offset ≤ Text.size body then some ⟨number, body ++ ['\n'], offset⟩
      else find? (Text.lines rest) (number + 1) (offset - (Text.size body + 1)) := by
  have hsize : Text.size (body ++ ['\n']) = Text.size body + 1 := by
    rw [Text.size_append]
    rfl
  have hclosed : isClosed (body ++ ['\n']) = true := by simp [isClosed]
  rw [Text.lines_line h, find?, holds, hclosed, hsize]
  simp only [Bool.not_true, Bool.and_false, Bool.or_false, decide_eq_true_eq, Nat.lt_add_one_iff]

/-- **The line at a place between two characters.**  Its number counts the newlines before the
place. -/
theorem find?_append (before behind : List Char) (number : Nat) :
    find? (Text.lines (before ++ behind)) number (Text.size before) =
      some ⟨number + before.count '\n', Text.lineStart before ++ Text.lineEnd behind,
        Text.size (Text.lineStart before)⟩ := by
  induction before using Text.line_induction generalizing number with
  | @last before h =>
    -- the place is in the first line, which goes on up to the first newline behind it
    rw [Text.lineStart_of_not_mem h, List.count_eq_zero_of_not_mem h, Nat.add_zero]
    induction behind using Text.line_induction with
    | @last behind h' =>
      rw [find?_of_not_mem (by simp [h, h']), Text.lineEnd_of_not_mem h', if_pos (by simp)]
    | @line body rest h' _ =>
      rw [← List.append_assoc, find?_line (by simp [h, h']), Text.lineEnd_line h', if_pos (by simp),
        List.append_assoc]
  | @line body rest h ih =>
    have hsize : Text.size (body ++ '\n' :: rest) = Text.size body + 1 + Text.size rest := by
      rw [Text.size_append, Text.size_cons, Nat.add_assoc]
      rfl
    have hcount : (body ++ '\n' :: rest).count '\n' = rest.count '\n' + 1 := by
      rw [List.count_append, List.count_eq_zero_of_not_mem h, List.count_cons_self, Nat.zero_add]
    rw [List.append_assoc, List.cons_append, find?_line h, hsize, if_neg (by omega),
      Nat.add_sub_cancel_left, ih, Text.lineStart_line, hcount, Nat.add_right_comm, Nat.add_assoc]

end Line

/-- The same for a whole source, whose first line has the number 1. -/
theorem lineAt?_append (before behind : String) :
    lineAt? (before ++ behind) before.utf8ByteSize =
      some ⟨1 + before.toList.count '\n',
        Text.lineStart before.toList ++ Text.lineEnd behind.toList,
        Text.size (Text.lineStart before.toList)⟩ := by
  rw [lineAt?, String.toList_append, ← Text.size_toList, Line.find?_append]

end IntC
