/-
# Line lookup, byte by byte

`lineAt?` works on characters, but an offset counts bytes, and not every offset falls between two
characters.  So what the line at an offset is, is said here of the bytes alone (`Line.IsAt`): its
number counts the newlines in front of the offset, it starts behind the last of them, and it ends
with the next newline at or behind the offset, or where the text ends.

This says it for every text and every offset, also for an offset inside of a character, for one at
the very end of a text, with a newline there or not, and for the empty text.

* `Text.newline_mem_bytes_iff`: no other character has the byte of a newline in it.
* `Line.isAt_of_not_mem`, `Line.isAt_line`, `Line.IsAt.behind`: the line at an offset of the first
  line, and in a text with more lines in front.
* `Line.IsAt.unique`: there is only one line at an offset.
* `lineAt?_exact`: which line is found, and when none is.
-/
import IntC.Proofs.Lines

namespace IntC

/-! ## 1. The bytes of a text -/

namespace Text

/-- The bytes of a text in UTF-8. -/
def bytes (cs : List Char) : List UInt8 := cs.flatMap String.utf8EncodeChar

/-- The byte of the newline character. -/
def newline : UInt8 := 10

@[simp] theorem bytes_append (cs ds : List Char) : bytes (cs ++ ds) = bytes cs ++ bytes ds :=
  List.flatMap_append

@[simp] theorem bytes_newline (cs : List Char) : bytes ('\n' :: cs) = newline :: bytes cs := rfl

@[simp] theorem length_bytes (cs : List Char) : (bytes cs).length = size cs := by
  induction cs with
  | nil => rfl
  | cons c cs ih =>
    rw [bytes, List.flatMap_cons, List.length_append, String.length_utf8EncodeChar, ← bytes, ih,
      size_cons]

/-- The bytes of a string's characters are the string's own. -/
theorem bytes_ofList (cs : List Char) : bytes cs = (String.ofList cs).toByteArray.data.toList := by
  rw [String.toByteArray_ofList, List.utf8Encode, List.data_toByteArray, bytes]

theorem bytes_injective : Function.Injective bytes := by
  intro cs ds h
  rw [bytes_ofList, bytes_ofList, Array.toList_inj] at h
  have hstring : String.ofList cs = String.ofList ds := String.toByteArray_inj.mp (ByteArray.ext h)
  exact String.ofList_injective hstring

/-- A byte of a character of several bytes is not an ASCII byte. -/
theorem newline_not_mem_utf8EncodeChar {c : Char} (h : c ≠ '\n') :
    newline ∉ String.utf8EncodeChar c := by
  have hval : c.val.toNat ≠ 10 := fun heq => h (Char.ext (UInt32.toNat.inj heq))
  have hbyte {n : Nat} (hn : n < 256) (hne : n ≠ 10) : newline ≠ UInt8.ofNat n := by
    intro heq
    have hnat := congrArg UInt8.toNat heq
    rw [UInt8.toNat_ofNat_of_lt' hn] at hnat
    exact hne hnat.symm
  fun_cases String.utf8EncodeChar c <;>
    simp only [List.mem_cons, List.not_mem_nil, or_false, not_or]
  · exact hbyte (by omega) hval
  · exact ⟨hbyte (by omega) (by omega), hbyte (by omega) (by omega)⟩
  · exact ⟨hbyte (by omega) (by omega), hbyte (by omega) (by omega), hbyte (by omega) (by omega)⟩
  · exact ⟨hbyte (by omega) (by omega), hbyte (by omega) (by omega), hbyte (by omega) (by omega),
      hbyte (by omega) (by omega)⟩

/-- **The byte of a newline stands for a newline**, and for nothing else. -/
theorem newline_mem_bytes_iff {cs : List Char} : newline ∈ bytes cs ↔ '\n' ∈ cs := by
  rw [bytes, List.mem_flatMap]
  constructor
  · rintro ⟨c, hc, hmem⟩
    by_cases heq : c = '\n'
    · exact heq ▸ hc
    · exact absurd hmem (newline_not_mem_utf8EncodeChar heq)
  · intro h
    exact ⟨'\n', h, List.mem_singleton_self _⟩

end Text

/-! ## 2. The line at an offset -/

namespace Line

open Text

/-- In a text of these bytes, whose first line has the number `first`, this is the line at byte `p`
and its offset in the line. -/
structure IsAt (bs : List UInt8) (first p : Nat) (line : Line) : Prop where
  /-- The text has the place; it may be the one behind the last byte. -/
  le_length : p ≤ bs.length
  /-- The number counts the newlines in front of the place. -/
  number_eq : line.number = first + (bs.take p).count newline
  column_le : line.column ≤ p
  /-- The line starts where the text does, or behind a newline. -/
  start : p - line.column = 0 ∨ bs[p - line.column - 1]? = some newline
  /-- Between its start and the place there is no other newline. -/
  unbroken : newline ∉ bs.extract (p - line.column) p
  /-- It goes on up to and with the next newline at or behind the place, or up to the end. -/
  text_eq : bytes line.text =
    bs.extract (p - line.column) (p + (bs.drop p).idxOf newline + 1)

variable {bs : List UInt8} {first p : Nat} {line : Line}

theorem extract_of_length_le {n : Nat} (h : bs.length ≤ n) : bs.extract 0 n = bs := by
  rw [List.extract_eq_take_drop, List.drop_zero, Nat.sub_zero, List.take_of_length_le h]

theorem extract_append_right (front : List UInt8) (a b : Nat) :
    (front ++ bs).extract (front.length + a) (front.length + b) = bs.extract a b := by
  rw [List.extract_eq_take_drop, List.extract_eq_take_drop, List.drop_length_add_append,
    Nat.add_sub_add_left]

/-- A text without a newline is its only line. -/
theorem isAt_of_not_mem {cs : List Char} (h : newline ∉ bytes cs) (hp : p ≤ (bytes cs).length) :
    IsAt (bytes cs) first p ⟨first, cs, p⟩ where
  le_length := hp
  number_eq := by
    have htake : newline ∉ (bytes cs).take p := fun hmem => h (List.mem_of_mem_take hmem)
    rw [List.count_eq_zero_of_not_mem htake, Nat.add_zero]
  column_le := Nat.le_refl p
  start := .inl (Nat.sub_self p)
  unbroken hmem := h (List.mem_of_mem_drop (List.mem_of_mem_take hmem))
  text_eq := by
    have hdrop : newline ∉ (bytes cs).drop p := fun hmem => h (List.mem_of_mem_drop hmem)
    rw [List.idxOf_eq_length hdrop, List.length_drop, Nat.sub_self, extract_of_length_le (by omega)]

/-- Up to its newline, the first line is at every offset. -/
theorem isAt_line {body : List Char} (h : newline ∉ bytes body) (hp : p ≤ (bytes body).length)
    (rest : List Char) :
    IsAt (bytes (body ++ '\n' :: rest)) first p ⟨first, body ++ ['\n'], p⟩ := by
  have htake : (bytes (body ++ '\n' :: rest)).take p = (bytes body).take p := by
    rw [bytes_append, List.take_append_of_le_length hp]
  have hfront : newline ∉ (bytes body).take p := fun hmem => h (List.mem_of_mem_take hmem)
  have hnext : ((bytes (body ++ '\n' :: rest)).drop p).idxOf newline = (bytes body).length - p := by
    have hdrop : newline ∉ (bytes body).drop p := fun hmem => h (List.mem_of_mem_drop hmem)
    rw [bytes_append, List.drop_append_of_le_length hp, bytes_newline,
      List.idxOf_append_of_notMem hdrop, List.idxOf_cons_self, List.length_drop, Nat.add_zero]
  refine ⟨?_, ?_, Nat.le_refl p, .inl (Nat.sub_self p), ?_, ?_⟩
  · simp only [bytes_append, List.length_append]
    omega
  · rw [htake, List.count_eq_zero_of_not_mem hfront, Nat.add_zero]
  · rw [Nat.sub_self, List.extract_eq_take_drop, List.drop_zero, Nat.sub_zero, htake]
    exact hfront
  · have hstop : p + ((bytes body).length - p) + 1 = (bytes body).length + 1 := by omega
    rw [hnext, hstop, Nat.sub_self, List.extract_eq_take_drop, List.drop_zero, Nat.sub_zero,
      bytes_append, bytes_append, List.take_length_add_append]
    rfl

/-- Lines in front only move the line, and add to its number. -/
theorem IsAt.behind {front : List UInt8} (h : IsAt bs (first + front.count newline) p line)
    (hfront : front.getLast? = some newline) :
    IsAt (front ++ bs) first (front.length + p) line := by
  have hcolumn := h.column_le
  have hstart : front.length + p - line.column = front.length + (p - line.column) := by omega
  refine ⟨?_, ?_, by omega, ?_, ?_, ?_⟩
  · have := h.le_length
    rw [List.length_append]
    omega
  · rw [h.number_eq, List.take_length_add_append, List.count_append, Nat.add_assoc]
  · refine .inr ?_
    rw [hstart]
    rcases Nat.eq_zero_or_pos (p - line.column) with hzero | hpos
    · -- the line is the first of its text, so what stands before it is the front
      have hlength : 0 < front.length := List.length_pos_of_mem (List.mem_of_getLast? hfront)
      rw [hzero, Nat.add_zero, List.getElem?_append_left (by omega), ← List.getLast?_eq_getElem?,
        hfront]
    · have hprevious := h.start.resolve_left (by omega)
      rw [Nat.add_sub_assoc hpos, List.getElem?_append_right (Nat.le_add_right _ _),
        Nat.add_sub_cancel_left, hprevious]
  · rw [hstart, extract_append_right]
    exact h.unbroken
  · have hdrop : (front ++ bs).drop (front.length + p) = bs.drop p := by simp
    rw [hstart, hdrop, Nat.add_assoc, Nat.add_assoc, extract_append_right, ← Nat.add_assoc]
    exact h.text_eq

/-- **There is one line at an offset.** -/
theorem IsAt.unique {line' : Line} (h : IsAt bs first p line) (h' : IsAt bs first p line') :
    line = line' := by
  -- a line that started earlier than the other would have the newline before the other one in it
  have hcolumn {l m : Line} (hl : IsAt bs first p l) (hm : IsAt bs first p m) :
      m.column ≤ l.column := by
    by_contra hlt
    have hle := hm.column_le
    have hprevious := hl.start.resolve_left (by omega)
    refine hm.unbroken (List.mem_iff_getElem?.mpr ⟨p - l.column - 1 - (p - m.column), ?_⟩)
    rw [List.extract_eq_take_drop, List.getElem?_take_of_lt (by omega), List.getElem?_drop,
      Nat.add_sub_cancel' (by omega), hprevious]
  have hsame : line.column = line'.column := Nat.le_antisymm (hcolumn h' h) (hcolumn h h')
  have hnumber : line.number = line'.number := by rw [h.number_eq, h'.number_eq]
  have htext : line.text = line'.text :=
    bytes_injective (by rw [h.text_eq, h'.text_eq, hsame])
  cases line
  cases line'
  simp_all

/-! ## 3. What is found -/

/-- No line is found for an offset behind the end, and for no other. -/
theorem find?_eq_none_iff (cs : List Char) (number offset : Nat) :
    find? (lines cs) number offset = none ↔ size cs < offset := by
  induction cs using line_induction generalizing number offset with
  | @last cs h =>
    rw [find?_of_not_mem h]
    simp
  | @line body rest h ih =>
    have hsize : size (body ++ '\n' :: rest) = size body + 1 + size rest := by
      rw [size_append, size_cons, Nat.add_assoc]
      rfl
    rw [find?_line h, hsize]
    by_cases hle : offset ≤ size body
    · simp only [if_pos hle, reduceCtorEq, false_iff]
      omega
    · rw [if_neg hle, ih]
      omega

/-- The line that is found is the one at the offset. -/
theorem isAt_of_find? {cs : List Char} {number offset : Nat}
    (h : find? (lines cs) number offset = some line) : IsAt (bytes cs) number offset line := by
  induction cs using line_induction generalizing number offset with
  | @last cs hcs =>
    rw [find?_of_not_mem hcs, Option.ite_none_right_eq_some] at h
    obtain ⟨hle, ⟨⟩⟩ := h
    exact isAt_of_not_mem (newline_mem_bytes_iff.not.mpr hcs) (by simpa using hle)
  | @line body rest hbody ih =>
    have hbytes : newline ∉ bytes body := newline_mem_bytes_iff.not.mpr hbody
    rw [find?_line hbody] at h
    split at h
    · next hle =>
      cases h
      exact isAt_line hbytes (by simpa using hle) rest
    · next hlt =>
      have hcount : (bytes body ++ [newline]).count newline = 1 := by
        rw [List.count_append, List.count_eq_zero_of_not_mem hbytes, List.count_singleton_self]
      have hlength : (bytes body ++ [newline]).length = size body + 1 := by simp
      have hrest : IsAt (bytes rest) (number + (bytes body ++ [newline]).count newline)
          (offset - (size body + 1)) line := by
        rw [hcount]
        exact ih h
      have hall := hrest.behind (by simp)
      rw [hlength, Nat.add_sub_cancel' (by omega)] at hall
      simpa using hall

end Line

/-- **Line lookup is exact.**  No line is found if the offset is behind the end of the source.  Else
the line is the one at that byte of the source, with lines counted from 1 on. -/
theorem lineAt?_exact (source : String) (offset : Nat) :
    (lineAt? source offset = none ↔ source.utf8ByteSize < offset) ∧
      ∀ line, lineAt? source offset = some line ↔
        line.IsAt (Text.bytes source.toList) 1 offset := by
  have hnone : lineAt? source offset = none ↔ source.utf8ByteSize < offset := by
    rw [lineAt?, Line.find?_eq_none_iff, Text.size_toList]
  refine ⟨hnone, fun line => ⟨Line.isAt_of_find?, fun h => ?_⟩⟩
  have hle := h.le_length
  rw [Text.length_bytes, Text.size_toList] at hle
  obtain ⟨found, hfound⟩ := Option.ne_none_iff_exists'.mp (mt hnone.mp (Nat.not_lt.mpr hle))
  rw [hfound, (Line.isAt_of_find? hfound).unique h]

/-- An offset between the two bytes of a character. -/
example : lineAt? "a\né" 3 = some ⟨2, ['é'], 1⟩ := by decide +kernel

end IntC
