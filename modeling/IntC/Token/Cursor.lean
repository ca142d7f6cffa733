/-
# A cursor over tokens

A token list is closed by an end token, which is added if the list has none, so there always is a
current token: moving on stops at an end token, and looking further ahead than the last token finds
that one.  The list never changes, and the place is always inside it.

* `toList_ofList`: what closing a list means.
* `toList_advance`, `toList_seek`: moving keeps the list.
* `pos_advance`: moving on goes one token further, except at an end token.
* `seek_of_toList_eq`: going back to a place that a cursor has had.
* `peek_eq_getD`: looking ahead, as look-up in the list.
* `Step.run`: one step of a walk over the tokens.
-/
import IntC.Literal
import IntC.Token.Basic

namespace IntC

/-- A token list that ends with an end token, and a place in it. -/
structure Cursor where
  /-- The tokens before the last one. -/
  body : Array Token
  /-- The last token, which closes the list. -/
  final : Token
  /-- The place of the current token. -/
  pos : Nat
  final_kind : final.kind = .eof := by rfl
  pos_le : pos ≤ body.size := by simp

namespace Cursor

/-! ## 1. Making a cursor and looking at tokens -/

/-- The whole token list. -/
def toList (c : Cursor) : List Token := c.body.toList ++ [c.final]

/-- The end token that closes a list without one: it stands where the last token ends. -/
def closing (tokens : List Token) : Token :=
  .endAt ((tokens.getLast?.map fun token => token.span.stop).getD .null)

/-- A cursor at the start of a token list, which is closed first if its last token does not. -/
def ofList (tokens : List Token) : Cursor :=
  match tokens.getLast? with
  | none => { body := #[], final := closing [], pos := 0 }
  | some last =>
    if h : last.kind = .eof then
      { body := tokens.dropLast.toArray, final := last, pos := 0, final_kind := h }
    else { body := tokens.toArray, final := closing tokens, pos := 0 }

/-- The token `n` places ahead, or the last one if the list ends before it. -/
def peek (c : Cursor) (n : Nat) : Token := c.body.getD (c.pos + n) c.final

/-- The token at the cursor. -/
def current (c : Cursor) : Token := c.peek 0

/-- The value of the number at the cursor, or what is wrong with it.  Other tokens have none. -/
def number? (c : Cursor) : Option (Except Literal.Fault Int) :=
  if c.current.kind = .number then some (Literal.read c.current.value) else none

/-- The current token is an end token. -/
def isAtEnd (c : Cursor) : Bool := c.current.kind == .eof

/-- The number of tokens between the cursor and the last token. -/
def tokensLeft (c : Cursor) : Nat := c.body.size - c.pos

/-- At the place past the body there is the last token. -/
theorem lt_of_current_kind_ne {c : Cursor} (h : c.current.kind ≠ .eof) : c.pos < c.body.size := by
  rcases Nat.lt_or_ge c.pos c.body.size with hlt | hge
  · exact hlt
  · refine absurd ?_ h
    simp [current, peek, Array.getD, Nat.not_lt.mpr hge, c.final_kind]

/-! ## 2. Moving -/

/-- The cursor one token further on, or where it is if that token is an end token. -/
def advance (c : Cursor) : Cursor :=
  if h : c.current.kind = .eof then c
  else { c with pos := c.pos + 1, pos_le := lt_of_current_kind_ne h }

/-- The cursor at a given place, or at the last token if the list ends before it. -/
def seek (c : Cursor) (pos : Nat) : Cursor :=
  { c with pos := min pos c.body.size, pos_le := Nat.min_le_right .. }

@[simp] theorem body_advance (c : Cursor) : c.advance.body = c.body := by
  unfold advance; split <;> rfl

@[simp] theorem final_advance (c : Cursor) : c.advance.final = c.final := by
  unfold advance; split <;> rfl

@[simp] theorem toList_advance (c : Cursor) : c.advance.toList = c.toList := by simp [toList]

@[simp] theorem toList_seek (c : Cursor) (pos : Nat) : (c.seek pos).toList = c.toList := rfl

theorem pos_advance (c : Cursor) :
    c.advance.pos = if c.current.kind = .eof then c.pos else c.pos + 1 := by
  unfold advance; split <;> simp_all

@[simp] theorem pos_seek (c : Cursor) (pos : Nat) :
    (c.seek pos).pos = min pos c.body.size := rfl

/-- Over the same tokens, going back to a place leads to the very cursor that was there. -/
theorem seek_of_toList_eq {c d : Cursor} (h : d.toList = c.toList) : d.seek c.pos = c := by
  have hlist : d.body.toList = c.body.toList ∧ [d.final] = [c.final] :=
    List.append_inj' h rfl
  have hbody : d.body = c.body := Array.toList_inj.mp hlist.1
  have hfinal : d.final = c.final := List.head_eq_of_cons_eq hlist.2
  cases d with
  | mk body final pos final_kind pos_le =>
    cases c with
    | mk body' final' pos' final_kind' pos_le' =>
      simp only at hbody hfinal
      subst hbody hfinal
      simp [seek, Nat.min_eq_left pos_le']

theorem seek_pos_self (c : Cursor) : c.seek c.pos = c := seek_of_toList_eq rfl

/-! ## 3. Closing a list -/

/-- A list whose last token is an end token is left as it is; any other gets one more token. -/
theorem toList_ofList (tokens : List Token) :
    (ofList tokens).toList =
      if tokens.getLast?.map (·.kind) = some .eof then tokens else tokens ++ [closing tokens] := by
  unfold ofList
  split
  · next h => simp_all [toList, List.getLast?_eq_none_iff]
  · next last h =>
    have hne : tokens ≠ [] := by rintro rfl; simp at h
    have hlast : tokens.getLast hne = last := by
      rw [List.getLast?_eq_some_getLast hne] at h; exact Option.some.inj h
    split
    · next he =>
      simp only [h, Option.map_some, he, if_true, toList]
      rw [← hlast]; exact List.dropLast_concat_getLast hne
    · next he => simp [h, he, toList]

/-- A cursor's list always ends with its end token. -/
theorem getLast?_toList (c : Cursor) : c.toList.getLast? = some c.final := by simp [toList]

theorem length_toList (c : Cursor) : c.toList.length = c.body.size + 1 := by simp [toList]

/-- Looking ahead finds the token at that place of the list, or else the end token. -/
theorem peek_eq_getD (c : Cursor) (n : Nat) : c.peek n = c.toList.getD (c.pos + n) c.final := by
  rw [peek, toList, Array.getD_eq_getD_getElem?, List.getD_eq_getElem?_getD]
  rcases Nat.lt_trichotomy (c.pos + n) c.body.size with h | h | h
  · rw [List.getElem?_append_left (by simpa using h), Array.getElem?_toList]
  · simp [h]
  · have hb : c.body[c.pos + n]? = none := Array.getElem?_eq_none (by omega)
    have hl : (c.body.toList ++ [c.final])[c.pos + n]? = none :=
      List.getElem?_eq_none (by simp; omega)
    rw [hb, hl]

/-- Looking ahead finds a token of the list. -/
theorem getElem?_toList_peek (c : Cursor) (n : Nat) :
    c.toList[min (c.pos + n) c.body.size]? = some (c.peek n) := by
  rw [toList, peek, Array.getD_eq_getD_getElem?]
  rcases Nat.lt_or_ge (c.pos + n) c.body.size with h | h
  · rw [Nat.min_eq_left (Nat.le_of_lt h), List.getElem?_append_left (by simpa using h)]
    simp [h]
  · rw [Nat.min_eq_right h]
    simp [Array.getElem?_eq_none h]

/-- The place of the cursor is that of the current token. -/
theorem getElem?_toList_current (c : Cursor) : c.toList[c.pos]? = some c.current := by
  have hfirst := c.getElem?_toList_peek 0
  rwa [Nat.add_zero, Nat.min_eq_left c.pos_le] at hfirst

/-! ## 4. Steps -/

/-- A step of a walk over the tokens. -/
inductive Step
  | advance
  | peek (n : Nat)
  | seek (pos : Nat)
  deriving DecidableEq, Repr

/-- Carries out one step.  Moving on gives the token that is left behind, and looking ahead the one
that is seen. -/
def Step.run : Step → Cursor → Option Token × Cursor
  | .advance, c => (some c.current, c.advance)
  | .peek n, c => (some (c.peek n), c)
  | .seek pos, c => (none, c.seek pos)

end Cursor

end IntC
