/-
# Walks over tokens

A token list can be empty, can lack an end token, and can hold end tokens in the middle, at which
moving on stops and over which going to a place jumps.  Tokens are looked up by their place, and
whether there is a token at a place is nowhere asked.  It never has to be: the list is closed when
the cursor is made, moving on does not leave an end token, and going to a place stops at the last.

`Step.Does` says what a step does in terms of a bare list and a place in it.  Each look-up in it is
one that finds a token, so a cursor whose steps do this never looks outside of its list.  And as no
step changes the list, a place that the cursor has had leads back to the token it had there, however
far it has gone in the meantime.

* `closes_ofList`: the list a cursor is made with.
* `Step.does_run`, `Step.toList_run`: what one step does and keeps.
* `walk_inside`: what holds at every moment of every walk.
-/
import IntC.Token.Cursor

namespace IntC.Cursor

/-! ## 1. The list -/

/-- The second list is the first one with an end token as its last: the one that it has, or else one
more, whose span is empty and stands where the last token ends. -/
inductive Closes : List Token → List Token → Prop
  | closed {front : List Token} {last : Token} (hlast : last.kind = .eof) :
      Closes (front ++ [last]) (front ++ [last])
  | lacking {front : List Token} {last : Token} (hlast : last.kind ≠ .eof) :
      Closes (front ++ [last]) (front ++ [last] ++ [.endAt last.span.stop])
  | empty : Closes [] [.endAt .null]

theorem closes_ofList (tokens : List Token) : Closes tokens (ofList tokens).toList := by
  rw [toList_ofList]
  rcases List.eq_nil_or_concat tokens with rfl | ⟨front, last, rfl⟩
  · exact .empty
  · rw [List.concat_eq_append, List.getLast?_concat, Option.map_some]
    by_cases hlast : last.kind = .eof
    · rw [if_pos (congrArg some hlast)]
      exact .closed hlast
    · rw [if_neg (by simpa using hlast), closing, List.getLast?_concat]
      exact .lacking hlast

/-! ## 2. One step -/

/-- At place `p` of the list, the step gives the token, if it gives one, and leads to the place. -/
inductive Step.Does (list : List Token) (p : Nat) : Step → Option Token → Nat → Prop
  | advance {token : Token} (hget : list[p]? = some token) (hkind : token.kind ≠ .eof) :
      Does list p .advance (some token) (p + 1)
  | stay {token : Token} (hget : list[p]? = some token) (hkind : token.kind = .eof) :
      Does list p .advance (some token) p
  | peek {n : Nat} {token : Token} (hget : list[p + n]? = some token) :
      Does list p (.peek n) (some token) p
  | peekBeyond {n : Nat} {token : Token} (hbeyond : list.length ≤ p + n)
      (hlast : list.getLast? = some token) : Does list p (.peek n) (some token) p
  | seek {pos : Nat} (hpos : pos < list.length) : Does list p (.seek pos) none pos
  | seekBeyond {pos : Nat} (hbeyond : list.length ≤ pos) :
      Does list p (.seek pos) none (list.length - 1)

/-- **What one step of a cursor does**, in terms of its list and its place. -/
theorem Step.does_run (step : Step) (c : Cursor) :
    step.Does c.toList c.pos (step.run c).1 (step.run c).2.pos := by
  have hlength := c.length_toList
  cases step with
  | advance =>
    show Does _ _ _ (some c.current) c.advance.pos
    rw [pos_advance]
    by_cases hkind : c.current.kind = .eof
    · rw [if_pos hkind]
      exact .stay c.getElem?_toList_current hkind
    · rw [if_neg hkind]
      exact .advance c.getElem?_toList_current hkind
  | peek n =>
    show Does _ _ _ (some (c.peek n)) c.pos
    rcases Nat.lt_or_ge (c.pos + n) c.toList.length with hlt | hge
    · have hget := c.getElem?_toList_peek n
      rw [Nat.min_eq_left (by omega)] at hget
      exact .peek hget
    · refine .peekBeyond hge ?_
      rw [getLast?_toList, peek_eq_getD, List.getD_eq_getElem?_getD, List.getElem?_eq_none hge,
        Option.getD_none]
  | seek pos =>
    show Does _ _ _ none (c.seek pos).pos
    rw [pos_seek]
    rcases Nat.lt_or_ge pos c.toList.length with hlt | hge
    · rw [Nat.min_eq_left (by omega)]
      exact .seek hlt
    · rw [Nat.min_eq_right (by omega), show c.body.size = c.toList.length - 1 by omega]
      exact .seekBeyond hge

/-- No step changes the list. -/
theorem Step.toList_run (step : Step) (c : Cursor) : (step.run c).2.toList = c.toList := by
  cases step with
  | advance => exact c.toList_advance
  | peek n => rfl
  | seek pos => exact c.toList_seek pos

/-! ## 3. All steps -/

/-- The cursor that the steps lead to. -/
def walk (steps : List Step) (c : Cursor) : Cursor :=
  steps.foldl (fun c step => (step.run c).2) c

theorem toList_walk (steps : List Step) (c : Cursor) : (walk steps c).toList = c.toList := by
  induction steps generalizing c with
  | nil => rfl
  | cons step steps ih => exact (ih _).trans (step.toList_run c)

/-- **A cursor never leaves its list.**  The list is the given one, closed at its end, and the same
at every moment of every walk.  The place of the cursor is the place of a token in it, which is the
current token, and whatever step comes next does in the list what it should.  And after any more
steps, going to the place of that moment brings back the cursor as it was, and with it the current
token. -/
theorem walk_inside (tokens : List Token) :
    ∃ list, Closes tokens list ∧ (∃ last, list.getLast? = some last ∧ last.kind = .eof) ∧
      ∀ steps c, c = walk steps (ofList tokens) →
        c.toList = list ∧ list[c.pos]? = some c.current ∧
          (∀ step : Step, step.Does list c.pos (step.run c).1 (step.run c).2.pos) ∧
          ∀ later, (walk later c).seek c.pos = c := by
  refine ⟨_, closes_ofList tokens, ⟨_, getLast?_toList _, final_kind _⟩, ?_⟩
  intro steps c hc
  have hlist : c.toList = (ofList tokens).toList := by rw [hc, toList_walk]
  rw [← hlist]
  exact ⟨rfl, c.getElem?_toList_current, fun step => step.does_run c,
    fun later => seek_of_toList_eq (toList_walk later c)⟩

end IntC.Cursor
