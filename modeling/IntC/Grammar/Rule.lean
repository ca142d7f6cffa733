/-
# Rules

A grammar rule reads tokens at a cursor.  It either succeeds with what it read or fails with a
diagnostic, and in both cases says in which state the parse then is: a rule that fails keeps
whatever it did to the state, except what `backtrack` and `deeper` undo.

* `backtrack` puts the cursor back where it was if the rule inside fails.
* `deeper` runs a rule inside one more argument list, of which at most `maxNesting` can be open.
* `attempt` turns the failure of a rule into a value, so that the rule around it can go on.
-/
import IntC.Diagnostic
import IntC.Scope
import IntC.Token.Cursor

namespace IntC

/-- How many argument lists can be open inside one another. -/
def maxNesting : Nat := 128

/-! ## 1. States -/

/-- Where a parse stands: the cursor, the names in scope and the number of open argument lists. -/
structure State where
  cursor : Cursor
  scope : Scope
  depth : Nat
  file : String

namespace State

/-- The state before anything has been read. -/
def start (tokens : List Token) (file : String) : State :=
  ⟨.ofList tokens, .initial, 0, file⟩

/-- The token at the cursor. -/
def current (s : State) : Token := s.cursor.current

/-- The place of the current token. -/
def position (s : State) : Position := s.current.span.start

/-- A diagnostic for the current token. -/
def diagnose (s : State) (cause : Cause) : Diagnostic := ⟨cause, s.position⟩

/-- The diagnostic for a current token that cannot stand there. -/
def unexpected (s : State) : Diagnostic := s.diagnose (.unexpectedToken s.current.value)

/-- The state with the cursor moved on. -/
def advance (s : State) : State := { s with cursor := s.cursor.advance }

/-- The state with the cursor put at a place. -/
def seek (s : State) (pos : Nat) : State := { s with cursor := s.cursor.seek pos }

end State

/-! ## 2. Rules and their parts -/

/-- A rule that reads an `α`. -/
abbrev Rule (α : Type) := EStateM Diagnostic State α

namespace Rule

/-- Something about the state. -/
def look (f : State → α) : Rule α := fun s => .ok (f s) s

/-- A change of the names in scope. -/
def update (f : Scope → Scope) : Rule Unit := fun s => .ok () { s with scope := f s.scope }

/-- The token at the cursor. -/
def current : Rule Token := look State.current

/-- The kind of the current token. -/
def currentKind : Rule Token.Kind := look fun s => s.current.kind

/-- The kind of the token `n` places ahead. -/
def peekKind (n : Nat) : Rule Token.Kind := look fun s => (s.cursor.peek n).kind

/-- The place of the current token. -/
def position : Rule Position := look State.position

/-- The names in scope. -/
def scope : Rule Scope := look State.scope

/-- The number of tokens before the last, from the cursor on. -/
def tokensLeft : Rule Nat := look fun s => s.cursor.tokensLeft

/-- Moves on, and gives the token that was current. -/
def advance : Rule Token := fun s => .ok s.current s.advance

/-- Puts the cursor at a place. -/
def seek (pos : Nat) : Rule Unit := fun s => .ok () (s.seek pos)

/-- Fails at the current token. -/
def fail (cause : Cause) : Rule α := fun s => .error (s.diagnose cause) s

/-- Fails at a place that was read before. -/
def failAt (position : Position) (cause : Cause) : Rule α := fun s => .error ⟨cause, position⟩ s

/-- Fails because of the current token. -/
def unexpected : Rule α := fun s => .error s.unexpected s

/-- Reads one token of a kind. -/
def expect (kind : Token.Kind) : Rule Token := fun s =>
  if s.current.kind = kind then advance s else unexpected s

/-- Runs a rule and gives its failure as a value. -/
def attempt (rule : Rule α) : Rule (Except Diagnostic α) := fun s =>
  match rule s with
  | .ok a s' => .ok (.ok a) s'
  | .error e s' => .ok (.error e) s'

/-- Runs a rule; if it fails, the cursor goes back to where it was. -/
def backtrack (rule : Rule α) : Rule α := fun s =>
  match rule s with
  | .ok a s' => .ok a s'
  | .error e s' => .error e (s'.seek s.cursor.pos)

/-- Runs a rule inside one more argument list, which is closed again whatever comes of the rule. -/
def deeper (rule : Rule α) : Rule α := fun s =>
  if maxNesting ≤ s.depth then fail (.nestedTooDeep maxNesting) s
  else match rule { s with depth := s.depth + 1 } with
    | .ok a s' => .ok a { s' with depth := s'.depth - 1 }
    | .error e s' => .error e { s' with depth := s'.depth - 1 }

/-! ## 3. What came of the parts

Each part of a rule succeeds or fails in exactly one way, and these say in which.  With them a rule
is taken apart without opening the definitions above. -/

theorem look_bind_apply (g : State → α) (f : α → Rule β) (s : State) :
    (look g >>= f) s = f (g s) s := rfl

theorem advance_bind_apply (f : Token → Rule β) (s : State) :
    (advance >>= f) s = f s.current s.advance := rfl

theorem seek_bind_apply (pos : Nat) (f : Unit → Rule β) (s : State) :
    (seek pos >>= f) s = f () (s.seek pos) := rfl

theorem update_bind_apply (g : Scope → Scope) (f : Unit → Rule β) (s : State) :
    (update g >>= f) s = f () { s with scope := g s.scope } := rfl

theorem expect_bind_apply (kind : Token.Kind) (f : Token → Rule β) (s : State) :
    (expect kind >>= f) s =
      if s.current.kind = kind then f s.current s.advance else .error s.unexpected s := by
  show EStateM.bind (expect kind) f s = _
  by_cases h : s.current.kind = kind
  · simp [EStateM.bind, expect, advance, h]
  · simp [EStateM.bind, expect, unexpected, h]

theorem bind_of_ok {r : Rule α} {f : α → Rule β} {s t : State} {a : α} (h : r s = .ok a t) :
    (r >>= f) s = f a t := by
  show EStateM.bind r f s = _
  rw [EStateM.bind, h]

theorem bind_of_error {r : Rule α} {f : α → Rule β} {s t : State} {e : Diagnostic}
    (h : r s = .error e t) : (r >>= f) s = .error e t := by
  show EStateM.bind r f s = _
  rw [EStateM.bind, h]

theorem attempt_of_ok {r : Rule α} {s t : State} {a : α} (h : r s = .ok a t) :
    attempt r s = .ok (.ok a) t := by
  rw [attempt, h]

theorem attempt_of_error {r : Rule α} {s t : State} {e : Diagnostic} (h : r s = .error e t) :
    attempt r s = .ok (.error e) t := by
  rw [attempt, h]

theorem bind_eq_ok_iff {r : Rule α} {f : α → Rule β} {s s' : State} {b : β} :
    (r >>= f) s = .ok b s' ↔ ∃ a t, r s = .ok a t ∧ f a t = .ok b s' := by
  show EStateM.bind r f s = .ok b s' ↔ _
  unfold EStateM.bind
  cases r s with
  | ok a t => exact ⟨fun h => ⟨a, t, rfl, h⟩, fun ⟨_, _, h, h'⟩ => by cases h; exact h'⟩
  | error e t => simp

theorem bind_eq_error_iff {r : Rule α} {f : α → Rule β} {s s' : State} {e : Diagnostic} :
    (r >>= f) s = .error e s' ↔
      r s = .error e s' ∨ ∃ a t, r s = .ok a t ∧ f a t = .error e s' := by
  show EStateM.bind r f s = .error e s' ↔ _
  unfold EStateM.bind
  cases r s with
  | ok a t =>
    constructor
    · exact fun h => .inr ⟨a, t, rfl, h⟩
    · rintro (h | ⟨_, _, h, h'⟩)
      · cases h
      · cases h; exact h'
  | error e' t => simp

theorem expect_eq_ok_iff {kind : Token.Kind} {s s' : State} {t : Token} :
    expect kind s = .ok t s' ↔ s.current.kind = kind ∧ t = s.current ∧ s' = s.advance := by
  unfold expect
  split
  · next h => simp [advance, h, eq_comm]
  · next h => simp [unexpected, h]

/-- What `backtrack` reads is what the rule inside reads. -/
theorem backtrack_eq_ok_iff {r : Rule α} {s s' : State} {a : α} :
    backtrack r s = .ok a s' ↔ r s = .ok a s' := by
  unfold backtrack
  cases r s <;> simp

/-- A failure comes from the rule inside, and the cursor is put back. -/
theorem backtrack_eq_error_iff {r : Rule α} {s s' : State} {e : Diagnostic} :
    backtrack r s = .error e s' ↔ ∃ t, r s = .error e t ∧ s' = t.seek s.cursor.pos := by
  unfold backtrack
  cases r s with
  | ok a t => simp
  | error e' t =>
    constructor
    · rintro ⟨⟩
      exact ⟨t, rfl, rfl⟩
    · rintro ⟨_, ⟨⟩, rfl⟩
      rfl

theorem attempt_eq_ok_iff {r : Rule α} {s s' : State} {x : Except Diagnostic α} :
    attempt r s = .ok x s' ↔
      (∃ a, x = .ok a ∧ r s = .ok a s') ∨ ∃ e, x = .error e ∧ r s = .error e s' := by
  unfold attempt
  cases r s with
  | ok a t =>
    constructor
    · rintro ⟨⟩
      exact .inl ⟨a, rfl, rfl⟩
    · rintro (⟨_, rfl, ⟨⟩⟩ | ⟨_, _, ⟨⟩⟩)
      rfl
  | error e t =>
    constructor
    · rintro ⟨⟩
      exact .inr ⟨e, rfl, rfl⟩
    · rintro (⟨_, _, ⟨⟩⟩ | ⟨_, rfl, ⟨⟩⟩)
      rfl

theorem deeper_eq_ok_iff {r : Rule α} {s s' : State} {a : α} :
    deeper r s = .ok a s' ↔ s.depth < maxNesting ∧
      ∃ t, r { s with depth := s.depth + 1 } = .ok a t ∧ s' = { t with depth := t.depth - 1 } := by
  unfold deeper
  split
  · next h => simp [fail, Nat.not_lt.mpr h]
  · next h =>
    cases r { s with depth := s.depth + 1 } with
    | ok b t =>
      constructor
      · rintro ⟨⟩
        exact ⟨by omega, t, rfl, rfl⟩
      · rintro ⟨-, _, ⟨⟩, rfl⟩
        rfl
    | error e t => simp

theorem deeper_eq_error_iff {r : Rule α} {s s' : State} {e : Diagnostic} :
    deeper r s = .error e s' ↔
      maxNesting ≤ s.depth ∧ e = s.diagnose (.nestedTooDeep maxNesting) ∧ s' = s ∨
      s.depth < maxNesting ∧ ∃ t, r { s with depth := s.depth + 1 } = .error e t ∧
        s' = { t with depth := t.depth - 1 } := by
  unfold deeper
  split
  · next h => simp [fail, h, Nat.not_lt.mpr h, eq_comm]
  · next h =>
    cases r { s with depth := s.depth + 1 } with
    | ok b t => simp [h]
    | error e' t =>
      constructor
      · rintro ⟨⟩
        exact .inr ⟨by omega, t, rfl, rfl⟩
      · rintro (⟨hle, -⟩ | ⟨-, _, ⟨⟩, rfl⟩)
        · exact absurd hle h
        · rfl

/-- `attempt` never fails. -/
theorem attempt_ne_error {r : Rule α} {s s' : State} {e : Diagnostic} :
    attempt r s ≠ .error e s' := by
  unfold attempt
  cases r s <;> simp

end Rule

end IntC
