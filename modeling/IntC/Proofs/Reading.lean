/-
# Reading lexemes off the tokens

`s.Reads ls t` says that the lexemes `ls` stand at the cursor of `s`, and that `t` is `s` with the
cursor behind them.  It splits where the lexemes split (`State.reads_append`), it uses up one token
for each lexeme (`Cursor.Reads.tokensLeft`), and it touches nothing but the cursor.

The second half says what it takes for the parts of a rule to succeed, in the form in which they
stand in a rule: in front of the rest of it (`look_bind_eq_ok_iff` and so on).
-/
import IntC.Proofs.Language

namespace IntC

variable {α β : Type}

/-! ## 1. Lexemes at a cursor -/

namespace Cursor

/-- The lexemes stand at the first cursor, and the second is the one behind them. -/
def Reads : Cursor → List Lexeme → Cursor → Prop
  | c, [], d => d = c
  | c, l :: ls, d => l.Matches c.current ∧ l.kind ≠ .eof ∧ c.advance.Reads ls d

theorem reads_append {ls ls' : List Lexeme} {c e : Cursor} :
    c.Reads (ls ++ ls') e ↔ ∃ d, c.Reads ls d ∧ d.Reads ls' e := by
  induction ls generalizing c with
  | nil => simp [Reads]
  | cons l ls ih => simp [Reads, ih, and_assoc]

/-- The token behind one that is no end token is the next one. -/
theorem peek_one_eq {c : Cursor} (h : c.current.kind ≠ .eof) : c.peek 1 = c.advance.current := by
  have hpos : c.advance.pos = c.pos + 1 := by rw [pos_advance, if_neg h]
  simp only [current, peek, body_advance, final_advance, hpos, Nat.add_zero]

theorem tokensLeft_advance {c : Cursor} (h : c.current.kind ≠ .eof) :
    c.advance.tokensLeft + 1 = c.tokensLeft := by
  have hlt : c.pos < c.body.size := lt_of_current_kind_ne h
  simp only [tokensLeft, body_advance, pos_advance, if_neg h]
  omega

/-- Each lexeme takes one token. -/
theorem Reads.tokensLeft {ls : List Lexeme} {c d : Cursor} (h : c.Reads ls d) :
    d.tokensLeft + ls.length = c.tokensLeft := by
  induction ls generalizing c with
  | nil => rw [h]; rfl
  | cons l ls ih =>
    obtain ⟨hl, hne, h⟩ := h
    have hc : c.current.kind ≠ .eof := hl.kind_eq ▸ hne
    have hrest := ih h
    have hfirst := tokensLeft_advance hc
    simp only [List.length_cons]
    omega

/-- With no tokens left but the last, the cursor is at an end token. -/
theorem current_kind_of_tokensLeft {c : Cursor} (h : c.tokensLeft = 0) : c.current.kind = .eof := by
  by_cases hne : c.current.kind = .eof
  · exact hne
  · have := tokensLeft_advance hne
    omega

end Cursor

/-! ## 2. Lexemes at a state -/

namespace State

/-- The lexemes stand at the first state, and the second differs from it by being behind them. -/
def Reads (s : State) (ls : List Lexeme) (t : State) : Prop :=
  s.cursor.Reads ls t.cursor ∧ t = { s with cursor := t.cursor }

theorem reads_nil {s t : State} : s.Reads [] t ↔ t = s := by
  constructor
  · rintro ⟨hc, ht⟩
    rw [ht, show t.cursor = s.cursor from hc]
  · rintro rfl
    exact ⟨rfl, rfl⟩

theorem reads_cons {s t : State} {l : Lexeme} {ls : List Lexeme} :
    s.Reads (l :: ls) t ↔ l.Matches s.current ∧ l.kind ≠ .eof ∧ s.advance.Reads ls t :=
  ⟨fun ⟨⟨hl, hne, hc⟩, ht⟩ => ⟨hl, hne, hc, ht⟩, fun ⟨hl, hne, hc, ht⟩ => ⟨⟨hl, hne, hc⟩, ht⟩⟩

theorem reads_append {s t : State} {ls ls' : List Lexeme} :
    s.Reads (ls ++ ls') t ↔ ∃ u, s.Reads ls u ∧ u.Reads ls' t := by
  constructor
  · rintro ⟨hc, ht⟩
    obtain ⟨d, hd, hd'⟩ := Cursor.reads_append.mp hc
    exact ⟨{ s with cursor := d }, ⟨hd, rfl⟩, hd', ht⟩
  · rintro ⟨u, ⟨hd, hu⟩, hd', ht⟩
    refine ⟨Cursor.reads_append.mpr ⟨u.cursor, hd, hd'⟩, ?_⟩
    rw [ht, hu]

@[simp] theorem scope_advance (s : State) : s.advance.scope = s.scope := by
  cases s
  rfl

@[simp] theorem depth_advance (s : State) : s.advance.depth = s.depth := by
  cases s
  rfl

theorem tokensLeft_advance {s : State} (h : s.current.kind ≠ .eof) :
    s.advance.cursor.tokensLeft + 1 = s.cursor.tokensLeft :=
  Cursor.tokensLeft_advance h

/-- Behind a token that is no end token, looking one place ahead is moving on. -/
theorem peek_one_kind {s : State} {kind : Token.Kind} (h : s.current.kind = kind)
    (hne : kind ≠ .eof) : (s.cursor.peek 1).kind = s.advance.current.kind := by
  have hcurrent : s.cursor.current.kind ≠ .eof := by
    rw [show s.cursor.current.kind = kind from h]
    exact hne
  rw [Cursor.peek_one_eq hcurrent]
  rfl

/-- A single mark is a kind of token. -/
theorem reads_mark_cons {s t : State} {kind : Token.Kind} {ls : List Lexeme} (hne : kind ≠ .eof) :
    s.Reads (.mark kind :: ls) t ↔ s.current.kind = kind ∧ s.advance.Reads ls t := by
  rw [reads_cons]
  exact ⟨fun ⟨h, _, h'⟩ => ⟨h, h'⟩, fun ⟨h, h'⟩ => ⟨h, hne, h'⟩⟩

theorem reads_mark {s t : State} {kind : Token.Kind} (hne : kind ≠ .eof) :
    s.Reads [.mark kind] t ↔ s.current.kind = kind ∧ t = s.advance := by
  rw [reads_mark_cons hne, reads_nil]

/-- What is closed by a mark ends where the mark stands. -/
theorem reads_append_mark {s t : State} {ls : List Lexeme} {kind : Token.Kind}
    (hne : kind ≠ .eof) :
    s.Reads (ls ++ [.mark kind]) t ↔
      ∃ u, s.Reads ls u ∧ u.current.kind = kind ∧ t = u.advance := by
  simp only [reads_append, reads_mark hne]

theorem reads_word_cons {s t : State} {name : String} {ls : List Lexeme} :
    s.Reads (.word name :: ls) t ↔
      s.current.kind = .identifier ∧ s.current.value = name ∧ s.advance.Reads ls t := by
  rw [reads_cons]
  exact ⟨fun ⟨⟨hk, hv⟩, _, h⟩ => ⟨hk, hv, h⟩, fun ⟨hk, hv, h⟩ => ⟨⟨hk, hv⟩, nofun, h⟩⟩

theorem reads_mark_self {s : State} {kind : Token.Kind} (hne : kind ≠ .eof)
    (h : s.current.kind = kind) : s.Reads [.mark kind] s.advance :=
  (reads_mark hne).mpr ⟨h, rfl⟩

theorem reads_word_self {s : State} (h : s.current.kind = .identifier) :
    s.Reads [.word s.current.value] s.advance :=
  reads_word_cons.mpr ⟨h, rfl, reads_nil.mpr rfl⟩

/-- The number of open argument lists is no matter for the tokens. -/
theorem reads_deeper_iff {s t : State} {ls : List Lexeme} :
    Reads { s with depth := s.depth + 1 } ls { t with depth := t.depth + 1 } ↔ s.Reads ls t := by
  constructor
  · rintro ⟨hc, ht⟩
    refine ⟨hc, ?_⟩
    cases t
    simp_all
  · rintro ⟨hc, ht⟩
    refine ⟨hc, ?_⟩
    cases t
    simp_all

namespace Reads

variable {s t : State} {ls : List Lexeme}

theorem scope_eq (h : s.Reads ls t) : t.scope = s.scope := by rw [h.2]

theorem depth_eq (h : s.Reads ls t) : t.depth = s.depth := by rw [h.2]

theorem tokensLeft (h : s.Reads ls t) : t.cursor.tokensLeft + ls.length = s.cursor.tokensLeft :=
  h.1.tokensLeft

/-- The first lexeme is at the state itself. -/
theorem current_kind {l : Lexeme} (h : s.Reads (l :: ls) t) : s.current.kind = l.kind :=
  (reads_cons.mp h).1.kind_eq

/-- The second lexeme is one place ahead. -/
theorem peek_kind {l l' : Lexeme} (h : s.Reads (l :: l' :: ls) t) :
    (s.cursor.peek 1).kind = l'.kind := by
  obtain ⟨hl, hne, h'⟩ := reads_cons.mp h
  have hc : s.cursor.current.kind ≠ .eof := hl.kind_eq ▸ hne
  rw [Cursor.peek_one_eq hc]
  exact h'.current_kind

end Reads

end State

/-- A state in front of tokens of the kinds and texts, of which no place is known. -/
def State.ofTexts (tokens : List (Token.Kind × String)) : State :=
  .start (tokens.map fun (kind, text) => ⟨kind, text, .empty .null⟩) ""

/-! ## 3. When the parts of a rule succeed -/

namespace Rule

variable {s t : State} {b : β}

theorem pure_eq_ok_iff {a a' : α} : (pure a : Rule α) s = .ok a' t ↔ a' = a ∧ t = s := by
  constructor
  · rintro ⟨⟩
    exact ⟨rfl, rfl⟩
  · rintro ⟨rfl, rfl⟩
    rfl

theorem look_bind_eq_ok_iff {g : State → α} {f : α → Rule β} :
    (look g >>= f) s = .ok b t ↔ f (g s) s = .ok b t := Iff.rfl

theorem advance_bind_eq_ok_iff {f : Token → Rule β} :
    (advance >>= f) s = .ok b t ↔ f s.current s.advance = .ok b t := Iff.rfl

theorem seek_bind_eq_ok_iff {pos : Nat} {f : Unit → Rule β} :
    (seek pos >>= f) s = .ok b t ↔ f () (s.seek pos) = .ok b t := Iff.rfl

theorem update_bind_eq_ok_iff {g : Scope → Scope} {f : Unit → Rule β} :
    (update g >>= f) s = .ok b t ↔ f () { s with scope := g s.scope } = .ok b t := Iff.rfl

theorem expect_bind_eq_ok_iff {kind : Token.Kind} {f : Token → Rule β} :
    (expect kind >>= f) s = .ok b t ↔
      s.current.kind = kind ∧ f s.current s.advance = .ok b t := by
  rw [bind_eq_ok_iff]
  constructor
  · rintro ⟨token, u, hu, h⟩
    obtain ⟨hk, rfl, rfl⟩ := expect_eq_ok_iff.mp hu
    exact ⟨hk, h⟩
  · rintro ⟨hk, h⟩
    exact ⟨s.current, s.advance, expect_eq_ok_iff.mpr ⟨hk, rfl, rfl⟩, h⟩

theorem attempt_bind_eq_ok_iff {r : Rule α} {f : Except Diagnostic α → Rule β} :
    (attempt r >>= f) s = .ok b t ↔
      (∃ a u, r s = .ok a u ∧ f (.ok a) u = .ok b t) ∨
        ∃ e u, r s = .error e u ∧ f (.error e) u = .ok b t := by
  rw [bind_eq_ok_iff]
  constructor
  · rintro ⟨x, u, hu, h⟩
    rcases attempt_eq_ok_iff.mp hu with ⟨a, rfl, ha⟩ | ⟨e, rfl, he⟩
    · exact .inl ⟨a, u, ha, h⟩
    · exact .inr ⟨e, u, he, h⟩
  · rintro (⟨a, u, ha, h⟩ | ⟨e, u, he, h⟩)
    · exact ⟨.ok a, u, attempt_eq_ok_iff.mpr (.inl ⟨a, rfl, ha⟩), h⟩
    · exact ⟨.error e, u, attempt_eq_ok_iff.mpr (.inr ⟨e, rfl, he⟩), h⟩

theorem fail_ne_ok {cause : Cause} {a : α} : (fail cause : Rule α) s ≠ .ok a t := nofun

theorem failAt_ne_ok {p : Position} {cause : Cause} {a : α} :
    (failAt p cause : Rule α) s ≠ .ok a t := nofun

theorem unexpected_ne_ok {a : α} : (unexpected : Rule α) s ≠ .ok a t := nofun

theorem throw_ne_ok {e : Diagnostic} {a : α} : (throw e : Rule α) s ≠ .ok a t := nofun

end Rule

end IntC
