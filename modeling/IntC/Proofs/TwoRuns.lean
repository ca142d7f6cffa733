/-
# Two runs of a rule

Some properties speak of two parses at once: whatever differs between the two sources must not make
the parser take another branch.  For these a rule is run from two related states, and both runs have
to come out alike, with related results or related diagnostics and again from related states
(`Paired`).

What a rule can see of the cursor is the kinds of the tokens ahead, its place, and how far it is to
the end.  A relation under which all of this is the same and that moving the cursor preserves
(`Lockstep`) lets two runs go through a rule part by part.
-/
import IntC.Grammar.Rule

namespace IntC

variable {α β γ δ : Type}

/-- Both outcomes are successes with related values, or both are failures with related diagnostics.
The states after them are related. -/
inductive Agree (R : State → State → Prop) (E : Diagnostic → Diagnostic → Prop) (V : α → β → Prop) :
    EStateM.Result Diagnostic State α → EStateM.Result Diagnostic State β → Prop
  | ok {a : α} {b : β} {t t' : State} (hvalue : V a b) (hstate : R t t') :
      Agree R E V (.ok a t) (.ok b t')
  | error {e e' : Diagnostic} {t t' : State} (hfault : E e e') (hstate : R t t') :
      Agree R E V (.error e t) (.error e' t')

/-- Two outcomes that agree, taken apart. -/
theorem Agree.cases {R : State → State → Prop} {E : Diagnostic → Diagnostic → Prop}
    {V : α → β → Prop} {x : EStateM.Result Diagnostic State α}
    {x' : EStateM.Result Diagnostic State β} (h : Agree R E V x x') :
    (∃ a b t t', x = .ok a t ∧ x' = .ok b t' ∧ V a b ∧ R t t') ∨
      ∃ e e' t t', x = .error e t ∧ x' = .error e' t' ∧ E e e' ∧ R t t' := by
  cases h with
  | ok hvalue hstate => exact .inl ⟨_, _, _, _, rfl, rfl, hvalue, hstate⟩
  | error hfault hstate => exact .inr ⟨_, _, _, _, rfl, rfl, hfault, hstate⟩

/-- A relation between states that are at the same place of two token lists of the same kinds, with
the diagnostics that a rule can make up from the place alone. -/
class Lockstep (R : State → State → Prop) (E : outParam (Diagnostic → Diagnostic → Prop)) :
    Prop where
  pos {s s' : State} : R s s' → s'.cursor.pos = s.cursor.pos
  left {s s' : State} : R s s' → s'.cursor.tokensLeft = s.cursor.tokensLeft
  kind {s s' : State} (n : Nat) : R s s' → (s'.cursor.peek n).kind = (s.cursor.peek n).kind
  depth {s s' : State} : R s s' → s'.depth = s.depth
  advance {s s' : State} : R s s' → R s.advance s'.advance
  seek {s s' : State} (pos : Nat) : R s s' → R (s.seek pos) (s'.seek pos)
  setDepth {s s' : State} (depth : Nat) :
    R s s' → R { s with depth := depth } { s' with depth := depth }
  unexpected {s s' : State} : R s s' → E s.unexpected s'.unexpected
  tooDeep {s s' : State} : R s s' →
    E (s.diagnose (.nestedTooDeep maxNesting)) (s'.diagnose (.nestedTooDeep maxNesting))

theorem Lockstep.current {R : State → State → Prop} {E : Diagnostic → Diagnostic → Prop}
    [Lockstep R E] {s s' : State} (h : R s s') : s'.current.kind = s.current.kind :=
  Lockstep.kind 0 h

namespace Rule

/-- From related states the two rules come out alike. -/
def Paired (R : State → State → Prop) (E : Diagnostic → Diagnostic → Prop) (V : α → β → Prop)
    (r : Rule α) (r' : Rule β) : Prop :=
  ∀ ⦃s s'⦄, R s s' → Agree R E V (r s) (r' s')

/-! ## 1. Parts that hold for any relation -/

section Parts

variable {R : State → State → Prop} {E : Diagnostic → Diagnostic → Prop} {V : α → β → Prop}
  {W : γ → δ → Prop} {r : Rule α} {r' : Rule β} {f : α → Rule γ} {f' : β → Rule δ}

theorem Paired.bind (h : Paired R E V r r') (hf : ∀ a b, V a b → Paired R E W (f a) (f' b)) :
    Paired R E W (r >>= f) (r' >>= f') := by
  intro s s' hs
  show Agree R E W (EStateM.bind r f s) (EStateM.bind r' f' s')
  unfold EStateM.bind
  rcases (h hs).cases with ⟨a, b, t, t', hr, hr', hvalue, ht⟩ | ⟨e, e', t, t', hr, hr', hfault, ht⟩
  · rw [hr, hr']
    exact hf a b hvalue ht
  · rw [hr, hr']
    exact .error hfault ht

/-- Where the second value is made from the first, the rest has to be alike for that one only. -/
theorem Paired.bind_map {g : α → β} (h : Paired R E (fun a b => b = g a) r r')
    (hf : ∀ a, Paired R E W (f a) (f' (g a))) : Paired R E W (r >>= f) (r' >>= f') := by
  refine h.bind ?_
  rintro a _ rfl
  exact hf a

theorem Paired.pure {a : α} {b : β} (h : V a b) : Paired R E V (pure a) (pure b) :=
  fun _ _ hs => .ok h hs

theorem Paired.look {g : State → α} {g' : State → β} (h : ∀ {s s'}, R s s' → V (g s) (g' s')) :
    Paired R E V (look g) (look g') :=
  fun _ _ hs => .ok (h hs) hs

theorem Paired.update {g g' : Scope → Scope}
    (h : ∀ {s s'}, R s s' → R { s with scope := g s.scope } { s' with scope := g' s'.scope }) :
    Paired R E (fun _ _ => True) (update g) (update g') :=
  fun _ _ hs => .ok trivial (h hs)

theorem Paired.fail {cause cause' : Cause}
    (h : ∀ {s s'}, R s s' → E (s.diagnose cause) (s'.diagnose cause')) :
    Paired R E V (fail cause) (fail cause') :=
  fun _ _ hs => .error (h hs) hs

theorem Paired.failAt {p p' : Position} {cause cause' : Cause} (h : E ⟨cause, p⟩ ⟨cause', p'⟩) :
    Paired R E V (failAt p cause) (failAt p' cause') :=
  fun _ _ hs => .error h hs

theorem Paired.throw {e e' : Diagnostic} (h : E e e') :
    Paired R E V (throw e) (throw e') :=
  fun _ _ hs => .error h hs

/-- What is done with an attempt depends on what came of it, which is the same in both runs. -/
theorem Paired.attempt_bind {f : Except Diagnostic α → Rule γ} {f' : Except Diagnostic β → Rule δ}
    (h : Paired R E V r r') (hok : ∀ a b, V a b → Paired R E W (f (.ok a)) (f' (.ok b)))
    (herror : ∀ e e', E e e' → Paired R E W (f (.error e)) (f' (.error e'))) :
    Paired R E W (attempt r >>= f) (attempt r' >>= f') := by
  intro s s' hs
  show Agree R E W (EStateM.bind (attempt r) f s) (EStateM.bind (attempt r') f' s')
  unfold EStateM.bind attempt
  rcases (h hs).cases with ⟨a, b, t, t', hr, hr', hvalue, ht⟩ | ⟨e, e', t, t', hr, hr', hfault, ht⟩
  · rw [hr, hr']
    exact hok a b hvalue ht
  · rw [hr, hr']
    exact herror e e' hfault ht

theorem Paired.ite {p p' : Prop} [Decidable p] [Decidable p'] {r₁ r₂ : Rule α} {r₁' r₂' : Rule β}
    (hiff : p' ↔ p) (h₁ : Paired R E V r₁ r₁') (h₂ : Paired R E V r₂ r₂') :
    Paired R E V (if p then r₁ else r₂) (if p' then r₁' else r₂') := by
  by_cases h : p
  · rw [if_pos h, if_pos (hiff.mpr h)]
    exact h₁
  · rw [if_neg h, if_neg (fun h' => h (hiff.mp h'))]
    exact h₂

/-! ## 2. Parts that move the cursor or look at it -/

variable [Lockstep R E]

theorem Paired.currentKind : Paired R E (fun k k' => k' = k) currentKind currentKind :=
  .look (Lockstep.current ·)

theorem Paired.peekKind (n : Nat) : Paired R E (fun k k' => k' = k) (peekKind n) (peekKind n) :=
  .look (Lockstep.kind n)

theorem Paired.tokensLeft : Paired R E (fun n n' => n' = n) tokensLeft tokensLeft :=
  .look Lockstep.left

theorem Paired.unexpected : Paired R E V unexpected unexpected :=
  fun _ _ hs => .error (Lockstep.unexpected hs) hs

theorem Paired.seek (pos : Nat) : Paired R E (fun _ _ => True) (seek pos) (seek pos) :=
  fun _ _ hs => .ok trivial (Lockstep.seek pos hs)

theorem Paired.advance {T : Token → Token → Prop} (h : ∀ {s s'}, R s s' → T s.current s'.current) :
    Paired R E T advance advance :=
  fun _ _ hs => .ok (h hs) (Lockstep.advance hs)

theorem Paired.expect {T : Token → Token → Prop} {kind : Token.Kind}
    (h : ∀ {s s'}, R s s' → s.current.kind = kind → T s.current s'.current) :
    Paired R E T (expect kind) (expect kind) := by
  intro s s' hs
  unfold Rule.expect
  rw [Lockstep.current hs]
  split
  · next hkind => exact .ok (h hs hkind) (Lockstep.advance hs)
  · exact .error (Lockstep.unexpected hs) hs

theorem Paired.backtrack (h : Paired R E V r r') : Paired R E V (backtrack r) (backtrack r') := by
  intro s s' hs
  unfold Rule.backtrack
  rcases (h hs).cases with ⟨a, b, t, t', hr, hr', hvalue, ht⟩ | ⟨e, e', t, t', hr, hr', hfault, ht⟩
  · rw [hr, hr']
    exact .ok hvalue ht
  · rw [hr, hr', Lockstep.pos hs]
    exact .error hfault (Lockstep.seek _ ht)

theorem Paired.deeper (h : Paired R E V r r') : Paired R E V (deeper r) (deeper r') := by
  intro s s' hs
  have hinside := h (Lockstep.setDepth (s.depth + 1) hs)
  unfold Rule.deeper
  rw [Lockstep.depth hs]
  split
  · exact .error (Lockstep.tooDeep hs) hs
  · rcases hinside.cases with
      ⟨a, b, t, t', hr, hr', hvalue, ht⟩ | ⟨e, e', t, t', hr, hr', hfault, ht⟩
    · simp only [hr, hr', Lockstep.depth ht]
      exact .ok hvalue (Lockstep.setDepth _ ht)
    · simp only [hr, hr', Lockstep.depth ht]
      exact .error hfault (Lockstep.setDepth _ ht)

end Parts

end Rule

end IntC
