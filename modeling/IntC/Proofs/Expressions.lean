/-
# The rules for expressions read exactly the admissible expressions

For each rule this file says when it succeeds, with what and where it then stands: with the
expression whose lexemes stand at the cursor, provided that the expression is admissible at the
rule's strength (`Exact`).  The rules for products and sums also say what does *not* follow, since
they go on for as long as an operator does.

* `primary_eq_ok_iff`, `callWith_eq_ok_iff`, `operand_eq_ok_iff`: what an operator stands between.
* `multiplicative_eq_ok_iff`, `additive_eq_ok_iff`: products and sums.
* `assignment_eq_ok_iff`: assignments, under the condition that no `=` follows.  An assignment whose
  value cannot be read is given up for its variable, and then stands in front of the `=`.  Nothing
  that can follow an expression is an `=`, so such a reading goes nowhere.

Loops become runs of steps (`Link`), and the circle through the arguments is an induction on the
number of argument lists that can still be opened (`argument_exact`).
-/
import Mathlib.Logic.Relation
import IntC.Proofs.Frame
import IntC.Proofs.Reading

namespace IntC.Grammar

open Rule

/-! ## 1. Exact rules -/

/-- The rule succeeds exactly on the expressions that stand at the cursor and are admissible at the
strength `least`, if what follows satisfies `Stop`. -/
def Exact (r : Rule Expr) (levels least : Nat) (Stop : State → Prop) : Prop :=
  ∀ ⦃s : State⦄ ⦃e : Expr⦄ ⦃t : State⦄, maxNesting - s.depth = levels →
    (r s = .ok e t ↔ s.Reads e.yield t ∧ e.Admissible s.scope levels least ∧ Stop t)

/-- No operator but `=` stands at the state. -/
def NoOperator (t : State) : Prop :=
  Operator.multiplicative? t.current.kind = none ∧ Operator.additive? t.current.kind = none

/-- The rule is exact for assignments and sums, as far as no `=` follows. -/
def ExactArgument (r : Rule Expr) (levels : Nat) : Prop :=
  ∀ ⦃s : State⦄ ⦃e : Expr⦄ ⦃t : State⦄, maxNesting - s.depth = levels →
    t.current.kind ≠ .assignment →
      (r s = .ok e t ↔ s.Reads e.yield t ∧ e.Admissible s.scope levels 0 ∧ NoOperator t)

/-- What may follow an argument is neither an operator nor an `=`. -/
theorem noOperator_of_closes {t : State}
    (h : t.current.kind = .comma ∨ t.current.kind = .closeParen ∨ t.current.kind = .semicolon) :
    NoOperator t ∧ t.current.kind ≠ .assignment := by
  rcases h with h | h | h
  · rw [NoOperator, h]; decide
  · rw [NoOperator, h]; decide
  · rw [NoOperator, h]; decide

/-- A rule that keeps the scope succeeds inside one more argument list where it succeeds with one
more open before and after. -/
theorem deeper_eq_ok_iff_of_within {α : Type} {r : Rule α} (hr : Within KeepsScope r) {s t : State}
    {a : α} :
    deeper r s = .ok a t ↔ s.depth < maxNesting ∧
      r { s with depth := s.depth + 1 } = .ok a { t with depth := t.depth + 1 } := by
  rw [deeper_eq_ok_iff]
  refine and_congr_right fun _ => ?_
  constructor
  · rintro ⟨u, hu, rfl⟩
    have hdepth : u.depth = s.depth + 1 := (hr.of_ok hu).depth
    have hsame : ({ u with depth := u.depth - 1 + 1 } : State) = u := by
      rw [Nat.sub_add_cancel (by omega)]
    show r _ = .ok a { u with depth := u.depth - 1 + 1 }
    rw [hsame]
    exact hu
  · intro h
    exact ⟨_, h, rfl⟩

/-- What is read as an expression starts with a name or a number. -/
theorem current_kind_of_reads {s t : State} {e : Expr} {scope : Scope} {levels least : Nat}
    {ls : List Lexeme} (h : s.Reads (e.yield ++ ls) t) (hadm : e.Admissible scope levels least) :
    s.current.kind = .identifier ∨ s.current.kind = .number := by
  obtain ⟨l, rest, hl, hkind⟩ := Expr.exists_yield_eq_cons hadm.shape
  rw [hl, List.cons_append] at h
  rw [h.current_kind]
  exact hkind

/-! ## 2. Variables, numbers and calls -/

section Yields

variable {s t : State} {x : String}

theorem reads_var_iff :
    s.Reads (Expr.var x).yield t ↔
      s.current.kind = .identifier ∧ s.current.value = x ∧ t = s.advance := by
  rw [Expr.yield, State.reads_word_cons, State.reads_nil]

/-- A call stands where its callee, an opening parenthesis, its arguments and a closing parenthesis
do. -/
theorem reads_call_iff {args : List Expr} :
    s.Reads (Expr.call x args).yield t ↔
      s.current.kind = .identifier ∧ s.current.value = x ∧ s.advance.current.kind = .openParen ∧
        ∃ u, s.advance.advance.Reads (Expr.argsYield args) u ∧ u.current.kind = .closeParen ∧
          t = u.advance := by
  rw [Expr.yield, State.reads_word_cons, State.reads_mark_cons (by decide),
    State.reads_append_mark (by decide)]

end Yields

/-- With no argument list to open, only variables and numbers can be read. -/
theorem primary_eq_ok_iff {s : State} {e : Expr} {t : State} :
    primary s = .ok e t ↔ s.Reads e.yield t ∧ e.Admissible s.scope 0 3 := by
  constructor
  · intro h
    simp only [primary, Rule.current, Rule.scope, look_bind_eq_ok_iff] at h
    cases hk : s.current.kind with
    | identifier =>
      simp only [hk] at h
      rw [look_bind_eq_ok_iff] at h
      by_cases hvar : s.scope.isVariable s.current.value = true
      · rw [if_pos hvar, advance_bind_eq_ok_iff, pure_eq_ok_iff] at h
        obtain ⟨rfl, rfl⟩ := h
        exact ⟨reads_var_iff.mpr ⟨hk, rfl, rfl⟩,
          Expr.admissible_var_iff.mpr (Scope.isVariable_iff.mp hvar)⟩
      · rw [if_neg hvar] at h
        exact absurd h fail_ne_ok
    | number =>
      simp only [hk] at h
      cases hv : Literal.read s.current.value with
      | ok value =>
        simp only [hv] at h
        rw [advance_bind_eq_ok_iff, pure_eq_ok_iff] at h
        obtain ⟨rfl, rfl⟩ := h
        have hne : (Lexeme.number value).kind ≠ .eof := by
          intro hkind
          cases hkind
        exact ⟨State.reads_cons.mpr ⟨⟨hk, hv⟩, hne, State.reads_nil.mpr rfl⟩,
          Expr.admissible_num value⟩
      | error fault =>
        simp only [hv] at h
        exact absurd h fail_ne_ok
    | dash => simp only [hk] at h; exact absurd h fail_ne_ok
    | _ => simp only [hk] at h; exact absurd h unexpected_ne_ok
  · rintro ⟨hreads, hadm⟩
    cases e with
    | num value =>
      obtain ⟨⟨hk, hv⟩, -, ht⟩ := State.reads_cons.mp hreads
      obtain rfl := State.reads_nil.mp ht
      simp only [primary, Rule.current, look_bind_eq_ok_iff, hk, hv]
      rfl
    | var x =>
      obtain ⟨hk, rfl, rfl⟩ := reads_var_iff.mp hreads
      have hx : s.scope.isVariable s.current.value = true :=
        Scope.isVariable_iff.mpr (Expr.admissible_var_iff.mp hadm)
      simp only [primary, Rule.current, Rule.scope, look_bind_eq_ok_iff, hk, hx, if_true]
      rfl
    | call f args => exact absurd hadm Expr.not_admissible_call_zero
    | binary op left right => exact absurd hadm Expr.not_admissible_binary
    | empty => exact absurd hadm Expr.not_admissible_empty

/-- A name that is no variable is refused and left where it is. -/
theorem primary_of_unknown {s : State} (hk : s.current.kind = .identifier)
    (hx : s.current.value ∉ s.scope.vars) :
    primary s = .error (s.diagnose (.unknownVariable s.current.value)) s := by
  have hvar : s.scope.isVariable s.current.value = false := by
    rw [← Bool.not_eq_true, Scope.isVariable_iff]
    exact hx
  simp only [primary, Rule.current, Rule.scope, look, bind, EStateM.bind, hk, hvar]
  rfl

theorem argsYield_cons {arg : Expr} {more : List Expr} (h : more ≠ []) :
    Expr.argsYield (arg :: more) = arg.yield ++ .mark .comma :: Expr.argsYield more := by
  cases more with
  | nil => exact absurd rfl h
  | cons arg' more => rfl

theorem argsYield_eq_append (arg : Expr) (more : List Expr) :
    ∃ ls, Expr.argsYield (arg :: more) = arg.yield ++ ls := by
  cases more with
  | nil => exact ⟨[], by simp [Expr.argsYield]⟩
  | cons arg' more => exact ⟨_, rfl⟩

section Circle

variable {arg : Rule Expr} {levels : Nat}

/-- One argument or more, up to the closing parenthesis. -/
theorem argumentsFrom_eq_ok_iff (harg : ExactArgument arg levels) {t : State}
    (ht : t.current.kind = .closeParen) :
    ∀ {rounds : Nat} {s : State} {args : List Expr}, maxNesting - s.depth = levels →
      s.cursor.tokensLeft ≤ rounds →
      (argumentsFrom arg rounds s = .ok args t ↔ args ≠ [] ∧ s.Reads (Expr.argsYield args) t ∧
        ∀ a ∈ args, a.Admissible s.scope levels 0) := by
  intro rounds
  induction rounds with
  | zero =>
    intro s args hl hrounds
    refine iff_of_false unexpected_ne_ok ?_
    rintro ⟨hne, hreads, hadm⟩
    -- an argument starts with a name or a number, and there is no token left for it
    obtain ⟨a, more, rfl⟩ := List.exists_cons_of_ne_nil hne
    have heof : s.current.kind = .eof :=
      Cursor.current_kind_of_tokensLeft (Nat.le_zero.mp hrounds)
    obtain ⟨ls, hls⟩ := argsYield_eq_append a more
    rw [hls] at hreads
    have hkind := current_kind_of_reads hreads (hadm a (by simp))
    simp [heof] at hkind
  | succ rounds ih =>
    intro s args hl hrounds
    rw [argumentsFrom, bind_eq_ok_iff]
    constructor
    · rintro ⟨first, u, hfirst, h⟩
      rw [currentKind, look_bind_eq_ok_iff] at h
      split at h
      · next hcomma =>
        obtain ⟨hstop, hne⟩ := noOperator_of_closes (.inl hcomma)
        obtain ⟨hreads, hadm, -⟩ := (harg hl hne).mp hfirst
        obtain ⟨more, v, hmore, h⟩ := bind_eq_ok_iff.mp (advance_bind_eq_ok_iff.mp h)
        obtain ⟨rfl, rfl⟩ := pure_eq_ok_iff.mp h
        have hleft := hreads.tokensLeft
        have hnext := State.tokensLeft_advance (s := u) (by rw [hcomma]; decide)
        have hlu : maxNesting - u.advance.depth = levels := by
          rw [← hl, ← hreads.depth_eq]; rfl
        obtain ⟨hnemore, hreads', hadm'⟩ := (ih hlu (by omega)).mp hmore
        refine ⟨List.cons_ne_nil _ _, ?_, ?_⟩
        · rw [argsYield_cons hnemore]
          exact State.reads_append.mpr
            ⟨u, hreads, (State.reads_mark_cons (by decide)).mpr ⟨hcomma, hreads'⟩⟩
        · have hscope : u.advance.scope = s.scope := hreads.scope_eq
          rw [hscope] at hadm'
          simpa using ⟨hadm, hadm'⟩
      · obtain ⟨rfl, rfl⟩ := pure_eq_ok_iff.mp h
        obtain ⟨hstop, hne⟩ := noOperator_of_closes (.inr (.inl ht))
        obtain ⟨hreads, hadm, -⟩ := (harg hl hne).mp hfirst
        exact ⟨List.cons_ne_nil _ _, hreads, by simpa using hadm⟩
    · rintro ⟨hne, hreads, hadm⟩
      obtain ⟨first, more, rfl⟩ := List.exists_cons_of_ne_nil hne
      by_cases hmore : more = []
      · subst hmore
        obtain ⟨hstop, hassign⟩ := noOperator_of_closes (.inr (.inl ht))
        refine ⟨first, t, (harg hl hassign).mpr ⟨hreads, hadm first (by simp), hstop⟩, ?_⟩
        rw [currentKind, look_bind_eq_ok_iff, if_neg (by rw [ht]; decide)]
        rfl
      · rw [argsYield_cons hmore] at hreads
        obtain ⟨u, hfirst, hrest⟩ := State.reads_append.mp hreads
        obtain ⟨hcomma, hrest⟩ := (State.reads_mark_cons (by decide)).mp hrest
        obtain ⟨hstop, hassign⟩ := noOperator_of_closes (.inl hcomma)
        refine ⟨first, u, (harg hl hassign).mpr ⟨hfirst, hadm first (by simp), hstop⟩, ?_⟩
        rw [currentKind, look_bind_eq_ok_iff, if_pos hcomma, advance_bind_eq_ok_iff, bind_eq_ok_iff]
        have hleft := hfirst.tokensLeft
        have hnext := State.tokensLeft_advance (s := u) (by rw [hcomma]; decide)
        have hlu : maxNesting - u.advance.depth = levels := by
          rw [← hl, ← hfirst.depth_eq]; rfl
        have hscope : u.advance.scope = s.scope := hfirst.scope_eq
        refine ⟨more, t, (ih hlu (by omega)).mpr ⟨hmore, hrest, ?_⟩, rfl⟩
        rw [hscope]
        exact fun a ha => hadm a (by simp [ha])

/-- The inside of an argument list, up to the closing parenthesis. -/
theorem arguments_eq_ok_iff (harg : ExactArgument arg levels) {s t : State} {args : List Expr}
    (hl : maxNesting - s.depth = levels) (ht : t.current.kind = .closeParen) :
    arguments arg s = .ok args t ↔ s.Reads (Expr.argsYield args) t ∧
      ∀ a ∈ args, a.Admissible s.scope levels 0 := by
  rw [arguments, currentKind, look_bind_eq_ok_iff]
  by_cases hclose : s.current.kind = .closeParen
  · rw [if_pos hclose, pure_eq_ok_iff]
    constructor
    · rintro ⟨rfl, rfl⟩
      exact ⟨State.reads_nil.mpr rfl, by simp⟩
    · rintro ⟨hreads, hadm⟩
      cases args with
      | nil => exact ⟨rfl, State.reads_nil.mp hreads⟩
      | cons a more =>
        -- no argument starts with a closing parenthesis
        obtain ⟨ls, hls⟩ := argsYield_eq_append a more
        rw [hls] at hreads
        have hkind := current_kind_of_reads hreads (hadm a (by simp))
        simp [hclose] at hkind
  · rw [if_neg hclose, tokensLeft, look_bind_eq_ok_iff,
      argumentsFrom_eq_ok_iff harg ht hl (Nat.le_refl _)]
    constructor
    · rintro ⟨-, h⟩
      exact h
    · rintro ⟨hreads, hadm⟩
      refine ⟨?_, hreads, hadm⟩
      rintro rfl
      obtain rfl := State.reads_nil.mp hreads
      exact hclose ht

/-- What the parentheses hold, in terms of the states outside of them. -/
theorem deeper_arguments_eq_ok_iff (hkeep : Within KeepsScope arg)
    (harg : ExactArgument arg levels) {s t : State} {args : List Expr}
    (hl : maxNesting - s.depth = levels + 1) (ht : t.current.kind = .closeParen) :
    deeper (arguments arg) s = .ok args t ↔ s.Reads (Expr.argsYield args) t ∧
      ∀ a ∈ args, a.Admissible s.scope levels 0 := by
  have hlt : s.depth < maxNesting := by omega
  have hl' : maxNesting - (s.depth + 1) = levels := by omega
  have hin := @arguments_eq_ok_iff arg levels harg { s with depth := s.depth + 1 }
    { t with depth := t.depth + 1 } args hl' ht
  rw [deeper_eq_ok_iff_of_within (within_arguments hkeep), and_iff_right hlt, hin,
    State.reads_deeper_iff]

/-- A call: a known function, with an argument for each of its parameters, where at least one more
argument list can be opened. -/
theorem callWith_eq_ok_iff (hkeep : Within KeepsScope arg) (harg : ExactArgument arg levels)
    {s t : State} {e : Expr} (hl : maxNesting - s.depth = levels + 1) :
    callWith arg s = .ok e t ↔ ∃ f args, e = .call f args ∧ s.Reads e.yield t ∧
      s.scope.arity? f = some args.length ∧ ∀ a ∈ args, a.Admissible s.scope levels 0 := by
  have hinside {u : State} {args : List Expr} (hu : u.current.kind = .closeParen) :
      deeper (arguments arg) s.advance.advance = .ok args u ↔
        s.advance.advance.Reads (Expr.argsYield args) u ∧
          ∀ a ∈ args, a.Admissible s.scope levels 0 := by
    have hlevels : maxNesting - s.advance.advance.depth = levels + 1 := by simpa using hl
    have hscope : s.advance.advance.scope = s.scope := by simp
    rw [deeper_arguments_eq_ok_iff hkeep harg hlevels hu, hscope]
  rw [callWith, backtrack_eq_ok_iff, Rule.position, look_bind_eq_ok_iff, expect_bind_eq_ok_iff,
    Rule.scope, look_bind_eq_ok_iff, State.scope_advance]
  constructor
  · rintro ⟨hname, h⟩
    cases harity : s.scope.arity? s.current.value with
    | none =>
      rw [harity] at h
      exact absurd h failAt_ne_ok
    | some arity =>
      rw [harity] at h
      obtain ⟨hopen, hparens⟩ := expect_bind_eq_ok_iff.mp h
      obtain ⟨args, u, hargs, hend⟩ := bind_eq_ok_iff.mp hparens
      obtain ⟨hclose, hcheck⟩ := expect_bind_eq_ok_iff.mp hend
      by_cases hcount : args.length = arity
      · rw [if_pos hcount, pure_eq_ok_iff] at hcheck
        obtain ⟨rfl, rfl⟩ := hcheck
        obtain ⟨hreads, hadm⟩ := (hinside hclose).mp hargs
        refine ⟨s.current.value, args, rfl, ?_, by rw [harity, hcount], hadm⟩
        exact reads_call_iff.mpr ⟨hname, rfl, hopen, u, hreads, hclose, rfl⟩
      · rw [if_neg hcount] at hcheck
        exact absurd hcheck failAt_ne_ok
  · rintro ⟨f, args, rfl, hreads, harity, hadm⟩
    obtain ⟨hname, hf, hopen, u, hargs, hclose, rfl⟩ := reads_call_iff.mp hreads
    refine ⟨hname, ?_⟩
    rw [hf, harity]
    refine expect_bind_eq_ok_iff.mpr ⟨hopen, bind_eq_ok_iff.mpr ⟨args, u, ?_, ?_⟩⟩
    · exact (hinside hclose).mpr ⟨hargs, hadm⟩
    · refine expect_bind_eq_ok_iff.mpr ⟨hclose, ?_⟩
      rw [if_pos rfl]
      rfl

/-- With no argument list to open there is no call. -/
theorem callWith_ne_ok {s t : State} {e : Expr} (hl : maxNesting - s.depth = 0) :
    callWith arg s ≠ .ok e t := by
  rw [callWith, ne_eq, backtrack_eq_ok_iff, Rule.position, look_bind_eq_ok_iff,
    expect_bind_eq_ok_iff, Rule.scope, look_bind_eq_ok_iff]
  rintro ⟨-, h⟩
  cases harity : s.advance.scope.arity? s.current.value with
  | none =>
    rw [harity] at h
    exact absurd h failAt_ne_ok
  | some arity =>
    rw [harity] at h
    obtain ⟨-, hparens⟩ := expect_bind_eq_ok_iff.mp h
    obtain ⟨args, u, hargs, -⟩ := bind_eq_ok_iff.mp hparens
    have hdepth : s.advance.advance.depth < maxNesting := (deeper_eq_ok_iff.mp hargs).1
    rw [State.depth_advance, State.depth_advance] at hdepth
    omega

/-- An operand: a name in scope and a number are tried before a call, so the name of a call is no
variable. -/
theorem operandWith_exact (hkeep : Within KeepsScope arg)
    (harg : ∀ l, levels = l + 1 → ExactArgument arg l) :
    Exact (operandWith arg) levels 3 fun _ => True := by
  intro s e t hl
  rw [operandWith, attempt_bind_eq_ok_iff]
  constructor
  · rintro (⟨a, u, hprimary, h⟩ | ⟨noPrimary, u, hprimary, h⟩)
    · obtain ⟨rfl, rfl⟩ := pure_eq_ok_iff.mp h
      obtain ⟨hreads, hadm⟩ := primary_eq_ok_iff.mp hprimary
      exact ⟨hreads, ⟨hadm.shape, hadm.known, Nat.le_trans hadm.height (Nat.zero_le _)⟩, trivial⟩
    · obtain rfl := within_primary.eq_of_error undoes_primary hprimary
      rw [peekKind, look_bind_eq_ok_iff, attempt_bind_eq_ok_iff] at h
      rcases h with ⟨a, v, hcall, h⟩ | ⟨noCall, v, -, h⟩
      · obtain ⟨rfl, rfl⟩ := pure_eq_ok_iff.mp h
        cases levels with
        | zero => exact absurd hcall (callWith_ne_ok hl)
        | succ l =>
          obtain ⟨f, args, rfl, hreads, harity, hadm⟩ :=
            (callWith_eq_ok_iff hkeep (harg l rfl) hl).mp hcall
          refine ⟨hreads, Expr.admissible_call_iff.mpr ⟨?_, harity, hadm⟩, trivial⟩
          -- had the name been a variable, it would have been read as one
          intro hf
          obtain ⟨hname, hvalue, -⟩ := reads_call_iff.mp hreads
          have hvar : primary u = .ok (.var f) u.advance :=
            primary_eq_ok_iff.mpr
              ⟨reads_var_iff.mpr ⟨hname, hvalue, rfl⟩, Expr.admissible_var_iff.mpr hf⟩
          rw [hvar] at hprimary
          cases hprimary
      · exact absurd h throw_ne_ok
  · rintro ⟨hreads, hadm, -⟩
    cases e with
    | num value => exact .inl ⟨_, t, primary_eq_ok_iff.mpr ⟨hreads, Expr.admissible_num value⟩, rfl⟩
    | var x =>
      have hx : (Expr.var x).Admissible s.scope 0 3 :=
        Expr.admissible_var_iff.mpr (Expr.admissible_var_iff.mp hadm)
      exact .inl ⟨_, t, primary_eq_ok_iff.mpr ⟨hreads, hx⟩, rfl⟩
    | call f args =>
      cases levels with
      | zero => exact absurd hadm Expr.not_admissible_call_zero
      | succ l =>
        obtain ⟨hf, harity, hargs⟩ := Expr.admissible_call_iff.mp hadm
        obtain ⟨hname, hvalue, -⟩ := reads_call_iff.mp hreads
        refine .inr ⟨_, s, primary_of_unknown hname (hvalue ▸ hf), ?_⟩
        rw [peekKind, look_bind_eq_ok_iff, attempt_bind_eq_ok_iff]
        exact .inl ⟨_, t, (callWith_eq_ok_iff hkeep (harg l rfl) hl).mpr
          ⟨f, args, rfl, hreads, harity, hargs⟩, rfl⟩
    | binary op left right => exact absurd hadm Expr.not_admissible_binary
    | empty => exact absurd hadm Expr.not_admissible_empty

end Circle

/-! ## 3. Operands with operators between them -/

section Chain

variable {operator? : Token.Kind → Option Operator} {r : Rule Expr} {levels k : Nat}
  {Stop : State → Prop}

/-- One round of a chain: an operator, and an operand that becomes the right one. -/
def Link (operator? : Token.Kind → Option Operator) (r : Rule Expr) (x y : Expr × State) : Prop :=
  ∃ op right, operator? x.2.current.kind = some op ∧ r x.2.advance = .ok right y.2 ∧
    y.1 = .binary op x.1 right

/-- **A chain is a run of links** up to a place where no operator stands.  No operand gives tokens
back, so with a round for each token the rounds suffice. -/
theorem chain_eq_ok_iff (heof : operator? .eof = none) (hr : Exact r levels k Stop) {e : Expr}
    {t : State} : ∀ {rounds : Nat} {left : Expr} {s : State}, maxNesting - s.depth = levels →
      s.cursor.tokensLeft ≤ rounds → (chain operator? r rounds left s = .ok e t ↔
        Relation.ReflTransGen (Link operator? r) (left, s) (e, t) ∧
          operator? t.current.kind = none) := by
  -- where no operator stands, a chain and a run of links both end at once
  have hend {left : Expr} {s : State} (hs : operator? s.current.kind = none) :
      Relation.ReflTransGen (Link operator? r) (left, s) (e, t) ∧ operator? t.current.kind = none ↔
        e = left ∧ t = s := by
    constructor
    · rintro ⟨hrun, -⟩
      rcases Relation.ReflTransGen.cases_head hrun with heq | ⟨y, ⟨op, right, hop, -⟩, -⟩
      · obtain ⟨rfl, rfl⟩ := Prod.mk.inj heq
        exact ⟨rfl, rfl⟩
      · rw [show (left, s).2 = s from rfl, hs] at hop
        cases hop
    · rintro ⟨rfl, rfl⟩
      exact ⟨.refl, hs⟩
  intro rounds
  induction rounds with
  | zero =>
    intro left s hl hrounds
    have hkind : s.current.kind = .eof :=
      Cursor.current_kind_of_tokensLeft (Nat.le_zero.mp hrounds)
    rw [hend (by rw [hkind, heof]), chain, pure_eq_ok_iff]
  | succ rounds ih =>
    intro left s hl hrounds
    rw [chain, currentKind, look_bind_eq_ok_iff]
    cases hop : operator? s.current.kind with
    | none => rw [hend hop, pure_eq_ok_iff]
    | some op =>
      have hne : s.current.kind ≠ .eof := by
        intro hkind
        rw [hkind, heof] at hop
        cases hop
      have hnext := State.tokensLeft_advance hne
      have hright {right : Expr} {u : State} (h : r s.advance = .ok right u) :
          maxNesting - u.depth = levels ∧ u.cursor.tokensLeft ≤ rounds := by
        have hreads := ((hr (s := s.advance) hl).mp h).1
        have hdepth : u.depth = s.depth := hreads.depth_eq
        have hleft := hreads.tokensLeft
        omega
      rw [advance_bind_eq_ok_iff, bind_eq_ok_iff]
      constructor
      · rintro ⟨right, u, hu, hrest⟩
        obtain ⟨hrun, hstop⟩ := (ih (hright hu).1 (hright hu).2).mp hrest
        exact ⟨.head ⟨op, right, hop, hu, rfl⟩ hrun, hstop⟩
      · rintro ⟨hrun, hstop⟩
        rcases Relation.ReflTransGen.cases_head hrun with heq | ⟨⟨e', u⟩, hlink, hrun'⟩
        · obtain ⟨rfl, rfl⟩ := Prod.mk.inj heq
          rw [hstop] at hop
          cases hop
        · obtain ⟨op', right, hop', hu, rfl⟩ := hlink
          obtain rfl : op = op' := Option.some.inj (hop.symm.trans hop')
          exact ⟨right, u, hu, (ih (hright hu).1 (hright hu).2).mpr ⟨hrun', hstop⟩⟩

/-- What a run of links has read, from the start of its first operand on. -/
theorem reads_of_links (hk : 0 < k)
    (hop : ∀ {kind op}, operator? kind = some op ↔ op.kind = kind ∧ op.strength = k)
    (hr : Exact r levels (k + 1) Stop) {s u : State} {first : Expr}
    (hl : maxNesting - s.depth = levels) (hfirst : r s = .ok first u) {y : Expr × State}
    (hrun : Relation.ReflTransGen (Link operator? r) (first, u) y) :
    s.Reads y.1.yield y.2 ∧ y.1.Admissible s.scope levels k ∧ Stop y.2 := by
  induction hrun with
  | refl =>
    obtain ⟨hreads, hadm, hstop⟩ := (hr hl).mp hfirst
    exact ⟨hreads, hadm.mono (Nat.le_succ k), hstop⟩
  | @tail x y _ hlink ih =>
    obtain ⟨op, right, hkind, hright, hy⟩ := hlink
    obtain ⟨hreads, hadm, -⟩ := ih
    obtain ⟨hmark, rfl⟩ := hop.mp hkind
    have hlx : maxNesting - x.2.advance.depth = levels := by
      rw [← hl, ← hreads.depth_eq]
      rfl
    obtain ⟨hreads', hadm', hstop'⟩ := (hr hlx).mp hright
    have hscope : x.2.advance.scope = s.scope := hreads.scope_eq
    rw [hscope] at hadm'
    have hne : op.kind ≠ .eof := by cases op <;> decide
    rw [hy]
    refine ⟨State.reads_append.mpr ⟨x.2, hreads, ?_⟩, ?_, hstop'⟩
    · exact (State.reads_mark_cons hne).mpr ⟨hmark.symm, hreads'⟩
    · exact (Expr.admissible_tier_iff hk).mpr (.inr ⟨op, x.1, right, rfl, rfl, hadm, hadm'⟩)

/-- What can be read is read by a first operand and a run of links. -/
theorem exists_links (hk : 0 < k)
    (hop : ∀ {kind op}, operator? kind = some op ↔ op.kind = kind ∧ op.strength = k)
    (hr : Exact r levels (k + 1) Stop)
    (hstop : ∀ {t : State} {op}, operator? t.current.kind = some op → Stop t) {s : State}
    (hl : maxNesting - s.depth = levels) :
    ∀ (e : Expr) {t : State}, s.Reads e.yield t → e.Admissible s.scope levels k → Stop t →
      ∃ first u, r s = .ok first u ∧
        Relation.ReflTransGen (Link operator? r) (first, u) (e, t) := by
  intro e
  induction h : e.yield.length using Nat.strongRecOn generalizing e with
  | ind n ih =>
    intro t hreads hadm ht
    rcases (Expr.admissible_tier_iff hk).mp hadm with
      hadm | ⟨op, left, right, rfl, rfl, hleft, hright⟩
    · exact ⟨e, t, (hr hl).mpr ⟨hreads, hadm, ht⟩, .refl⟩
    · obtain ⟨u, hreads, hrest⟩ := State.reads_append.mp hreads
      have hne : op.kind ≠ .eof := by cases op <;> decide
      obtain ⟨hmark, hrest⟩ := (State.reads_mark_cons hne).mp hrest
      have hkind : operator? u.current.kind = some op := hop.mpr ⟨hmark.symm, rfl⟩
      have hshort : left.yield.length < n := by
        rw [← h, Expr.yield, List.length_append, List.length_cons]
        omega
      obtain ⟨first, v, hfirst, hrun⟩ := ih _ hshort left rfl hreads hleft (hstop hkind)
      have hlu : maxNesting - u.advance.depth = levels := by
        rw [← hl, ← hreads.depth_eq]
        rfl
      have hscope : u.advance.scope = s.scope := hreads.scope_eq
      refine ⟨first, v, hfirst, hrun.tail ⟨op, right, hkind, (hr hlu).mpr ⟨hrest, ?_, ht⟩, rfl⟩⟩
      rw [hscope]
      exact hright

/-- **From one strength to the next.**  A rule that reads operands of strength `k + 1` and goes on
for as long as operators of strength `k` follow reads exactly the expressions of strength `k`. -/
theorem Exact.chain (hk : 0 < k)
    (hop : ∀ {kind op}, operator? kind = some op ↔ op.kind = kind ∧ op.strength = k)
    (hr : Exact r levels (k + 1) Stop)
    (hstop : ∀ {t : State} {op}, operator? t.current.kind = some op → Stop t) :
    Exact (backtrack do
      let left ← r
      Grammar.chain operator? r (← tokensLeft) left) levels k
        fun t => Stop t ∧ operator? t.current.kind = none := by
  have heof : operator? .eof = none := by
    cases h : operator? .eof with
    | none => rfl
    | some op =>
      have hmark := (hop.mp h).1
      cases op <;> cases hmark
  intro s e t hl
  have hrest {first : Expr} {u : State} (hfirst : r s = .ok first u) :
      maxNesting - u.depth = levels := by
    rw [← hl, ((hr hl).mp hfirst).1.depth_eq]
  rw [backtrack_eq_ok_iff, bind_eq_ok_iff]
  constructor
  · rintro ⟨first, u, hfirst, h⟩
    rw [tokensLeft, look_bind_eq_ok_iff,
      chain_eq_ok_iff heof hr (hrest hfirst) (Nat.le_refl _)] at h
    obtain ⟨hreads, hadm, ht⟩ := reads_of_links hk hop hr hl hfirst h.1
    exact ⟨hreads, hadm, ht, h.2⟩
  · rintro ⟨hreads, hadm, ht, hnone⟩
    obtain ⟨first, u, hfirst, hrun⟩ := exists_links hk hop hr hstop hl e hreads hadm ht
    refine ⟨first, u, hfirst, ?_⟩
    rw [tokensLeft, look_bind_eq_ok_iff, chain_eq_ok_iff heof hr (hrest hfirst) (Nat.le_refl _)]
    exact ⟨hrun, hnone⟩

end Chain

section Levels

variable {arg : Rule Expr} {levels : Nat}

theorem multiplicativeWith_exact (hkeep : Within KeepsScope arg)
    (harg : ∀ l, levels = l + 1 → ExactArgument arg l) :
    Exact (multiplicativeWith arg) levels 2 fun t =>
      Operator.multiplicative? t.current.kind = none := by
  have hchain : Exact (multiplicativeWith arg) levels 2 fun t =>
      True ∧ Operator.multiplicative? t.current.kind = none :=
    Exact.chain (by decide) Operator.multiplicative?_eq_some_iff (operandWith_exact hkeep harg)
      fun _ => trivial
  simpa only [true_and] using hchain

theorem additiveWith_exact (hkeep : Within KeepsScope arg)
    (harg : ∀ l, levels = l + 1 → ExactArgument arg l) :
    Exact (additiveWith arg) levels 1 NoOperator :=
  Exact.chain (by decide) Operator.additive?_eq_some_iff (multiplicativeWith_exact hkeep harg)
    Operator.multiplicative?_of_additive?

/-! ## 4. Assignments -/

/-- Where a sum has been read from a name with an `=` behind it, the sum is that name. -/
theorem current_kind_of_atAssignment {s t : State} {e : Expr} (hat : atAssignment s = true)
    (hreads : s.Reads e.yield t) (hadm : e.Admissible s.scope levels 1) :
    t.current.kind = .assignment := by
  simp only [atAssignment, Bool.and_eq_true, beq_iff_eq] at hat
  obtain ⟨⟨hname, hassign⟩, -⟩ := hat
  obtain ⟨l, ls, hl, -⟩ := Expr.exists_yield_eq_cons hadm.shape
  have hsecond := Expr.getElem?_one_yield_ne (by decide) hadm.shape
  rw [hl] at hreads hsecond
  cases ls with
  | nil =>
    obtain ⟨-, -, ht⟩ := State.reads_cons.mp hreads
    obtain rfl := State.reads_nil.mp ht
    rw [State.peek_one_kind hname (by decide)] at hassign
    exact hassign
  | cons l' ls =>
    have hkind : l'.kind = .assignment := hreads.peek_kind ▸ hassign
    cases l' with
    | word name => cases hkind
    | number value => cases hkind
    | mark kind =>
      obtain rfl : kind = .assignment := hkind
      exact absurd rfl hsecond

/-- An assignment can be read where its target, the `=` and its value stand. -/
theorem reads_assign_iff {s t : State} {x : String} {value : Expr} :
    s.Reads (Expr.binary .assign (.var x) value).yield t ↔
      s.current.kind = .identifier ∧ s.current.value = x ∧
        (s.cursor.peek 1).kind = .assignment ∧ s.advance.advance.Reads value.yield t := by
  rw [Expr.yield, Expr.yield, List.singleton_append, Operator.kind, State.reads_word_cons,
    State.reads_mark_cons (by decide)]
  constructor
  · intro h
    obtain ⟨hname, hvalue, hassign, hreads⟩ := h
    rw [← State.peek_one_kind hname (by decide)] at hassign
    exact ⟨hname, hvalue, hassign, hreads⟩
  · intro h
    obtain ⟨hname, hvalue, hassign, hreads⟩ := h
    rw [State.peek_one_kind hname (by decide)] at hassign
    exact ⟨hname, hvalue, hassign, hreads⟩

/-- Going back from behind two tokens leads to where they start. -/
theorem seek_advance_advance (s : State) : s.advance.advance.seek s.cursor.pos = s := by
  have hc : s.cursor.advance.advance.seek s.cursor.pos = s.cursor :=
    Cursor.seek_of_toList_eq (by simp)
  cases s
  simp only [State.advance, State.seek, hc]

/-- **An assignment is given up only in front of its `=`.**  If its value cannot be read, its name
alone is, so wherever no `=` follows, what has been read is an assignment or a sum. -/
theorem assignmentWith_exact (hkeep : Within KeepsScope arg)
    (harg : ∀ l, levels = l + 1 → ExactArgument arg l) :
    ExactArgument (assignmentWith arg) levels := by
  have hadd := additiveWith_exact hkeep harg
  intro s e t hl ht
  have hvalues {value : Expr} {u : State} :
      additiveWith arg s.advance.advance = .ok value u ↔
        s.advance.advance.Reads value.yield u ∧ value.Admissible s.scope levels 1 ∧
          NoOperator u := by
    have hlevels : maxNesting - s.advance.advance.depth = levels := by simpa using hl
    have hscope : s.advance.advance.scope = s.scope := by simp
    rw [hadd hlevels, hscope]
  rw [assignmentWith, backtrack_eq_ok_iff, look_bind_eq_ok_iff]
  by_cases hat : atAssignment s = true
  · have hparts := hat
    simp only [atAssignment, Bool.and_eq_true, beq_iff_eq] at hparts
    obtain ⟨⟨hname, hassign⟩, hvar⟩ := hparts
    rw [if_pos hat, look_bind_eq_ok_iff, advance_bind_eq_ok_iff, advance_bind_eq_ok_iff,
      attempt_bind_eq_ok_iff]
    constructor
    · rintro (⟨value, u, hvalue, h⟩ | ⟨noValue, u, hvalue, h⟩)
      · obtain ⟨rfl, rfl⟩ := pure_eq_ok_iff.mp h
        obtain ⟨hreads, hadm, hstop⟩ := hvalues.mp hvalue
        exact ⟨reads_assign_iff.mpr ⟨hname, rfl, hassign, hreads⟩,
          Expr.admissible_assign_iff.mpr ⟨rfl, ⟨_, rfl, Scope.isVariable_iff.mp hvar⟩, hadm⟩, hstop⟩
      · -- the value is given up: back at the name, a sum ends in front of the `=`
        obtain rfl := (within_additiveWith hkeep).eq_of_error
          (undoes_backtrack_of_within (within_additiveWith hkeep)) hvalue
        rw [seek_bind_eq_ok_iff, seek_advance_advance, hadd hl] at h
        exact absurd (current_kind_of_atAssignment hat h.1 h.2.1) ht
    · rintro ⟨hreads, hadm, hstop⟩
      rcases Expr.admissible_zero_iff.mp hadm with hsum | ⟨x, value, rfl, hx, hvalue⟩
      · exact absurd (current_kind_of_atAssignment hat hreads hsum) ht
      · obtain ⟨-, rfl, -, hreads'⟩ := reads_assign_iff.mp hreads
        exact .inl ⟨value, t, hvalues.mpr ⟨hreads', hvalue, hstop⟩, rfl⟩
  · rw [if_neg hat, hadd hl]
    constructor
    · rintro ⟨hreads, hadm, hstop⟩
      exact ⟨hreads, hadm.mono (Nat.zero_le 1), hstop⟩
    · rintro ⟨hreads, hadm, hstop⟩
      rcases Expr.admissible_zero_iff.mp hadm with hsum | ⟨x, value, rfl, hx, hvalue⟩
      · exact ⟨hreads, hsum, hstop⟩
      · obtain ⟨hname, rfl, hassign, -⟩ := reads_assign_iff.mp hreads
        refine absurd ?_ hat
        simp only [atAssignment, Bool.and_eq_true, beq_iff_eq]
        exact ⟨⟨hname, hassign⟩, Scope.isVariable_iff.mpr hx⟩

end Levels

/-! ## 5. The rules at the level the parse is at -/

/-- The circle closes: what is read inside an argument list is exact with one list less to open. -/
theorem argument_exact : ∀ {levels l : Nat}, levels = l + 1 → ExactArgument (argument levels) l
  | 0, _, h => nomatch h
  | _ + 1, _, rfl => assignmentWith_exact (within_argument _) fun _ => argument_exact

variable {s t : State} {e : Expr}

theorem operand_eq_ok_iff :
    operand s = .ok e t ↔
      s.Reads e.yield t ∧ e.Admissible s.scope (maxNesting - s.depth) 3 := by
  have h : operand s = .ok e t ↔
      s.Reads e.yield t ∧ e.Admissible s.scope (maxNesting - s.depth) 3 ∧ True :=
    operandWith_exact (within_argument _) (fun _ => argument_exact) rfl
  simpa only [and_true] using h

theorem multiplicative_eq_ok_iff :
    multiplicative s = .ok e t ↔
      s.Reads e.yield t ∧ e.Admissible s.scope (maxNesting - s.depth) 2 ∧
        Operator.multiplicative? t.current.kind = none :=
  multiplicativeWith_exact (within_argument _) (fun _ => argument_exact) rfl

theorem additive_eq_ok_iff :
    additive s = .ok e t ↔
      s.Reads e.yield t ∧ e.Admissible s.scope (maxNesting - s.depth) 1 ∧ NoOperator t :=
  additiveWith_exact (within_argument _) (fun _ => argument_exact) rfl

theorem assignment_eq_ok_iff (ht : t.current.kind ≠ .assignment) :
    assignment s = .ok e t ↔
      s.Reads e.yield t ∧ e.Admissible s.scope (maxNesting - s.depth) 0 ∧ NoOperator t :=
  assignmentWith_exact (within_argument _) (fun _ => argument_exact) rfl ht

end IntC.Grammar
