/-
# An assignment that is given up gets no further than its `=`

Where the value of an assignment cannot be read, the rule for assignments forgets why, goes back and
reads the variable alone.  It then succeeds in front of the `=`.  An expression is followed by a
semicolon in a statement and by a comma or a closing parenthesis in an argument list, so whichever
rule asked for it fails there, and what it reports is the `=`.

* `expressionStmt_of_unclosed`, `returnStmt_of_unclosed`, `call_of_unclosed`: an expression with the
  wrong token behind it.
* `GivesUp`: a variable is assigned what cannot be read.
* `assignment_of_givesUp`: it is read alone.
* `fallback_rejected`: what comes of that in a statement, in a return and among arguments.
-/
import IntC.Proofs.Expressions

namespace IntC

/-- The state inside one more argument list. -/
def State.deeper (s : State) : State := { s with depth := s.depth + 1 }

@[simp] theorem State.depth_deeper (s : State) : s.deeper.depth = s.depth + 1 := rfl

/-- A rule that keeps the scope and fails inside `backtrack` has changed nothing. -/
theorem Rule.backtrack_of_within {α : Type} {r : Rule α} (hkeep : Within KeepsScope (backtrack r))
    {s t : State} {e : Diagnostic} (h : r s = .error e t) : backtrack r s = .error e s := by
  have hout : backtrack r s = .error e (t.seek s.cursor.pos) :=
    backtrack_eq_error_iff.mpr ⟨t, h, rfl⟩
  have hsame : t.seek s.cursor.pos = s :=
    hkeep.eq_of_error (undoes_backtrack_of_within hkeep) hout
  rw [hsame] at hout
  exact hout

namespace Grammar

open Rule

variable {s t u : State} {e : Expr}

/-! ## 1. Expressions with the wrong token behind them -/

/-- An expression is not closed by a semicolon, in whatever it is part of. -/
theorem assignment_semicolon_of_unclosed {α : Type} {f : Expr → α} (h : assignment s = .ok e t)
    (ht : t.current.kind ≠ .semicolon) :
    (do let value ← assignment
        let _ ← expect .semicolon
        return f value : Rule α) s = .error t.unexpected t := by
  rw [bind_of_ok h, expect_bind_apply, if_neg ht]

theorem expressionStmt_of_unclosed (hs : s.current.kind ≠ .semicolon)
    (h : assignment s = .ok e t) (ht : t.current.kind ≠ .semicolon) :
    expressionStmt s = .error t.unexpected s := by
  refine backtrack_of_within (t := t) within_expressionStmt ?_
  rw [currentKind, look_bind_apply, if_neg hs]
  exact assignment_semicolon_of_unclosed h ht

theorem returnStmt_of_unclosed (hs : s.current.kind = .ret)
    (h : assignment s.advance = .ok e t) (ht : t.current.kind ≠ .semicolon) :
    returnStmt s = .error t.unexpected s := by
  refine backtrack_of_within (t := t) within_returnStmt ?_
  rw [expect_bind_apply, if_pos hs]
  exact assignment_semicolon_of_unclosed h ht

/-- The second state is behind one argument and its comma. -/
def ArgumentComma (s t : State) : Prop :=
  ∃ e u, assignment s = .ok e u ∧ u.current.kind = .comma ∧ t = u.advance

/-- An argument with its comma takes a token, and starts with a name or a number. -/
theorem ArgumentComma.progress (h : ArgumentComma s t) :
    t.depth = s.depth ∧ t.cursor.tokensLeft < s.cursor.tokensLeft ∧
      s.current.kind ≠ .closeParen := by
  obtain ⟨e, u, he, hcomma, rfl⟩ := h
  have hne : u.current.kind ≠ .assignment := (noOperator_of_closes (.inl hcomma)).2
  obtain ⟨hreads, hadm, -⟩ := (assignment_eq_ok_iff hne).mp he
  have hleft := hreads.tokensLeft
  have hnext := State.tokensLeft_advance (s := u) (by rw [hcomma]; decide)
  refine ⟨hreads.depth_eq, by omega, ?_⟩
  rw [← List.append_nil e.yield] at hreads
  rcases current_kind_of_reads hreads hadm with hkind | hkind
  · rw [hkind]; decide
  · rw [hkind]; decide

/-- Inside an argument list, an argument is an assignment at the depth of the list. -/
theorem argument_eq_assignment {levels : Nat} (h : maxNesting - s.depth + 1 = levels) :
    argument levels s = assignment s := by
  subst h
  rfl

/-- Arguments with commas behind them are read one after the other, up to one without a comma. -/
theorem argumentsFrom_of_commas {levels : Nat} (ht : t.current.kind ≠ .eof)
    (hlast : assignment t = .ok e u) (hu : u.current.kind ≠ .comma)
    (hrun : Relation.ReflTransGen ArgumentComma s t) :
    ∀ rounds : Nat, maxNesting - s.depth + 1 = levels → s.cursor.tokensLeft ≤ rounds →
      ∃ args, argumentsFrom (argument levels) rounds s = .ok args u := by
  induction hrun using Relation.ReflTransGen.head_induction_on with
  | refl =>
    intro rounds hl hrounds
    have hleft := State.tokensLeft_advance ht
    obtain ⟨k, rfl⟩ : ∃ k, rounds = k + 1 := ⟨rounds - 1, by omega⟩
    refine ⟨[e], ?_⟩
    rw [argumentsFrom, bind_of_ok ((argument_eq_assignment hl).trans hlast), currentKind,
      look_bind_apply, if_neg hu]
    rfl
  | head hstep _ ih =>
    intro rounds hl hrounds
    obtain ⟨hdepth, hless, -⟩ := hstep.progress
    obtain ⟨first, v, hfirst, hcomma, rfl⟩ := hstep
    obtain ⟨k, rfl⟩ : ∃ k, rounds = k + 1 := ⟨rounds - 1, by omega⟩
    obtain ⟨more, hmore⟩ := ih k (by rw [hdepth]; exact hl) (by omega)
    refine ⟨first :: more, ?_⟩
    rw [argumentsFrom, bind_of_ok ((argument_eq_assignment hl).trans hfirst), currentKind,
      look_bind_apply, if_pos hcomma, advance_bind_apply, bind_of_ok hmore]
    rfl

/-- The second state is at an argument of the call at the first: the callee is known, its argument
list can still be opened, and the arguments before this one can be read. -/
structure AtArgument (c t : State) : Prop where
  callee : c.current.kind = .identifier
  known : (c.scope.arity? c.current.value).isSome = true
  paren : c.advance.current.kind = .openParen
  depth : c.depth < maxNesting
  before : Relation.ReflTransGen ArgumentComma c.advance.advance.deeper t

/-- The inside of the list ends behind an argument that has no comma. -/
theorem AtArgument.arguments_eq_ok {c : State} (h : AtArgument c t)
    (ht : t.current.kind = .identifier) (hlast : assignment t = .ok e u)
    (hu : u.current.kind ≠ .comma) :
    ∃ args, arguments (argument (maxNesting - c.depth)) c.advance.advance.deeper = .ok args u := by
  have hfirst : c.advance.advance.deeper.current.kind ≠ .closeParen := by
    rcases Relation.ReflTransGen.cases_head h.before with heq | ⟨v, hstep, -⟩
    · rw [heq, ht]; decide
    · exact hstep.progress.2.2
  have hne : t.current.kind ≠ .eof := by rw [ht]; decide
  have hl : maxNesting - c.advance.advance.deeper.depth + 1 = maxNesting - c.depth := by
    have hdepth := h.depth
    simp only [State.depth_deeper, State.depth_advance]
    omega
  obtain ⟨args, hargs⟩ := argumentsFrom_of_commas hne hlast hu h.before _ hl (Nat.le_refl _)
  refine ⟨args, ?_⟩
  rw [arguments, currentKind, look_bind_apply, if_neg hfirst, tokensLeft, look_bind_apply]
  exact hargs

theorem call_of_unclosed {c : State} (h : AtArgument c t) (ht : t.current.kind = .identifier)
    (hlast : assignment t = .ok e u) (hcomma : u.current.kind ≠ .comma)
    (hclose : u.current.kind ≠ .closeParen) : call c = .error u.unexpected c := by
  obtain ⟨arity, harity⟩ := Option.isSome_iff_exists.mp h.known
  obtain ⟨args, hargs⟩ := h.arguments_eq_ok ht hlast hcomma
  have hinside : deeper (arguments (argument (maxNesting - c.depth))) c.advance.advance =
      .ok args { u with depth := u.depth - 1 } :=
    deeper_eq_ok_iff.mpr ⟨by simpa using h.depth, u, hargs, rfl⟩
  show callWith (argument (maxNesting - c.depth)) c = _
  refine backtrack_of_within (t := { u with depth := u.depth - 1 })
    (within_callWith (within_argument _)) ?_
  rw [Rule.position, look_bind_apply, expect_bind_apply, if_pos h.callee, Rule.scope,
    look_bind_apply, State.scope_advance, harity]
  dsimp only
  rw [expect_bind_apply, if_pos h.paren, bind_of_ok hinside, expect_bind_apply]
  exact if_neg hclose

/-! ## 2. Giving an assignment up -/

/-- A variable in scope is assigned something that cannot be read as a sum. -/
structure GivesUp (s : State) : Prop where
  name : s.current.kind = .identifier
  inScope : s.current.value ∈ s.scope.vars
  mark : (s.cursor.peek 1).kind = .assignment
  noValue : ∃ cause t, additive s.advance.advance = .error cause t

namespace GivesUp

theorem current_advance (h : GivesUp s) : s.advance.current = s.cursor.peek 1 := by
  have hne : s.cursor.current.kind ≠ .eof := by
    rw [show s.cursor.current.kind = .identifier from h.name]
    decide
  exact (Cursor.peek_one_eq hne).symm

theorem kind_advance (h : GivesUp s) : s.advance.current.kind = .assignment := by
  rw [h.current_advance]
  exact h.mark

/-- The variable is a sum, and one that an `=` ends. -/
theorem additive_eq (h : GivesUp s) : additive s = .ok (.var s.current.value) s.advance := by
  refine additive_eq_ok_iff.mpr ⟨reads_var_iff.mpr ⟨h.name, rfl, rfl⟩,
    Expr.admissible_var_iff.mpr h.inScope, ?_⟩
  rw [NoOperator, h.kind_advance]
  decide

end GivesUp

/-- **The variable alone.**  A value that fails leaves the state behind the `=`, from where the rule
goes back to the variable. -/
theorem assignment_of_givesUp (h : GivesUp s) :
    assignment s = .ok (.var s.current.value) s.advance := by
  obtain ⟨cause, t, hvalue⟩ := h.noValue
  obtain rfl := within_additive.eq_of_error undoes_additive hvalue
  have hat : atAssignment s = true := by
    simp [atAssignment, h.name, h.mark, Scope.isVariable_iff.mpr h.inScope]
  -- the value is read at the depth of the whole, since no argument list is opened before it
  rw [additive, atLevel, State.depth_advance, State.depth_advance] at hvalue
  show assignmentWith (argument (maxNesting - s.depth)) s = _
  rw [assignmentWith, backtrack_eq_ok_iff, look_bind_apply, if_pos hat, look_bind_apply,
    advance_bind_apply, advance_bind_apply, bind_of_ok (attempt_of_error hvalue)]
  dsimp only
  rw [seek_bind_apply, seek_advance_advance]
  exact h.additive_eq

/-- **What is given up is rejected at its `=`.**  Where a variable in scope is followed by an `=`
and by what cannot be read as a sum, for whatever cause, the rule for assignments reads the variable
and stops at the `=`.  A statement that starts with the variable, a return of it, and a call that
has it as the start of an argument, all fail because of that `=` and leave the state as it was. -/
theorem fallback_rejected (h : GivesUp s) :
    (assignment s = .ok (.var s.current.value) s.advance ∧
      s.advance.current = s.cursor.peek 1) ∧
    expressionStmt s = .error s.advance.unexpected s ∧
    (∀ r : State, r.current.kind = .ret → r.advance = s →
      returnStmt r = .error s.advance.unexpected r) ∧
    ∀ c : State, AtArgument c s → call c = .error s.advance.unexpected c := by
  have hassignment := assignment_of_givesUp h
  have hmark := h.kind_advance
  refine ⟨⟨hassignment, h.current_advance⟩, ?_, ?_, ?_⟩
  · exact expressionStmt_of_unclosed (by rw [h.name]; decide) hassignment (by rw [hmark]; decide)
  · rintro r hret rfl
    exact returnStmt_of_unclosed hret hassignment (by rw [hmark]; decide)
  · intro c hc
    exact call_of_unclosed hc h.name hassignment (by rw [hmark]; decide) (by rw [hmark]; decide)

/-- A state in front of the tokens, with `x` in scope. -/
def withX (tokens : List (Token.Kind × String)) : State :=
  { State.ofTexts tokens with scope.vars := ["x"] }

/-- A state at `return x = ;`. -/
def returnsNothing : State :=
  withX [(.ret, "return"), (.identifier, "x"), (.assignment, "="), (.semicolon, ";")]

/-- A state at `printnum(1, x = )`. -/
def passesNothing : State :=
  withX [(.identifier, "printnum"), (.openParen, "("), (.number, "1"), (.comma, ","),
    (.identifier, "x"), (.assignment, "="), (.closeParen, ")")]

/-- In a return and behind an argument the `=` is what is reported. -/
theorem fallback_rejected_withX :
    (GivesUp returnsNothing.advance ∧
      returnStmt returnsNothing = .error ⟨.unexpectedToken "=", .null⟩ returnsNothing) ∧
    ∃ s, AtArgument passesNothing s ∧ GivesUp s ∧
      call passesNothing = .error ⟨.unexpectedToken "=", .null⟩ passesNothing := by
  have hreturn : GivesUp returnsNothing.advance := ⟨rfl, by decide, rfl, _, _, rfl⟩
  have hpass : GivesUp passesNothing.advance.advance.deeper.advance.advance :=
    ⟨rfl, by decide, rfl, _, _, rfl⟩
  have hargument : AtArgument passesNothing passesNothing.advance.advance.deeper.advance.advance :=
    ⟨rfl, rfl, rfl, by decide, .single ⟨.num 1, _, rfl, rfl, rfl⟩⟩
  obtain ⟨-, -, hret, -⟩ := fallback_rejected hreturn
  obtain ⟨-, -, -, hcall⟩ := fallback_rejected hpass
  exact ⟨⟨hreturn, hret returnsNothing rfl rfl⟩,
    _, hargument, hpass, hcall passesNothing hargument⟩

end Grammar

end IntC
