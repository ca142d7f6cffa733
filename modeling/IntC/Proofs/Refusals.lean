/-
# Tokens that start no operand

A minus sign in front of an operand and a number that does not fit in 32 bits are refused whatever
is in scope, each for a cause of its own.  The cause is given at the bottom, by the rule for
variables and numbers.  The rule for operands then tries a call, which fails too, and picks one of
the two failures by the token *behind* the one that was refused: with an opening parenthesis there
it reports the failed call, also when what stands in front of it is no name.  So the cause reaches
the rules above exactly if no parenthesis follows, and else the token is reported as unexpected.

* `State.Refuses`: the token and its cause.
* `operandWith_of_refuses`: the choice between the two failures.
* `rules_of_error`: what the rules above make of a failed operand.
* `error_of_refuses`: all five rules at such a token.
-/
import IntC.Proofs.Decimal
import IntC.Proofs.Expressions

namespace IntC

/-- The current token starts no operand, for the cause: it is a minus sign, or a row of digits with
a value above the largest. -/
inductive State.Refuses (s : State) : Cause → Prop
  | minus (hkind : s.current.kind = .dash) : s.Refuses .unaryMinus
  | tooLarge (hkind : s.current.kind = .number)
      (hdigits : ∀ c ∈ s.current.value.toList, c.isDigit = true)
      (hlarge : 2147483647 < Nat.ofDigitChars 10 s.current.value.toList 0) :
      s.Refuses (.badNumber s.current.value)

namespace State.Refuses

variable {s : State} {cause : Cause}

theorem kind_ne (h : s.Refuses cause) : s.current.kind ≠ .identifier := by
  cases h with
  | minus hkind => rw [hkind]; decide
  | tooLarge hkind => rw [hkind]; decide

/-- Neither cause is that of a token which merely was not expected. -/
theorem diagnose_ne (h : s.Refuses cause) : s.diagnose cause ≠ s.unexpected := by
  cases h with
  | minus => simp [diagnose, unexpected]
  | tooLarge => simp [diagnose, unexpected]

end State.Refuses

/-- A row of digits with too large a value is no literal. -/
theorem Literal.exists_read_eq_error {text : String}
    (hdigits : ∀ c ∈ text.toList, c.isDigit = true)
    (hlarge : 2147483647 < Nat.ofDigitChars 10 text.toList 0) :
    ∃ fault, Literal.read text = .error fault := by
  cases hread : Literal.read text with
  | error fault => exact ⟨fault, rfl⟩
  | ok value =>
    have hne : text ≠ "" := by
      rintro rfl
      simp at hlarge
    obtain ⟨rfl, hle⟩ := (read_eq_ok_iff_of_digits hne hdigits).mp hread
    rw [greatest] at hle
    omega

namespace Rule

variable {α : Type} {r : Rule α} {s : State} {e : Diagnostic}

/-- Where nothing has been moved there is nothing to put back. -/
theorem backtrack_of_error (h : r s = .error e s) : backtrack r s = .error e s := by
  rw [backtrack, h]
  show EStateM.Result.error e { s with cursor := s.cursor.seek s.cursor.pos } = _
  rw [Cursor.seek_pos_self]

end Rule

namespace Grammar

open Rule

variable {arg : Rule Expr} {s : State} {cause : Cause}

/-! ## 1. The two failures -/

/-- The rule for variables and numbers gives the cause. -/
theorem primary_of_refuses (h : s.Refuses cause) : primary s = .error (s.diagnose cause) s := by
  cases h with
  | minus hkind =>
    simp only [primary, Rule.current, look_bind_apply, hkind]
    rfl
  | tooLarge hkind hdigits hlarge =>
    obtain ⟨fault, hread⟩ := Literal.exists_read_eq_error hdigits hlarge
    simp only [primary, Rule.current, look_bind_apply, hkind, hread]
    rfl

/-- Of what is no name, the rule for calls only says that it did not expect it. -/
theorem callWith_of_kind_ne (h : s.current.kind ≠ .identifier) :
    callWith arg s = .error s.unexpected s := by
  refine backtrack_of_error ?_
  rw [Rule.position, look_bind_apply, expect_bind_apply, if_neg h]

/-- **The token behind decides.**  Of the two failures, the rule for operands reports that of the
call if a parenthesis follows. -/
theorem operandWith_of_refuses (h : s.Refuses cause) :
    operandWith arg s = .error
      (if (s.cursor.peek 1).kind = .openParen then s.unexpected else s.diagnose cause) s := by
  rw [operandWith, bind_of_ok (attempt_of_error (primary_of_refuses h))]
  dsimp only
  rw [peekKind, look_bind_apply, bind_of_ok (attempt_of_error (callWith_of_kind_ne h.kind_ne))]
  by_cases hnext : (s.cursor.peek 1).kind = .openParen
  · rw [if_pos hnext, hnext]
    rfl
  · have hshape : ((s.cursor.peek 1).kind == .openParen) = false := by simpa using hnext
    rw [if_neg hnext, hshape]
    rfl

/-! ## 2. The rules above -/

/-- A failed operand at a token that is no name is a failed product, sum and assignment. -/
theorem rules_of_error {e : Diagnostic} (hkind : s.current.kind ≠ .identifier)
    (h : operandWith arg s = .error e s) :
    multiplicativeWith arg s = .error e s ∧ additiveWith arg s = .error e s ∧
      assignmentWith arg s = .error e s := by
  have hproduct : multiplicativeWith arg s = .error e s := backtrack_of_error (bind_of_error h)
  have hsum : additiveWith arg s = .error e s := backtrack_of_error (bind_of_error hproduct)
  have hat : atAssignment s = false := by simp [atAssignment, hkind]
  refine ⟨hproduct, hsum, backtrack_of_error ?_⟩
  rw [look_bind_apply, hat]
  exact hsum

/-- All four rules above the one for variables and numbers fail alike. -/
theorem rule_of_refuses (h : s.Refuses cause) {rule : Rule Expr}
    (hrule : rule ∈ [operand, multiplicative, additive, assignment]) :
    rule s = .error
      (if (s.cursor.peek 1).kind = .openParen then s.unexpected else s.diagnose cause) s := by
  have hoperand : operand s = _ := operandWith_of_refuses h
  obtain ⟨hproduct, hsum, hassignment⟩ := rules_of_error h.kind_ne hoperand
  simp only [List.mem_cons, List.not_mem_nil, or_false] at hrule
  rcases hrule with rfl | rfl | rfl | rfl
  · exact hoperand
  · exact hproduct
  · exact hsum
  · exact hassignment

/-- **A minus sign and a number that is too large are refused for what they are, unless a
parenthesis follows.**  The rule for variables and numbers always names the cause.  The rules for
operands, products, sums and assignments name it exactly if the next token is no opening
parenthesis, and else report the token as unexpected.  In both cases they fail at that token and
leave the state as it was. -/
theorem error_of_refuses (h : s.Refuses cause) :
    primary s = .error (s.diagnose cause) s ∧
      ∀ rule ∈ [operand, multiplicative, additive, assignment],
        (rule s = .error (s.diagnose cause) s ↔ (s.cursor.peek 1).kind ≠ .openParen) ∧
          ((s.cursor.peek 1).kind = .openParen → rule s = .error s.unexpected s) := by
  refine ⟨primary_of_refuses h, fun rule hrule => ?_⟩
  rw [rule_of_refuses h hrule]
  by_cases hnext : (s.cursor.peek 1).kind = .openParen
  · rw [if_pos hnext]
    refine ⟨iff_of_false ?_ (fun hne => hne hnext), fun _ => rfl⟩
    intro heq
    cases heq
    exact absurd rfl h.diagnose_ne
  · rw [if_neg hnext]
    exact ⟨iff_of_true rfl hnext, fun hopen => absurd hopen hnext⟩

/-- A state at a minus sign, with a token behind it. -/
def minusBefore (next : Token.Kind × String) : State := .ofTexts [(.dash, "-"), next]

/-- A state at a number that is one too large, with a token behind it. -/
def tooLargeBefore (next : Token.Kind × String) : State :=
  .ofTexts [(.number, "2147483648"), next]

/-- In `-x` and in `2147483648,` the cause is named. -/
theorem error_of_refuses_named :
    (minusBefore (.identifier, "x")).Refuses .unaryMinus ∧
      assignment (minusBefore (.identifier, "x")) =
        .error ⟨.unaryMinus, .null⟩ (minusBefore (.identifier, "x")) ∧
      (tooLargeBefore (.comma, ",")).Refuses (.badNumber "2147483648") ∧
      assignment (tooLargeBefore (.comma, ",")) =
        .error ⟨.badNumber "2147483648", .null⟩ (tooLargeBefore (.comma, ",")) := by
  have hminus : (minusBefore (.identifier, "x")).Refuses .unaryMinus := .minus rfl
  have hlarge : (tooLargeBefore (.comma, ",")).Refuses (.badNumber "2147483648") :=
    .tooLarge rfl (List.all_eq_true.mp rfl) (by decide)
  obtain ⟨-, hminusRules⟩ := error_of_refuses hminus
  obtain ⟨-, hlargeRules⟩ := error_of_refuses hlarge
  exact ⟨hminus, (hminusRules assignment (by simp)).1.mpr (by decide),
    hlarge, (hlargeRules assignment (by simp)).1.mpr (by decide)⟩

/-- In `-(` and in `2147483648(` it is not, although the token is refused. -/
theorem operand_hides_cause :
    ((minusBefore (.openParen, "(")).Refuses .unaryMinus ∧
      operand (minusBefore (.openParen, "(")) ≠
        .error ⟨.unaryMinus, .null⟩ (minusBefore (.openParen, "(")) ∧
      operand (minusBefore (.openParen, "(")) =
        .error ⟨.unexpectedToken "-", .null⟩ (minusBefore (.openParen, "("))) ∧
    (tooLargeBefore (.openParen, "(")).Refuses (.badNumber "2147483648") ∧
      operand (tooLargeBefore (.openParen, "(")) ≠
        .error ⟨.badNumber "2147483648", .null⟩ (tooLargeBefore (.openParen, "(")) ∧
      operand (tooLargeBefore (.openParen, "(")) =
        .error ⟨.unexpectedToken "2147483648", .null⟩ (tooLargeBefore (.openParen, "(")) := by
  have hminus : operand (minusBefore (.openParen, "(")) =
      .error ⟨.unexpectedToken "-", .null⟩ (minusBefore (.openParen, "(")) := rfl
  have hlarge : operand (tooLargeBefore (.openParen, "(")) =
      .error ⟨.unexpectedToken "2147483648", .null⟩ (tooLargeBefore (.openParen, "(")) := rfl
  refine ⟨⟨.minus rfl, ?_, hminus⟩,
    .tooLarge rfl (List.all_eq_true.mp rfl) (by decide), ?_, hlarge⟩
  · rw [hminus]
    intro heq
    cases heq
  · rw [hlarge]
    intro heq
    cases heq

end Grammar

end IntC
