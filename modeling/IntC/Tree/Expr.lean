/-
# Expressions

An expression is a number, a variable, a call, two operands with an operator between them, or
nothing at all, as before a bare semicolon.  There is no node for parentheses: `text` writes a pair
where the tree could not be read back without it.

* `Operator.additive?`, `Operator.multiplicative?`: the operator that a token kind stands for.
* `Expr.text`: an expression as source text.
* `Expr.instDecidableEq`: equality of trees can be decided.
-/
import IntC.Token.Basic

namespace IntC

/-! ## 1. Operators -/

/-- The operators that stand between two operands. -/
inductive Operator
  | assign
  | add
  | subtract
  | multiply
  | divide
  deriving DecidableEq, Repr, Inhabited

namespace Operator

/-- The operator that a token of the kind adds or subtracts with. -/
def additive? : Token.Kind → Option Operator
  | .plus => some add
  | .dash => some subtract
  | _ => none

/-- The operator that a token of the kind multiplies or divides with. -/
def multiplicative? : Token.Kind → Option Operator
  | .star => some multiply
  | .slash => some divide
  | _ => none

/-- How strongly an operator binds its operands. -/
def strength : Operator → Nat
  | assign => 0
  | add => 1
  | subtract => 1
  | multiply => 2
  | divide => 2

/-- The mark of an operator. -/
def text : Operator → String
  | assign => "="
  | add => "+"
  | subtract => "-"
  | multiply => "*"
  | divide => "/"

end Operator

/-! ## 2. Trees -/

/-- An expression. -/
inductive Expr
  | num (value : Int)
  | var (name : String)
  | call (callee : String) (args : List Expr)
  | binary (op : Operator) (left right : Expr)
  | empty
  deriving Repr, Inhabited

namespace Expr

mutual

/-- Equality of two expressions, decided node by node. -/
def decEq : (a b : Expr) → Decidable (a = b)
  | .num m, .num n => decidable_of_iff (m = n) (by simp)
  | .var x, .var y => decidable_of_iff (x = y) (by simp)
  | .call f as, .call g bs =>
    have := decEqList as bs
    decidable_of_iff (f = g ∧ as = bs) (by simp)
  | .binary o a b, .binary p c d =>
    have := decEq a c
    have := decEq b d
    decidable_of_iff (o = p ∧ a = c ∧ b = d) (by simp)
  | .empty, .empty => .isTrue rfl
  | .num _, .var _ | .num _, .call .. | .num _, .binary .. | .num _, .empty => .isFalse (by simp)
  | .var _, .num _ | .var _, .call .. | .var _, .binary .. | .var _, .empty => .isFalse (by simp)
  | .call .., .num _ | .call .., .var _ | .call .., .binary .. | .call .., .empty =>
    .isFalse (by simp)
  | .binary .., .num _ | .binary .., .var _ | .binary .., .call .. | .binary .., .empty =>
    .isFalse (by simp)
  | .empty, .num _ | .empty, .var _ | .empty, .call .. | .empty, .binary .. => .isFalse (by simp)

/-- Equality of two argument lists, decided member by member. -/
def decEqList : (as bs : List Expr) → Decidable (as = bs)
  | [], [] => .isTrue rfl
  | [], _ :: _ => .isFalse (by simp)
  | _ :: _, [] => .isFalse (by simp)
  | a :: as, b :: bs =>
    have := decEq a b
    have := decEqList as bs
    decidable_of_iff (a = b ∧ as = bs) (by simp)

end

instance instDecidableEq : DecidableEq Expr := decEq

/-! ## 3. Printing -/

/-- How strongly an expression holds together: as strongly as its operator binds, and more strongly
than any operator if it has none. -/
def strength : Expr → Nat
  | .binary op _ _ => op.strength
  | _ => 3

/-- An operand's text, in parentheses where they are called for. -/
def operandText (inParens : Bool) (text : String) : String :=
  if inParens then "(" ++ text ++ ")" else text

mutual

/-- An expression as source text.  Operators of equal strength nest to the left, so the right
operand needs parentheses already when it binds just as strongly. -/
def text : Expr → String
  | .num value => toString value
  | .var name => name
  | .call callee args => callee ++ "(" ++ argsText args ++ ")"
  | .binary op left right =>
    operandText (left.strength < op.strength) left.text ++ " " ++ op.text ++ " " ++
      operandText (right.strength ≤ op.strength) right.text
  | .empty => ""

/-- An argument list as source text, without its parentheses. -/
def argsText : List Expr → String
  | [] => ""
  | [arg] => arg.text
  | arg :: more => arg.text ++ ", " ++ argsText more

end

end Expr

end IntC
