/-
# Rules for expressions

    assignment      := IDENT '=' additive | additive
    additive        := multiplicative (('+' | '-') multiplicative)*
    multiplicative  := operand (('*' | '/') operand)*
    operand         := primary | call
    call            := IDENT '(' (assignment (',' assignment)*)? ')'
    primary         := IDENT | NUMBER

A name on its own has to be a variable in scope, a callee a function with as many parameters as
there are arguments, and a number a 32-bit integer.

The rules call one another in a circle only through the arguments of a call, and every argument list
is one level deeper.  So each rule is first given for any rule that reads an argument (`…With`), and
`argument` closes the circle by recursion on the number of levels that are left.

The loops are bounded by the number of tokens left when they start.  Each round reads at least one
token, so a loop that has used up its rounds stands at the last token, where it ends anyway.
-/
import IntC.Grammar.Rule
import IntC.Literal

namespace IntC.Grammar

open Rule

/-! ## 1. The rules, for any rule that reads an argument -/

/-- Reads a variable or a number. -/
def primary : Rule Expr := do
  let token ← current
  match token.kind with
  | .identifier =>
    if (← scope).isVariable token.value then
      let _ ← advance
      return .var token.value
    else fail (.unknownVariable token.value)
  | .number =>
    match Literal.read token.value with
    | .ok value =>
      let _ ← advance
      return .num value
    | .error _ => fail (.badNumber token.value)
  | .dash => fail .unaryMinus
  | _ => unexpected

/-- Reads one argument, and for as long as a comma follows, another one. -/
def argumentsFrom (argument : Rule Expr) : Nat → Rule (List Expr)
  | 0 => unexpected
  | rounds + 1 => do
    let first ← argument
    if (← currentKind) = .comma then
      let _ ← advance
      let more ← argumentsFrom argument rounds
      return first :: more
    else return [first]

/-- Reads the inside of an argument list, which may be empty. -/
def arguments (argument : Rule Expr) : Rule (List Expr) := do
  if (← currentKind) = .closeParen then return []
  else argumentsFrom argument (← tokensLeft)

/-- Reads a call of a known function with the right number of arguments. -/
def callWith (argument : Rule Expr) : Rule Expr := backtrack do
  let start ← position
  let callee ← expect .identifier
  match (← scope).arity? callee.value with
  | none => failAt start (.unknownFunction callee.value)
  | some arity =>
    let _ ← expect .openParen
    let args ← deeper (arguments argument)
    let _ ← expect .closeParen
    if args.length = arity then return .call callee.value args
    else failAt start (.argumentCount callee.value arity args.length)

/-- Reads a variable, a number or a call.  What looks like a call is reported as a call. -/
def operandWith (argument : Rule Expr) : Rule Expr := do
  match ← attempt primary with
  | .ok operand => return operand
  | .error noPrimary =>
    let callShaped := (← peekKind 1) == .openParen
    match ← attempt (callWith argument) with
    | .ok operand => return operand
    | .error noCall => throw (if callShaped then noCall else noPrimary)

/-- Reads an operator and an operand for as long as an operator follows.  The operands nest to the
left. -/
def chain (operator? : Token.Kind → Option Operator) (operand : Rule Expr) : Nat → Expr → Rule Expr
  | 0, left => return left
  | rounds + 1, left => do
    match operator? (← currentKind) with
    | none => return left
    | some op =>
      let _ ← advance
      let right ← operand
      chain operator? operand rounds (.binary op left right)

/-- Reads operands with `*` and `/` between them. -/
def multiplicativeWith (argument : Rule Expr) : Rule Expr := backtrack do
  let left ← operandWith argument
  chain Operator.multiplicative? (operandWith argument) (← tokensLeft) left

/-- Reads products with `+` and `-` between them. -/
def additiveWith (argument : Rule Expr) : Rule Expr := backtrack do
  let left ← multiplicativeWith argument
  chain Operator.additive? (multiplicativeWith argument) (← tokensLeft) left

/-- The state is at a variable that is assigned to. -/
def atAssignment (s : State) : Bool :=
  s.current.kind == .identifier && (s.cursor.peek 1).kind == .assignment &&
    s.scope.isVariable s.current.value

/-- Reads an assignment to a variable, or else a sum.  If the value of an assignment cannot be read,
the variable is read as a sum of its own. -/
def assignmentWith (argument : Rule Expr) : Rule Expr := backtrack do
  if ← look atAssignment then
    let start ← look fun s => s.cursor.pos
    let target ← advance
    let _ ← advance
    match ← attempt (additiveWith argument) with
    | .ok value => return .binary .assign (.var target.value) value
    | .error _ =>
      seek start
      additiveWith argument
  else additiveWith argument

/-! ## 2. The rules at a level of nesting -/

/-- Reads an argument that stands inside an argument list, with a number of levels left to open from
that list's outside on. -/
def argument : Nat → Rule Expr
  | 0 => fail (.nestedTooDeep maxNesting)
  | levels + 1 => assignmentWith (argument levels)

/-- Runs a rule at the level the parse is at. -/
def atLevel (rule : Rule Expr → Rule Expr) : Rule Expr := fun s =>
  rule (argument (maxNesting - s.depth)) s

/-- Reads a call. -/
def call : Rule Expr := atLevel callWith

/-- Reads a variable, a number or a call. -/
def operand : Rule Expr := atLevel operandWith

/-- Reads a product. -/
def multiplicative : Rule Expr := atLevel multiplicativeWith

/-- Reads a sum. -/
def additive : Rule Expr := atLevel additiveWith

/-- Reads an assignment or a sum. -/
def assignment : Rule Expr := atLevel assignmentWith

end IntC.Grammar
