/-
# Sessions

A session drives a parse by hand: a list of steps, each of which reads by one rule, moves the
cursor, or asks for or changes the names in scope.  Steps can be put inside `backtrack` and inside
argument lists, and there they stop after the first one that fails.

* `Scope.Step.run`: a step on the names in scope.
* `Step.run`, `Step.runWhile`: a step, and steps up to the first failure, on the state of a parse.
* `run`: a whole session, with an answer and the state after every step.
-/
import IntC.Grammar.Program

namespace IntC

/-! ## 1. Steps on the names in scope -/

namespace Scope

/-- A question about the names in scope, or a change of them. -/
inductive Step
  | reset
  | declare (p : Prototype)
  | define (p : Prototype)
  | enter (p : Prototype)
  | check (p : Prototype)
  | declareVariable (name : String)
  | lookup (name : String)
  deriving Repr

/-- What a step on the names in scope gives. -/
inductive Finding
  | done
  | verdict (conflict : Option Cause)
  | facts (arity : Option Nat) (declared defined isVariable : Bool)
  deriving DecidableEq, Repr

/-- Carries out one step. -/
def Step.run : Step → Scope → Finding × Scope
  | .reset, _ => (.done, initial)
  | .declare p, s => (.done, s.declare p)
  | .define p, s => (.done, s.define p)
  | .enter p, s => (.done, s.enter p)
  | .check p, s =>
    match s.checkPrototype p with
    | .ok _ => (.verdict none, s)
    | .error cause => (.verdict (some cause), s)
  | .declareVariable name, s =>
    match s.declareVariable name with
    | .ok changed => (.verdict none, changed)
    | .error cause => (.verdict (some cause), s)
  | .lookup name, s =>
    (.facts (s.arity? name) (s.isDeclared name) (s.isDefined name) (s.isVariable name), s)

end Scope

/-! ## 2. Steps on the state of a parse -/

namespace Session

open Grammar

/-- A rule of the grammar.  Those for the rest of a declaration are told its signature. -/
inductive Nonterminal
  | program
  | external
  | declaration (p : Prototype)
  | definition (p : Prototype)
  | body (p : Prototype)
  | prototype
  | varDecl
  | stmt
  | expressionStmt
  | returnStmt
  | assignment
  | additive
  | multiplicative
  | operand
  | call
  | primary
  deriving DecidableEq, Repr

/-- What a rule reads. -/
inductive Node
  | program (p : Program)
  | external (d : External)
  | prototype (p : Prototype)
  | function (f : FunctionDef)
  | body (b : Body)
  | varDecl (d : VarDecl)
  | stmt (s : Stmt)
  | expr (e : Expr)
  deriving DecidableEq, Repr

/-- The rule that a nonterminal stands for. -/
def Nonterminal.rule : Nonterminal → Rule Node
  | program => .program <$> Grammar.program
  | external => .external <$> Grammar.external
  | declaration p => .prototype <$> Grammar.declaration p
  | definition p => .function <$> Grammar.definition p
  | body p => .body <$> Grammar.body p
  | prototype => .prototype <$> Grammar.prototype
  | varDecl => .varDecl <$> Grammar.varDecl
  | stmt => .stmt <$> Grammar.stmt
  | expressionStmt => .stmt <$> Grammar.expressionStmt
  | returnStmt => .stmt <$> Grammar.returnStmt
  | assignment => .expr <$> Grammar.assignment
  | additive => .expr <$> Grammar.additive
  | multiplicative => .expr <$> Grammar.multiplicative
  | operand => .expr <$> Grammar.operand
  | call => .expr <$> Grammar.call
  | primary => .expr <$> Grammar.primary

/-- One step of a session. -/
inductive Step
  | read (n : Nonterminal)
  | advance
  | expect (kind : Token.Kind)
  | peek (n : Nat)
  | seek (pos : Nat)
  | unexpected
  | scope (step : Scope.Step)
  | backtrack (steps : List Step)
  | deeper (levels : Nat) (steps : List Step)
  deriving Repr

/-- What a step gives.  Steps inside `backtrack` or argument lists give the answer and the state
after each of them, and the failure that stopped them, if one did. -/
inductive Answer
  | done
  | node (n : Node)
  | token (t : Token)
  | kind (k : Token.Kind)
  | report (d : Diagnostic)
  | refused (d : Diagnostic)
  | finding (f : Scope.Finding)
  | inner (entries : List (Answer × State)) (outcome : Option Diagnostic)

/-- The failure that an answer stands for. -/
def Answer.failure? : Answer → Option Diagnostic
  | refused d => some d
  | inner _ outcome => outcome
  | _ => none

/-- What came of running a rule. -/
def answer (rule : Rule α) (give : α → Answer) (s : State) : Answer × State :=
  match rule s with
  | .ok a s' => (give a, s')
  | .error d s' => (.refused d, s')

/-- Runs a rule inside a number of argument lists, each in the one before. -/
def deeperTimes : Nat → Rule α → Rule α
  | 0, rule => rule
  | levels + 1, rule => Rule.deeper (deeperTimes levels rule)

mutual

/-- Carries out one step. -/
def Step.run : Step → State → Answer × State
  | .read n, s => answer n.rule .node s
  | .advance, s => answer Rule.advance .token s
  | .expect kind, s => answer (Rule.expect kind) .token s
  | .peek n, s => answer (Rule.peekKind n) .kind s
  | .seek pos, s => (.done, s.seek pos)
  | .unexpected, s => (.report s.unexpected, s)
  | .scope step, s =>
    let (finding, changed) := step.run s.scope
    (.finding finding, { s with scope := changed })
  | .backtrack steps, s =>
    match Step.runWhile steps s with
    | (entries, none, s') => (.inner entries none, s')
    | (entries, some d, s') => (.inner entries (some d), s'.seek s.cursor.pos)
  | .deeper levels steps, s =>
    let inside : Rule (List (Answer × State) × Option Diagnostic) := fun s =>
      match Step.runWhile steps s with
      | (entries, outcome, s') => .ok (entries, outcome) s'
    match deeperTimes levels inside s with
    | .ok (entries, outcome) s' => (.inner entries outcome, s')
    | .error d s' => (.inner [] (some d), s')

/-- Carries out steps up to and including the first one that fails. -/
def Step.runWhile : List Step → State → List (Answer × State) × Option Diagnostic × State
  | [], s => ([], none, s)
  | step :: steps, s =>
    let (answer, s') := step.run s
    match answer.failure? with
    | some d => ([(answer, s')], some d, s')
    | none =>
      let (entries, outcome, s'') := Step.runWhile steps s'
      ((answer, s') :: entries, outcome, s'')

end

/-- Carries out all steps, also after one that fails. -/
def run : List Step → State → List (Answer × State)
  | [], _ => []
  | step :: steps, s =>
    let (answer, s') := step.run s
    (answer, s') :: run steps s'

end Session

end IntC
