/-
# Running the command

A run reads the source, decides what is to be done, and only then does it.  The decision is a value:
which text goes where, or which message is reported.  For a source that is accepted the text is a
listing of its tokens or the text of its program.  A source that is not accepted is reported, unless
its diagnostic has no report; then the run breaks off.

* `Decision.ofInput`: the decision, from what has been read.
* `run`: the run, on any host.
-/
import IntC.Command.Arguments
import IntC.Command.Host
import IntC.Excerpt
import IntC.Grammar.Program

namespace IntC.Command

/-- One line for each token. -/
def listing (tokens : List Token) : String :=
  String.join (tokens.map fun token => token.summary ++ "\n")

/-- What is to be written for a source. -/
def emitText (emit : Emit) (source file : String) : Except Diagnostic String :=
  match emit with
  | .tokens => listing <$> Lexer.tokens source (some file)
  | .tree => Program.text <$> Program.ofSource source file

/-- What a run does once it has read its input. -/
inductive Decision
  | print (text : String)
  | save (path text : String)
  | report (message : String)
  | breakOff
  deriving DecidableEq, Repr

namespace Decision

/-- The decision about what has been read. -/
def ofInput (args : Arguments) : Except Fault String → Decision
  | .error fault => .report ("failed to read " ++ args.input ++ ": " ++ fault.message)
  | .ok source =>
    match emitText args.emit source args.input with
    | .ok text => if args.output = "-" then .print text else .save args.output text
    | .error diagnostic =>
      match diagnostic.render? source with
      | some text => .report text
      | none => .breakOff

variable {m : Type → Type} [Monad m]

/-- Ends a run with a message. -/
def fail (host : Host m) (message : String) : m Nat := do
  host.report (message ++ "\n")
  return 1

/-- Ends a run with a step of the host, or with a message if the step fails. -/
def finish (host : Host m) (step : m (Except Fault Unit)) (message : Fault → String) : m Nat := do
  match ← step with
  | .ok _ => return 0
  | .error fault => fail host (message fault)

/-- Does what has been decided, and gives the exit code. -/
def perform (host : Host m) : Decision → m Nat
  | print text => finish host (host.print text) Fault.message
  | save path text =>
    finish host (host.write path text) fun fault =>
      "failed to write " ++ path ++ ": " ++ fault.message
  | report message => fail host message
  | breakOff => return 101

end Decision

variable {m : Type → Type} [Monad m]

/-- Runs the command on a host, and gives the exit code. -/
def run (host : Host m) (args : Arguments) : m Nat := do
  (Decision.ofInput args (← host.read args.input)).perform host

/-- Reads the command line and runs the command, unless the command line is refused. -/
def runLine (host : Host m) (line : List String) : m Nat := do
  match Arguments.read line with
  | .ok args => run host args
  | .error refusal =>
    if refusal.exitCode = 0 then discard (host.print refusal.message)
    else host.report refusal.message
    return refusal.exitCode

end IntC.Command
