/-
# Diagnostics

Everything that can be wrong with a source is a `Cause`, named for what went wrong and carrying the
names and numbers that its wording needs.  A `Diagnostic` is a cause at a position.  The wording is
all in this file: the label, the message and the tip of each cause.
-/
import IntC.Position
import IntC.Text.Quoted

namespace IntC

/-- What is wrong with a source. -/
inductive Cause
  /-- A character that starts no token. -/
  | strayCharacter (text : String)
  /-- A block comment that is never closed. -/
  | openComment
  /-- A source too long for 32-bit offsets. -/
  | sourceTooLong (limit : Nat)
  /-- A token that cannot stand where it does. -/
  | unexpectedToken (text : String)
  /-- A number that is not a 32-bit integer. -/
  | badNumber (text : String)
  /-- A minus sign in front of an operand. -/
  | unaryMinus
  /-- A parameter named twice in one signature. -/
  | repeatedParameter (name : String)
  /-- A local variable whose name is taken. -/
  | repeatedVariable (name : String)
  /-- A name in an expression that is no variable in scope. -/
  | unknownVariable (name : String)
  /-- A signature that disagrees with an earlier declaration. -/
  | arityConflict (function : String) (declared found : Nat)
  /-- A signature for a function that already has a body. -/
  | repeatedDefinition (function : String)
  /-- A call to a function that nothing declares. -/
  | unknownFunction (function : String)
  /-- A call with too few or too many arguments. -/
  | argumentCount (function : String) (expected received : Nat)
  /-- A function body that ends with some other statement. -/
  | missingReturn (function : String)
  /-- Too many argument lists inside one another. -/
  | nestedTooDeep (limit : Nat)
  deriving DecidableEq, Repr, Inhabited

namespace Cause

/-- The label that a report starts with. -/
def label : Cause → String
  | strayCharacter _ => "UnrecognisedToken"
  | openComment => "UnterminatedComment"
  | sourceTooLong _ => "SourceTooLarge"
  | unexpectedToken _ => "UnexpectedToken"
  | badNumber _ => "NumberParseError"
  | unaryMinus => "UnsupportedUnaryMinus"
  | repeatedParameter _ => "ParameterAlreadyDeclared"
  | repeatedVariable _ => "VariableAlreadyDeclared"
  | unknownVariable _ => "VariableNotDeclared"
  | arityConflict .. => "FunctionAlreadyDeclared"
  | repeatedDefinition _ => "FunctionAlreadyDefined"
  | unknownFunction _ => "FunctionNotDeclared"
  | argumentCount .. => "ArgumentCountMismatch"
  | missingReturn _ => "MissingReturn"
  | nestedTooDeep _ => "NestingTooDeep"

/-- What is wrong, in one phrase.  Names and texts stand in quotes. -/
def message : Cause → String
  | strayCharacter text => "unrecognised token: " ++ Text.quoted text
  | openComment => "unterminated block comment"
  | sourceTooLong limit => "source is longer than " ++ toString limit ++ " bytes"
  | unexpectedToken text => "unexpected token: " ++ Text.quoted text
  | badNumber text => "error parsing number: " ++ Text.quoted text
  | unaryMinus => "unary minus is not supported"
  | repeatedParameter name => "parameter " ++ Text.quoted name ++ " already declared"
  | repeatedVariable name => "variable " ++ Text.quoted name ++ " already declared"
  | unknownVariable name => "variable " ++ Text.quoted name ++ " not declared"
  | arityConflict function declared found =>
    "function " ++ Text.quoted function ++ " already declared with " ++ toString declared ++
      " parameters, found " ++ toString found
  | repeatedDefinition function => "function " ++ Text.quoted function ++ " already defined"
  | unknownFunction function => "function " ++ Text.quoted function ++ " not declared"
  | argumentCount function expected received =>
    "call to " ++ Text.quoted function ++ ": expected " ++ toString expected ++
      " arguments, received " ++ toString received
  | missingReturn function =>
    "function " ++ Text.quoted function ++ " does not end with a return statement"
  | nestedTooDeep limit => "calls nested deeper than " ++ toString limit

/-- A hint at what to change, if there is one.  Names and texts stand as they are. -/
def tip? : Cause → Option String
  | strayCharacter _ => none
  | openComment => some "Block comment is missing its closing `*/`"
  | sourceTooLong limit => some ("Source files are limited to " ++ toString limit ++ " bytes")
  | unexpectedToken text =>
    some ("Unexpected token: `" ++ text ++ "`, did you miss a semicolon?")
  | badNumber text => some ("Invalid number: `" ++ text ++ "`, is it above the integer limit?")
  | unaryMinus => some "Negative literals are not supported, write `0 - x` instead"
  | repeatedParameter name => some ("Parameter `" ++ name ++ "` appears twice")
  | repeatedVariable name => some ("Variable `" ++ name ++ "` already declared")
  | unknownVariable name => some ("Variable `" ++ name ++ "` not declared")
  | arityConflict function _ _ =>
    some ("Function `" ++ function ++ "` already declared with a different signature")
  | repeatedDefinition function => some ("Function `" ++ function ++ "` already defined")
  | unknownFunction function =>
    some ("Function `" ++ function ++ "` must be declared before it is called")
  | argumentCount _ expected received =>
    some ("Expected " ++ toString expected ++ " arguments, received " ++ toString received)
  | missingReturn function =>
    some ("Function `" ++ function ++ "` must end with a return statement")
  | nestedTooDeep limit => some ("Calls may be nested at most " ++ toString limit ++ " deep")

end Cause

/-- A cause at the position it is reported for. -/
structure Diagnostic where
  cause : Cause
  position : Position
  deriving DecidableEq, Repr, Inhabited

namespace Diagnostic

/-- The message of the cause and the place it is reported for. -/
def text (d : Diagnostic) : String := d.cause.message ++ " at " ++ d.position.text

/-- The label of the cause, with its tip in parentheses if it has one. -/
def headline (d : Diagnostic) : String :=
  match d.cause.tip? with
  | none => "Error: " ++ d.cause.label
  | some tip => "Error: " ++ d.cause.label ++ " (" ++ tip ++ ")"

end Diagnostic

end IntC
