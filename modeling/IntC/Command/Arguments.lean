/-
# Arguments of the command line

    INPUT [-o OUTPUT] [--emit tokens|ast] [-v]...

One argument names the source.  The value of an option is the argument after it or is joined to it;
short options can stand together behind one dash; after `--` nothing is an option.  Anything else is
a mistake in the use of the command.
-/
namespace IntC.Command

/-- What is written once a source has been accepted. -/
inductive Emit
  | tokens
  | tree
  deriving DecidableEq, Repr, Inhabited

/-- What a command line asks for. -/
structure Arguments where
  /-- The file that holds the source. -/
  input : String
  /-- The file to write, or a dash for the standard output. -/
  output : String := "-"
  emit : Emit := .tree
  /-- How much of its progress the command may log, which changes nothing that it writes. -/
  verbosity : Nat := 0
  deriving DecidableEq, Repr

/-- An option that takes a value. -/
inductive Valued
  | output
  | emit
  deriving DecidableEq, Repr

/-- Why a command line asks for no run. -/
inductive Refusal
  | help
  | missingInput
  | emptyInput
  | secondInput (text : String)
  | unknownOption (text : String)
  | missingValue (option : Valued)
  | repeatedOption (option : Valued)
  | badEmit (text : String)
  deriving DecidableEq, Repr

/-- What the arguments read so far come to.  `awaiting` is the option whose value has to be the next
argument, and `literal` says that `--` has been read. -/
structure Draft where
  input : Option String := none
  output : Option String := none
  emit : Option Emit := none
  verbosity : Nat := 0
  awaiting : Option Valued := none
  literal : Bool := false
  deriving DecidableEq, Repr

namespace Draft

/-- Takes an argument as the source's name. -/
def takeInput (d : Draft) (text : String) : Except Refusal Draft :=
  match d.input with
  | some _ => .error (.secondInput text)
  | none => if text = "" then .error .emptyInput else .ok { d with input := some text }

/-- Takes the value of an option. -/
def takeValue (d : Draft) (option : Valued) (text : String) : Except Refusal Draft :=
  match option with
  | .output =>
    match d.output with
    | some _ => .error (.repeatedOption .output)
    | none => .ok { d with output := some text, awaiting := none }
  | .emit =>
    match d.emit with
    | some _ => .error (.repeatedOption .emit)
    | none =>
      if text = "tokens" then .ok { d with emit := some .tokens, awaiting := none }
      else if text = "ast" then .ok { d with emit := some .tree, awaiting := none }
      else .error (.badEmit text)

/-- Takes short options that stand behind one dash.  The value of an option is what stands behind
it, less an equals sign, or else the next argument. -/
def takeShort (d : Draft) : List Char → Except Refusal Draft
  | [] => .ok d
  | 'v' :: more => takeShort { d with verbosity := d.verbosity + 1 } more
  | ['o'] => .ok { d with awaiting := some .output }
  | 'o' :: '=' :: value => d.takeValue .output (String.ofList value)
  | 'o' :: value => d.takeValue .output (String.ofList value)
  | 'h' :: _ => .error .help
  | c :: _ => .error (.unknownOption (String.ofList ['-', c]))

/-- Takes a long option, given its name and the value joined to it with an equals sign, if any. -/
def takeLong (d : Draft) (name : String) (value : Option String) : Except Refusal Draft :=
  match name, value with
  | "output", none => .ok { d with awaiting := some .output }
  | "output", some text => d.takeValue .output text
  | "emit", none => .ok { d with awaiting := some .emit }
  | "emit", some text => d.takeValue .emit text
  | "verbose", none => .ok { d with verbosity := d.verbosity + 1 }
  | "help", none => .error .help
  | _, _ => .error (.unknownOption ("--" ++ name))

/-- The name of a long option and the value joined to it. -/
def splitLong (text : List Char) : String × Option String :=
  match text.dropWhile (· != '=') with
  | [] => (String.ofList text, none)
  | _ :: value => (String.ofList (text.takeWhile (· != '=')), some (String.ofList value))

/-- Takes one argument that is not the value of the option before it. -/
def takeFresh (d : Draft) (text : String) : Except Refusal Draft :=
  if d.literal then d.takeInput text
  else match text.toList with
    | ['-', '-'] => .ok { d with literal := true }
    | '-' :: '-' :: long => d.takeLong (splitLong long).1 (splitLong long).2
    | '-' :: c :: short => d.takeShort (c :: short)
    | _ => d.takeInput text

/-- The argument is written like an option, and so is nobody's value. -/
def looksLikeOption (text : String) : Bool :=
  match text.toList with
  | '-' :: _ :: _ => true
  | _ => false

/-- Takes one argument. -/
def take (d : Draft) (text : String) : Except Refusal Draft :=
  match d.awaiting with
  | none => d.takeFresh text
  | some option =>
    if looksLikeOption text then .error (.missingValue option) else d.takeValue option text

/-- What a draft comes to after the last argument. -/
def finish (d : Draft) : Except Refusal Arguments :=
  match d.awaiting, d.input with
  | some option, _ => .error (.missingValue option)
  | none, none => .error .missingInput
  | none, some input =>
    .ok { input, output := d.output.getD "-", emit := d.emit.getD .tree, verbosity := d.verbosity }

end Draft

/-- Reads a command line, from its first argument to its last. -/
def Arguments.read (args : List String) : Except Refusal Arguments := do
  (← args.foldlM Draft.take {}).finish

namespace Refusal

/-- The name of an option as it is written. -/
def optionName : Valued → String
  | .output => "--output"
  | .emit => "--emit"

/-- How the command is used. -/
def usage : String :=
  "Usage: INPUT [-o OUTPUT] [--emit tokens|ast] [-v]...\n"

/-- The refusal in words. -/
def message : Refusal → String
  | help => usage
  | missingInput => "error: no source file is given\n\n" ++ usage
  | emptyInput => "error: the name of the source file is empty\n\n" ++ usage
  | secondInput text => "error: unexpected argument '" ++ text ++ "'\n\n" ++ usage
  | unknownOption text => "error: unknown option '" ++ text ++ "'\n\n" ++ usage
  | missingValue option => "error: " ++ optionName option ++ " needs a value\n\n" ++ usage
  | repeatedOption option => "error: " ++ optionName option ++ " is given twice\n\n" ++ usage
  | badEmit text => "error: '" ++ text ++ "' is not 'tokens' or 'ast'\n\n" ++ usage

/-- The exit code: asking for help is no mistake. -/
def exitCode : Refusal → Nat
  | help => 0
  | _ => 2

end Refusal

end IntC.Command
