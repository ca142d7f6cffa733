/-
# Decimal literals

A literal is an optional sign followed by decimal digits, and its value has to fit in 32 bits with
a sign.  Digits are read from the left, and the first thing that goes wrong is reported: a character
that is no digit, or the digit with which the value leaves the range.
-/
namespace IntC.Literal

/-- Why a text is not a literal. -/
inductive Fault
  | empty
  | invalidDigit
  | tooLarge
  | tooSmall
  deriving DecidableEq, Repr, Inhabited

/-- The fault in words. -/
def Fault.message : Fault → String
  | empty => "cannot parse integer from empty string"
  | invalidDigit => "invalid digit found in string"
  | tooLarge => "number too large to fit in target type"
  | tooSmall => "number too small to fit in target type"

/-- The smallest value a literal can have. -/
def least : Int := -2147483648

/-- The largest value a literal can have. -/
def greatest : Int := 2147483647

/-- The value of a decimal digit. -/
def digit? (c : Char) : Option Nat := if c.isDigit then some (c.toNat - '0'.toNat) else none

/-- Reads the digits of a literal that is not negative, after those that make up `value`. -/
def readUp (value : Int) : List Char → Except Fault Int
  | [] => .ok value
  | c :: cs =>
    match digit? c with
    | none => .error .invalidDigit
    | some d =>
      if value * 10 + d ≤ greatest then readUp (value * 10 + d) cs else .error .tooLarge

/-- Reads the digits of a negative literal, after those that make up `value`. -/
def readDown (value : Int) : List Char → Except Fault Int
  | [] => .ok value
  | c :: cs =>
    match digit? c with
    | none => .error .invalidDigit
    | some d =>
      if least ≤ value * 10 - d then readDown (value * 10 - d) cs else .error .tooSmall

/-- The value of a literal, character by character.  A sign alone is no literal. -/
def readChars : List Char → Except Fault Int
  | [] => .error .empty
  | ['+'] => .error .invalidDigit
  | ['-'] => .error .invalidDigit
  | '+' :: digits => readUp 0 digits
  | '-' :: digits => readDown 0 digits
  | digits => readUp 0 digits

/-- The value of a literal. -/
def read (text : String) : Except Fault Int := readChars text.toList

end IntC.Literal
