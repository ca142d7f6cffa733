/-
# Quoted text

A text inside a diagnostic is written between double quotes.  The quote, the backslash and the
four common controls have short escapes; any other character that would not show as itself is
written as its code point in lower-case hexadecimal between braces; everything else, the single
quote included, stands for itself.
-/
import IntC.Text.GraphemeExtend
import IntC.Text.Unprintable

namespace IntC.Text

/-- The character would not show as itself inside quotes. -/
def needsCode (c : Char) : Bool := isGraphemeExtend c || isUnprintable c

/-- The digits of a code point in lower-case hexadecimal, without leading zeros. -/
def codeDigits (c : Char) : List Char := Nat.toDigits 16 c.toNat

/-- One character as it is written between quotes. -/
def escape (c : Char) : List Char :=
  if c = '\x00' then ['\\', '0']
  else if c = '\t' then ['\\', 't']
  else if c = '\r' then ['\\', 'r']
  else if c = '\n' then ['\\', 'n']
  else if c = '\\' then ['\\', '\\']
  else if c = '"' then ['\\', '"']
  else if needsCode c then ['\\', 'u', '{'] ++ codeDigits c ++ ['}']
  else [c]

/-- The text between double quotes. -/
def quoted (s : String) : String := String.ofList (['"'] ++ s.toList.flatMap escape ++ ['"'])

end IntC.Text
